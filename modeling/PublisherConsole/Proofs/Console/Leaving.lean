import PublisherConsole.Proofs.Console.Feed
import PublisherConsole.Proofs.Console.Saving
import PublisherConsole.Proofs.Definition.Mounting
import PublisherConsole.Proofs.Storage.Replacement
import PublisherConsole.Terminal.Host

/-!
# Leaving the console loses no save

The loop of the console makes one turn for every event, and after each turn it looks whether the
console is being left. If so it gives up whatever is in the background. `Desk.Loops` are the steps of
such a loop, with the work in the background going on between them.

* `Desk.isClosed_of_leaving`: after a turn in which the console is left, no dialog is open. After the
  event there is none that could open another one;
* `Desk.Sound.balance_run`: what a run settles, and what it leaves open, is what was open before and
  what it accepts;
* `Desk.servers_run_of_unmounted`: no fetch changes an unmounted list.

The main statement is `leaving_loses_no_save`.
-/

namespace PublisherConsole

/-! ### The loop -/

namespace Step

variable {η : Type}

/-- Whether a step belongs to the work in the background, which goes on at any time. -/
def isBackground : Step η → Bool
  | .startLoad .. | .startSave .. | .finishLoad .. | .breakLoad .. | .finishSave .. => true
  | .event _ | .previewWidth _ | .spawn | .collect => false

/-- Whether a step is an event. -/
def isEvent : Step η → Bool
  | .event _ => true
  | _ => false

/-- The steps of a turn: the preview takes its width, queued work is taken over, the event is
handled, unless none came, work that it queued is taken over, and finished work is handed over. -/
def ofTurn (width : Nat) (event : Option Event) : List (Step η) :=
  [.previewWidth width, .spawn] ++ event.toList.map .event ++ [.spawn, .collect]

/-- The steps of a turn, with work in the background between them. -/
def IsTurn (steps : List (Step η)) : Prop :=
  ∃ width event, steps.filter (!·.isBackground) = ofTurn width event

/-- There is one event in a turn at most. -/
theorem IsTurn.events {steps : List (Step η)} (h : IsTurn steps) :
    (steps.filter isEvent).length ≤ 1 := by
  obtain ⟨width, event, h⟩ := h
  have hfilter : steps.filter isEvent = (steps.filter (!·.isBackground)).filter isEvent := by
    rw [List.filter_filter]
    congr 1
    funext s
    cases s <;> rfl
  rw [hfilter, h]
  cases event <;> simp [ofTurn, List.filter_cons, isEvent]

end Step

namespace Desk

variable {η : Type} {d : Desk η}

/-- The steps of a loop: turn after turn, as long as the console is not left. -/
inductive Loops : Desk η → List (Step η) → Prop
  | stop (d : Desk η) : Loops d []
  | turn {d : Desk η} {steps more : List (Step η)} (staying : d.app.quitting = false)
      (turn : Step.IsTurn steps) (rest : Loops (d.run steps) more) : Loops d (steps ++ more)

@[simp] theorem run_append (steps more : List (Step η)) :
    d.run (steps ++ more) = (d.run steps).run more :=
  List.foldl_append ..

/-! ### The end of the dialog -/

/-- A console without dialog has no use for the outcome of a save. -/
theorem collectSaves_of_isClosed {a : App} (h : a.IsClosed) (tasks : List (SaveTask η)) :
    (Tasks.collectSaves tasks a).2 = a := by
  induction tasks with
  | nil => rfl
  | cons task rest ih =>
    unfold Tasks.collectSaves
    split
    next outcome _ =>
      rw [App.completeSave_of_not_saving (fun draft => by simp [h.stage])]
      exact ih
    next => exact ih

/-- Only an event opens a dialog. -/
theorem isClosed_step (h : d.app.IsClosed) {s : Step η} (hs : s.isEvent = false) :
    (d.step s).app.IsClosed := by
  cases s with
  | event e => cases hs
  | previewWidth width => exact h.resizePreview width
  | spawn => exact ⟨h.field, h.view, h.active, h.stage, h.input, h.preview, h.revision⟩
  | collect =>
    have hloads := h.of_dialog (dialog_collectLoads d.tasks.loads d.app).1
    show (Tasks.collectSaves d.tasks.saves (Tasks.collectLoads d.tasks.loads d.app).2).2.IsClosed
    rw [collectSaves_of_isClosed hloads]
    exact hloads
  | startLoad | startSave | finishLoad | breakLoad | finishSave => exact h

theorem isClosed_run (h : d.app.IsClosed) {steps : List (Step η)}
    (hs : ∀ s ∈ steps, s.isEvent = false) : (d.run steps).app.IsClosed := by
  induction steps generalizing d with
  | nil => exact h
  | cons s steps ih =>
    exact ih (isClosed_step h (hs s (by simp))) fun s' hs' => hs s' (by simp [hs'])

/-- **No dialog is open when the console is left.** One event at most has come since it was not being
left. -/
theorem isClosed_of_leaving (h : d.app.Coherent) (hq : d.app.quitting = false)
    {steps : List (Step η)} (one : (steps.filter (·.isEvent)).length ≤ 1)
    (left : (d.run steps).app.quitting = true) : (d.run steps).app.IsClosed := by
  induction steps generalizing d with
  | nil => exact absurd (hq.symm.trans left) (by decide)
  | cons s steps ih =>
    cases hs : s.isEvent with
    | false =>
      have hstay : (d.step s).app.quitting = false :=
        (quitting_step fun e he => by simp [he, Step.isEvent] at hs).trans hq
      exact ih (step_coherent h s) hstay (by simpa [hs] using one) left
    | true =>
      have hnone : steps.filter (·.isEvent) = [] := by simpa [hs] using one
      cases hleft : (d.step s).app.quitting with
      | false => exact ih (step_coherent h s) hleft (by simp [hnone]) left
      | true =>
        cases s with
        | event e =>
          have hclosed : (d.step (.event e)).app.IsClosed :=
            (App.feedReaction d.app e).isClosed (step_coherent h (.event e)) hq hleft
          exact isClosed_run hclosed fun s' hs' => by
            simpa using List.filter_eq_nil_iff.1 hnone s' hs'
        | _ => cases hs

/-! ### What becomes of a save -/

/-- A save with the outcome that it had. -/
abbrev SaveOutcome := SaveRequest × Except Storage.Fault Record

/-- The save that a step ends, one that runs, with its outcome. -/
def returnedSave? (d : Desk η) : Step η → Option SaveOutcome
  | .finishSave i outcome =>
    match d.tasks.saves[i]? with
    | some ⟨request, .running _⟩ => some (request, outcome)
    | _ => none
  | _ => none

/-- The save that a handover settles: the console waits for it, and with the outcome it waits no
longer. -/
def settledBy? : App × SaveTask η → Option SaveOutcome
  | (a, ⟨request, .finished outcome⟩) =>
    if a.saveUnderWay? = some request ∧
        (a.completeSave request.pending.field outcome).saveUnderWay? = none then
      some (request, outcome)
    else none
  | _ => none

/-- The saves that a step settles: those that it hands over to a console that waits for them. -/
def settled (d : Desk η) : Step η → List SaveOutcome
  | .collect =>
    (Tasks.handovers d.tasks.saves (Tasks.collectLoads d.tasks.loads d.app).2).filterMap settledBy?
  | _ => []

/-- The saves that have ended and were not handed over. -/
def finishedSaves (d : Desk η) : List SaveOutcome :=
  d.tasks.saves.filterMap fun task =>
    match task.progress with
    | .finished outcome => some (task.request, outcome)
    | _ => none

/-- What is to be seen of a run, one step after the other. -/
def gathered {β : Type} (see : Desk η → Step η → List β) : Desk η → List (Step η) → List β
  | _, [] => []
  | d, s :: steps => see d s ++ gathered see (d.step s) steps

/-- The saves that end in a run, with their outcomes. -/
def returnedSaves (d : Desk η) (steps : List (Step η)) : List SaveOutcome :=
  gathered (fun d s => (d.returnedSave? s).toList) d steps

/-- The saves that a run settles, with their outcomes. -/
def settledSaves (d : Desk η) (steps : List (Step η)) : List SaveOutcome := gathered settled d steps

theorem observed_eq_gathered (see : Desk η → Step η → Option SaveRequest) (steps : List (Step η)) :
    observed see d steps = gathered (fun d s => (see d s).toList) d steps := by
  induction steps generalizing d with
  | nil => rfl
  | cons s steps ih => exact congrArg _ ih

theorem map_gathered {β γ : Type} (f : β → γ) (see : Desk η → Step η → List β)
    (steps : List (Step η)) :
    (gathered see d steps).map f = gathered (fun d s => (see d s).map f) d steps := by
  induction steps generalizing d with
  | nil => rfl
  | cons s steps ih => rw [gathered, List.map_append, ih]; rfl

/-- What balances in every step balances in a run: what goes out, and what is held after it, is what
was held before it and what comes in. -/
theorem Sound.balance_run {β : Type} {out into : Desk η → Step η → List β} {held : Desk η → List β}
    (balance : ∀ {d : Desk η}, d.Sound → ∀ s, out d s ++ held (d.step s) = held d ++ into d s)
    (h : d.Sound) (steps : List (Step η)) :
    gathered out d steps ++ held (d.run steps) = held d ++ gathered into d steps := by
  induction steps generalizing d with
  | nil => simp [gathered, Desk.run]
  | cons s steps ih =>
    calc gathered out d (s :: steps) ++ held (d.run (s :: steps))
        = out d s ++ (gathered out (d.step s) steps ++ held ((d.step s).run steps)) :=
          List.append_assoc ..
      _ = out d s ++ held (d.step s) ++ gathered into (d.step s) steps := by
          rw [ih (h.step s), List.append_assoc]
      _ = held d ++ gathered into d (s :: steps) := by
          rw [balance h s, List.append_assoc]; rfl

/-- There is one save in the background at most. -/
theorem Sound.saves_cases (h : d.Sound) : d.tasks.saves = [] ∨ ∃ task, d.tasks.saves = [task] := by
  rcases h.cases with ⟨-, -, ht⟩ | ⟨r, -, -, ht⟩ | ⟨task, -, -, ht⟩
  · exact .inl ht
  · exact .inl ht
  · exact .inr ⟨task, ht⟩

/-- A collection settles the one save that has ended, or there is none. -/
theorem Sound.settled_collect_cases (h : d.Sound) :
    d.collect.app.pendingSave = d.app.pendingSave ∧
      ((d.settled .collect = [] ∧ d.collect.tasks.saves = d.tasks.saves ∧ d.finishedSaves = []) ∨
        ∃ request outcome, d.app.pendingSave = none ∧
          d.tasks.saves = [⟨request, .finished outcome⟩] ∧
          d.settled .collect = [(request, outcome)] ∧ d.collect.tasks.saves = []) := by
  obtain ⟨hunder, hpending⟩ := collectLoads_keeps d.tasks.loads d.app
  refine ⟨(Tasks.pendingSave_collectSaves ..).trans hpending, ?_⟩
  have hcoherent := coherent_collectLoads h.coherent d.tasks.loads
  simp only [settled, Desk.collect, Tasks.collect, finishedSaves]
  generalize (Tasks.collectLoads d.tasks.loads d.app).2 = a at hunder hcoherent
  rcases h.cases with ⟨-, -, ht⟩ | ⟨r, -, -, ht⟩ | ⟨⟨request, progress⟩, hu, hp, ht⟩
  · exact .inl (by simp [ht, Tasks.handovers, Tasks.collectSaves])
  · exact .inl (by simp [ht, Tasks.handovers, Tasks.collectSaves])
  · rw [hu] at hunder
    cases progress with
    | finished outcome =>
      refine .inr ⟨request, outcome, hp, ht, ?_, ?_⟩
      · have hend := saveUnderWay?_completeSave hcoherent hunder outcome
        simp [ht, Tasks.handovers, settledBy?, hunder, hend]
      · simp [ht, Tasks.collectSaves]
    | waiting => exact .inl (by simp [ht, Tasks.handovers, Tasks.collectSaves])
    | running => exact .inl (by simp [ht, Tasks.handovers, Tasks.collectSaves])

/-- What is settled, followed by what stays open, is what was open, followed by what is accepted. -/
theorem Sound.balance_open (h : d.Sound) (s : Step η) :
    (d.settled s).map (·.1) ++ (d.step s).openSaves = d.openSaves ++ (d.accepted? s).toList := by
  cases s with
  | event e =>
    simp only [settled, accepted?, Desk.step, modifyApp, openSaves]
    rcases (h.coherent.reaction e).saves_cases with ⟨hs, -, hp⟩ | ⟨r, hs, hidle, -, hp⟩
    · simp [hs, hp]
    -- A save is accepted only where none is open.
    · obtain ⟨hnone, ht⟩ := h.none_of_idle hidle
      simp [hs, hp, ht, hnone]
  | previewWidth width =>
    obtain ⟨-, -, hp⟩ := App.resizePreview_keeps (a := d.app) width
    simp [settled, accepted?, Desk.step, modifyApp, openSaves, hp]
  | spawn =>
    rcases h.cases with ⟨-, hp, ht⟩ | ⟨r, -, hp, ht⟩ | ⟨task, -, hp, ht⟩
    all_goals simp [settled, accepted?, Desk.step, Desk.spawn, Tasks.spawn, openSaves, hp, ht]
  | collect =>
    obtain ⟨hp, ⟨hsettled, ht, -⟩ | ⟨request, outcome, hidle, ht, hsettled, ht'⟩⟩ := h.settled_collect_cases
    · simp [hsettled, accepted?, Desk.step, openSaves, hp, ht]
    · simp [hsettled, accepted?, Desk.step, openSaves, hp, hidle, ht, ht']
  | startSave i handle =>
    simp [settled, accepted?, Desk.step, openSaves, Tasks.request_modifySave]
  | finishSave i outcome =>
    simp [settled, accepted?, Desk.step, openSaves, Tasks.request_modifySave]
  | startLoad | finishLoad | breakLoad =>
    simp only [settled, accepted?, List.map_nil, List.nil_append, Option.toList_none,
      List.append_nil]
    rfl

/-- What is settled, followed by what has ended and waits, is what waited, followed by what ends. -/
theorem Sound.balance_finished (h : d.Sound) (s : Step η) :
    d.settled s ++ (d.step s).finishedSaves = d.finishedSaves ++ (d.returnedSave? s).toList := by
  -- With two saves in the background the younger one could end first.
  have single := h.saves_cases
  cases s with
  | collect =>
    obtain ⟨-, ⟨hsettled, ht, hnone⟩ | ⟨request, outcome, -, ht, hsettled, ht'⟩⟩ := h.settled_collect_cases
    · have hafter : d.collect.finishedSaves = [] := by simpa only [finishedSaves, ht] using hnone
      simp [hsettled, returnedSave?, Desk.step, hafter, hnone]
    · simp [hsettled, returnedSave?, Desk.step, finishedSaves, ht, ht']
  | spawn =>
    cases hp : d.app.pendingSave <;>
      simp [settled, returnedSave?, Desk.step, Desk.spawn, Tasks.spawn, finishedSaves, hp]
  | startSave i handle =>
    simp only [settled, returnedSave?, Desk.step, finishedSaves, Tasks.modifySave]
    obtain ht | ⟨⟨request, progress⟩, ht⟩ := single
    · simp [ht]
    · cases i with
      | zero => cases progress <;> simp [ht, Progress.start]
      | succ i => simp [ht]
  | finishSave i outcome =>
    simp only [settled, returnedSave?, Desk.step, finishedSaves, Tasks.modifySave]
    obtain ht | ⟨⟨request, progress⟩, ht⟩ := single
    · simp [ht]
    · cases i with
      | zero => cases progress <;> simp [ht, Progress.finish]
      | succ i => simp [ht]
  | event | previewWidth | startLoad | finishLoad | breakLoad =>
    simp only [settled, returnedSave?, List.nil_append, Option.toList_none, List.append_nil]
    rfl

/-! ### The end of the list -/

/-- A console without a mounted list drops the results of all fetches. -/
theorem deliverServers_of_unmounted {a : App} (h : a.servers.mounted = false)
    (ticket : Definition.Ticket) (result : Except Definition.LoadFault Definition.Directory) :
    a.deliverServers ticket result = a := by
  have hrefused : ¬a.servers.accepts ticket = true := fun haccepts => by
    have hmounted := (Definition.ServerList.accepts_iff.1 haccepts).1
    exact absurd (h.symm.trans hmounted) (by decide)
  simp only [App.deliverServers, Definition.ServerList.apply, if_neg hrefused]

theorem collectLoads_of_unmounted {a : App} (h : a.servers.mounted = false)
    (tasks : List (LoadTask η)) : (Tasks.collectLoads tasks a).2 = a := by
  induction tasks with
  | nil => rfl
  | cons task rest ih =>
    unfold Tasks.collectLoads
    split
    next result _ => rw [deliverServers_of_unmounted h, ih]
    next => exact ih

/-- An unmounted list stays unmounted, and shows what it showed. -/
theorem servers_step_of_unmounted (h : d.app.servers.mounted = false) (s : Step η) :
    (d.step s).app.servers.mounted = false ∧
      (d.step s).app.servers.listing = d.app.servers.listing := by
  have same (hservers : (d.step s).app.servers = d.app.servers) :
      (d.step s).app.servers.mounted = false ∧
        (d.step s).app.servers.listing = d.app.servers.listing := by
    rw [hservers]
    exact ⟨h, rfl⟩
  cases s with
  | event e =>
    have hreaction := App.feedReaction d.app e
    generalize d.app.requestedBy? e = ticket at hreaction
    cases hreaction with
    | rests feed => exact same (App.feed_eq_iff.1 feed).1
    | asks refreshed =>
      have hmounted := (Definition.ServerList.refresh?_eq_some_iff.1 refreshed).1
      rw [h] at hmounted
      cases hmounted
    | leaves feed =>
      have hservers : (d.step (.event e)).app.servers = d.app.servers.unmount :=
        congrArg Feed.servers feed
      rw [hservers]
      exact ⟨rfl, rfl⟩
  | previewWidth width => exact same (App.feed_eq_iff.1 (App.feed_resizePreview width)).1
  | collect =>
    have hloads := collectLoads_of_unmounted h d.tasks.loads
    have hsaves := Tasks.feed_collectSaves d.tasks.saves (Tasks.collectLoads d.tasks.loads d.app).2
    exact same ((App.feed_eq_iff.1 hsaves).1.trans (congrArg App.servers hloads))
  | spawn | startLoad | startSave | finishLoad | breakLoad | finishSave => exact same rfl

/-- **No fetch changes an unmounted list**, nor does anything else. -/
theorem servers_run_of_unmounted (h : d.app.servers.mounted = false) (steps : List (Step η)) :
    (d.run steps).app.servers.listing = d.app.servers.listing := by
  induction steps generalizing d with
  | nil => rfl
  | cons s steps ih =>
    obtain ⟨hmounted, hlisting⟩ := servers_step_of_unmounted h s
    exact (ih hmounted).trans hlisting

/-- A console that is being left has no mounted list. -/
theorem unmounted_step (h : d.app.quitting = true → d.app.servers.mounted = false) (s : Step η)
    (left : (d.step s).app.quitting = true) : (d.step s).app.servers.mounted = false := by
  cases hq : d.app.quitting with
  | true => exact (servers_step_of_unmounted (h hq) s).1
  | false =>
    cases s with
    | event e =>
      have hreaction := App.feedReaction d.app e
      generalize d.app.requestedBy? e = ticket at hreaction
      cases hreaction with
      | rests feed => exact absurd (((App.feed_eq_iff.1 feed).2.2.trans hq).symm.trans left) (by decide)
      | asks _ feed => exact absurd (((congrArg Feed.quitting feed).trans hq).symm.trans left) (by decide)
      | leaves feed =>
        have hservers : (d.step (.event e)).app.servers = d.app.servers.unmount :=
          congrArg Feed.servers feed
        rw [hservers]
        rfl
    | _ => exact absurd (((quitting_step (by simp)).trans hq).symm.trans left) (by decide)

theorem unmounted_run (h : d.app.quitting = true → d.app.servers.mounted = false)
    (steps : List (Step η)) (left : (d.run steps).app.quitting = true) :
    (d.run steps).app.servers.mounted = false := by
  induction steps generalizing d with
  | nil => exact h left
  | cons s steps ih => exact ih (unmounted_step h s) left

/-! ### The result -/

/-- Nothing is left to do at a desk. -/
structure AtRest (d : Desk η) : Prop where
  queue : d.app.pendingSave = none
  saves : d.tasks.saves = []
  closed : ∀ f, (d.app.session f).stage = .closed
  unmounted : d.app.servers.mounted = false
  /-- No result of a fetch, whosesoever it is, changes anything. -/
  dropped : ∀ ticket result, d.app.deliverServers ticket result = d.app
  /-- Whatever should still happen, the list stays as it is. -/
  listing : ∀ steps, (d.run steps).app.servers.listing = d.app.servers.listing

/-- At the end of a turn, no dialog is open if the console is being left. -/
theorem Loops.isClosed {steps : List (Step η)} (h : Loops d steps) (hd : d.app.Coherent)
    (hclosed : d.app.quitting = true → d.app.IsClosed) (left : (d.run steps).app.quitting = true) :
    (d.run steps).app.IsClosed := by
  induction h with
  | stop => exact hclosed left
  | turn staying turn rest ih =>
    rw [run_append] at left ⊢
    exact ih (run_coherent hd _) (isClosed_of_leaving hd staying turn.events) left

/-- Nothing is left to do when the loop sees that the console is being left. -/
theorem Loops.atRest {record : Record} {user : User} {steps : List (Step η)}
    (loop : Loops (Desk.new record user) steps)
    (left : ((Desk.new record user).run steps).app.quitting = true) :
    ((Desk.new record user).run steps).AtRest := by
  have hsound : (Desk.new record user : Desk η).Sound := sound_new record user
  have staying : (Desk.new record user : Desk η).app.quitting ≠ true := by simp [Desk.new, App.new]
  have hclosed := loop.isClosed hsound.coherent (fun h => absurd h staying) left
  have hunmounted := unmounted_run (fun h => absurd h staying) steps left
  obtain ⟨hqueue, hsaves⟩ := (hsound.run steps).none_of_idle hclosed.saveUnderWay?
  exact
    { queue := hqueue
      saves := hsaves
      closed := hclosed.stage
      unmounted := hunmounted
      dropped := deliverServers_of_unmounted hunmounted
      listing := servers_run_of_unmounted hunmounted }

/-- Where no save is open any more, all that were accepted have gone the whole way. -/
theorem Sound.saves_complete (h : d.Sound) {steps : List (Step η)}
    (begun : d.app.pendingSave = none ∧ d.tasks.saves = [])
    (ended : (d.run steps).app.pendingSave = none ∧ (d.run steps).tasks.saves = []) :
    d.storeCalls steps = d.acceptedSaves steps ∧ d.settledSaves steps = d.returnedSaves steps ∧
      (d.settledSaves steps).map (·.1) = d.acceptedSaves steps := by
  have none_open {d : Desk η} (hd : d.app.pendingSave = none ∧ d.tasks.saves = []) :
      d.openSaves = [] ∧ d.uncalledSaves = [] ∧ d.finishedSaves = [] := by
    simp [openSaves, uncalledSaves, finishedSaves, hd.1, hd.2]
  obtain ⟨hopen, huncalled, hfinished⟩ := none_open begun
  obtain ⟨hopen', huncalled', hfinished'⟩ := none_open ended
  have hlog := h.log_run steps
  have hreturned := h.balance_run Sound.balance_finished steps
  have haccepted := h.balance_run Sound.balance_open steps
  rw [huncalled, huncalled', List.append_nil, List.nil_append] at hlog
  rw [hfinished, hfinished', List.append_nil, List.nil_append] at hreturned
  rw [hopen, hopen', List.append_nil, List.nil_append, ← map_gathered, ← observed_eq_gathered]
    at haccepted
  exact ⟨hlog, hreturned, haccepted⟩

/-- **Leaving the console loses no save.** Whatever the turns of the loop bring, and whenever the work
in the background goes on: when the loop sees that the console is being left, no save is queued or in
the background, no dialog is open, and the list is unmounted for good. The store was called for the
saves that were accepted, and all of them were handed over, with the outcomes that they had, to a
console that waited for them. -/
theorem leaving_loses_no_save (record : Record) (user : User) {steps : List (Step η)}
    (loop : Loops (Desk.new record user) steps)
    (left : ((Desk.new record user).run steps).app.quitting = true) :
    ((Desk.new record user).run steps).AtRest ∧
      (Desk.new record user).storeCalls steps = (Desk.new record user).acceptedSaves steps ∧
      (Desk.new record user).settledSaves steps = (Desk.new record user).returnedSaves steps ∧
      ((Desk.new record user).settledSaves steps).map (·.1) =
        (Desk.new record user).acceptedSaves steps := by
  have hsound : (Desk.new record user : Desk η).Sound := sound_new record user
  have hrest := loop.atRest left
  exact ⟨hrest, hsound.saves_complete ⟨rfl, rfl⟩ ⟨hrest.queue, hrest.saves⟩⟩

/-- A turn for a key press. -/
def pressing (k : Key) (control : Bool) : List (Step Unit) :=
  Step.ofTurn 60 (some (.key { key := k, control }))

/-- The steps of a short stay: a text is written and saved, and the quit key is pressed while the save
is under way, and again once it has failed. -/
def shortStay : List (Step Unit) :=
  pressing (.char 'o') false ++ (pressing (.char 'x') false ++ (pressing (.char 's') true ++
    ((.startSave 0 () :: pressing (.char 'c') true) ++
      ((.finishSave 0 (.error (.request "down")) :: Step.ofTurn 60 none) ++
        (pressing (.char 'c') true ++ [])))))

/-- The save of a short stay is not lost, although it fails. -/
theorem leaving_waits_for_save :
    let record : Record := .fresh "a" "N" ⟨⟨2020, 1, 1⟩, 0, 0, 0, 0⟩
    Loops (Desk.new record .default) shortStay ∧
      ((Desk.new record .default).run shortStay).AtRest ∧
      (Desk.new record .default).acceptedSaves shortStay = [⟨"a", ⟨.overview, "x"⟩⟩] ∧
      ((Desk.new record .default).settledSaves shortStay).map (·.1) =
        [⟨"a", ⟨.overview, "x"⟩⟩] := by
  intro record
  have loop : Loops (Desk.new record .default) shortStay :=
    .turn (by decide +kernel) ⟨60, some _, rfl⟩ <| .turn (by decide +kernel) ⟨60, some _, rfl⟩ <|
    .turn (by decide +kernel) ⟨60, some _, rfl⟩ <| .turn (by decide +kernel) ⟨60, some _, rfl⟩ <|
    .turn (by decide +kernel) ⟨60, none, rfl⟩ <| .turn (by decide +kernel) ⟨60, some _, rfl⟩ <|
    .stop _
  have left : ((Desk.new record .default).run shortStay).app.quitting = true := by decide +kernel
  have haccepted : (Desk.new record .default).acceptedSaves shortStay =
      [⟨"a", ⟨.overview, "x"⟩⟩] := by decide +kernel
  obtain ⟨hrest, -, -, hsettled⟩ := leaving_loses_no_save record .default loop left
  exact ⟨loop, hrest, haccepted, hsettled.trans haccepted⟩

end Desk

/-! ### The host -/

namespace Terminal.Host

open Storage (FileTree Script Stamp)

variable {h : Host} {stamp : Stamp}

/-- On whatever tree it runs, a script does work in the background of a desk, and nothing else. -/
def WorksInBackground (work : Desk Unit → Script (Desk Unit)) : Prop :=
  ∀ (d : Desk Unit) (t : FileTree), ∃ steps : List (Step Unit),
    (∀ s ∈ steps, s.isBackground = true) ∧ (t.run (work d)).1 = d.run steps

theorem WorksInBackground.andThen {first second : Desk Unit → Script (Desk Unit)}
    (hf : WorksInBackground first) (hs : WorksInBackground second) :
    WorksInBackground fun d => first d >>= second := by
  intro d t
  obtain ⟨steps, hsteps, hrun⟩ := hf d t
  obtain ⟨more, hmore, hrun'⟩ := hs (d.run steps) (t.run (first d)).2
  refine ⟨steps ++ more, fun s hs => ?_, ?_⟩
  · rcases List.mem_append.1 hs with hs | hs
    · exact hsteps s hs
    · exact hmore s hs
  · rw [FileTree.run_bind, hrun, hrun', Desk.run_append]

theorem worksInBackground_pure : WorksInBackground pure := fun _ _ => ⟨[], by simp, rfl⟩

theorem worksInBackground_foldlM {work : Desk Unit → Nat → Script (Desk Unit)}
    (hw : ∀ i, WorksInBackground (work · i)) (numbers : List Nat) :
    WorksInBackground fun d => numbers.foldlM work d := by
  induction numbers with
  | nil => exact worksInBackground_pure
  | cons i numbers ih => simpa only [List.foldlM_cons] using (hw i).andThen ih

/-- A fetch is started and ended. -/
theorem worksInBackground_load (i : Nat) : WorksInBackground (h.load · i) := by
  intro d t
  show ∃ steps : List (Step Unit),
    (∀ s ∈ steps, s.isBackground = true) ∧ (t.run (h.load d i)).1 = d.run steps
  unfold Host.load
  split
  next ticket _ =>
    exact ⟨[.startLoad i (), .finishLoad i _], by simp [Step.isBackground],
      by rw [FileTree.run_bind]; rfl⟩
  next => exact worksInBackground_pure d t

/-- A save is started and ended. -/
theorem worksInBackground_save (i : Nat) : WorksInBackground (h.save stamp · i) := by
  intro d t
  show ∃ steps : List (Step Unit),
    (∀ s ∈ steps, s.isBackground = true) ∧ (t.run (h.save stamp d i)).1 = d.run steps
  unfold Host.save
  split
  next id pending _ =>
    exact ⟨[.startSave i (), .finishSave i _], by simp [Step.isBackground],
      by rw [FileTree.run_bind]; rfl⟩
  next => exact worksInBackground_pure d t

variable (h stamp)

theorem worksInBackground_work : WorksInBackground (h.work stamp) := by
  intro d t
  have hloads : WorksInBackground fun e => (List.range d.tasks.loads.length).foldlM h.load e :=
    worksInBackground_foldlM worksInBackground_load _
  have hsaves : WorksInBackground fun e =>
      (List.range e.tasks.saves.length).foldlM (h.save stamp) e := fun e t =>
    worksInBackground_foldlM worksInBackground_save _ e t
  exact hloads.andThen hsaves d t

/-- A turn of the host is a turn of the loop. -/
theorem isTurn_turn (d : Desk Unit) (e : Event) (t : FileTree) :
    ∃ steps : List (Step Unit), Step.IsTurn steps ∧ (t.run (h.turn stamp d e)).1 = d.run steps := by
  obtain ⟨work, hwork, hrun⟩ := worksInBackground_work h stamp (h.prepare d) t
  have hnone : work.filter (!·.isBackground) = [] :=
    List.filter_eq_nil_iff.2 fun s hs => by simp [hwork s hs]
  refine ⟨[.previewWidth h.area.previewWidth, .spawn] ++ work ++ [.event e, .spawn, .collect],
    ⟨h.area.previewWidth, some e, ?_⟩, ?_⟩
  · rw [List.filter_append, List.filter_append, hnone]
    rfl
  · rw [Host.turn, FileTree.run_bind, hrun, Desk.run_append, Desk.run_append]
    rfl

/-- The turns of a host are a loop. -/
theorem loops_turns (es : List Event) (d : Desk Unit) (t : FileTree) :
    ∃ steps : List (Step Unit), Desk.Loops d steps ∧
      (t.run (h.turns stamp d es)).1 = d.run steps := by
  induction es generalizing d t with
  | nil => exact ⟨[], .stop d, rfl⟩
  | cons e es ih =>
    unfold Host.turns
    split
    next => exact ⟨[], .stop d, rfl⟩
    next staying =>
      obtain ⟨steps, hturn, hrun⟩ := isTurn_turn h stamp d e t
      obtain ⟨more, hmore, hrun'⟩ := ih (d.run steps) (t.run (h.turn stamp d e)).2
      refine ⟨steps ++ more, .turn (by simpa using staying) hturn hmore, ?_⟩
      rw [FileTree.run_bind, hrun, hrun', Desk.run_append]

/-- On whatever tree a host runs and whatever events come, nothing is left to do once the console is
being left. -/
theorem atRest_turns (es : List Event) (t : FileTree)
    (left : (t.run (h.turns stamp h.start es)).1.app.quitting = true) :
    (t.run (h.turns stamp h.start es)).1.AtRest := by
  obtain ⟨steps, loop, hrun⟩ := loops_turns h stamp es h.start t
  rw [hrun] at left ⊢
  exact loop.atRest left

end Terminal.Host

end PublisherConsole
