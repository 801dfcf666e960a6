import PublisherConsole.Proofs.Console.Coherence
import PublisherConsole.Simulation.Rehearsal

/-!
# Every save reaches the store once

A save passes from the dialog to the queue, from the queue to the background, and from there to the
store.

* `Desk.openSaves`: the saves that are queued or in the background, and `Desk.uncalledSaves` those of
  them that the store has not been called for;
* `Desk.Sound`: the open saves are exactly the one that the dialog waits for. Every step keeps this
  (`Desk.Sound.step`), so there is never more than one;
* `Desk.Sound.log_step`: what a step calls the store for, and what it leaves uncalled, is what was
  uncalled and what the step accepts.

The main statement is `saves_reach_the_store_once`, about everything that can happen at a desk.
-/

namespace PublisherConsole

namespace Progress

variable {η ρ : Type}

/-- Whether work waits to be started. -/
def isWaiting : Progress η ρ → Bool
  | .waiting => true
  | _ => false

@[simp] theorem isWaiting_waiting : (waiting : Progress η ρ).isWaiting = true := rfl

@[simp] theorem isWaiting_running (handle : η) :
    (running handle : Progress η ρ).isWaiting = false := rfl

@[simp] theorem isWaiting_finished (result : ρ) :
    (finished result : Progress η ρ).isWaiting = false := rfl

end Progress

namespace App

variable {a b : App} {f : TextField}

/-- The save that the dialog waits for. -/
def saveUnderWay? (a : App) : Option SaveRequest :=
  match a.phase with
  | .saving f draft => some ⟨a.record.id, f, draft⟩
  | _ => none

theorem IsClosed.saveUnderWay? (h : a.IsClosed) : a.saveUnderWay? = none := by
  simp [App.saveUnderWay?, h.phase]

theorem saveUnderWay?_of_editing {draft : String} (h : a.phase = .editing f draft) :
    a.saveUnderWay? = none := by
  simp [App.saveUnderWay?, h]

theorem saveUnderWay?_of_saving {draft : String} (h : a.phase = .saving f draft) :
    a.saveUnderWay? = some ⟨a.record.id, f, draft⟩ := by
  simp [App.saveUnderWay?, h]

theorem saveUnderWay?_congr (hp : b.phase = a.phase) (hr : b.record = a.record) :
    b.saveUnderWay? = a.saveUnderWay? := by
  simp [App.saveUnderWay?, hp, hr]

theorem saveUnderWay?_eq_some_iff {r : SaveRequest} :
    a.saveUnderWay? = some r ↔
      a.phase = .saving r.pending.field r.pending.content ∧ r.apiId = a.record.id := by
  obtain ⟨id, field, content⟩ := r
  unfold App.saveUnderWay?
  cases hp : a.phase <;> simp [eq_comm, and_comm]

/-- The dialog that waits for a save is open. -/
theorem Coherent.of_saveUnderWay? (h : a.Coherent) {q : SaveRequest}
    (hq : a.saveUnderWay? = some q) :
    a.IsOpen q.pending.field ∧ a.phase = .saving q.pending.field q.pending.content := by
  obtain ⟨hp, -⟩ := saveUnderWay?_eq_some_iff.1 hq
  rcases h with closed | ⟨f, opened⟩
  · rw [closed.phase] at hp
    cases hp
  · obtain ⟨hactive, -⟩ := phase_eq_saving_iff.1 hp
    obtain rfl : f = q.pending.field := by simpa [opened.active] using hactive
    exact ⟨opened, hp⟩

/-- An event leaves saves alone, or it starts one where there was none. -/
theorem Reaction.saves_cases {saved : Option SaveRequest} (h : Reaction a b saved) :
    (saved = none ∧ b.saveUnderWay? = a.saveUnderWay? ∧ b.pendingSave = a.pendingSave) ∨
      ∃ r, saved = some r ∧ a.saveUnderWay? = none ∧ b.saveUnderWay? = some r ∧
        b.pendingSave = some r := by
  cases h with
  | rests same =>
    have hp := phase_of_dialog same
    simp only [dialog, Dialog.mk.injEq] at same
    exact .inl ⟨rfl, saveUnderWay?_congr hp (by simp [same]), by simp [same]⟩
  | opens closed _ phase record pending =>
    refine .inl ⟨rfl, ?_, pending⟩
    rw [closed.saveUnderWay?, saveUnderWay?_of_editing phase]
  | types before _ after _ pending =>
    refine .inl ⟨rfl, ?_, pending⟩
    rw [saveUnderWay?_of_editing before, saveUnderWay?_of_editing after]
  | cancels before closed _ pending =>
    refine .inl ⟨rfl, ?_, pending⟩
    rw [saveUnderWay?_of_editing before, closed.saveUnderWay?]
  | saves before _ after record pending =>
    refine .inr ⟨_, rfl, saveUnderWay?_of_editing before, ?_, pending⟩
    rw [saveUnderWay?_of_saving after, record]

/-- The end of a save leaves the queue alone. -/
@[simp] theorem pendingSave_completeSave (outcome : Except Storage.Fault Record) :
    (a.completeSave f outcome).pendingSave = a.pendingSave := by
  unfold completeSave
  cases outcome with
  | ok record =>
    dsimp only
    split
    · rfl
    · split <;> simp [closeDialog, notify]
  | error fault =>
    dsimp only
    split <;> simp [notify]

end App

/-! ### Handing over -/

namespace Tasks

variable {η : Type}

/-- The finished saves that a collection hands over, each with the console that takes its outcome. -/
def handovers : List (SaveTask η) → App → List (App × SaveTask η)
  | [], _ => []
  | task :: rest, a =>
    match task.progress with
    | .finished outcome =>
      (a, task) :: handovers rest (a.completeSave task.request.pending.field outcome)
    | _ => handovers rest a

/-- The queue is no concern of finished saves. -/
theorem pendingSave_collectSaves (tasks : List (SaveTask η)) (a : App) :
    (collectSaves tasks a).2.pendingSave = a.pendingSave := by
  induction tasks generalizing a with
  | nil => rfl
  | cons task rest ih =>
    unfold collectSaves
    split
    next outcome _ => rw [ih, App.pendingSave_completeSave]
    next => exact ih a

/-- Saves that wait are not handed over. -/
theorem waiting_collectSaves (tasks : List (SaveTask η)) (a : App) :
    (collectSaves tasks a).1.filter (·.progress.isWaiting) =
      tasks.filter (·.progress.isWaiting) := by
  induction tasks generalizing a with
  | nil => rfl
  | cons task rest ih =>
    unfold collectSaves
    cases hp : task.progress with
    | finished outcome => simp [ih, hp]
    | waiting => simp [ih, hp]
    | running handle => simp [ih, hp]

/-- Changes of progress are no changes of what is saved. -/
theorem request_modifySave (t : Tasks η) (i : Nat)
    (g : Progress η (Except Storage.Fault Record) → Progress η (Except Storage.Fault Record)) :
    (t.modifySave i g).saves.map (·.request) = t.saves.map (·.request) := by
  refine List.ext_getElem (by simp [modifySave]) fun j h₁ h₂ => ?_
  simp only [modifySave, List.getElem_map, List.getElem_modify]
  split <;> rfl

/-- The end of a save is not a start. -/
theorem waiting_finish (t : Tasks η) (i : Nat) (outcome : Except Storage.Fault Record) :
    ((t.modifySave i (.finish outcome)).saves.filter (·.progress.isWaiting)).map (·.request) =
      (t.saves.filter (·.progress.isWaiting)).map (·.request) := by
  simp only [modifySave]
  induction t.saves generalizing i with
  | nil => simp
  | cons task rest ih =>
    cases i with
    | zero => cases hp : task.progress <;> simp [Progress.finish, hp, List.filter_cons]
    | succ i => simp only [List.modify_succ_cons, List.filter_cons]; split <;> simp [ih]

end Tasks

/-! ### Open saves -/

namespace Desk

variable {η : Type} {d : Desk η}

/-- The saves that are queued or in the background. -/
def openSaves (d : Desk η) : List SaveRequest :=
  d.app.pendingSave.toList ++ d.tasks.saves.map (·.request)

/-- The saves that the store has not been called for, the oldest first. -/
def uncalledSaves (d : Desk η) : List SaveRequest :=
  (d.tasks.saves.filter (·.progress.isWaiting)).map (·.request) ++ d.app.pendingSave.toList

/-- The open saves are those that the dialog waits for. -/
structure Sound (d : Desk η) : Prop where
  coherent : d.app.Coherent
  saves : d.openSaves = d.app.saveUnderWay?.toList

/-- There is no save, or one that is queued, or one in the background. -/
theorem Sound.cases (h : d.Sound) :
    (d.app.saveUnderWay? = none ∧ d.app.pendingSave = none ∧ d.tasks.saves = []) ∨
      (∃ r, d.app.saveUnderWay? = some r ∧ d.app.pendingSave = some r ∧ d.tasks.saves = []) ∨
      ∃ task, d.app.saveUnderWay? = some task.request ∧ d.app.pendingSave = none ∧
        d.tasks.saves = [task] := by
  have hs := h.saves
  unfold openSaves at hs
  cases hu : d.app.saveUnderWay? with
  | none =>
    cases hp : d.app.pendingSave <;> simp_all
  | some r =>
    cases hp : d.app.pendingSave with
    | none =>
      simp only [hu, hp, Option.toList_none, Option.toList_some, List.nil_append,
        List.map_eq_singleton_iff] at hs
      obtain ⟨task, htasks, rfl⟩ := hs
      exact .inr (.inr ⟨task, rfl, rfl, htasks⟩)
    | some q =>
      simp only [hu, hp, Option.toList_some, List.singleton_append, List.cons.injEq,
        List.map_eq_nil_iff] at hs
      obtain ⟨rfl, htasks⟩ := hs
      exact .inr (.inl ⟨q, rfl, rfl, htasks⟩)

/-- Without a save under way there is none open. -/
theorem Sound.none_of_idle (h : d.Sound) (hu : d.app.saveUnderWay? = none) :
    d.app.pendingSave = none ∧ d.tasks.saves = [] := by
  rcases h.cases with ⟨-, hp, ht⟩ | ⟨r, hr, -⟩ | ⟨task, hr, -⟩
  · exact ⟨hp, ht⟩
  · rw [hu] at hr; cases hr
  · rw [hu] at hr; cases hr

/-- The outcome of the save that a dialog waits for ends the wait. -/
theorem saveUnderWay?_completeSave {a : App} {r : SaveRequest} (h : a.Coherent)
    (hu : a.saveUnderWay? = some r) (outcome : Except Storage.Fault Record) :
    (a.completeSave r.pending.field outcome).saveUnderWay? = none := by
  obtain ⟨opened, hp⟩ := h.of_saveUnderWay? hu
  cases outcome with
  | ok record => exact (opened.completeSave_ok hp record).1.saveUnderWay?
  | error fault => exact App.saveUnderWay?_of_editing (opened.completeSave_error hp fault).2.1

/-- What finished fetches leave: the same saves under way, and the same queue. -/
theorem collectLoads_keeps (tasks : List (LoadTask η)) (a : App) :
    (Tasks.collectLoads tasks a).2.saveUnderWay? = a.saveUnderWay? ∧
      (Tasks.collectLoads tasks a).2.pendingSave = a.pendingSave := by
  obtain ⟨same, -⟩ := dialog_collectLoads tasks a
  have hp := App.phase_of_dialog same
  simp only [App.dialog, App.Dialog.mk.injEq] at same
  exact ⟨App.saveUnderWay?_congr hp (by simp [same]), by simp [same]⟩

/-- Handing over finished work. -/
theorem Sound.collect (h : d.Sound) : d.collect.Sound := by
  refine ⟨step_coherent h.coherent .collect, ?_⟩
  obtain ⟨hunder, hpending⟩ := collectLoads_keeps d.tasks.loads d.app
  have hcoherent := coherent_collectLoads h.coherent d.tasks.loads
  simp only [openSaves, Desk.collect, Tasks.collect]
  generalize (Tasks.collectLoads d.tasks.loads d.app).2 = a at hunder hpending hcoherent
  rcases h.cases with ⟨hu, hp, ht⟩ | ⟨r, hu, hp, ht⟩ | ⟨task, hu, hp, ht⟩
  · simp [ht, Tasks.collectSaves, hunder, hpending, hu, hp]
  · simp [ht, Tasks.collectSaves, hunder, hpending, hu, hp]
  · rw [hu] at hunder
    rw [ht]
    -- Only a finished save is handed over, and the dialog waits for no other.
    cases hprogress : task.progress with
    | finished outcome =>
      have hend := saveUnderWay?_completeSave hcoherent hunder outcome
      simp [Tasks.collectSaves, hprogress, hend, hpending, hp]
    | waiting => simp [Tasks.collectSaves, hprogress, hunder, hpending, hp]
    | running handle => simp [Tasks.collectSaves, hprogress, hunder, hpending, hp]

/-- **Whatever happens, the open saves are those that the dialog waits for.** -/
theorem Sound.step (h : d.Sound) (s : Step η) : (d.step s).Sound := by
  refine ⟨step_coherent h.coherent s, ?_⟩
  cases s with
  | event e =>
    rcases (h.coherent.reaction e).saves_cases with ⟨-, hu, hp⟩ | ⟨r, -, hidle, hu, hp⟩
    · simpa [Desk.step, modifyApp, openSaves, hu, hp] using h.saves
    · obtain ⟨-, ht⟩ := h.none_of_idle hidle
      simp [Desk.step, modifyApp, openSaves, hu, hp, ht]
  | previewWidth width =>
    obtain ⟨hphase, hrecord, hp⟩ := App.resizePreview_keeps (a := d.app) width
    have hu := App.saveUnderWay?_congr hphase hrecord
    simpa [Desk.step, modifyApp, openSaves, hu, hp] using h.saves
  | spawn =>
    have hu : d.spawn.app.saveUnderWay? = d.app.saveUnderWay? := App.saveUnderWay?_congr rfl rfl
    -- A queued save goes to the background, which had none.
    rcases h.cases with ⟨hr, hp, ht⟩ | ⟨r, hr, hp, ht⟩ | ⟨task, hr, hp, ht⟩
    all_goals
      simp only [Desk.step, hu, hr]
      simp [Desk.spawn, Tasks.spawn, openSaves, hp, ht]
  | collect => exact h.collect.saves
  | startLoad | finishLoad | breakLoad => exact h.saves
  | startSave i handle =>
    simpa only [Desk.step, openSaves, Tasks.request_modifySave] using h.saves
  | finishSave i outcome =>
    simpa only [Desk.step, openSaves, Tasks.request_modifySave] using h.saves

theorem sound_new (record : Record) (user : User) : (Desk.new record user : Desk η).Sound :=
  ⟨coherent_new record user, rfl⟩

theorem Sound.run (h : d.Sound) (steps : List (Step η)) : (d.run steps).Sound := by
  induction steps generalizing d with
  | nil => exact h
  | cons s steps ih => exact ih (h.step s)

/-! ### The log -/

/-- The save that a step calls the store for: one that waits and is started. -/
def called? (d : Desk η) : Step η → Option SaveRequest
  | .startSave i _ =>
    match d.tasks.saves[i]? with
    | some ⟨request, .waiting⟩ => some request
    | _ => none
  | _ => none

/-- The save that a step accepts: one that its event asks for. -/
def accepted? (d : Desk η) : Step η → Option SaveRequest
  | .event e => d.app.savedBy? e
  | _ => none

/-- What is to be seen of a run, one step after the other. -/
def observed (see : Desk η → Step η → Option SaveRequest) :
    Desk η → List (Step η) → List SaveRequest
  | _, [] => []
  | d, s :: steps => (see d s).toList ++ observed see (d.step s) steps

/-- The calls that a run makes to the store. -/
def storeCalls (d : Desk η) (steps : List (Step η)) : List SaveRequest := observed called? d steps

/-- The saves that a run accepts. -/
def acceptedSaves (d : Desk η) (steps : List (Step η)) : List SaveRequest :=
  observed accepted? d steps

/-- A start calls the store for the save that is started, and for nothing else. -/
theorem Sound.log_startSave (h : d.Sound) (i : Nat) (handle : η) :
    (d.called? (.startSave i handle)).toList ++ (d.step (.startSave i handle)).uncalledSaves =
      d.uncalledSaves := by
  -- With two saves in the background the younger one could be started first.
  have single : d.tasks.saves = [] ∨ ∃ task, d.tasks.saves = [task] := by
    rcases h.cases with ⟨-, -, ht⟩ | ⟨r, -, -, ht⟩ | ⟨task, -, -, ht⟩
    · exact .inl ht
    · exact .inl ht
    · exact .inr ⟨task, ht⟩
  simp only [called?, Desk.step, uncalledSaves, Tasks.modifySave]
  obtain ht | ⟨⟨request, progress⟩, ht⟩ := single
  · simp [ht]
  · cases i with
    | zero => cases progress <;> simp [ht, Progress.start, List.filter_cons]
    | succ i => simp [ht]

/-- **What a step does to the log.** The calls it makes, followed by what it leaves uncalled, are
what was uncalled before, followed by what it accepts. -/
theorem Sound.log_step (h : d.Sound) (s : Step η) :
    (d.called? s).toList ++ (d.step s).uncalledSaves =
      d.uncalledSaves ++ (d.accepted? s).toList := by
  cases s with
  | event e =>
    simp only [called?, accepted?, Desk.step, modifyApp, uncalledSaves]
    rcases (h.coherent.reaction e).saves_cases with ⟨hs, -, hp⟩ | ⟨r, hs, hidle, -, hp⟩
    · simp [hs, hp]
    -- A save is accepted only where none is open, so there is none before it in the log.
    · obtain ⟨hnone, ht⟩ := h.none_of_idle hidle
      simp [hs, hp, ht, hnone]
  | previewWidth width =>
    obtain ⟨-, -, hp⟩ := App.resizePreview_keeps (a := d.app) width
    simp [called?, accepted?, Desk.step, modifyApp, uncalledSaves, hp]
  | spawn =>
    cases hp : d.app.pendingSave <;>
      simp [called?, accepted?, Desk.step, Desk.spawn, Tasks.spawn, uncalledSaves, hp,
        List.filter_cons]
  | collect =>
    obtain ⟨-, hp⟩ := collectLoads_keeps d.tasks.loads d.app
    simp only [called?, accepted?, Desk.step, Desk.collect, Tasks.collect, uncalledSaves,
      Tasks.waiting_collectSaves, Tasks.pendingSave_collectSaves, hp, Option.toList_none,
      List.nil_append, List.append_nil]
  | startSave i handle => simpa [accepted?] using h.log_startSave i handle
  | finishSave i outcome =>
    simp only [called?, accepted?, Desk.step, uncalledSaves, Tasks.waiting_finish,
      Option.toList_none, List.nil_append, List.append_nil]
  | startLoad | finishLoad | breakLoad =>
    simp only [called?, accepted?, Option.toList_none, List.nil_append, List.append_nil]
    rfl

theorem Sound.log_run (h : d.Sound) (steps : List (Step η)) :
    d.storeCalls steps ++ (d.run steps).uncalledSaves =
      d.uncalledSaves ++ d.acceptedSaves steps := by
  induction steps generalizing d with
  | nil => simp [storeCalls, acceptedSaves, observed, Desk.run]
  | cons s steps ih =>
    calc d.storeCalls (s :: steps) ++ (d.run (s :: steps)).uncalledSaves
        = (d.called? s).toList ++
            ((d.step s).storeCalls steps ++ ((d.step s).run steps).uncalledSaves) :=
          List.append_assoc ..
      _ = (d.called? s).toList ++ (d.step s).uncalledSaves ++ (d.step s).acceptedSaves steps := by
          rw [ih (h.step s), List.append_assoc]
      _ = d.uncalledSaves ++ d.acceptedSaves (s :: steps) := by
          rw [h.log_step s, List.append_assoc]; rfl

end Desk

/-- In a rehearsal the backend is called for the saves that are started, with their contents. -/
theorem Simulation.Rehearsal.updateLog_startSave (r : Simulation.Rehearsal) (i : Nat)
    (timer : Simulation.Timer) :
    (r.startSave i).backend.updateLog =
      r.backend.updateLog ++ (r.desk.called? (.startSave i timer)).toList.map fun request =>
        ⟨request.apiId, request.pending.field, request.pending.content⟩ := by
  unfold startSave Desk.called?
  dsimp only
  split
  next id pending hi => simp [hi, step, Backend.startUpdate]
  next hi =>
    split
    next request hw => exact absurd hw (hi _ _)
    next => simp

/-! ### The result -/

/-- At most one save is open, and it is the one that the dialog waits for. -/
structure Desk.OneSave {η : Type} (d : Desk η) : Prop where
  one : d.openSaves.length ≤ 1
  /-- A save is open exactly while the dialog waits for one. -/
  saving : d.openSaves.length = 1 ↔ ∃ f, d.app.active = some f ∧ (d.app.session f).isSaving = true
  /-- The open save is for the text in the dialog, with its draft. -/
  content : ∀ r ∈ d.openSaves, r.apiId = d.app.record.id ∧
    d.app.active = some r.pending.field ∧
      (d.app.session r.pending.field).draft? = some r.pending.content
  /-- No event replaces a queued save. -/
  kept : ∀ r, d.app.pendingSave = some r → ∀ e, (d.app.handle e).pendingSave = some r
  /-- The outcome of a save is handed to a dialog that waits for it. -/
  awaited : ∀ p ∈ Tasks.handovers d.tasks.saves (Tasks.collectLoads d.tasks.loads d.app).2,
    (p.1.session p.2.request.pending.field).isSaving = true

namespace Desk

variable {η : Type} {d : Desk η}

/-- A desk whose open saves are those that the dialog waits for has one at most. -/
theorem Sound.oneSave (h : d.Sound) : d.OneSave where
  one := by
    rw [h.saves]
    cases d.app.saveUnderWay? <;> simp
  saving := by
    rw [h.saves]
    constructor
    · intro hlength
      cases hu : d.app.saveUnderWay? with
      | none => simp [hu] at hlength
      | some r =>
        obtain ⟨hactive, hs⟩ := App.phase_eq_saving_iff.1 (App.saveUnderWay?_eq_some_iff.1 hu).1
        exact ⟨_, hactive, Session.isSaving_iff.2 ⟨_, hs⟩⟩
    · rintro ⟨f, hactive, hs⟩
      obtain ⟨draft, hs⟩ := Session.isSaving_iff.1 hs
      rw [App.saveUnderWay?_of_saving (App.phase_eq_saving_iff.2 ⟨hactive, hs⟩)]
      rfl
  content := by
    intro r hr
    rw [h.saves, Option.mem_toList] at hr
    obtain ⟨hp, hid⟩ := App.saveUnderWay?_eq_some_iff.1 hr
    obtain ⟨hactive, hs⟩ := App.phase_eq_saving_iff.1 hp
    exact ⟨hid, hactive, by simp [Session.draft?, hs]⟩
  kept := by
    intro r hr e
    rcases (h.coherent.reaction e).saves_cases with ⟨-, -, hp⟩ | ⟨q, -, hidle, -⟩
    · rw [hp, hr]
    · rw [(h.none_of_idle hidle).1] at hr
      cases hr
  awaited := by
    obtain ⟨hunder, -⟩ := collectLoads_keeps d.tasks.loads d.app
    generalize (Tasks.collectLoads d.tasks.loads d.app).2 = a at hunder
    intro p hp
    rcases h.cases with ⟨-, -, ht⟩ | ⟨r, -, -, ht⟩ | ⟨task, hu, -, ht⟩
    · simp [ht, Tasks.handovers] at hp
    · simp [ht, Tasks.handovers] at hp
    · rw [hu] at hunder
      obtain ⟨-, hs⟩ := App.phase_eq_saving_iff.1 (App.saveUnderWay?_eq_some_iff.1 hunder).1
      have hp' : p = (a, task) := by
        rw [ht] at hp
        cases hprogress : task.progress <;> simp [Tasks.handovers, hprogress] at hp
        exact hp
      subst hp'
      exact Session.isSaving_iff.2 ⟨_, hs⟩

/-- **Every save reaches the store once.** However keys, the wheel, ticks, widths of the preview and
the background's doings follow each other, with whatever results: one save is open at most, the one
that the dialog waits for, and the calls to the store, followed by the save that has not been called
for yet, are the saves that were accepted, in order and with the drafts of that time. -/
theorem saves_reach_the_store_once (record : Record) (user : User) (steps : List (Step η)) :
    ((Desk.new record user).run steps).OneSave ∧
      (Desk.new record user).storeCalls steps ++
          ((Desk.new record user).run steps).uncalledSaves =
        (Desk.new record user).acceptedSaves steps := by
  have h : (Desk.new record user : Desk η).Sound := sound_new record user
  have hnew : (Desk.new record user : Desk η).uncalledSaves = [] := rfl
  refine ⟨(h.run steps).oneSave, ?_⟩
  rw [h.log_run steps, hnew, List.nil_append]

end Desk

end PublisherConsole
