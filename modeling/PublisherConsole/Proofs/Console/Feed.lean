import PublisherConsole.Proofs.Console.Phase

/-!
# The servers on the console

Three fields of the console tell of its servers: the list, the ticket that is queued, and whether the
console is being left. `App.feed` takes them together. The operations of the dialog keep it, and so
does everything that comes from the background, except for the result of a fetch.

* `App.FeedReaction` lists what an event can do to the servers: nothing, ask for another fetch, or
  leave the console;
* `App.feedReaction`: every event does one of these, and it asks for a fetch exactly when it is the
  refresh key, pressed on the overview of a mounted list;
* `App.FeedReaction.isClosed`: a console is left without a dialog.
-/

namespace PublisherConsole

/-- The fields of the console that tell of its servers. -/
structure Feed where
  servers : Definition.ServerList
  pendingLoad : Option Definition.Ticket
  quitting : Bool

namespace App

variable {a b : App} {f : TextField}

/-- The servers of a console. -/
def feed (a : App) : Feed := ⟨a.servers, a.pendingLoad, a.quitting⟩

theorem feed_eq_iff :
    b.feed = a.feed ↔
      b.servers = a.servers ∧ b.pendingLoad = a.pendingLoad ∧ b.quitting = a.quitting := by
  simp [feed]

/-! ### The dialog is no concern of the servers -/

@[simp] theorem feed_notify (message : String) : (a.notify message).feed = a.feed := rfl

@[simp] theorem feed_setSession (s : Session) : (a.setSession f s).feed = a.feed := by
  cases f <;> rfl

@[simp] theorem feed_closeDialog : a.closeDialog.feed = a.feed := rfl

@[simp] theorem feed_refreshPreview : a.refreshPreview.feed = a.feed := by
  obtain ⟨lines, revision, h⟩ := a.exists_refreshPreview
  rw [h]
  rfl

@[simp] theorem feed_resizePreview (width : Nat) : (a.resizePreview width).feed = a.feed := by
  unfold resizePreview
  split
  · rfl
  · rw [feed_refreshPreview]
    rfl

@[simp] theorem feed_openEditor : (a.openEditor f).feed = a.feed := by
  unfold openEditor
  split
  · rfl
  next s _ =>
    rw [feed_refreshPreview]
    exact feed_setSession s

@[simp] theorem feed_syncDraft : a.syncDraft.feed = a.feed := by
  unfold syncDraft
  split
  · rfl
  · split
    · rfl
    · simp

@[simp] theorem feed_saveActive : a.saveActive.feed = a.feed := by
  unfold saveActive
  split
  · rfl
  · split
    · rfl
    next s _ => exact feed_setSession s

@[simp] theorem feed_cancelActive : a.cancelActive.2.feed = a.feed := by
  unfold cancelActive
  split
  · rfl
  · split <;> simp

@[simp] theorem feed_completeSave (outcome : Except Storage.Fault Record) :
    (a.completeSave f outcome).feed = a.feed := by
  unfold completeSave
  cases outcome with
  | ok record =>
    dsimp only
    split
    · rfl
    next s _ =>
      rw [feed_notify]
      split
      · rw [feed_closeDialog]
        exact feed_setSession s
      · exact feed_setSession s
  | error fault =>
    dsimp only
    split <;> simp

@[simp] theorem feed_type (t : Typing) : (a.type t).feed = a.feed := by
  unfold type
  dsimp only
  split
  · rw [feed_syncDraft]
    rfl
  · rfl

/-! ### What an event can do -/

/-- The ticket that an event asks for: the refresh key, pressed on the overview. -/
def requestedBy? (a : App) : Event → Option Definition.Ticket
  | .key k =>
    if k.action = .refresh ∧ a.view = .overview ∧ a.helping = false then
      a.servers.refresh?.map (·.2)
    else none
  | _ => none

/-- What an event can do to the servers of `a`, with the ticket that it asks for. -/
inductive FeedReaction (a b : App) : Option Definition.Ticket → Prop
  | rests (same : b.feed = a.feed) : FeedReaction a b none
  | asks {servers : Definition.ServerList} {ticket : Definition.Ticket}
      (refreshed : a.servers.refresh? = some (servers, ticket))
      (feed : b.feed = ⟨servers, some ticket, a.quitting⟩) : FeedReaction a b (some ticket)
  | leaves (feed : b.feed = ⟨a.servers.unmount, a.pendingLoad, true⟩)
      (away : b.view = .overview ∨ b.active = none) : FeedReaction a b none

/-- A console is left without a dialog. -/
theorem FeedReaction.isClosed {ticket : Option Definition.Ticket} (h : FeedReaction a b ticket)
    (hb : b.Coherent) (ha : a.quitting = false) (hq : b.quitting = true) : b.IsClosed := by
  have hfeed : b.feed.quitting = true := hq
  cases h with
  | rests same => rw [same] at hfeed; exact absurd (ha.symm.trans hfeed) (by decide)
  | asks _ feed => rw [feed] at hfeed; exact absurd (ha.symm.trans hfeed) (by decide)
  | leaves _ away =>
    rcases hb with closed | ⟨f, opened⟩
    · exact closed
    · rcases away with hview | hactive
      · exact absurd (opened.view.symm.trans hview) (by decide)
      · exact absurd (opened.active.symm.trans hactive) (by simp)

/-- The quit command leaves the console, or it only shows a message. -/
theorem feedReaction_quit (away : a.view = .overview ∨ a.active = none) :
    FeedReaction a a.quit none := by
  unfold App.quit
  split
  · exact .rests rfl
  · exact .leaves rfl away

theorem feedReaction_refreshServers :
    FeedReaction a a.refreshServers (a.servers.refresh?.map (·.2)) := by
  unfold refreshServers
  cases hr : a.servers.refresh? with
  | none => exact .rests rfl
  | some pair => exact .asks hr rfl

/-- What happens to the servers of a console happens to those of another one with the same. -/
theorem FeedReaction.congr {c : App} {ticket : Option Definition.Ticket}
    (h : FeedReaction a b ticket) (same : a.feed = c.feed) : FeedReaction c b ticket := by
  obtain ⟨hservers, hpending, hquitting⟩ := feed_eq_iff.1 same
  cases h with
  | rests hb => exact .rests (hb.trans same)
  | asks refreshed feed => exact .asks (hservers ▸ refreshed) (hquitting ▸ feed)
  | leaves feed away => exact .leaves (hservers ▸ hpending ▸ feed) away

/-- Once the draft can be dropped, the console is left without a dialog. -/
theorem away_cancelActive (h : a.cancelActive.1 = true) :
    a.cancelActive.2.view = .overview ∨ a.cancelActive.2.active = none := by
  unfold cancelActive at h ⊢
  cases ha : a.active with
  | none => exact .inr ha
  | some f =>
    simp only [ha] at h
    cases hs : (a.session f).cancel? with
    | none => simp [hs] at h
    | some s => exact .inl (by simp only [hs, closeDialog])

/-- A command other than to refresh asks for nothing. -/
theorem feedReaction_perform {action : Action} (h : action ≠ .refresh) :
    FeedReaction a (a.perform action) none := by
  unfold perform
  split
  · split <;> exact .rests rfl
  · cases hv : a.view with
    | overview =>
      cases action with
      | quit => exact feedReaction_quit (.inl hv)
      | back => exact feedReaction_quit (.inl hv)
      | refresh => exact absurd rfl h
      | edit field => exact .rests feed_openEditor
      | help | up | down | save | none => exact .rests rfl
    | editor =>
      cases action with
      | save => exact .rests feed_saveActive
      | back => exact .rests feed_cancelActive
      | quit =>
        have same : a.cancelActive.2.feed = a.feed := feed_cancelActive
        have away := away_cancelActive (a := a)
        simp only [performEditor]
        split
        next b hb =>
          rw [hb] at same away
          exact (feedReaction_quit (away rfl)).congr same
        next b hb =>
          rw [hb] at same
          exact .rests same
      | _ => exact .rests rfl

/-- The refresh command asks for a fetch where the overview takes it. -/
theorem feedReaction_perform_refresh :
    FeedReaction a (a.perform .refresh)
      (if a.view = .overview ∧ a.helping = false then a.servers.refresh?.map (·.2) else none) := by
  unfold perform
  cases hh : a.helping with
  | true => simpa using FeedReaction.rests rfl
  | false =>
    cases hv : a.view with
    | overview => simpa [performOverview] using feedReaction_refreshServers
    | editor => simpa [performEditor] using FeedReaction.rests rfl

/-- **What an event does to the servers.** It leaves them alone, asks for a fetch, or leaves the
console. -/
theorem feedReaction (a : App) (e : Event) : FeedReaction a (a.handle e) (a.requestedBy? e) := by
  cases e with
  | key k =>
    simp only [handle, press, requestedBy?]
    cases ht : a.typing? k with
    | some t =>
      have hv : a.view = .editor := by
        unfold typing? at ht
        split at ht
        next hc => simp only [Bool.and_eq_true, decide_eq_true_eq] at hc; exact hc.1.1.1
        next => cases ht
      simpa [hv] using FeedReaction.rests (feed_type t)
    | none =>
      by_cases hk : k.action = .refresh
      · simpa [hk] using feedReaction_perform_refresh (a := a)
      · simpa [hk] using feedReaction_perform hk
  | wheelUp => exact feedReaction_perform (by decide)
  | wheelDown => exact feedReaction_perform (by decide)
  | tick | pointer | resize => exact .rests rfl

end App

/-! ### Work in the background -/

namespace Tasks

variable {η : Type}

/-- The outcome of a save is no concern of the servers. -/
theorem feed_collectSaves (tasks : List (SaveTask η)) (a : App) :
    (collectSaves tasks a).2.feed = a.feed := by
  induction tasks generalizing a with
  | nil => rfl
  | cons task rest ih =>
    unfold collectSaves
    split
    next outcome _ => rw [ih, App.feed_completeSave]
    next => exact ih a

/-- A finished fetch reaches the list alone. -/
theorem quitting_collectLoads (tasks : List (LoadTask η)) (a : App) :
    (collectLoads tasks a).2.quitting = a.quitting := by
  induction tasks generalizing a with
  | nil => rfl
  | cons task rest ih =>
    unfold collectLoads
    split
    next result _ => exact ih (a.deliverServers task.ticket result)
    next => exact ih a

end Tasks

namespace Desk

variable {η : Type} {d : Desk η}

/-- Only an event has the console left. -/
theorem quitting_step {s : Step η} (h : ∀ e, s ≠ .event e) :
    (d.step s).app.quitting = d.app.quitting := by
  cases s with
  | event e => exact absurd rfl (h e)
  | previewWidth width => exact (App.feed_eq_iff.1 (App.feed_resizePreview width)).2.2
  | collect =>
    calc d.collect.app.quitting
        = (Tasks.collectLoads d.tasks.loads d.app).2.quitting :=
          (App.feed_eq_iff.1 (Tasks.feed_collectSaves d.tasks.saves _)).2.2
      _ = d.app.quitting := Tasks.quitting_collectLoads ..
  | spawn | startLoad | startSave | finishLoad | breakLoad | finishSave => rfl

/-- A console that is being left is left. -/
theorem quitting_step_of_quitting (h : d.app.quitting = true) (s : Step η) :
    (d.step s).app.quitting = true := by
  cases s with
  | event e =>
    have hreaction := App.feedReaction d.app e
    generalize d.app.requestedBy? e = ticket at hreaction
    cases hreaction with
    | rests same => exact (App.feed_eq_iff.1 same).2.2.trans h
    | asks _ feed => exact (congrArg Feed.quitting feed).trans h
    | leaves feed => exact congrArg Feed.quitting feed
  | _ => exact (quitting_step (by simp)).trans h

theorem quitting_run_of_quitting (h : d.app.quitting = true) (steps : List (Step η)) :
    (d.run steps).app.quitting = true := by
  induction steps generalizing d with
  | nil => exact h
  | cons s steps ih => exact ih (quitting_step_of_quitting h s)

end Desk

end PublisherConsole
