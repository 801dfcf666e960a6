import PublisherConsole.Console.Drawing
import PublisherConsole.Proofs.Console.Saving

/-!
# Users who may not edit

The user of a console matters in one place only: a dialog is opened for those who may edit. All else
goes the same way for every user, so two users with the same access see the same console
(`Desk.step_withUser`, `App.screen?_withUser`).

For a user who is barred from the record, no dialog is ever opened, and without a dialog there is no
save (`Desk.Untouched`). The main statement is `barred_user_writes_nothing`.
-/

namespace PublisherConsole

/-- The user lacks the scope to edit the texts of a record: that to publish for a product, and that
to create for any other API. -/
def User.IsBarredFrom (u : User) (r : Record) : Prop :=
  match r.kind with
  | .product => scopePublish ∉ u.scopes
  | .api => scopeCreate ∉ u.scopes

theorem Access.toEdit_eq_restricted_iff {u : User} {r : Record} :
    Access.toEdit u r = .restricted ↔ u.IsBarredFrom r := by
  cases hk : r.kind <;>
    simp [Access.toEdit, Access.check, isRestricted, User.IsBarredFrom, User.hasScope, hk]

instance (u : User) (r : Record) : Decidable (u.IsBarredFrom r) :=
  decidable_of_iff _ Access.toEdit_eq_restricted_iff

namespace App

variable {a : App} {u : User} {f : TextField}

/-- The same console with someone else at it. -/
def withUser (a : App) (u : User) : App := { a with user := u }

/-! ### Where the user does not matter -/

theorem session_withUser (g : TextField) : (a.withUser u).session g = a.session g := by
  cases g <;> rfl

theorem activeSession?_withUser : (a.withUser u).activeSession? = a.activeSession? := by
  have hs : (a.withUser u).session = a.session := funext fun g => session_withUser g
  rw [activeSession?, activeSession?, hs]
  rfl

theorem isSaving_withUser : (a.withUser u).isSaving = a.isSaving := by
  rw [isSaving, isSaving, activeSession?_withUser]

theorem setSession_withUser (s : Session) :
    (a.withUser u).setSession f s = (a.setSession f s).withUser u := by
  cases f <;> rfl

theorem refreshPreview_withUser :
    (a.withUser u).refreshPreview = a.refreshPreview.withUser u := by
  simp only [refreshPreview, activeSession?_withUser]
  cases a.activeSession? with
  | none => rfl
  | some s =>
    by_cases h : a.previewRevision = some s.revision <;>
      simp only [withUser, h, if_true, if_false]

theorem resizePreview_withUser (width : Nat) :
    (a.withUser u).resizePreview width = (a.resizePreview width).withUser u := by
  have hwidth : (a.withUser u).previewWidth = a.previewWidth := rfl
  unfold resizePreview
  rw [hwidth]
  by_cases h : width = a.previewWidth
  · rw [if_pos h, if_pos h]
  · rw [if_neg h, if_neg h, ← refreshPreview_withUser]
    rfl

/-- Only whether a dialog may be opened depends on the user. -/
theorem openEditor_withUser (h : (a.withUser u).access = a.access) :
    (a.withUser u).openEditor f = (a.openEditor f).withUser u := by
  have hr : (a.withUser u).record = a.record := rfl
  unfold openEditor
  rw [session_withUser, hr, h]
  cases (a.session f).open? a.record a.access with
  | error refusal => rfl
  | ok s => dsimp only; rw [setSession_withUser, ← refreshPreview_withUser]; rfl

theorem syncDraft_withUser : (a.withUser u).syncDraft = a.syncDraft.withUser u := by
  have hactive : (a.withUser u).active = a.active := rfl
  have hinput : (a.withUser u).input = a.input := rfl
  unfold syncDraft
  rw [hactive]
  cases a.active with
  | none => rfl
  | some f =>
    dsimp only
    rw [session_withUser, hinput]
    cases (a.session f).update? a.input.text with
    | error refusal => rfl
    | ok s => dsimp only; rw [setSession_withUser, refreshPreview_withUser]

theorem saveActive_withUser : (a.withUser u).saveActive = a.saveActive.withUser u := by
  have hactive : (a.withUser u).active = a.active := rfl
  unfold saveActive
  rw [hactive]
  cases a.active with
  | none => rfl
  | some f =>
    dsimp only
    rw [session_withUser]
    cases (a.session f).beginSave? with
    | error refusal => rfl
    | ok p => dsimp only; rw [setSession_withUser]; rfl

theorem cancelActive_withUser :
    (a.withUser u).cancelActive = (a.cancelActive.1, a.cancelActive.2.withUser u) := by
  have hactive : (a.withUser u).active = a.active := rfl
  unfold cancelActive
  rw [hactive]
  cases a.active with
  | none => rfl
  | some f =>
    dsimp only
    rw [session_withUser]
    cases (a.session f).cancel? with
    | none => rfl
    | some s => dsimp only; rw [setSession_withUser]; rfl

theorem completeSave_withUser (outcome : Except Storage.Fault Record) :
    (a.withUser u).completeSave f outcome = (a.completeSave f outcome).withUser u := by
  unfold completeSave
  simp only [session_withUser, setSession_withUser]
  cases outcome with
  | ok record =>
    dsimp only
    cases (a.session f).finishSave? none with
    | error refusal => rfl
    | ok s =>
      have hactive : ((a.setSession f s).withUser u).active = (a.setSession f s).active := rfl
      dsimp only
      rw [hactive]
      by_cases h : (a.setSession f s).active = some f
      · rw [if_pos h, if_pos h]; rfl
      · rw [if_neg h, if_neg h]; rfl
  | error fault =>
    dsimp only
    cases (a.session f).finishSave? (some fault.message) <;> rfl

theorem refreshServers_withUser : (a.withUser u).refreshServers = a.refreshServers.withUser u := by
  have hs : (a.withUser u).servers = a.servers := rfl
  unfold refreshServers
  rw [hs]
  cases a.servers.refresh? <;> rfl

theorem quit_withUser : (a.withUser u).quit = a.quit.withUser u := by
  unfold quit
  rw [isSaving_withUser]
  by_cases h : a.isSaving = true
  · rw [if_pos h, if_pos h]; rfl
  · rw [if_neg h, if_neg h]; rfl

/-- A command is carried out alike for users with the same access. -/
theorem perform_withUser (h : (a.withUser u).access = a.access) (action : Action) :
    (a.withUser u).perform action = (a.perform action).withUser u := by
  have hhelping : (a.withUser u).helping = a.helping := rfl
  have hview : (a.withUser u).view = a.view := rfl
  unfold perform
  rw [hhelping, hview]
  cases a.helping with
  | true => cases action <;> rfl
  | false =>
    simp only [Bool.false_eq_true, if_false]
    cases a.view with
    | overview =>
      cases action with
      | quit => exact quit_withUser
      | back => exact quit_withUser
      | edit field => exact openEditor_withUser h
      | refresh => exact refreshServers_withUser
      | _ => rfl
    | editor =>
      cases action with
      | save => exact saveActive_withUser
      | back => simp only [performEditor, cancelActive_withUser]
      | quit =>
        simp only [performEditor, cancelActive_withUser]
        obtain ⟨gone, b⟩ := a.cancelActive
        cases gone with
        | true => exact quit_withUser
        | false => rfl
      | _ => rfl

theorem type_withUser (t : Typing) : (a.withUser u).type t = (a.type t).withUser u := by
  unfold type
  dsimp only
  by_cases h : t.isChange = true
  · rw [if_pos h, if_pos h, ← syncDraft_withUser]; rfl
  · rw [if_neg h, if_neg h]; rfl

/-- An event is handled alike for users with the same access. -/
theorem handle_withUser (h : (a.withUser u).access = a.access) (e : Event) :
    (a.withUser u).handle e = (a.handle e).withUser u := by
  cases e with
  | key k =>
    have htyping : (a.withUser u).typing? k = a.typing? k := by
      unfold typing?
      rw [isSaving_withUser]
      rfl
    simp only [handle, press, htyping]
    cases a.typing? k with
    | some t => exact type_withUser t
    | none => exact perform_withUser h k.action
  | wheelUp => exact perform_withUser h .up
  | wheelDown => exact perform_withUser h .down
  | tick | pointer | resize => rfl

/-- The screen shows whether the user may edit, and nothing else about the user. -/
theorem screen?_withUser (h : (a.withUser u).access = a.access) (r : Screen.Rect) :
    (a.withUser u).screen? r = a.screen? r := by
  have hheading : (a.withUser u).sectionHeading = a.sectionHeading := by
    funext field
    simp only [sectionHeading, h]
    rfl
  have hsection : (a.withUser u).sectionLines? = a.sectionLines? := by
    funext field width
    simp only [sectionLines?, hheading]
    rfl
  have hlines : (a.withUser u).overviewLines? = a.overviewLines? := by
    funext width
    simp only [overviewLines?, hsection]
    rfl
  have hstatus : (a.withUser u).overviewStatus = a.overviewStatus := by
    simp only [overviewStatus, h]
    rfl
  have hoverview : (a.withUser u).drawOverview? = a.drawOverview? := by
    funext b r
    simp only [drawOverview?, hlines, hstatus]
    rfl
  have heditor : (a.withUser u).drawEditor? = a.drawEditor? := by
    funext b r
    simp only [drawEditor?, drawHeader?, inputArea, drawPreview?, editorStatus,
      activeSession?_withUser, isSaving_withUser]
    rfl
  simp only [screen?, draw?, hoverview, heditor]
  rfl

/-! ### Where editing is restricted -/

/-- Someone who may not edit opens no dialog, whatever happens. -/
theorem IsClosed.dialog_handle_of_restricted (h : a.IsClosed) (hr : a.access = .restricted)
    (e : Event) : (a.handle e).dialog = a.dialog := by
  have hopen : ∀ f, (a.openEditor f).dialog = a.dialog := by
    intro f
    simp only [App.openEditor, hr, Session.open?]
    rfl
  have hperform : ∀ action, (a.perform action).dialog = a.dialog := by
    intro action
    unfold App.perform
    split
    · split <;> rfl
    · rw [h.view]
      cases action with
      | quit | back => exact h.quit.1
      | edit field => exact hopen field
      | refresh =>
        simp only [performOverview, refreshServers]
        split <;> rfl
      | help | up | down | save | none => rfl
  cases e with
  | key k =>
    have ht : a.typing? k = none := by simp [typing?, h.view]
    simpa only [handle, press, ht] using hperform k.action
  | wheelUp => exact hperform .up
  | wheelDown => exact hperform .down
  | tick | pointer | resize => rfl

end App

/-! ### Runs -/

namespace Desk

variable {η : Type} {d : Desk η} {u : User} {r : Record}

/-- The same desk with someone else at it. -/
def withUser (d : Desk η) (u : User) : Desk η := d.modifyApp (·.withUser u)

theorem collectLoads_withUser (tasks : List (LoadTask η)) (a : App) :
    Tasks.collectLoads tasks (a.withUser u) =
      ((Tasks.collectLoads tasks a).1, (Tasks.collectLoads tasks a).2.withUser u) := by
  induction tasks generalizing a with
  | nil => rfl
  | cons task rest ih =>
    simp only [Tasks.collectLoads]
    split
    next result _ => exact ih (a.deliverServers task.ticket result)
    next => rw [ih a]

theorem collectSaves_withUser (tasks : List (SaveTask η)) (a : App) :
    Tasks.collectSaves tasks (a.withUser u) =
      ((Tasks.collectSaves tasks a).1, (Tasks.collectSaves tasks a).2.withUser u) := by
  induction tasks generalizing a with
  | nil => rfl
  | cons task rest ih =>
    simp only [Tasks.collectSaves]
    split
    next outcome _ => rw [App.completeSave_withUser, ih]
    next => rw [ih a]

/-- **Whatever happens, it happens alike to users with the same access.** -/
theorem step_withUser (h : (d.app.withUser u).access = d.app.access) (s : Step η) :
    (d.withUser u).step s = (d.step s).withUser u := by
  cases s with
  | event e => exact congrArg (Desk.mk · d.tasks) (App.handle_withUser h e)
  | previewWidth width => exact congrArg (Desk.mk · d.tasks) (App.resizePreview_withUser width)
  | collect =>
    simp only [Desk.step, Desk.collect, Tasks.collect, withUser, modifyApp, collectLoads_withUser,
      collectSaves_withUser]
  | spawn | startLoad | startSave | finishLoad | breakLoad | finishSave => rfl

/-- The user at a desk stays. -/
theorem user_step (d : Desk η) (s : Step η) : (d.step s).app.user = d.app.user := by
  have h := step_withUser (d := d) (u := d.app.user) rfl s
  have hsame : d.withUser d.app.user = d := rfl
  rw [hsame] at h
  rw [h]
  rfl

theorem user_run (steps : List (Step η)) : (d.run steps).app.user = d.app.user := by
  induction steps generalizing d with
  | nil => rfl
  | cons s steps ih => exact (ih (d := d.step s)).trans (user_step d s)

/-- No text of the record is being edited or saved, and the record is as it was. -/
structure Untouched (d : Desk η) (r : Record) : Prop where
  closed : d.app.IsClosed
  queue : d.app.pendingSave = none
  saves : d.tasks.saves = []
  record : d.app.record = r

theorem untouched_new (r : Record) (u : User) : (Desk.new r u : Desk η).Untouched r := by
  refine ⟨⟨fun g => ?_, rfl, rfl, fun g => ?_, rfl, rfl, rfl⟩, rfl, rfl, rfl⟩ <;> cases g <;> rfl

theorem Untouched.access_withUser (h : d.Untouched r) (hu : u.IsBarredFrom r) :
    (d.app.withUser u).access = .restricted := by
  rw [← h.record] at hu
  exact Access.toEdit_eq_restricted_iff.2 hu

theorem Untouched.access (h : d.Untouched r) (hb : d.app.user.IsBarredFrom r) :
    d.app.access = .restricted :=
  h.access_withUser hb

/-- Without a dialog there is no save, and without a save no other record. -/
theorem Untouched.step (h : d.Untouched r) (hr : d.app.access = .restricted) (s : Step η) :
    (d.step s).Untouched r := by
  obtain ⟨closed, queue, saves, record⟩ := h
  cases s with
  | event e =>
    have same := closed.dialog_handle_of_restricted hr e
    exact ⟨closed.of_dialog same, (congrArg App.Dialog.pendingSave same).trans queue, saves,
      (congrArg App.Dialog.record same).trans record⟩
  | previewWidth width =>
    obtain ⟨-, hrecord, hqueue⟩ := App.resizePreview_keeps (a := d.app) width
    exact ⟨closed.resizePreview width, hqueue.trans queue, saves, hrecord.trans record⟩
  | spawn =>
    refine ⟨closed.of_dialog ?_, rfl, ?_, record⟩
    · simp only [App.dialog, Desk.step, Desk.spawn, Tasks.spawn, queue]
    · simp only [Desk.step, Desk.spawn, Tasks.spawn, queue, saves]
  | collect =>
    obtain ⟨same, -⟩ := dialog_collectLoads d.tasks.loads d.app
    simp only [Desk.step, Desk.collect, Tasks.collect, saves, Tasks.collectSaves]
    exact ⟨closed.of_dialog same, (congrArg App.Dialog.pendingSave same).trans queue, rfl,
      (congrArg App.Dialog.record same).trans record⟩
  | startSave | finishSave =>
    exact ⟨closed, queue, by simp [Desk.step, Tasks.modifySave, saves], record⟩
  | startLoad | finishLoad | breakLoad => exact ⟨closed, queue, saves, record⟩

theorem Untouched.called?_eq_none (h : d.Untouched r) (s : Step η) : d.called? s = none := by
  cases s <;> simp [called?, h.saves]

/-- A desk stays untouched, and the store uncalled, as long as its user is barred from the record. -/
theorem Untouched.run (h : d.Untouched r) (hb : d.app.user.IsBarredFrom r)
    (steps : List (Step η)) : (d.run steps).Untouched r ∧ d.storeCalls steps = [] := by
  induction steps generalizing d with
  | nil => exact ⟨h, rfl⟩
  | cons s steps ih =>
    obtain ⟨hrun, hcalls⟩ := ih (h.step (h.access hb) s) (by rwa [user_step])
    refine ⟨hrun, ?_⟩
    show (d.called? s).toList ++ (d.step s).storeCalls steps = []
    rw [h.called?_eq_none, hcalls]
    rfl

/-- The same happens to any two users who are both barred from the record. -/
theorem Untouched.run_withUser (h : d.Untouched r) (hb : d.app.user.IsBarredFrom r)
    (hu : u.IsBarredFrom r) (steps : List (Step η)) :
    (d.withUser u).run steps = (d.run steps).withUser u := by
  induction steps generalizing d with
  | nil => rfl
  | cons s steps ih =>
    have same : (d.app.withUser u).access = d.app.access :=
      (h.access_withUser hu).trans (h.access hb).symm
    show ((d.withUser u).step s).run steps = ((d.step s).run steps).withUser u
    rw [step_withUser same, ih (h.step (h.access hb) s) (by rwa [user_step])]

/-- **A user who may not edit writes nothing.** Whatever happens at the desk of a user who is barred
from the record, no text of it is edited, no save is queued or under way, the store is never called
for one, and the record stays as it was. It makes no difference who the user is: with anyone else who
is barred from the record, all of the desk is the same at any time, and so is its screen. -/
theorem barred_user_writes_nothing (record : Record) (user : User) (hb : user.IsBarredFrom record)
    (steps : List (Step η)) :
    ((Desk.new record user).run steps).Untouched record ∧
      (Desk.new record user).storeCalls steps = [] ∧
      ∀ other : User, other.IsBarredFrom record →
        (Desk.new record other).run steps = ((Desk.new record user).run steps).withUser other ∧
        ∀ r, ((Desk.new record other).run steps).app.screen? r =
          ((Desk.new record user).run steps).app.screen? r := by
  have h : (Desk.new record user : Desk η).Untouched record := untouched_new record user
  obtain ⟨hrun, hcalls⟩ := h.run hb steps
  refine ⟨hrun, hcalls, fun other ho => ?_⟩
  have hsame : (Desk.new record other).run steps =
      ((Desk.new record user).run steps).withUser other := h.run_withUser hb ho steps
  refine ⟨hsame, fun r => ?_⟩
  rw [hsame]
  refine App.screen?_withUser ((hrun.access_withUser ho).trans (hrun.access ?_).symm) r
  rwa [user_run]

/-- Someone who may create APIs, but not publish them, finds no way to edit a product. -/
theorem creator_writes_nothing_on_product :
    let record : Record :=
      { Record.fresh "a" "N" ⟨⟨2020, 1, 1⟩, 0, 0, 0, 0⟩ with kind := .product }
    let creator : User := ⟨"creator", [scopeView, scopeCreate]⟩
    let steps : List (Step Unit) :=
      [.event (.key { key := .char 'd' }), .event (.key { key := .char 's', control := true }),
        .spawn, .startSave 0 (), .collect]
    creator.IsBarredFrom record ∧
      ((Desk.new record creator).run steps).app.notification =
        some "Editing description is not permitted for this user" ∧
      (Desk.new record creator).storeCalls steps = [] ∧
      ((Desk.new record ⟨"creator", []⟩).run steps).app.notification =
        some "Editing description is not permitted for this user" := by
  intro record creator steps
  have hb : creator.IsBarredFrom record := by decide
  have ho : (⟨"creator", []⟩ : User).IsBarredFrom record := by decide
  have hshown : ((Desk.new record creator).run steps).app.notification =
      some "Editing description is not permitted for this user" := by decide +kernel
  obtain ⟨-, hcalls, hsame⟩ := barred_user_writes_nothing record creator hb steps
  refine ⟨hb, hshown, hcalls, ?_⟩
  rw [(hsame _ ho).1]
  exact hshown

end Desk

end PublisherConsole
