import Mathlib.Tactic
import PublisherConsole.Console.Event
import PublisherConsole.Proofs.Editing.Session

/-!
# The dialog, closed and open

The dialog is spread over many fields of the console. `App.IsClosed` and `App.IsOpen` say what all of
them hold when no dialog is open and when the dialog of a text is open, `App.Coherent` that one of
the two is the case, and `App.phase` sums up the rest.

* `App.Reaction` lists what an event can do to the dialog: nothing, open it, change the draft, drop
  it, or start a save;
* `App.Coherent.reaction`: in a coherent console every event does one of these, and it starts a save
  exactly when it is the save key and finds a draft being edited;
* `App.Reaction.coherent`: the console stays coherent.
-/

namespace PublisherConsole

/-! ### The two texts -/

namespace TextField

@[simp] theorem other_ne (f : TextField) : f.other ≠ f := by cases f <;> decide

theorem eq_or_eq_other (f g : TextField) : g = f ∨ g = f.other := by
  cases f <;> cases g <;> simp [other]

/-- What holds of a text and of the other one holds of both. -/
theorem forall_of {P : TextField → Prop} {f : TextField} (h : P f) (ho : P f.other) (g : TextField) :
    P g := by
  rcases eq_or_eq_other f g with rfl | rfl
  · exact h
  · exact ho

end TextField

/-! ### The text area -/

@[simp] theorem TextBuffer.text_ofText (text : String) : (TextBuffer.ofText text).text = text := by
  simp [TextBuffer.ofText, TextBuffer.text]

/-- A key that does not count as a change keeps the text. -/
theorem Typing.text_apply {t : Typing} (h : t.isChange = false) (b : TextBuffer) :
    (t.apply b).text = b.text := by
  cases t with
  | write cs => simp [Typing.isChange] at h
  | backspace => simp [Typing.isChange] at h
  | delete => simp [Typing.isChange] at h
  | left => rfl
  | right => rfl
  | home => rfl
  | lineEnd => rfl
  | up =>
    simp only [Typing.apply, TextBuffer.moveUp]
    split <;> rfl
  | down =>
    simp only [Typing.apply, TextBuffer.moveDown]
    split <;> rfl

/-- What the dialog is doing. -/
inductive Phase
  | closed
  | editing (field : TextField) (draft : String)
  | saving (field : TextField) (draft : String)
  deriving DecidableEq, Repr

namespace App

variable {a b : App} {f : TextField}

/-- What the dialog is doing, by the session of the text that it shows. -/
def phase (a : App) : Phase :=
  match a.active with
  | none => .closed
  | some f =>
    match (a.session f).stage with
    | .closed => .closed
    | .editing draft _ => .editing f draft
    | .saving draft => .saving f draft

/-- No dialog is open. -/
structure IsClosed (a : App) : Prop where
  field : ∀ g, (a.session g).field = g
  view : a.view = .overview
  active : a.active = none
  stage : ∀ g, (a.session g).stage = .closed
  input : a.input = .empty
  preview : a.preview = []
  revision : a.previewRevision = none

/-- The dialog of a text is open: the text area holds the draft, and the preview shows it. -/
structure IsOpen (a : App) (f : TextField) : Prop where
  field : ∀ g, (a.session g).field = g
  view : a.view = .editor
  helping : a.helping = false
  active : a.active = some f
  draft : (a.session f).draft? = some a.input.text
  other : (a.session f.other).stage = .closed
  preview : a.preview = Markdown.preview a.input.text a.previewWidth
  revision : a.previewRevision = some (a.session f).revision

/-- The fields agree on whether a dialog is open, and on which. -/
def Coherent (a : App) : Prop := a.IsClosed ∨ ∃ f, a.IsOpen f

/-! ### Sessions of the console -/

@[simp] theorem session_setSession (s : Session) : (a.setSession f s).session f = s := by
  cases f <;> rfl

@[simp] theorem session_setSession_other (s : Session) :
    (a.setSession f s).session f.other = a.session f.other := by
  cases f <;> rfl

@[simp] theorem view_setSession (s : Session) : (a.setSession f s).view = a.view := by
  cases f <;> rfl

@[simp] theorem helping_setSession (s : Session) : (a.setSession f s).helping = a.helping := by
  cases f <;> rfl

@[simp] theorem active_setSession (s : Session) : (a.setSession f s).active = a.active := by
  cases f <;> rfl

@[simp] theorem record_setSession (s : Session) : (a.setSession f s).record = a.record := by
  cases f <;> rfl

@[simp] theorem input_setSession (s : Session) : (a.setSession f s).input = a.input := by
  cases f <;> rfl

@[simp] theorem pendingSave_setSession (s : Session) :
    (a.setSession f s).pendingSave = a.pendingSave := by
  cases f <;> rfl

@[simp] theorem preview_setSession (s : Session) : (a.setSession f s).preview = a.preview := by
  cases f <;> rfl

@[simp] theorem previewRevision_setSession (s : Session) :
    (a.setSession f s).previewRevision = a.previewRevision := by
  cases f <;> rfl

@[simp] theorem previewWidth_setSession (s : Session) :
    (a.setSession f s).previewWidth = a.previewWidth := by
  cases f <;> rfl

/-- A session put in for a text that it edits keeps every session with its text. -/
theorem field_setSession (h : ∀ g, (a.session g).field = g) {s : Session} (hs : s.field = f) :
    ∀ g, ((a.setSession f s).session g).field = g :=
  TextField.forall_of (f := f) (by simp [hs]) (by simp [h])

/-- Refreshing the preview changes no more than its lines and the revision they belong to. -/
theorem exists_refreshPreview (a : App) :
    ∃ lines revision,
      a.refreshPreview = { a with preview := lines, previewRevision := revision } := by
  unfold refreshPreview
  cases a.activeSession? with
  | none => exact ⟨a.preview, a.previewRevision, rfl⟩
  | some s =>
    dsimp only
    split
    · exact ⟨a.preview, a.previewRevision, rfl⟩
    · exact ⟨_, _, rfl⟩

/-! ### The phase -/

theorem IsClosed.phase (h : a.IsClosed) : a.phase = .closed := by simp [App.phase, h.active]

theorem phase_eq_editing_iff {draft : String} :
    a.phase = .editing f draft ↔
      a.active = some f ∧ ∃ lastError, (a.session f).stage = .editing draft lastError := by
  unfold phase
  cases ha : a.active with
  | none => simp
  | some g => cases hs : (a.session g).stage <;> simp <;> grind

theorem phase_eq_saving_iff {draft : String} :
    a.phase = .saving f draft ↔ a.active = some f ∧ (a.session f).stage = .saving draft := by
  unfold phase
  cases ha : a.active with
  | none => simp
  | some g => cases hs : (a.session g).stage <;> simp <;> grind

/-- An open dialog is edited or being saved, with the text of the text area. -/
theorem IsOpen.phase (h : a.IsOpen f) :
    a.phase = .editing f a.input.text ∨ a.phase = .saving f a.input.text := by
  have hd := h.draft
  rw [phase_eq_editing_iff, phase_eq_saving_iff]
  cases hs : (a.session f).stage <;> simp_all [Session.draft?, h.active]

theorem isSaving_iff : a.isSaving = true ↔ ∃ f draft, a.phase = .saving f draft := by
  simp only [phase_eq_saving_iff, isSaving, activeSession?]
  cases ha : a.active with
  | none => simp
  | some g => simp [Session.isSaving_iff]

/-! ### What an event can do -/

/-- The fields of the console that tell of the dialog and its record. -/
structure Dialog where
  view : View
  active : Option TextField
  description : Session
  overview : Session
  input : TextBuffer
  preview : List Screen.Line
  previewRevision : Option Nat
  previewWidth : Nat
  record : Record
  pendingSave : Option SaveRequest

/-- The dialog of a console. -/
def dialog (a : App) : Dialog :=
  ⟨a.view, a.active, a.description, a.overview, a.input, a.preview, a.previewRevision,
    a.previewWidth, a.record, a.pendingSave⟩

theorem session_of_dialog (h : b.dialog = a.dialog) (g : TextField) : b.session g = a.session g := by
  simp only [dialog, Dialog.mk.injEq] at h
  cases g <;> simp [session, h]

theorem phase_of_dialog (h : b.dialog = a.dialog) : b.phase = a.phase := by
  have hs := session_of_dialog h
  simp only [dialog, Dialog.mk.injEq] at h
  simp [phase, h, hs]

theorem record_of_dialog (h : b.dialog = a.dialog) : b.record = a.record :=
  congrArg Dialog.record h

theorem IsClosed.of_dialog (ha : a.IsClosed) (h : b.dialog = a.dialog) : b.IsClosed := by
  have hs := session_of_dialog h
  simp only [dialog, Dialog.mk.injEq] at h
  obtain ⟨hview, hactive, -, -, hinput, hpreview, hrevision, -⟩ := h
  exact ⟨fun g => hs g ▸ ha.field g, hview ▸ ha.view, hactive ▸ ha.active,
    fun g => hs g ▸ ha.stage g, hinput ▸ ha.input, hpreview ▸ ha.preview, hrevision ▸ ha.revision⟩

theorem IsOpen.of_dialog (ha : a.IsOpen f) (h : b.dialog = a.dialog) (hb : b.helping = a.helping) :
    b.IsOpen f := by
  have hs := session_of_dialog h
  simp only [dialog, Dialog.mk.injEq] at h
  obtain ⟨hview, hactive, -, -, hinput, hpreview, hrevision, hwidth, -⟩ := h
  exact
    { field := fun g => hs g ▸ ha.field g
      view := hview ▸ ha.view
      helping := hb ▸ ha.helping
      active := hactive ▸ ha.active
      draft := by rw [hs, hinput]; exact ha.draft
      other := hs f.other ▸ ha.other
      preview := by rw [hpreview, hinput, hwidth]; exact ha.preview
      revision := by rw [hrevision, hs]; exact ha.revision }

/-- The save that an event asks for: the save key, pressed while a draft is edited. -/
def savedBy? (a : App) : Event → Option SaveRequest
  | .key k =>
    if k.action = .save then
      match a.phase with
      | .editing field draft => some ⟨a.record.id, field, draft⟩
      | _ => none
    else none
  | _ => none

/-- What an event can do to the dialog of `a`, with the save that it starts. -/
inductive Reaction (a b : App) : Option SaveRequest → Prop
  | rests (same : b.dialog = a.dialog) (helping : b.helping = a.helping ∨ a.IsClosed) :
      Reaction a b none
  | opens {f : TextField} (closed : a.IsClosed) (opened : b.IsOpen f)
      (phase : b.phase = .editing f (a.record.content f)) (record : b.record = a.record)
      (pending : b.pendingSave = a.pendingSave) : Reaction a b none
  | types {f : TextField} {old new : String} (before : a.phase = .editing f old)
      (opened : b.IsOpen f) (after : b.phase = .editing f new) (record : b.record = a.record)
      (pending : b.pendingSave = a.pendingSave) : Reaction a b none
  | cancels {f : TextField} {draft : String} (before : a.phase = .editing f draft)
      (closed : b.IsClosed) (record : b.record = a.record)
      (pending : b.pendingSave = a.pendingSave) : Reaction a b none
  | saves {f : TextField} {draft : String} (before : a.phase = .editing f draft)
      (opened : b.IsOpen f) (after : b.phase = .saving f draft) (record : b.record = a.record)
      (pending : b.pendingSave = some ⟨a.record.id, f, draft⟩) :
      Reaction a b (some ⟨a.record.id, f, draft⟩)

/-- The console stays coherent. -/
theorem Reaction.coherent {saved : Option SaveRequest} (h : Reaction a b saved) (ha : a.Coherent) :
    b.Coherent := by
  cases h with
  | rests same helping =>
    rcases ha with closed | ⟨f, opened⟩
    · exact .inl (closed.of_dialog same)
    · rcases helping with helping | closed
      · exact .inr ⟨f, opened.of_dialog same helping⟩
      · exact .inl (closed.of_dialog same)
  | opens _ opened => exact .inr ⟨_, opened⟩
  | types _ opened => exact .inr ⟨_, opened⟩
  | cancels _ closed => exact .inl closed
  | saves _ opened => exact .inr ⟨_, opened⟩

end App

end PublisherConsole
