import PublisherConsole.Proofs.Editing.Editor

/-!
# What a session does

Every operation of a session succeeds at one stage only, and the outcome is determined. One lemma
for each operation says when it succeeds and with what. A save through a store is one call of it
whose outcome is settled (`Session.save_of_editing`), or none at all (`Session.save_of_refused`).

A session says in one value what an editor keeps in its fields (`Session.editor`). As long as the
counter of the editor has room for another draft, the two reply the same to a request and remain the
same (`Session.perform_editor`), and so they do for a sequence of requests (`Session.after?_editor`).
-/

namespace PublisherConsole

namespace Session

variable {s s' : Session}

/-- A session opens for users who may edit, and only from the closed stage. -/
theorem open?_eq_ok_iff {r : Record} {access : Access} :
    s.open? r access = .ok s' ↔
      access = .allowed ∧ s.stage = .closed ∧
        s' = { s with stage := .editing (r.content s.field) none, revision := s.revision + 1 } := by
  cases access with
  | restricted => simp [open?]
  | allowed => cases h : s.stage <;> simp [open?, h, eq_comm]

/-- A draft is replaced in the editing stage only; the message of the last failure stays. -/
theorem update?_eq_ok_iff {content : String} :
    s.update? content = .ok s' ↔
      ∃ draft lastError, s.stage = .editing draft lastError ∧
        s' = { s with stage := .editing content lastError, revision := s.revision + 1 } := by
  cases h : s.stage <;> simp [update?, h, eq_comm]

/-- A draft is dropped in the editing stage only. -/
theorem cancel?_eq_some_iff :
    s.cancel? = some s' ↔
      ∃ draft lastError, s.stage = .editing draft lastError ∧ s' = { s with stage := .closed } := by
  cases h : s.stage <;> simp [cancel?, h, eq_comm]

/-- A save hands out the draft. -/
theorem beginSave?_eq_ok_iff {p : PendingSave} :
    s.beginSave? = .ok (p, s') ↔
      ∃ draft lastError, s.stage = .editing draft lastError ∧ p = ⟨s.field, draft⟩ ∧
        s' = { s with stage := .saving draft } := by
  cases h : s.stage <;> simp [beginSave?, h, eq_comm]

/-- Success ends a session. -/
theorem finishSave?_none_eq_ok_iff :
    s.finishSave? none = .ok s' ↔
      ∃ draft, s.stage = .saving draft ∧ s' = { s with stage := .closed } := by
  cases h : s.stage <;> simp [finishSave?, h, eq_comm]

/-- Failure goes back to the draft. -/
theorem finishSave?_some_eq_ok_iff {message : String} :
    s.finishSave? (some message) = .ok s' ↔
      ∃ draft, s.stage = .saving draft ∧
        s' = { s with stage := .editing draft (some message) } := by
  cases h : s.stage <;> simp [finishSave?, h, eq_comm]

theorem isSaving_iff : s.isSaving = true ↔ ∃ draft, s.stage = .saving draft := by
  cases h : s.stage <;> simp [isSaving, h]

theorem isEditing_iff :
    s.isEditing = true ↔ ∃ draft lastError, s.stage = .editing draft lastError := by
  cases h : s.stage <;> simp [isEditing, h]

/-! ### Saving through a store -/

section Store

variable {m : Type → Type} [Monad m] {update : TextField → String → m (Except Storage.Fault Record)}

/-- What a session makes of the outcome of the write of its draft. -/
def settle (s : Session) (draft : String) :
    Except Storage.Fault Record → Except SaveFault Record × Session
  | .ok record => (.ok record, { s with stage := .closed })
  | .error cause =>
    (.error (.failed s.field cause), { s with stage := .editing draft (some cause.message) })

/-- An edited draft is saved with one call of the store: its result is settled. -/
theorem save_of_editing [LawfulMonad m] {draft : String} {lastError : Option String}
    (h : s.stage = .editing draft lastError) :
    s.save update = s.settle draft <$> update s.field draft := by
  simp only [save, beginSave?, h, map_eq_pure_bind]
  congr 1
  funext outcome
  cases outcome <;> rfl

/-- A save that is refused leaves the store alone. -/
theorem save_of_refused (h : s.isEditing = false) :
    s.save update = pure (.error (.refused (.wrongStage .saving s.stage)), s) := by
  unfold save beginSave?
  cases hs : s.stage with
  | editing draft lastError => simp [isEditing, hs] at h
  | closed => rfl
  | saving draft => rfl

end Store

end Session

/-! ### Editors and sessions -/

/-- Where an editor stands at a stage. -/
@[simp] def Stage.state : Stage → Editor.State
  | .closed => .closed
  | .editing .. => .editing
  | .saving _ => .saving

/-- The fault of an editor that a refusal stands for. -/
@[simp] def Refusal.fault : Refusal → Editor.Fault
  | .restricted field => .restricted field
  | .wrongStage operation stage => .invalidTransition operation stage.state

/-- The fault of an editor that a failed save stands for. -/
@[simp] def SaveFault.fault : SaveFault → Editor.Fault
  | .refused refusal => refusal.fault
  | .failed field cause => .saveFailed field cause

namespace Session

open Editor (Request Response Exchange)

/-- The editor of a session. -/
def editor (s : Session) : Editor where
  field := s.field
  state := s.stage.state
  draft := s.draft?
  revision := .ofNat s.revision
  lastError := s.lastError?

/-- What comes of an operation that gives nothing but another session. -/
@[simp] def response (s : Session) : Except Refusal Session → Response Session
  | .ok s' => ⟨.ok .done, s', []⟩
  | .error refusal => ⟨.error refusal.fault, s, []⟩

/-- Put a request to a session, which replies in the words of an editor. -/
def perform (s : Session) : Request → Response Session
  | .open record access => s.response (s.open? record access)
  | .update content => s.response (s.update? content)
  | .cancel =>
    match s.cancel? with
    | some s' => ⟨.ok (.cancelled true), s', []⟩
    | none => ⟨.ok (.cancelled false), s, []⟩
  | .beginSave =>
    match s.beginSave? with
    | .ok (pending, s') => ⟨.ok (.handedOut pending), s', []⟩
    | .error refusal => ⟨.error refusal.fault, s, []⟩
  | .finishSave failure => s.response (s.finishSave? failure)
  | .save outcome =>
    let ((result, s'), writes) := Id.run ((s.save (Editor.recordingStore outcome)).run [])
    ⟨(result.map .saved).mapError SaveFault.fault, s', writes⟩

/-- The session after a sequence of requests. -/
def after (s : Session) (requests : List Request) : Session :=
  requests.foldl (fun s request => (s.perform request).after) s

/-- The requests with their replies, in order. -/
def journal (s : Session) : List Request → List Exchange
  | [] => []
  | request :: requests =>
    ⟨request, (s.perform request).reply⟩ :: (s.perform request).after.journal requests

variable {s : Session} {o : Overflow}

/-- The counter of an editor is not full, if there is room for another draft of its session. -/
theorem isFull_of_room {e : Editor} (he : e.revision = .ofNat s.revision)
    (room : o = .stops → s.revision + 1 < 2 ^ 64) : e.isFull o = false := by
  cases o with
  | wraps => rfl
  | stops =>
    have hroom := room rfl
    have hcount : e.revision.toNat = s.revision := by
      rw [he, UInt64.toNat_ofNat', Nat.mod_eq_of_lt (Nat.lt_of_succ_lt hroom)]
    have hne : e.revision.toNat + 1 ≠ UInt64.size := by rw [hcount]; exact hroom.ne
    simpa [Editor.isFull] using hne

theorem perform_save_of_editing {draft : String} {lastError : Option String}
    (h : s.stage = .editing draft lastError) (outcome : Except Storage.Fault Record) :
    s.perform (.save outcome) =
      ⟨((s.settle draft outcome).1.map .saved).mapError SaveFault.fault,
        (s.settle draft outcome).2, [⟨s.field, draft⟩]⟩ := by
  simp [perform, save_of_editing h, Editor.recordingStore]

theorem perform_save_of_refused (h : s.isEditing = false)
    (outcome : Except Storage.Fault Record) :
    s.perform (.save outcome) = ⟨.error (.invalidTransition .saving s.stage.state), s, []⟩ := by
  simp [perform, save_of_refused h, Except.map, Except.mapError]

/-- **An editor does what its session does**, as long as there is room for another draft. -/
theorem perform_editor (room : o = .stops → s.revision + 1 < 2 ^ 64) (request : Request) :
    s.editor.perform o request = (s.perform request).map editor := by
  have hfull {e : Editor} (he : e.revision = .ofNat s.revision) := isFull_of_room he room
  rw [Editor.perform_eq]
  cases request with
  | «open» record access =>
    cases access with
    | restricted => simp [perform, open?, editor]
    | allowed =>
      cases hs : s.stage <;>
        simp [Editor.taking, perform, open?, editor, draft?, lastError?, hs, hfull]
  | update content =>
    cases hs : s.stage <;>
      simp [Editor.taking, perform, update?, editor, draft?, lastError?, hs, hfull]
  | cancel =>
    cases hs : s.stage <;>
      simp [Editor.dropped, perform, cancel?, editor, draft?, lastError?, hs]
  | beginSave =>
    cases hs : s.stage <;>
      simp [perform, beginSave?, editor, draft?, lastError?, hs]
  | finishSave failure =>
    cases failure <;> cases hs : s.stage <;>
      simp [Editor.settled, Editor.dropped, perform, finishSave?, editor, draft?, lastError?, hs]
  | save outcome =>
    cases hs : s.stage with
    | editing draft lastError =>
      rw [perform_save_of_editing hs]
      cases outcome <;>
        simp [Editor.ending, Editor.settled, Editor.dropped, settle, editor, draft?, lastError?, hs,
          Except.map, Except.mapError]
    | closed =>
      rw [perform_save_of_refused (by simp [isEditing, hs])]
      simp [editor, hs]
    | saving draft =>
      rw [perform_save_of_refused (by simp [isEditing, hs])]
      simp [editor, hs]

/-- A session counts at most one draft with a request. -/
theorem revision_perform_le (s : Session) (request : Request) :
    (s.perform request).after.revision ≤ s.revision + 1 := by
  cases request with
  | «open» record access => cases access <;> cases hs : s.stage <;> simp [perform, open?, hs]
  | update content => cases hs : s.stage <;> simp [perform, update?, hs]
  | cancel => cases hs : s.stage <;> simp [perform, cancel?, hs]
  | beginSave => cases hs : s.stage <;> simp [perform, beginSave?, hs]
  | finishSave failure => cases hs : s.stage <;> simp [perform, finishSave?, hs]
  | save outcome =>
    by_cases hs : s.isEditing = true
    · obtain ⟨draft, lastError, hs⟩ := isEditing_iff.1 hs
      rw [perform_save_of_editing hs]
      cases outcome <;> simp [settle]
    · rw [perform_save_of_refused (by simpa using hs)]
      exact Nat.le_succ _

theorem running?_response (outcome : Except Refusal Session) :
    (s.response outcome).running? = some (s.response outcome).after := by
  rcases outcome with ⟨_ | _⟩ | _ <;> rfl

/-- The program of a session is never stopped. -/
theorem running?_perform (s : Session) (request : Request) :
    (s.perform request).running? = some (s.perform request).after := by
  cases request with
  | «open» record access => exact running?_response _
  | update content => exact running?_response _
  | cancel => cases hs : s.stage <;> simp [perform, cancel?, hs, Response.running?]
  | beginSave => cases hs : s.stage <;> simp [perform, beginSave?, hs, Response.running?]
  | finishSave failure => exact running?_response _
  | save outcome =>
    by_cases hs : s.isEditing = true
    · obtain ⟨draft, lastError, hs⟩ := isEditing_iff.1 hs
      rw [perform_save_of_editing hs]
      cases outcome <;> rfl
    · rw [perform_save_of_refused (by simpa using hs)]
      rfl

/-- **An editor goes through what its session goes through**: it has the same replies to a sequence
of requests and ends as the same session, as long as there is room for all the drafts. -/
theorem after?_editor (s : Session) (requests : List Request)
    (room : o = .stops → s.revision + requests.length < 2 ^ 64) :
    s.editor.after? o requests = some (s.after requests).editor ∧
      s.editor.journal o requests = s.journal requests := by
  induction requests generalizing s with
  | nil => exact ⟨rfl, rfl⟩
  | cons request requests ih =>
    have hstep := perform_editor (s := s) (o := o)
      (fun ho => lt_of_le_of_lt (by simp) (room ho)) request
    have hle := s.revision_perform_le request
    obtain ⟨hafter, hjournal⟩ := ih (s.perform request).after fun ho => by
      have hroom := room ho
      rw [List.length_cons] at hroom
      omega
    constructor
    · rw [Editor.after?_cons, hstep, Editor.running?_map, running?_perform, Option.map_some,
        Option.bind_some, hafter]
      rfl
    · simp [Editor.journal, journal, hstep, hjournal]

end Session

end PublisherConsole
