import Mathlib.Tactic
import PublisherConsole.Editing.Editor

/-!
# What an editor does

A program runs on an editor and gives a result and the editor afterwards (`Editor.run`). From what the
steps of an operation do follows what the operation does where it belongs, and that it changes nothing
elsewhere.

`Editor.perform` puts one request to an editor; its store writes down the calls it gets, so that they
can be counted. `Editor.perform_eq` says which requests are granted and what comes of them. Requests
follow one another (`Editor.after?`) until a full counter stops the program.
-/

namespace PublisherConsole

namespace Editor

variable {e e' : Editor} {o : Overflow} {field : TextField}

/-! ### Running programs -/

section Run

variable {m : Type → Type} [Monad m] {α β : Type}

/-- Go on after a result, or leave it at a fault. -/
def andThen (next : α → Program m β) : Except Fault α × Editor → m (Except Fault β × Editor)
  | (.ok a, e) => e.run (next a)
  | (.error fault, e) => pure (.error fault, e)

@[simp] theorem run_pure (a : α) : e.run (pure a : Program m α) = pure (.ok a, e) := rfl

@[simp] theorem run_throw (fault : Fault) :
    e.run (throw fault : Program m α) = pure (.error fault, e) := rfl

@[simp] theorem run_bind (x : Program m α) (next : α → Program m β) :
    e.run (x >>= next) = e.run x >>= andThen next := by
  simp only [run, ExceptT.run_bind, StateT.run_bind]
  refine bind_congr fun r => ?_
  rcases r with ⟨fault | a, e'⟩ <;> rfl

variable [LawfulMonad m]

theorem run_lift (x : StateT Editor m α) :
    e.run (ExceptT.lift x : Program m α) = (fun r => (.ok r.1, r.2)) <$> x.run e := by
  simp [run]

@[simp] theorem run_get : e.run (get : Program m Editor) = pure (.ok e, e) :=
  (run_lift _).trans (by simp)

@[simp] theorem run_set (e' : Editor) : e.run (set e' : Program m PUnit) = pure (.ok ⟨⟩, e') :=
  (run_lift _).trans (by simp)

@[simp] theorem run_modify (f : Editor → Editor) :
    e.run (modify f : Program m PUnit) = pure (.ok ⟨⟩, f e) :=
  (run_lift _).trans (by simp)

@[simp] theorem run_liftM (x : m α) :
    e.run (liftM x : Program m α) = (fun a => (.ok a, e)) <$> x :=
  (run_lift _).trans (by simp)

@[simp] theorem run_map (f : α → β) (x : Program m α) :
    e.run (f <$> x) = (fun r => (r.1.map f, r.2)) <$> e.run x := by
  simp [run]

theorem run_expectState (operation : Operation) (expected : State) :
    e.run (expectState operation expected : Program m Unit) =
      pure (if e.state = expected then .ok () else .error (.invalidTransition operation e.state),
        e) := by
  by_cases hs : e.state = expected <;> simp [expectState, andThen, hs]

/-- An operation goes on where it belongs. -/
theorem run_expectState_bind {operation : Operation} {expected : State} {next : Unit → Program m β}
    (h : e.state = expected) :
    e.run (expectState operation expected >>= next) = e.run (next ()) := by
  simp [run_expectState, h, andThen]

/-- It fails elsewhere, before anything is changed. -/
theorem run_expectState_bind_of_ne {operation : Operation} {expected : State}
    {next : Unit → Program m β} (h : e.state ≠ expected) :
    e.run (expectState operation expected >>= next) =
      pure (.error (.invalidTransition operation e.state), e) := by
  simp [run_expectState, h, andThen]

theorem isFull_of_revision (h : e'.revision = e.revision) : e'.isFull o = e.isFull o := by
  simp [isFull, h]

@[simp] theorem run_countDraft :
    e.run (countDraft o : Program m Unit) =
      pure (if e.isFull o then (.error .overflow, e)
        else (.ok (), { e with revision := e.revision + 1 })) := by
  cases hc : e.isFull o <;> simp [countDraft, andThen, hc]

/-! ### Operations where they belong -/

/-- The editor without its draft. -/
def dropped (e : Editor) : Editor := { e with draft := none, lastError := none, state := .closed }

/-- The editor after the outcome of a save. -/
def settled (e : Editor) : Option String → Editor
  | none => e.dropped
  | some message => { e with lastError := some message, state := .editing }

theorem run_openOn (h : e.state = .closed) (record : Record) :
    e.run (openOn o record .allowed : Program m Unit) =
      pure (if e.isFull o then (.error .overflow, { e with draft := some (record.content e.field) })
        else (.ok (),
          { e with
            state := .editing, draft := some (record.content e.field)
            revision := e.revision + 1, lastError := none })) := by
  cases hf : e.isFull o <;>
    simp [openOn, run_expectState, h, andThen, isFull_of_revision (e := e), hf]

theorem run_updateDraft (h : e.state = .editing) (content : String) :
    e.run (updateDraft o content : Program m Unit) =
      pure (if e.isFull o then (.error .overflow, { e with draft := some content })
        else (.ok (), { e with draft := some content, revision := e.revision + 1 })) := by
  simp [updateDraft, run_expectState_bind h, andThen, isFull_of_revision (e := e)]

theorem run_cancel (h : e.state = .editing) :
    e.run (cancel : Program m Bool) = pure (.ok true, e.dropped) := by
  simp [cancel, close, h, andThen, dropped, -bind_pure_comp]

theorem run_cancel_of_ne (h : e.state ≠ .editing) :
    e.run (cancel : Program m Bool) = pure (.ok false, e) := by
  cases hs : e.state <;> simp_all [cancel, andThen]

theorem run_beginSave (h : e.state = .editing) :
    e.run (beginSave : Program m PendingSave) =
      pure (.ok ⟨e.field, e.draft.getD ""⟩, { e with state := .saving, lastError := none }) := by
  rw [beginSave, run_expectState_bind h]
  simp [andThen, -bind_pure_comp]

theorem run_finishSave (h : e.state = .saving) (failure : Option String) :
    e.run (finishSave failure : Program m Unit) = pure (.ok (), e.settled failure) := by
  unfold finishSave
  rw [run_expectState_bind h]
  cases failure <;> simp [close, settled, dropped]

/-- The result of a save and the editor afterwards, by the outcome of its write. -/
def ending (e : Editor) : Except Storage.Fault Record → Except Fault Record × Editor
  | .ok record => (.ok record, e.dropped)
  | .error cause => (.error (.saveFailed e.field cause), e.settled (some cause.message))

/-- A save is one call of the store with the draft. -/
theorem run_save (h : e.state = .editing)
    (update : TextField → String → m (Except Storage.Fault Record)) :
    e.run (save update : Program m Record) = e.ending <$> update e.field (e.draft.getD "") := by
  simp only [save, run_bind, run_beginSave h, pure_bind, andThen, run_liftM, map_eq_pure_bind,
    bind_assoc]
  refine bind_congr fun outcome => ?_
  cases outcome <;> simp [run_finishSave, andThen, ending, settled, dropped, -bind_pure_comp]

end Run

/-! ### Requests -/

/-- What can be asked of an editor. -/
inductive Request
  | open (record : Record) (access : Access)
  | update (content : String)
  | cancel
  | beginSave
  | finishSave (failure : Option String)
  | save (outcome : Except Storage.Fault Record)

/-- What an editor answers. -/
inductive Answer
  | done
  | cancelled (dropped : Bool)
  | handedOut (pending : PendingSave)
  | saved (record : Record)

/-- What comes of a request: the reply, the editor afterwards, and the calls of the store. -/
structure Response (σ : Type) where
  reply : Except Fault Answer
  after : σ
  writes : List PendingSave

/-- The response, with what is left behind seen in another way. -/
@[simp] def Response.map {σ τ : Type} (f : σ → τ) (response : Response σ) : Response τ :=
  { response with after := f response.after }

/-- Whether a reply turns the request down. A write that failed is no refusal, and neither is a full
counter, which ends the program. -/
def isRefusal : Except Fault Answer → Bool
  | .error (.restricted _) | .error (.invalidTransition ..) => true
  | .error (.saveFailed ..) | .error .overflow => false
  | .ok (.cancelled dropped) => !dropped
  | .ok _ => false

/-- A store that writes down its calls and has one outcome for all of them. -/
def recordingStore (outcome : Except Storage.Fault Record) (field : TextField) (content : String) :
    StateM (List PendingSave) (Except Storage.Fault Record) := do
  modify (· ++ [⟨field, content⟩])
  return outcome

/-- The operation that a request asks for. -/
def act (o : Overflow) : Request → Program (StateM (List PendingSave)) Answer
  | .open record access => do openOn o record access; return .done
  | .update content => do updateDraft o content; return .done
  | .cancel => do return .cancelled (← cancel)
  | .beginSave => do return .handedOut (← beginSave)
  | .finishSave failure => do finishSave failure; return .done
  | .save outcome => do return .saved (← save (recordingStore outcome))

/-- Put a request to an editor. -/
def perform (o : Overflow) (e : Editor) (request : Request) : Response Editor :=
  let ((reply, e'), writes) := Id.run ((e.run (act o request)).run [])
  ⟨reply, e', writes⟩

/-- Whether the editor stands where the request belongs, and the user may make it. -/
@[simp] def grants (e : Editor) : Request → Bool
  | .open _ access => access = .allowed && e.state = .closed
  | .update _ | .cancel | .beginSave | .save _ => e.state = .editing
  | .finishSave _ => e.state = .saving

/-- What comes of another draft. If the counter is full, the program stops with the draft in place. -/
def taking (o : Overflow) (e : Editor) (draft : String) (lastError : Option String) :
    Response Editor :=
  if e.isFull o then ⟨.error .overflow, { e with draft := some draft }, []⟩
  else ⟨.ok .done,
    { e with state := .editing, draft := some draft, revision := e.revision + 1, lastError }, []⟩

/-- What comes of a request that is granted. -/
@[simp] def granted (o : Overflow) (e : Editor) : Request → Response Editor
  | .open record _ => e.taking o (record.content e.field) none
  | .update content => e.taking o content e.lastError
  | .cancel => ⟨.ok (.cancelled true), e.dropped, []⟩
  | .beginSave =>
    ⟨.ok (.handedOut ⟨e.field, e.draft.getD ""⟩), { e with state := .saving, lastError := none }, []⟩
  | .finishSave failure => ⟨.ok .done, e.settled failure, []⟩
  | .save outcome =>
    ⟨(e.ending outcome).1.map .saved, (e.ending outcome).2, [⟨e.field, e.draft.getD ""⟩]⟩

/-- What comes of a request that is not granted. -/
@[simp] def refused (e : Editor) : Request → Response Editor
  | .open _ .restricted => ⟨.error (.restricted e.field), e, []⟩
  | .open _ .allowed => ⟨.error (.invalidTransition .opening e.state), e, []⟩
  | .update _ => ⟨.error (.invalidTransition .editing e.state), e, []⟩
  | .cancel => ⟨.ok (.cancelled false), e, []⟩
  | .beginSave | .save _ => ⟨.error (.invalidTransition .saving e.state), e, []⟩
  | .finishSave _ => ⟨.error (.invalidTransition .finishing e.state), e, []⟩

/-- A request that is granted changes the fields as it should. -/
theorem perform_of_grants {request : Request} (h : e.grants request = true) :
    e.perform o request = e.granted o request := by
  cases request with
  | «open» record access =>
    obtain ⟨rfl, hs⟩ : access = .allowed ∧ e.state = .closed := by simpa [grants] using h
    cases hf : e.isFull o <;>
      simp [perform, act, run_openOn hs, taking, hf, Except.map]
  | update content =>
    have hs : e.state = .editing := by simpa [grants] using h
    cases hf : e.isFull o <;>
      simp [perform, act, run_updateDraft hs, taking, hf, hs, Except.map]
  | cancel =>
    have hs : e.state = .editing := by simpa [grants] using h
    simp [perform, act, run_cancel hs, Except.map]
  | beginSave =>
    have hs : e.state = .editing := by simpa [grants] using h
    simp [perform, act, run_beginSave hs, Except.map]
  | finishSave failure =>
    have hs : e.state = .saving := by simpa [grants] using h
    simp [perform, act, run_finishSave hs, Except.map]
  | save outcome =>
    have hs : e.state = .editing := by simpa [grants] using h
    cases outcome <;> simp [perform, act, run_save hs, recordingStore, ending]

/-- A request that is not granted changes nothing. -/
theorem perform_of_not_grants {request : Request} (h : e.grants request = false) :
    e.perform o request = e.refused request := by
  cases request with
  | «open» record access =>
    cases access with
    | restricted => simp [perform, act, openOn, andThen]
    | allowed =>
      have hs : e.state ≠ .closed := by simpa [grants] using h
      simp [perform, act, openOn, run_expectState, hs, andThen]
  | update content =>
    have hs : e.state ≠ .editing := by simpa [grants] using h
    simp [perform, act, updateDraft, run_expectState, hs, andThen]
  | cancel =>
    have hs : e.state ≠ .editing := by simpa [grants] using h
    simp [perform, act, run_cancel_of_ne hs, Except.map]
  | beginSave =>
    have hs : e.state ≠ .editing := by simpa [grants] using h
    simp [perform, act, beginSave, run_expectState, hs, andThen]
  | finishSave failure =>
    have hs : e.state ≠ .saving := by simpa [grants] using h
    simp [perform, act, finishSave, run_expectState, hs, andThen]
  | save outcome =>
    have hs : e.state ≠ .editing := by simpa [grants] using h
    simp [perform, act, save, beginSave, run_expectState, hs, andThen]

/-- **What comes of a request**: it is granted where it belongs, and changes nothing elsewhere. -/
theorem perform_eq (o : Overflow) (e : Editor) (request : Request) :
    e.perform o request =
      if e.grants request then e.granted o request else e.refused request := by
  cases h : e.grants request with
  | true => exact perform_of_grants h
  | false => exact perform_of_not_grants h

theorem isRefusal_refused (e : Editor) (request : Request) :
    isRefusal (e.refused request).reply = true := by
  cases request with
  | «open» record access => cases access <;> rfl
  | _ => rfl

theorem isRefusal_taking (draft : String) (lastError : Option String) :
    isRefusal (e.taking o draft lastError).reply = false := by
  cases hf : e.isFull o <;> simp [taking, hf, isRefusal]

theorem isRefusal_granted (o : Overflow) (e : Editor) (request : Request) :
    isRefusal (e.granted o request).reply = false := by
  cases request with
  | «open» record access => exact isRefusal_taking _ _
  | update content => exact isRefusal_taking _ _
  | save outcome => cases outcome <;> rfl
  | _ => rfl

/-- A request that is turned down changes nothing. -/
theorem perform_of_isRefusal {request : Request}
    (h : isRefusal (e.perform o request).reply = true) : (e.perform o request).after = e := by
  rw [perform_eq] at h ⊢
  cases hg : e.grants request with
  | true =>
    rw [hg, if_pos rfl, isRefusal_granted] at h
    cases h
  | false =>
    cases request with
    | «open» record access => cases access <;> simp
    | _ => simp

/-- Nothing but the save of an editor that edits calls the store. -/
theorem writes_perform {request : Request}
    (h : e.state = .editing → ∀ outcome, request ≠ .save outcome) :
    (e.perform o request).writes = [] := by
  rw [perform_eq]
  cases hg : e.grants request with
  | true =>
    cases request with
    | save outcome => exact absurd rfl (h (by simpa [grants] using hg) outcome)
    | «open» record access => cases hf : e.isFull o <;> simp [taking, hf]
    | update content => cases hf : e.isFull o <;> simp [taking, hf]
    | _ => rfl
  | false =>
    cases request with
    | «open» record access => cases access <;> rfl
    | _ => rfl

/-! ### Sequences of requests -/

/-- The editor after a request, unless the program has stopped. -/
def Response.running? {σ : Type} (response : Response σ) : Option σ :=
  match response.reply with
  | .error .overflow => none
  | _ => some response.after

/-- The editor after a sequence of requests, unless the program has stopped. -/
def after? (o : Overflow) (e : Editor) (requests : List Request) : Option Editor :=
  requests.foldlM (fun e request => (e.perform o request).running?) e

/-- A request and its reply. -/
structure Exchange where
  request : Request
  reply : Except Fault Answer

/-- The requests with their replies, in order. -/
def journal (o : Overflow) (e : Editor) : List Request → List Exchange
  | [] => []
  | request :: requests =>
    ⟨request, (e.perform o request).reply⟩ :: (e.perform o request).after.journal o requests

@[simp] theorem after?_nil : e.after? o [] = some e := rfl

@[simp] theorem after?_cons (request : Request) (requests : List Request) :
    e.after? o (request :: requests) =
      (e.perform o request).running?.bind fun e' => e'.after? o requests := rfl

theorem running?_map {σ τ : Type} (f : σ → τ) (response : Response σ) :
    (response.map f).running? = response.running?.map f := by
  unfold Response.running?
  rcases response with ⟨⟨_ | _⟩ | _, after, writes⟩ <;> rfl

theorem after_of_running? {response : Response Editor} (h : response.running? = some e) :
    response.after = e := by
  unfold Response.running? at h
  split at h
  · cases h
  · exact Option.some.inj h

theorem journal_append (e : Editor) (requests later : List Request)
    (h : e.after? o requests = some e') :
    e.journal o (requests ++ later) = e.journal o requests ++ e'.journal o later := by
  induction requests generalizing e with
  | nil =>
    obtain rfl : e = e' := Option.some.inj h
    rfl
  | cons request requests ih =>
    rw [after?_cons, Option.bind_eq_some_iff] at h
    obtain ⟨next, hfirst, hrest⟩ := h
    obtain rfl := after_of_running? hfirst
    simp [journal, ih _ hrest]

end Editor

end PublisherConsole
