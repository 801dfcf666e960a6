import PublisherConsole.Proofs.Editing.Editor

/-!
# The history of an editor

An editor is asked for one thing after another: to open on a record, to take another draft, to drop
it, to hand out its write, to take the outcome of a write, or to save through a store. Whatever is
asked and in whatever order, the editor can be told from the journal of the requests and replies.

* `Editor.Change` lists what a request can do to the fields: nothing, take a draft, stay open with the
  same draft, or close;
* `Editor.Recorded` is the invariant: the fields agree with each other, the revision counts the drafts
  taken so far, and the draft of an open editor is the last of them;
* `Editor.history_isConsistent` assembles what holds after every sequence of requests.
-/

namespace PublisherConsole

namespace Editor

variable {e e' : Editor} {o : Overflow} {field : TextField}

/-! ### The drafts that an editor has taken -/

/-- The text of a record that an editor is opened on. A text that was never written is empty. -/
def selected (record : Record) : TextField → String
  | .description => record.description.getD ""
  | .overview => record.overview.getD ""

theorem selected_eq (record : Record) (field : TextField) :
    selected record field = record.content field := by
  cases field <;> rfl

/-- The draft that an editor takes with an exchange: the text of the record that it is opened on, or
the text that replaces the draft. Requests that were turned down give none. -/
def Exchange.draft? (field : TextField) : Exchange → Option String
  | ⟨.open record _, .ok .done⟩ => some (selected record field)
  | ⟨.update content, .ok .done⟩ => some content
  | _ => none

/-- The drafts that an editor has taken, in order. -/
def drafts (field : TextField) (past : List Exchange) : List String :=
  past.filterMap (·.draft? field)

theorem drafts_append (past past' : List Exchange) :
    drafts field (past ++ past') = drafts field past ++ drafts field past' :=
  List.filterMap_append ..

theorem drafts_singleton (x : Exchange) : drafts field [x] = (x.draft? field).toList := by
  cases h : x.draft? field <;> simp [drafts, h]

/-! ### What a request can do -/

/-- What a request can do to an editor, with the draft that the editor takes. -/
inductive Change (o : Overflow) (e e' : Editor) : Option String → Prop
  | rests (same : e' = e) : Change o e e' none
  | takes {draft : String} {lastError : Option String} (room : e.isFull o = false)
      (taken : e' =
        { e with state := .editing, draft := some draft, revision := e.revision + 1, lastError }) :
      Change o e e' (some draft)
  | stays {state : State} {lastError : Option String} (before : e.isOpen = true)
      (after : state ≠ .closed) (shown : lastError.isSome = true → state = .editing)
      (stayed : e' = { e with state, lastError }) : Change o e e' none
  | closes (closed : e' = e.dropped) : Change o e e' none

theorem Change.settled (h : e.isOpen = true) (failure : Option String) :
    Change o e (e.settled failure) none := by
  cases failure with
  | none => exact .closes rfl
  | some message => exact .stays h (by simp) (fun _ => rfl) rfl

theorem Change.taking {draft : String} {lastError : Option String}
    (h : (e.taking o draft lastError).running? = some e') :
    (e.taking o draft lastError).reply = .ok .done ∧ Change o e e' (some draft) := by
  cases hf : e.isFull o with
  | true => simp [Editor.taking, hf, Response.running?] at h
  | false =>
    simp only [Editor.taking, hf, Response.running?] at h ⊢
    exact ⟨rfl, .takes hf (Option.some.inj h).symm⟩

/-- Every request does one of these, unless the program stops. -/
theorem change_perform {request : Request} (h : (e.perform o request).running? = some e') :
    Change o e e' (Exchange.draft? e.field ⟨request, (e.perform o request).reply⟩) := by
  rw [perform_eq] at h ⊢
  cases hg : e.grants request with
  | false =>
    rw [hg] at h
    cases request with
    | «open» record access => cases access <;> exact .rests (Option.some.inj h).symm
    | _ => exact .rests (Option.some.inj h).symm
  | true =>
    rw [hg] at h
    cases request with
    | «open» record access =>
      obtain ⟨hreply, change⟩ := Change.taking h
      simpa [hreply, Exchange.draft?, selected_eq] using change
    | update content =>
      obtain ⟨hreply, change⟩ := Change.taking h
      simpa [hreply, Exchange.draft?] using change
    | cancel => exact .closes (Option.some.inj h).symm
    | beginSave =>
      have hs : e.state = .editing := by simpa [grants] using hg
      exact .stays (by simp [isOpen, hs]) (by simp) (by simp) (Option.some.inj h).symm
    | finishSave failure =>
      have hs : e.state = .saving := by simpa [grants] using hg
      obtain rfl : e.settled failure = e' := Option.some.inj h
      exact .settled (by simp [isOpen, hs]) failure
    | save outcome =>
      have hs : e.state = .editing := by simpa [grants] using hg
      cases outcome with
      | ok record => exact .closes (Option.some.inj h).symm
      | error cause =>
        obtain rfl : e.settled (some cause.message) = e' := Option.some.inj h
        exact .settled (by simp [isOpen, hs]) (some cause.message)

/-! ### The invariant -/

/-- An editor for the field that has gone through the exchanges: it has a draft while it is open and
shows a message only to those who edit, its revision has counted the drafts it took, and the draft is
the last one of them. -/
structure Recorded (o : Overflow) (e : Editor) (field : TextField) (past : List Exchange) :
    Prop where
  sameField : e.field = field
  present : e.draft.isSome = e.isOpen
  message : e.lastError.isSome = true → e.state = .editing
  revision : e.revision = .ofNat (drafts field past).length
  room : o = .stops → (drafts field past).length < 2 ^ 64
  last : e.isOpen = true → e.draft = (drafts field past).getLast?

theorem recorded_new (o : Overflow) (field : TextField) : Recorded o (new field) field [] :=
  ⟨rfl, rfl, by simp [new], rfl, fun _ => by simp [drafts], by simp [isOpen, new]⟩

/-- A counter that is not full has room for another draft. -/
theorem Recorded.room_of_not_isFull {past : List Exchange} (h : Recorded o e field past)
    (hf : e.isFull o = false) (ho : o = .stops) : (drafts field past).length + 1 < 2 ^ 64 := by
  have hroom := h.room ho
  have hcount : e.revision.toNat = (drafts field past).length := by
    rw [h.revision, UInt64.toNat_ofNat', Nat.mod_eq_of_lt hroom]
  have hne : e.revision.toNat + 1 ≠ UInt64.size := by simpa [isFull, ho] using hf
  have hsize : UInt64.size = 2 ^ 64 := rfl
  omega

/-- An exchange is recorded. -/
theorem Recorded.step {past : List Exchange} {x : Exchange} {taken? : Option String}
    (h : Recorded o e field past) (change : Change o e e' taken?) (hx : x.draft? field = taken?) :
    Recorded o e' field (past ++ [x]) := by
  have hdrafts : drafts field (past ++ [x]) = drafts field past ++ taken?.toList := by
    rw [drafts_append, drafts_singleton, hx]
  cases change with
  | rests same =>
    subst same
    rw [Option.toList_none, List.append_nil] at hdrafts
    exact ⟨h.sameField, h.present, h.message, hdrafts ▸ h.revision, hdrafts ▸ h.room,
      hdrafts ▸ h.last⟩
  | takes room taken =>
    subst taken
    refine ⟨h.sameField, by simp [isOpen], fun _ => rfl, ?_, fun ho => ?_, fun _ => ?_⟩
    · simp [hdrafts, h.revision]
    · simpa [hdrafts] using h.room_of_not_isFull room ho
    · simp [hdrafts]
  | stays before after shown stayed =>
    subst stayed
    rw [Option.toList_none, List.append_nil] at hdrafts
    refine ⟨h.sameField, ?_, shown, hdrafts ▸ h.revision, hdrafts ▸ h.room,
      fun _ => hdrafts ▸ h.last before⟩
    simpa [isOpen, after] using h.present.trans before
  | closes closed =>
    subst closed
    rw [Option.toList_none, List.append_nil] at hdrafts
    exact ⟨h.sameField, rfl, by simp [dropped], hdrafts ▸ h.revision, hdrafts ▸ h.room,
      by simp [dropped, isOpen]⟩

theorem Recorded.perform {past : List Exchange} {request : Request} (h : Recorded o e field past)
    (hrun : (e.perform o request).running? = some e') :
    Recorded o e' field (past ++ [⟨request, (e.perform o request).reply⟩]) :=
  h.step (h.sameField ▸ change_perform hrun) rfl

/-- So is a whole sequence of them. -/
theorem Recorded.after? {past : List Exchange} {requests : List Request}
    (h : Recorded o e field past) (hrun : e.after? o requests = some e') :
    Recorded o e' field (past ++ e.journal o requests) := by
  induction requests generalizing e past with
  | nil =>
    obtain rfl : e = e' := Option.some.inj hrun
    simpa [journal] using h
  | cons request requests ih =>
    rw [after?_cons, Option.bind_eq_some_iff] at hrun
    obtain ⟨next, hfirst, hrest⟩ := hrun
    have hafter := after_of_running? hfirst
    simpa [journal, hafter] using ih (h.perform hfirst) hrest

theorem recorded_after?_new {requests : List Request} (h : (new field).after? o requests = some e) :
    Recorded o e field ((new field).journal o requests) :=
  (recorded_new o field).after? h

/-- Counts that are the same in 64 bits are the same if less than a whole turn lies between them. -/
theorem eq_of_ofNat_eq {a b : Nat} (h : UInt64.ofNat a = UInt64.ofNat b) (hle : a ≤ b)
    (hlt : b < a + 2 ^ 64) : a = b := by
  have hmod : a % 2 ^ 64 = b % 2 ^ 64 := by simpa using congrArg UInt64.toNat h
  omega

/-- As long as the revision stays, so does the draft: the drafts up to one moment are the first ones
of those up to a later moment, and equally many are the same. -/
theorem Recorded.draft_eq {past later : List Exchange} (h : Recorded o e field past)
    (h' : Recorded o e' field (past ++ later)) (isOpen : e.isOpen = true)
    (isOpen' : e'.isOpen = true) (revision : e.revision = e'.revision)
    (turn : o = .wraps → (drafts field later).length < 2 ^ 64) : e.draft = e'.draft := by
  have hcount : (drafts field past).length = (drafts field (past ++ later)).length := by
    refine eq_of_ofNat_eq (h.revision ▸ h'.revision ▸ revision) ?_ ?_
    · simp [drafts_append]
    · cases o with
      | stops => exact Nat.lt_add_left _ (h'.room rfl)
      | wraps => simpa [drafts_append] using turn rfl
  have hnone : drafts field later = [] := by
    simpa [drafts_append] using hcount
  rw [h.last isOpen, h'.last isOpen', drafts_append, hnone, List.append_nil]

/-! ### The whole history -/

/-- What holds of an editor for the field that was asked for the requests from the beginning. -/
structure IsConsistent (o : Overflow) (field : TextField) (requests : List Request) (e : Editor) :
    Prop where
  /-- There is a draft while the editor edits or saves. -/
  present : e.draft.isSome = true ↔ e.state = .editing ∨ e.state = .saving
  /-- It is the last draft taken: what replaced the draft since the editor was last opened, or else
  the text that it was opened on. -/
  last : e.state ≠ .closed →
    e.draft = (drafts field ((new field).journal o requests)).getLast?
  /-- The message of a failure is shown to those who edit. -/
  message : e.lastError.isSome = true → e.state = .editing
  /-- A save that is handed out is the write of the draft, and it is handed out while editing. -/
  handsOut : ∀ pending, (e.perform o .beginSave).reply = .ok (.handedOut pending) ↔
    e.state = .editing ∧ pending.field = field ∧ e.draft = some pending.content
  /-- A save while editing calls the store once, with the draft. -/
  saves : ∀ outcome, e.state = .editing →
    ∃ draft, e.draft = some draft ∧ (e.perform o (.save outcome)).writes = [⟨field, draft⟩]
  /-- Nothing else calls the store. -/
  silent : ∀ request, (e.state = .editing → ∀ outcome, request ≠ .save outcome) →
    (e.perform o request).writes = []
  /-- A request that is turned down changes no field. -/
  refuses : ∀ request, isRefusal (e.perform o request).reply = true →
    (e.perform o request).after = e
  /-- Whenever it was open at the same revision, it had the same draft. Only where the counter wraps
  around, a whole turn of it may lie in between. -/
  cached : ∀ earlier later e', requests = earlier ++ later →
    (new field).after? o earlier = some e' → e'.state ≠ .closed → e.state ≠ .closed →
    e'.revision = e.revision →
    (o = .wraps → (drafts field (e'.journal o later)).length < 2 ^ 64) → e'.draft = e.draft

theorem isOpen_iff : e.isOpen = true ↔ e.state ≠ .closed := by simp [isOpen]

/-- **Whatever is asked of an editor and in whatever order**, it can be told from its journal, for as
long as no full counter has stopped the program. -/
theorem history_isConsistent (o : Overflow) (field : TextField) (requests : List Request)
    (running : (new field).after? o requests = some e) : IsConsistent o field requests e := by
  have h := recorded_after?_new running
  have hdraft : e.state = .editing → ∃ draft, e.draft = some draft := by
    intro hs
    rw [← Option.isSome_iff_exists, h.present, isOpen_iff, hs]
    simp
  constructor
  case present =>
    rw [h.present, isOpen_iff]
    cases e.state <;> simp
  case last => exact fun hs => h.last (isOpen_iff.2 hs)
  case message => exact h.message
  case handsOut =>
    intro pending
    obtain ⟨f, content⟩ := pending
    by_cases hs : e.state = .editing
    · obtain ⟨draft, hd⟩ := hdraft hs
      simp [perform_eq, hs, hd, h.sameField, eq_comm]
    · simp [perform_eq, hs]
  case saves =>
    intro outcome hs
    obtain ⟨draft, hd⟩ := hdraft hs
    refine ⟨draft, hd, ?_⟩
    simp [perform_eq, hs, hd, h.sameField]
  case silent => exact fun request => writes_perform
  case refuses => exact fun request => perform_of_isRefusal
  case cached =>
    rintro earlier later e' rfl hearlier hopen' hopen hrevision hturn
    rw [journal_append _ _ _ hearlier] at h
    exact (recorded_after?_new hearlier).draft_eq h (isOpen_iff.2 hopen') (isOpen_iff.2 hopen)
      hrevision hturn

/-- A draft is written early, late, and in between; its first save fails and its second one is handed
out. Then the editor is opened again, and the next save fails. -/
theorem history_isConsistent_of_retry :
    let record : Record := .fresh "a" "N" ⟨⟨2020, 1, 1⟩, 0, 0, 0, 0⟩
    let requests : List Request :=
      [ .update "early", .open record .restricted, .open record .allowed, .update "draft"
      , .save (.error (.request "no answer")), .beginSave, .update "late", .cancel, .finishSave none
      , .open record .allowed, .update "again", .save (.error (.request "no answer")) ]
    let e : Editor := ⟨.overview, .editing, some "again", 4, some "Request failed: no answer"⟩
    (new .overview).after? .stops requests = some e ∧
      IsConsistent .stops .overview requests e := by
  intro record requests e
  have running : (new .overview).after? .stops requests = some e := by decide +kernel
  exact ⟨running, history_isConsistent .stops .overview requests running⟩

/-! ### A counter that wraps around -/

theorem after?_replicate_update (h : e.state = .editing) (content : String) (n : Nat) :
    e.after? .wraps (List.replicate (n + 1) (.update content)) =
      some { e with draft := some content, revision := e.revision + .ofNat (n + 1) } := by
  induction n generalizing e with
  | zero =>
    simp [perform_eq, taking, isFull, h, Response.running?]
  | succ n ih =>
    have first : (e.perform .wraps (.update content)).running? =
        some { e with draft := some content, revision := e.revision + 1 } := by
      simp [perform_eq, taking, isFull, h, Response.running?]
    have rest := ih (e := { e with draft := some content, revision := e.revision + 1 }) h
    rw [List.replicate_succ, after?_cons, first, Option.bind_some, rest]
    simp [UInt64.add_assoc, UInt64.add_comm]

/-- A whole turn of the counter leads to the same revision with any draft, so that the revision tells
drafts apart within a turn only. -/
theorem exists_whole_turn (h : e.state = .editing) (content : String) :
    ∃ later, e.after? .wraps later = some { e with draft := some content } := by
  obtain ⟨n, hn⟩ : ∃ n, n + 1 = 2 ^ 64 := ⟨2 ^ 64 - 1, by norm_num⟩
  have hturn : UInt64.ofNat (n + 1) = 0 := by rw [hn]; rfl
  refine ⟨_, (after?_replicate_update h content n).trans ?_⟩
  rw [hturn, UInt64.add_zero]

end Editor

end PublisherConsole
