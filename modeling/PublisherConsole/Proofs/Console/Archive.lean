import PublisherConsole.Console.App
import PublisherConsole.Proofs.Storage.Refinement
import PublisherConsole.Simulation.Backend

/-!
# Stores that carry out saves

To the console a store is whatever keeps records and answers saves. An `Archive` is a store seen in
this way, and it is faithful (`Archive.IsFaithful`) if a save that fails leaves its records alone,
and a save that succeeds sets one text and is answered with the record that is kept from then on.

Both kinds of stores are faithful: the scripted backend (`Simulation.Backend.isFaithful_archive`) and
the files below a directory that keep a catalogue (`Storage.FileStore.isFaithful_archive`).
-/

namespace PublisherConsole

/-- A store of records in a state `σ`, as far as saves are concerned. -/
structure Archive (σ : Type) where
  /-- The record that is kept under an identifier. -/
  record? : σ → String → Option Record
  /-- A save in the first state may be answered so, and leave the second state. -/
  Updates : σ → SaveRequest → Except Storage.Fault Record → σ → Prop

/-- The save makes one record of another: it sets its text, and it keeps the other text and the
identifier. -/
def SaveRequest.Rewrites (q : SaveRequest) (old new : Record) : Prop :=
  new.id = old.id ∧
    ∀ f, new.text? f = if f = q.pending.field then some q.pending.content else old.text? f

/-- A store does what its answers say. -/
structure Archive.IsFaithful {σ : Type} (A : Archive σ) : Prop where
  failed : ∀ {x y q fault}, A.Updates x q (.error fault) y → ∀ id, A.record? y id = A.record? x id
  saved : ∀ {x y q r}, A.Updates x q (.ok r) y →
    (∃ old, A.record? x q.apiId = some old ∧ q.Rewrites old r) ∧
      ∀ id, A.record? y id = if id = q.apiId then some r else A.record? x id

/-- Setting a text is what a save asks for. -/
theorem SaveRequest.rewrites_setContent (q : SaveRequest) (r : Record) (now : Time.Instant) :
    q.Rewrites r (r.setContent q.pending.field q.pending.content now) :=
  ⟨Record.id_setContent, Record.text?_setContent⟩

/-! ### The scripted backend -/

namespace Simulation.Backend

/-- The scripted backend, which stamps a save with any time. -/
def archive : Archive Backend where
  record? b id := b.records.lookup id
  Updates b q outcome b' :=
    ∃ now, b.finishUpdate ⟨q.apiId, q.pending.field, q.pending.content⟩ now = (outcome, b')

/-- An update fails and keeps the records, or it finds a record and replaces it. -/
theorem finishUpdate_cases (b : Backend) (call : UpdateCall) (now : Time.Instant) :
    (∃ fault b', b.finishUpdate call now = (.error fault, b') ∧ b'.records = b.records) ∨
      ∃ old b', b.records.lookup call.id = some old ∧
        b.finishUpdate call now = (.ok (old.setContent call.field call.content now), b') ∧
        b'.records = b.records.map fun (id, r) =>
          if id = call.id then (id, old.setContent call.field call.content now) else (id, r) := by
  unfold finishUpdate
  dsimp only
  split
  · exact .inl ⟨_, _, rfl, rfl⟩
  · unfold load
    cases h : b.records.lookup call.id with
    | none => exact .inl ⟨_, _, rfl, rfl⟩
    | some old => exact .inr ⟨old, _, rfl, rfl, rfl⟩

theorem isFaithful_archive : archive.IsFaithful where
  failed := by
    rintro b b' q fault ⟨now, h⟩ id
    rcases b.finishUpdate_cases ⟨q.apiId, q.pending.field, q.pending.content⟩ now with
      ⟨_, _, hu, hrecords⟩ | ⟨_, _, -, hu, -⟩
    · rw [h] at hu
      cases hu
      simp only [archive, hrecords]
    · rw [h] at hu
      cases hu
  saved := by
    rintro b b' q r ⟨now, h⟩
    rcases b.finishUpdate_cases ⟨q.apiId, q.pending.field, q.pending.content⟩ now with
      ⟨_, _, hu, -⟩ | ⟨old, _, hold, hu, hrecords⟩
    · rw [h] at hu
      cases hu
    · rw [h] at hu
      cases hu
      refine ⟨⟨old, hold, q.rewrites_setContent old now⟩, fun id => ?_⟩
      simp only [archive, hrecords, Storage.FileTree.lookup_map_replace, hold, Option.map_some]

end Simulation.Backend

/-! ### Files -/

namespace Storage

/-- An update of a catalogue fails and changes nothing, or it finds a record and replaces it. -/
theorem Catalogue.serve_update_cases (c : Catalogue) (id : String) (field : TextField)
    (content : String) (stamp : Stamp) :
    (∃ fault, c.serve (.update id field content stamp) = (.error fault, c)) ∨
      ∃ item, c.lookup id = some item ∧
        c.serve (.update id field content stamp) =
          (.ok (.record (item.record.setContent field content stamp.now)),
            c.insert id { item with record := item.record.setContent field content stamp.now }) := by
  by_cases hid : isValidId id = true
  · cases hl : c.lookup id with
    | none => exact .inl ⟨_, onItem_of_missing hid hl⟩
    | some item => exact .inr ⟨item, rfl, serve_update_of_lookup hid hl⟩
  · exact .inl ⟨_, onItem_of_not_isValidId hid⟩

namespace FileStore

variable {s : FileStore} {place : Path} {t t' : FileTree} {c : Catalogue}

/-- The store of the files that keep a catalogue below a place. -/
def archive (s : FileStore) (place : Path) : Archive {t : FileTree // ∃ c, Holds s place t c} where
  record? t id := (t.1.run (s.read id)).1.toOption
  Updates t q outcome t' :=
    ∃ stamp : Stamp, stamp.now.isValid = true ∧ IsUsableTag stamp.tag ∧
      t.1.run (s.update q.apiId q.pending.field q.pending.content stamp) = (outcome, t'.1)

/-- What is read is what the catalogue has. -/
theorem Holds.toOption_read (h : Holds s place t c) (id : String) :
    (t.run (s.read id)).1.toOption = (c.lookup id).map (·.record) := by
  cases hl : c.lookup id with
  | none =>
    by_cases hid : isValidId id = true
    · rw [h.run_read_of_missing hid hl]
      rfl
    · rw [FileStore.read, if_neg hid]
      rfl
  | some item =>
    obtain ⟨hid, -⟩ := h.items id item hl
    rw [h.run_read_of_lookup hid hl]
    rfl

/-- **An update of the files is one of the catalogue**: it fails and the files go on keeping the
same catalogue, or they keep the one with the new record. -/
theorem Holds.update_cases (h : Holds s place t c) {id : String} {field : TextField}
    {content : String} {stamp : Stamp} (hnow : stamp.now.isValid = true)
    (ht : IsUsableTag stamp.tag) {outcome : Except Fault Record}
    (hrun : t.run (s.update id field content stamp) = (outcome, t')) :
    (∃ fault, outcome = .error fault ∧ Holds s place t' c) ∨
      ∃ item, c.lookup id = some item ∧
        outcome = .ok (item.record.setContent field content stamp.now) ∧
        Holds s place t'
          (c.insert id { item with record := item.record.setContent field content stamp.now }) := by
  obtain ⟨hanswer, holds⟩ := h.serve_update id field content hnow ht
  have hserve : t.run (s.serve (.update id field content stamp)) = (outcome.map .record, t') := by
    simp only [FileStore.serve, FileTree.run_bind, hrun]
    rfl
  rw [hserve] at hanswer holds
  rcases c.serve_update_cases id field content stamp with ⟨fault, hc⟩ | ⟨item, hl, hc⟩
  · rw [hc] at hanswer holds
    cases outcome with
    | ok r => cases hanswer
    | error e => exact .inl ⟨e, rfl, holds⟩
  · rw [hc] at hanswer holds
    cases outcome with
    | ok r =>
      cases hanswer
      exact .inr ⟨item, hl, rfl, holds⟩
    | error e => cases hanswer

theorem isFaithful_archive (s : FileStore) (place : Path) : (s.archive place).IsFaithful where
  failed := by
    rintro ⟨t, c, h⟩ ⟨t', _⟩ q fault ⟨stamp, hnow, ht, hrun⟩ id
    simp only [archive] at hrun ⊢
    rcases h.update_cases hnow ht hrun with ⟨_, -, h'⟩ | ⟨_, -, houtcome, -⟩
    · rw [h'.toOption_read, h.toOption_read]
    · cases houtcome
  saved := by
    rintro ⟨t, c, h⟩ ⟨t', _⟩ q r ⟨stamp, hnow, ht, hrun⟩
    simp only [archive] at hrun ⊢
    rcases h.update_cases hnow ht hrun with ⟨_, houtcome, -⟩ | ⟨item, hl, houtcome, h'⟩
    · cases houtcome
    · cases houtcome
      refine ⟨⟨item.record, ?_, q.rewrites_setContent item.record stamp.now⟩, fun id => ?_⟩
      · rw [h.toOption_read, hl]
        rfl
      · rw [h'.toOption_read, h.toOption_read]
        by_cases hid : id = q.apiId
        · subst hid
          simp [AList.lookup_insert]
        · simp [AList.lookup_insert_ne hid, hid]

end FileStore

end Storage

end PublisherConsole
