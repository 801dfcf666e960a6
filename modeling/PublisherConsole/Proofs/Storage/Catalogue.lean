import Mathlib.Data.List.AList
import PublisherConsole.Proofs.Storage.Store

/-!
# What a store is meant to keep

A `Catalogue` maps identifiers to records and definitions, without any files. `Catalogue.serve` says
how it answers a request, and `Catalogue.entryAt?` which files it takes to keep it. Neither borrows
anything from a store: what an identifier is (`IsIdentifier`), what an update makes of a record
(`Catalogue.rewritten`), what stands in front in a listing (`IsListedBefore`) and the names of the
files are written out here, and agree with the store's (`isValidId_iff`, `rewritten_eq_setContent`,
`Record.precedes_iff`, `entryAt?_file`).

The listing of a catalogue has every record once (`perm_listing`), by name and then by identifier
(`pairwise_listing`), whatever order they come in (`listing_eq_of_perm`).
-/

namespace PublisherConsole

/-- A record stands in front of another one in a listing: by name, and by identifier among equal
names. -/
def IsListedBefore (a b : Record) : Prop := a.name < b.name ∨ a.name = b.name ∧ a.id ≤ b.id

namespace Record

variable {a b c : Record}

theorem precedes_iff : a.precedes b = true ↔ IsListedBefore a b := by
  simp [precedes, IsListedBefore]

instance : DecidableRel IsListedBefore := fun _ _ => decidable_of_iff _ precedes_iff

theorem precedes_eq : precedes = fun a b => decide (IsListedBefore a b) :=
  funext₂ fun _ _ => Bool.eq_iff_iff.2 (precedes_iff.trans decide_eq_true_iff.symm)

theorem precedes_trans (a b c : Record) (h : a.precedes b = true) (h' : b.precedes c = true) :
    a.precedes c = true := by
  rw [precedes_iff] at *
  rcases h with h | ⟨h, hid⟩ <;> rcases h' with h' | ⟨h', hid'⟩
  · exact .inl (String.lt_trans h h')
  · exact .inl (h' ▸ h)
  · exact .inl (h ▸ h')
  · exact .inr ⟨h.trans h', String.le_trans hid hid'⟩

theorem precedes_total (a b : Record) : (a.precedes b || b.precedes a) = true := by
  rw [Bool.or_eq_true, precedes_iff, precedes_iff]
  by_cases hab : a.name < b.name
  · exact .inl (.inl hab)
  · by_cases hba : b.name < a.name
    · exact .inr (.inl hba)
    · have h := String.le_antisymm (String.not_lt.1 hba) (String.not_lt.1 hab)
      rcases String.le_total a.id b.id with hid | hid
      · exact .inl (.inr ⟨h, hid⟩)
      · exact .inr (.inr ⟨h.symm, hid⟩)

/-- Records that precede each other have one identifier. -/
theorem id_eq_of_precedes (h : a.precedes b = true) (h' : b.precedes a = true) : a.id = b.id := by
  rw [precedes_iff] at h h'
  rcases h with h | ⟨h, hid⟩ <;> rcases h' with h' | ⟨h', hid'⟩
  · exact absurd (String.lt_trans h h') (String.lt_irrefl _)
  · exact absurd (h' ▸ h) (String.lt_irrefl _)
  · exact absurd (h ▸ h') (String.lt_irrefl _)
  · exact String.le_antisymm hid hid'

/-- Records with identifiers of their own are sorted in one way. -/
theorem mergeSort_eq_of_perm {rs rs' : List Record} (perm : rs.Perm rs')
    (sorted : rs'.Pairwise IsListedBefore) (unique : ∀ a ∈ rs', ∀ b ∈ rs', a.id = b.id → a = b) :
    rs.mergeSort precedes = rs' := by
  refine List.Perm.eq_of_pairwise (fun a b ha hb hab hba => ?_)
    (List.pairwise_mergeSort precedes_trans precedes_total rs)
    (sorted.imp precedes_iff.2) ((List.mergeSort_perm ..).trans perm)
  exact unique a (perm.mem_iff.1 (List.mem_mergeSort.1 ha)) b hb (id_eq_of_precedes hab hba)

end Record

namespace Storage

/-- An identifier of an API: at most 128 bytes of letters, digits, hyphens, underscores and dots, and
no dot in front. -/
def IsIdentifier (id : String) : Prop :=
  id ≠ "" ∧ id.utf8ByteSize ≤ 128 ∧
    (∀ c ∈ id.toList, c.isAlphanum = true ∨ c = '-' ∨ c = '_' ∨ c = '.') ∧
    id.toList.head? ≠ some '.'

theorem isValidId_iff {id : String} : isValidId id = true ↔ IsIdentifier id := by
  simp only [isValidId, IsIdentifier, Bool.and_eq_true, Bool.or_eq_true, List.all_eq_true,
    decide_eq_true_eq, and_assoc, or_assoc]

instance (id : String) : Decidable (IsIdentifier id) := decidable_of_iff _ isValidId_iff

/-- What is kept about an API. -/
structure Item where
  record : Record
  definition : Option String

/-- Records and definitions by their identifiers. -/
abbrev Catalogue := AList fun _ : String => Item

/-- A request to a store, with what its writes are stamped with. -/
inductive Request
  | create (r : Record) (tag : String)
  | importDefinition (id text tag : String)
  | update (id : String) (field : TextField) (content : String) (stamp : Stamp)
  | read (id : String)
  | fetch (id : String)
  | list

/-- The answer to a request. -/
inductive Answer
  | done
  | record (r : Record)
  | text (s : String)
  | records (rs : List Record)

namespace Catalogue

variable {c : Catalogue} {id : String} {item : Item} {r : Record} {p : Path}

/-- The records. -/
def records (c : Catalogue) : List Record := c.entries.map (·.2.record)

/-- The records by name, and then by identifier. -/
def listing (c : Catalogue) : List Record := c.records.mergeSort fun a b => IsListedBefore a b

/-- A record after an update: one text is the given one, the time is the present one, and everything
else is as it was. -/
def rewritten (r : Record) (content : String) (now : Time.Instant) : TextField → Record
  | .description => ⟨r.id, r.name, some content, r.overview, r.kind, r.lifecycle, now⟩
  | .overview => ⟨r.id, r.name, r.description, some content, r.kind, r.lifecycle, now⟩

theorem rewritten_eq_setContent (r : Record) (field : TextField) (content : String)
    (now : Time.Instant) : rewritten r content now field = r.setContent field content now := by
  cases field <;> rfl

/-- Answer a request about one identifier; `act` has what is kept under it. -/
def onItem (c : Catalogue) (id : String) (act : Item → Except Fault Answer × Catalogue) :
    Except Fault Answer × Catalogue :=
  if IsIdentifier id then
    match c.lookup id with
    | some item => act item
    | none => (.error (.apiNotFound id), c)
  else (.error (.invalidId id), c)

/-- Answer a request. A request that fails changes nothing. -/
def serve (c : Catalogue) : Request → Except Fault Answer × Catalogue
  | .create r _ =>
    if IsIdentifier r.id then
      if r.id ∈ c then (.error (.alreadyExists r.id), c) else (.ok .done, c.insert r.id ⟨r, none⟩)
    else (.error (.invalidId r.id), c)
  | .importDefinition id text _ =>
    c.onItem id fun item => (.ok .done, c.insert id { item with definition := some text })
  | .update id field content stamp =>
    c.onItem id fun item =>
      let r := rewritten item.record content stamp.now field
      (.ok (.record r), c.insert id { item with record := r })
  | .read id => c.onItem id fun item => (.ok (.record item.record), c)
  | .fetch id =>
    if IsIdentifier id then
      match (c.lookup id).bind (·.definition) with
      | some text => (.ok (.text text), c)
      | none => (.error (.definitionNotFound id), c)
    else (.error (.invalidId id), c)
  | .list => (.ok (.records c.listing), c)

/-- Answer one request after the other. -/
def serveAll (c : Catalogue) : List Request → List (Except Fault Answer) × Catalogue
  | [] => ([], c)
  | q :: qs =>
    let (answer, c) := c.serve q
    let (answers, c) := serveAll c qs
    (answer :: answers, c)

/-- The files that keep a catalogue, by their paths below the directory of all APIs. -/
def entryAt? (c : Catalogue) : Path → Option Entry
  | [] => some .directory
  | [id] => (c.lookup id).map fun _ => .directory
  | [id, name] => (c.lookup id).bind fun item =>
    if name = "api.json" then some (.file item.record.toText.toUTF8)
    else if name = "asyncapi.json" then item.definition.map (.file ·.toUTF8)
    else none
  | _ => none

/-! ### Requests -/

theorem onItem_of_lookup {act : Item → Except Fault Answer × Catalogue} (hid : isValidId id = true)
    (hl : c.lookup id = some item) : c.onItem id act = act item := by
  rw [onItem, if_pos (isValidId_iff.1 hid), hl]

theorem onItem_of_missing {act : Item → Except Fault Answer × Catalogue} (hid : isValidId id = true)
    (hl : c.lookup id = none) : c.onItem id act = (.error (.apiNotFound id), c) := by
  rw [onItem, if_pos (isValidId_iff.1 hid), hl]

theorem onItem_of_not_isValidId {act : Item → Except Fault Answer × Catalogue}
    (hid : ¬isValidId id = true) : c.onItem id act = (.error (.invalidId id), c) := by
  rw [onItem, if_neg (isValidId_iff.not.1 hid)]

theorem serve_update_of_lookup {field : TextField} {content : String} {stamp : Stamp}
    (hid : isValidId id = true) (hl : c.lookup id = some item) :
    c.serve (.update id field content stamp) =
      (.ok (.record (item.record.setContent field content stamp.now)),
        c.insert id { item with record := item.record.setContent field content stamp.now }) := by
  rw [serve, onItem_of_lookup hid hl, rewritten_eq_setContent]

/-! ### Files -/

@[simp] theorem entryAt?_nil : c.entryAt? [] = some .directory := rfl

@[simp] theorem entryAt?_directory :
    c.entryAt? [id] = (c.lookup id).map fun _ => .directory := rfl

@[simp] theorem entryAt?_file (name : String) :
    c.entryAt? [id, name] = (c.lookup id).bind fun item =>
      if name = recordFile then some (.file item.record.toText.toUTF8)
      else if name = definitionFile then item.definition.map (.file ·.toUTF8)
      else none := rfl

@[simp] theorem entryAt?_below (x y z : String) (p : Path) :
    c.entryAt? (x :: y :: z :: p) = none := rfl

/-- A new API takes a directory and a file. -/
theorem entryAt?_insert_new (h : c.lookup id = none) (p : Path) :
    entryAt? (c.insert id ⟨r, none⟩) p =
      if p = [id] then some .directory
      else if p = [id, recordFile] then some (.file r.toText.toUTF8)
      else c.entryAt? p := by
  match p with
  | [] => simp
  | [x] =>
    by_cases hx : x = id
    · subst hx
      simp [AList.lookup_insert]
    · simp [hx, AList.lookup_insert_ne hx]
  | [x, name] =>
    by_cases hx : x = id
    · subst hx
      by_cases hn : name = recordFile <;> simp [AList.lookup_insert, hn, h]
    · simp [hx, AList.lookup_insert_ne hx]
  | _ :: _ :: _ :: _ => simp

/-- Another record takes another file in the place of the old one. -/
theorem entryAt?_insert_record (h : c.lookup id = some item) (p : Path) :
    entryAt? (c.insert id { item with record := r }) p =
      if p = [id, recordFile] then some (.file r.toText.toUTF8) else c.entryAt? p := by
  match p with
  | [] => simp
  | [x] =>
    by_cases hx : x = id
    · subst hx
      simp [AList.lookup_insert, h]
    · simp [AList.lookup_insert_ne hx]
  | [x, name] =>
    by_cases hx : x = id
    · subst hx
      by_cases hn : name = recordFile <;> simp [AList.lookup_insert, hn, h]
    · simp [hx, AList.lookup_insert_ne hx]
  | _ :: _ :: _ :: _ => simp

/-- Another definition takes another file in the place of the old one. -/
theorem entryAt?_insert_definition {text : String} (h : c.lookup id = some item) (p : Path) :
    entryAt? (c.insert id { item with definition := some text }) p =
      if p = [id, definitionFile] then some (.file text.toUTF8) else c.entryAt? p := by
  have hne := recordFile_ne_definitionFile.symm
  match p with
  | [] => simp
  | [x] =>
    by_cases hx : x = id
    · subst hx
      simp [AList.lookup_insert, h]
    · simp [AList.lookup_insert_ne hx]
  | [x, name] =>
    by_cases hx : x = id
    · subst hx
      by_cases hn : name = definitionFile <;> simp [AList.lookup_insert, hn, h, hne]
    · simp [hx, AList.lookup_insert_ne hx]
  | _ :: _ :: _ :: _ => simp

/-- There are no other files than those of records and definitions. -/
theorem entryAt?_of_ne {name : String} (hr : name ≠ recordFile) (hd : name ≠ definitionFile) :
    c.entryAt? [id, name] = none := by
  cases h : c.lookup id <;> simp [h, hr, hd]

/-! ### Listings -/

/-- A listing has every record once. -/
theorem perm_listing (c : Catalogue) : c.listing.Perm c.records := List.mergeSort_perm ..

theorem listing_eq_mergeSort (c : Catalogue) : c.listing = c.records.mergeSort Record.precedes := by
  rw [listing, Record.precedes_eq]

/-- A listing is ordered. -/
theorem pairwise_listing (c : Catalogue) :
    c.listing.Pairwise fun a b => a.name < b.name ∨ a.name = b.name ∧ a.id ≤ b.id := by
  rw [listing_eq_mergeSort]
  exact (List.pairwise_mergeSort Record.precedes_trans Record.precedes_total _).imp
    Record.precedes_iff.1

theorem mem_records_iff : r ∈ c.records ↔ ∃ id item, c.lookup id = some item ∧ item.record = r := by
  simp only [records, List.mem_map]
  constructor
  · rintro ⟨⟨id, item⟩, hmem, rfl⟩
    exact ⟨id, item, AList.mem_lookup_iff.2 hmem, rfl⟩
  · rintro ⟨id, item, hl, rfl⟩
    exact ⟨⟨id, item⟩, AList.mem_lookup_iff.1 hl, rfl⟩

/-- The records in the order of the identifiers. -/
theorem filterMap_keys (c : Catalogue) :
    c.keys.filterMap (fun id => (c.lookup id).map (·.record)) = c.records := by
  rw [AList.keys, List.keys, List.filterMap_map, records, ← List.filterMap_eq_map]
  refine List.filterMap_congr fun entry hmem => ?_
  have : c.lookup entry.1 = some entry.2 := AList.mem_lookup_iff.2 hmem
  simp [this]

/-- Records whose identifiers are those that they are kept under are listed in one way. -/
theorem listing_eq_of_perm (h : ∀ id item, c.lookup id = some item → item.record.id = id)
    {rs : List Record} (hperm : rs.Perm c.records) : rs.mergeSort Record.precedes = c.listing := by
  refine Record.mergeSort_eq_of_perm (hperm.trans c.perm_listing.symm) c.pairwise_listing ?_
  intro a ha b hb hid
  have ha : a ∈ c.records := c.perm_listing.mem_iff.1 ha
  have hb : b ∈ c.records := c.perm_listing.mem_iff.1 hb
  obtain ⟨x, item, hx, rfl⟩ := mem_records_iff.1 ha
  obtain ⟨y, item', hy, rfl⟩ := mem_records_iff.1 hb
  rw [h x item hx, h y item' hy] at hid
  subst hid
  rw [hx] at hy
  cases hy
  rfl

end Catalogue

end Storage

end PublisherConsole
