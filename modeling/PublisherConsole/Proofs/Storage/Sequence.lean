import PublisherConsole.Proofs.Storage.Refinement
import PublisherConsole.Proofs.Storage.Serial
import PublisherConsole.Proofs.Storage.Update

/-!
# Updates one after the other

An `Update` is a call to change one text of an API. It is sound on a tree (`Update.IsSound`) if the
API is there and its new record can be written. Then it succeeds (`Update.IsSound.run`), the trees
between its calls show the records from before it or from after it (`Update.IsSound.throughout`), and
all updates are as sound afterwards as they were (`Update.IsSound.after`).

The main statement is `reads_runAll`: after sound updates, one after the other, each record is the
first one with the updates of its API applied.

Callers that make one request after another need to know of each one whether it succeeds, with what
result, and what the store keeps then. `FileStore.Holds.run_create`, `run_importDefinition` and
`run_update` say so; a request that fails leaves the tree alone. What is kept alike in two trees is
answered alike (`read_congr`, `fetch_congr`).
-/

namespace PublisherConsole.Storage

/-! ### Trees that show the same records -/

namespace FileTree

variable {t t' : FileTree} {p q : Path} {content : ByteArray}

/-- An entry that a path leads to has a place. -/
theorem resolve_of_entryAt? {e : Entry} (h : t.entryAt? p = some e) :
    ∃ q, t.resolve p = .ok q ∧ t.find? q = some e := by
  unfold entryAt? at h
  split at h
  next q hq => exact ⟨q, hq, h⟩
  next => cases h

/-- The bytes of a file are those of its entry. -/
theorem bytes_congr (h : t'.entryAt? p = t.entryAt? p) (there : t.entryAt? p ≠ none) :
    t'.bytes p = t.bytes p := by
  obtain ⟨e, he⟩ := Option.ne_none_iff_exists'.1 there
  obtain ⟨q, hq, hf⟩ := resolve_of_entryAt? he
  obtain ⟨q', hq', hf'⟩ := resolve_of_entryAt? (h.trans he)
  simp [bytes, hq, hq', hf, hf', bind, Except.bind]

/-- Among the same directories, a path shows what its place holds. -/
theorem entryAt?_congr (forth : KeepsDirectories t t') (back : KeepsDirectories t' t)
    (h : ∀ q, t.resolve p = .ok q → t'.find? q = t.find? q) : t'.entryAt? p = t.entryAt? p := by
  cases hp : t.resolve p with
  | ok q => rw [entryAt?_of_resolve hp, entryAt?_of_resolve (resolve_mono forth hp), h q hp]
  | error fault =>
    cases hp' : t'.resolve p with
    | ok q => rw [resolve_mono back hp'] at hp; cases hp
    | error fault' => simp [entryAt?, hp, hp']

/-! ### Between the calls -/

variable {P : FileTree → Prop} {target : Path} {tag : String}

/-- Where the directory is there, the tree stays the same throughout. -/
theorem throughout_makeDirectories (h : t.resolve p = .ok q) (hq : t.find? q = some .directory)
    (ht : P t) : Throughout P t (makeDirectories p) := by
  rw [makeDirectories]
  cases hp : p.reverse with
  | nil => exact ht
  | cons name above =>
    have hreverse : (name :: above).reverse = p := by rw [← hp, List.reverse_reverse]
    have hmake : t.makeDirectory p = .error .fileExists := by
      simp [makeDirectory, h, hq, bind, Except.bind]
    have hchanged : t.changed (t.makeDirectory p) = (.error .fileExists, t) := by
      rw [hmake]
      rfl
    rw [makeDirectoriesUp, hreverse]
    refine Throughout.bind (throughout_single ht hchanged ht) ?_
    rw [run_makeDirectory, hchanged]
    refine Throughout.bind (throughout_single ht rfl ht) ?_
    split <;> exact ht

/-- A file that is replaced: the temporary file is made and filled, and moved over the target. -/
theorem throughout_replaceFile {temp place : Path} (htemp : t.resolve (tempPath target tag) = .ok temp)
    (hfree : t.find? temp ≠ some .directory) (hplace : t.resolve target = .ok place)
    (hover : t.find? place ≠ some .directory) (before : P t)
    (made : P (t.insert temp (.file .empty)))
    (filled : P ((t.insert temp (.file .empty)).insert temp (.file content)))
    (moved : P (t.replaced temp place content)) :
    Throughout P t (replaceFile target tag content) := by
  obtain ⟨hcreate, hwrite, hbytes, hrename⟩ :=
    calls_of_replaced content htemp hfree hplace hover
  have hfill : Throughout P t (fillAndMove target (tempPath target tag) content) := by
    rw [fillAndMove]
    refine Throughout.bind (throughout_single before (changed_eq_ok_iff.2 hcreate) made) ?_
    rw [run_create, changed_eq_ok_iff.2 hcreate]
    refine Throughout.bind (throughout_single made (changed_eq_ok_iff.2 hwrite) filled) ?_
    rw [run_write, changed_eq_ok_iff.2 hwrite]
    refine Throughout.bind (throughout_single filled rfl filled) ?_
    rw [run_sync, hbytes]
    exact throughout_single filled (changed_eq_ok_iff.2 hrename) moved
  have hrun : t.run (fillAndMove target (tempPath target tag) content) =
      (.ok (), t.replaced temp place content) :=
    run_fillAndMove_eq_ok_iff.2 ⟨_, _, hcreate, hwrite, ⟨content, hbytes⟩, hrename⟩
  rw [replaceFile, ← tempPath]
  refine Throughout.bind hfill ?_
  rw [hrun]
  exact moved

end FileTree

namespace FileStore

variable {s : FileStore} {t t' : FileTree} {id id' tag : String} {place : Path}

/-- Two trees show the same records. -/
def Shows (s : FileStore) (t t' : FileTree) : Prop :=
  ∀ id, isValidId id = true → t'.entryAt? (s.recordPath id) = t.entryAt? (s.recordPath id)

theorem Shows.refl (t : FileTree) : s.Shows t t := fun _ _ => rfl

/-- A record that is there is read from its file. -/
theorem run_read_of_entryAt? (hid : isValidId id = true) (h : t.entryAt? (s.recordPath id) ≠ none) :
    t.run (s.read id) = t.run (readRecordFile (s.recordPath id)) := by
  have hsome : (t.entryAt? (s.recordPath id)).isSome = true := Option.isSome_iff_ne_none.2 h
  rw [FileStore.read, if_pos hid, FileTree.run_bind, FileTree.run_exists?, hsome]
  rfl

theorem run_read_of_entryAt?_none (hid : isValidId id = true)
    (h : t.entryAt? (s.recordPath id) = none) :
    (t.run (s.read id)).1 = .error (.apiNotFound id) := by
  rw [FileStore.read, if_pos hid, FileTree.run_bind, FileTree.run_exists?, h]
  rfl

theorem run_read_of_not_isValidId (hid : ¬isValidId id = true) :
    t.run (s.read id) = (.error (.invalidId id), t) := by
  rw [FileStore.read, if_neg hid]
  rfl

theorem run_readRecordFile_congr {p : Path} (h : t'.entryAt? p = t.entryAt? p)
    (there : t.entryAt? p ≠ none) :
    (t'.run (readRecordFile p)).1 = (t.run (readRecordFile p)).1 := by
  rw [run_readRecordFile, run_readRecordFile, FileTree.text, FileTree.text,
    FileTree.bytes_congr h there]

/-- What is read depends on the file of the record alone. -/
theorem read_congr
    (h : isValidId id = true → t'.entryAt? (s.recordPath id) = t.entryAt? (s.recordPath id)) :
    (t'.run (s.read id)).1 = (t.run (s.read id)).1 := by
  by_cases hid : isValidId id = true
  · cases he : t.entryAt? (s.recordPath id) with
    | none =>
      rw [run_read_of_entryAt?_none hid he, run_read_of_entryAt?_none hid ((h hid).trans he)]
    | some e =>
      have there : t.entryAt? (s.recordPath id) ≠ none := by simp [he]
      rw [run_read_of_entryAt? hid there, run_read_of_entryAt? hid (by rw [h hid]; exact there)]
      exact run_readRecordFile_congr (h hid) there
  · rw [run_read_of_not_isValidId hid, run_read_of_not_isValidId hid]

theorem Shows.read (h : s.Shows t t') (id : String) :
    (t'.run (s.read id)).1 = (t.run (s.read id)).1 :=
  read_congr (h id)

/-- Different identifiers have different files. -/
theorem id_eq_of_place_eq (hid : isValidId id = true) (hid' : isValidId id' = true)
    (h : t.resolve (s.recordPath id) = .ok place) (h' : t.resolve (s.recordPath id') = .ok place) :
    id = id' := by
  have directory {id : String} {d : Path} (hid : isValidId id = true)
      (hd : t.resolve (s.directory id) = .ok d) : ∃ a, t.resolve s.apis = .ok a ∧ d = a ++ [id] := by
    rw [directory_of_isValidId hid, FileTree.resolve_snoc_iff (isPlain_of_isValidId hid)] at hd
    obtain ⟨-, a, ha, -, rfl⟩ := hd
    exact ⟨a, ha, rfl⟩
  obtain ⟨d, hd, -, rfl⟩ := resolve_recordPath_iff.1 h
  obtain ⟨d', hd', -, heq⟩ := resolve_recordPath_iff.1 h'
  obtain ⟨a, ha, rfl⟩ := directory hid hd
  obtain ⟨a', ha', rfl⟩ := directory hid' hd'
  simpa using (List.append_inj' (List.append_inj' heq rfl).1 rfl).2

/-- Reading changes nothing, whatever it finds. -/
theorem isReading_readRecordFile {p : Path} : (readRecordFile p).IsReading := by
  refine Script.IsReading.bind ⟨fun _ => rfl, fun _ => trivial⟩ fun outcome => ?_
  split
  · trivial
  · split <;> trivial

theorem isReading_read : (s.read id).IsReading := by
  unfold FileStore.read
  split
  · refine Script.IsReading.bind ⟨fun _ => rfl, fun _ => trivial⟩ fun there => ?_
    split
    · exact isReading_readRecordFile
    · trivial
  · trivial

/-- A file that is put where no record is shows nothing. -/
theorem shows_insert {temp : Path} (content : ByteArray)
    (ht : t.resolve (tempPath (s.recordPath id) tag) = .ok temp)
    (hfree : t.find? temp ≠ some .directory) : s.Shows t (t.insert temp (.file content)) := by
  intro id' _
  obtain ⟨forth, back⟩ := FileTree.keepsDirectories_insert_file content hfree
  refine FileTree.entryAt?_congr forth back fun q hq => ?_
  rw [FileTree.find?_insert (FileTree.ne_nil_of_find? hfree),
    if_neg (temp_ne_place ht hq).symm]

theorem Shows.trans {t'' : FileTree} (h : s.Shows t t') (h' : s.Shows t' t'') : s.Shows t t'' :=
  fun id hid => (h' id hid).trans (h id hid)

/-- Neither the empty nor the filled temporary file shows. -/
theorem shows_filled {temp : Path} (ht : t.resolve (tempPath (s.recordPath id) tag) = .ok temp)
    (hfree : t.find? temp ≠ some .directory) (content : ByteArray) :
    s.Shows t (t.insert temp (.file .empty)) ∧
      s.Shows t ((t.insert temp (.file .empty)).insert temp (.file content)) := by
  have first := shows_insert .empty ht hfree
  have ht' := FileTree.resolve_mono (FileTree.keepsDirectories_insert_file .empty hfree).1 ht
  have hfree' : (t.insert temp (.file .empty)).find? temp ≠ some .directory := by
    simp [FileTree.find?_insert (FileTree.ne_nil_of_find? hfree)]
  exact ⟨first, first.trans (shows_insert content ht' hfree')⟩

/-- What holds throughout the writing of a record into a directory that is there. -/
theorem throughout_writeRecord {P : FileTree → Prop} {r : Record} {temp : Path}
    (htemp : t.resolve (tempPath (s.recordPath r.id) tag) = .ok temp)
    (hfree : t.find? temp ≠ some .directory) (hplace : t.resolve (s.recordPath r.id) = .ok place)
    (hover : t.find? place ≠ some .directory) (before : P t)
    (made : P (t.insert temp (.file .empty)))
    (filled : P ((t.insert temp (.file .empty)).insert temp (.file r.toText.toUTF8)))
    (moved : P (t.replaced temp place r.toText.toUTF8)) :
    FileTree.Throughout P t (s.writeRecord r tag) := by
  obtain ⟨d, hd, hdir, -⟩ := resolve_recordPath_iff.1 hplace
  have hreplaced := FileTree.run_replaceFile_eq_ok_iff.2
    ⟨temp, place, htemp, hfree, hplace, hover, (rfl : t.replaced temp place r.toText.toUTF8 = _)⟩
  rw [writeRecord]
  refine FileTree.Throughout.bind (FileTree.throughout_makeDirectories hd hdir before) ?_
  rw [run_makeDirectories_of_resolve hplace]
  refine FileTree.Throughout.bind (FileTree.throughout_replaceFile htemp hfree hplace hover before
    made filled moved) ?_
  rw [hreplaced]
  exact moved

end FileStore

/-! ### Sound updates -/

/-- A call to change one text of an API. -/
structure Update where
  id : String
  field : TextField
  content : String
  stamp : Stamp
  deriving DecidableEq, Repr

namespace Update

/-- What the update does to the files. -/
def script (u : Update) (s : FileStore) : Script (Except Fault Record) :=
  s.update u.id u.field u.content u.stamp

/-- What the update does to the record. -/
def apply (u : Update) (r : Record) : Record := r.setContent u.field u.content u.stamp.now

/-- The record of an API after updates of any APIs, one after the other. -/
def applyAll (us : List Update) (id : String) (r : Record) : Record :=
  (us.filter (·.id = id)).foldl (fun r u => u.apply r) r

/-- The API is there, its record being kept under its identifier, and the new record can be written:
its time is an instant of the calendar, the name of the temporary file can be used, and no directory
has that name. -/
structure IsSound (u : Update) (s : FileStore) (t : FileTree) : Prop where
  there : ∃ r, (t.run (s.read u.id)).1 = .ok r ∧ r.id = u.id
  now : u.stamp.now.isValid = true
  tag : IsUsable (tempName recordFile u.stamp.tag)
  free : t.entryAt? (tempPath (s.recordPath u.id) u.stamp.tag) ≠ some .directory

variable {u v : Update} {s : FileStore} {t : FileTree} {r : Record} {id : String}

@[simp] theorem id_apply : (u.apply r).id = r.id := Record.id_setContent

@[simp] theorem applyAll_nil : applyAll [] id r = r := rfl

theorem applyAll_concat (us : List Update) :
    applyAll (us ++ [u]) id r = if u.id = id then u.apply (applyAll us id r) else applyAll us id r := by
  unfold applyAll
  rw [List.filter_append, List.foldl_append]
  by_cases h : u.id = id <;> simp [h]

@[simp] theorem id_applyAll (us : List Update) : (applyAll us id r).id = r.id := by
  induction us using List.reverseRecOn with
  | nil => rfl
  | append_singleton us u ih =>
    rw [applyAll_concat]
    split
    · rw [id_apply, ih]
    · exact ih

/-- **No update of one text undoes an update of the other.** Each text is the one of the last update
of it, or the first one if there was none. -/
theorem text?_applyAll (us : List Update) (field : TextField) :
    (applyAll us id r).text? field =
      ((us.filter fun u => u.id = id ∧ u.field = field).getLast?.map (·.content)).or
        (r.text? field) := by
  induction us using List.reverseRecOn with
  | nil => rfl
  | append_singleton us u ih =>
    rw [applyAll_concat, List.filter_append]
    by_cases hid : u.id = id
    · rw [if_pos hid, apply, Record.text?_setContent]
      by_cases hfield : field = u.field
      · simp [hid, hfield]
      · simpa [hid, hfield, Ne.symm hfield] using ih
    · simpa [hid] using ih

/-- The updates of the APIs that a store has registered are sound. -/
theorem isSound_of_holds {place : Path} {c : Catalogue} {item : Item}
    (h : FileStore.Holds s place t c) (hl : c.lookup u.id = some item)
    (now : u.stamp.now.isValid = true) (tag : IsUsableTag u.stamp.tag) : u.IsSound s t := by
  obtain ⟨hid, hown, -⟩ := h.items u.id item hl
  refine ⟨⟨item.record, by rw [h.run_read_of_lookup hid hl], hown⟩, now, tag.recordFile, ?_⟩
  have htemp := h.resolve_file hid hl (isPlain_tempName recordFile u.stamp.tag) tag.recordFile
  rw [FileStore.recordPath, tempPath_snoc, FileTree.entryAt?_of_resolve htemp, h.find?_temp]
  simp

/-- Where the record and the temporary file of a sound update are, and what it leaves. -/
theorem IsSound.run (h : u.IsSound s t) :
    ∃ r temp place, (t.run (s.read u.id)).1 = .ok r ∧ r.id = u.id ∧
      t.resolve (tempPath (s.recordPath u.id) u.stamp.tag) = .ok temp ∧
      t.find? temp ≠ some .directory ∧ t.resolve (s.recordPath u.id) = .ok place ∧
      t.find? place ≠ some .directory ∧
      t.run (u.script s) =
        (.ok (u.apply r), t.replaced temp place (u.apply r).toText.toUTF8) := by
  obtain ⟨r, hread, hown⟩ := h.there
  obtain ⟨hid, text, hbytes, -⟩ := FileStore.read_eq_ok_iff.1 hread
  obtain ⟨place, hplace, hfile⟩ := FileTree.bytes_eq_ok_iff.1 hbytes
  obtain ⟨d, hd, hdir, -⟩ := FileStore.resolve_recordPath_iff.1 hplace
  have htemp : t.resolve (tempPath (s.recordPath u.id) u.stamp.tag) =
      .ok (d ++ [tempName recordFile u.stamp.tag]) := by
    rw [FileStore.recordPath, tempPath_snoc, FileTree.resolve_snoc_iff (isPlain_tempName _ _)]
    exact ⟨h.tag, d, hd, hdir, rfl⟩
  have hfree := h.free
  rw [FileTree.entryAt?_of_resolve htemp] at hfree
  have hover : t.find? place ≠ some .directory := by simp [hfile]
  refine ⟨r, _, place, hread, hown, htemp, hfree, hplace, hover, ?_⟩
  refine FileStore.run_update_eq_ok_iff.2 ⟨r, hread, rfl, FileStore.run_writeRecord_eq_ok_iff.2 ?_⟩
  rw [id_apply, hown]
  exact ⟨t, FileStore.run_makeDirectories_of_resolve hplace,
    FileTree.run_replaceFile_eq_ok_iff.2 ⟨_, _, htemp, hfree, hplace, hover, rfl⟩⟩

/-- After a sound update, its API has the new record, and the others have theirs. -/
theorem IsSound.reads (h : u.IsSound s t) (id : String) :
    ((t.run (u.script s)).2.run (s.read id)).1 =
      (t.run (s.read id)).1.map (applyAll [u] id) := by
  obtain ⟨r, temp, place, hread, -, htemp, hfree, hplace, hover, hrun⟩ := h.run
  have hvalid := (FileStore.read_eq_ok_iff.1 hread).1
  obtain ⟨forth, back⟩ := FileTree.keepsDirectories_replaced
    (u.apply r).toText.toUTF8 hfree hover
  have hfind := FileTree.find?_replaced (t := t) (u.apply r).toText.toUTF8
    (FileTree.ne_nil_of_find? hfree) (FileTree.ne_nil_of_find? hover)
  have hone : applyAll [u] id = fun r => if u.id = id then u.apply r else r := by
    funext r
    exact applyAll_concat []
  rw [hrun, hone]
  by_cases hid : u.id = id
  · subst hid
    have hnow : (u.apply r).updatedAt.isValid = true := by
      rw [apply, Record.updatedAt_setContent, h.now]
    have hwritten := FileStore.read_of_written hvalid hnow (FileTree.resolve_mono forth hplace)
      (by rw [hfind, if_pos rfl])
    rw [hwritten, hread]
    simp [Except.map]
  · have hsame (hid' : isValidId id = true) :
        (t.replaced temp place (u.apply r).toText.toUTF8).entryAt? (s.recordPath id) =
          t.entryAt? (s.recordPath id) := by
      refine FileTree.entryAt?_congr forth back fun q hq => ?_
      have hq₁ : q ≠ place := by
        rintro rfl
        exact hid (FileStore.id_eq_of_place_eq hvalid hid' hplace hq)
      have hq₂ : q ≠ temp := (FileStore.temp_ne_place htemp hq).symm
      rw [hfind, if_neg hq₁, if_neg hq₂]
    rw [FileStore.read_congr hsame]
    cases (t.run (s.read id)).1 <;> simp [hid, Except.map]

/-- All updates are as sound after a sound update as they were before. -/
theorem IsSound.after (h : u.IsSound s t) (hv : v.IsSound s t) :
    v.IsSound s (t.run (u.script s)).2 := by
  refine ⟨?_, hv.now, hv.tag, fun hdir => ?_⟩
  · obtain ⟨r, hread, hown⟩ := hv.there
    exact ⟨applyAll [u] v.id r, by rw [h.reads, hread]; rfl, by rw [id_applyAll, hown]⟩
  · obtain ⟨r, temp, place, -, -, -, hfree, -, hover, hrun⟩ := h.run
    obtain ⟨-, back⟩ := FileTree.keepsDirectories_replaced (u.apply r).toText.toUTF8 hfree hover
    rw [hrun] at hdir
    obtain ⟨q, hq, hfind⟩ := FileTree.resolve_of_entryAt? hdir
    exact hv.free (by rw [FileTree.entryAt?_of_resolve (FileTree.resolve_mono back hq), back q hfind])

/-- **Between the calls of a sound update**, the files show the records from before it or those from
after it. -/
theorem IsSound.throughout (h : u.IsSound s t) :
    FileTree.Throughout (fun x => s.Shows t x ∨ s.Shows (t.run (u.script s)).2 x) t (u.script s) := by
  obtain ⟨r, temp, place, hread, hown, htemp, hfree, hplace, hover, hrun⟩ := h.run
  obtain ⟨made, filled⟩ := FileStore.shows_filled htemp hfree (u.apply r).toText.toUTF8
  have hwrite : FileTree.Throughout
      (fun x => s.Shows t x ∨ s.Shows (t.replaced temp place (u.apply r).toText.toUTF8) x) t
      (s.writeRecord (u.apply r) u.stamp.tag) := by
    have hid : (u.apply r).id = u.id := by rw [id_apply, hown]
    exact FileStore.throughout_writeRecord (hid ▸ htemp) hfree (hid ▸ hplace) hover
      (.inl (.refl t)) (.inl made) (.inl filled) (.inr (.refl _))
  obtain ⟨q, hq, heq, hwritten⟩ := FileStore.run_update_eq_ok_iff.1 hrun
  obtain rfl : r = q := by simpa [hread] using hq
  rw [hrun, script, FileStore.update]
  refine FileTree.Throughout.bind
    (FileTree.throughout_of_isReading FileStore.isReading_read (.inl (.refl t))) ?_
  rw [FileStore.run_read_tree, hread]
  refine FileTree.Throughout.bind hwrite ?_
  rw [apply] at hwritten
  rw [hwritten]
  exact .inr (.refl _)

/-- **A record that is kept under another identifier** has no sound updates: an update of it succeeds,
and leaves it as it was. -/
theorem lost_of_misplaced {q : Record} {t' : FileTree} (hread : (t.run (s.read u.id)).1 = .ok r)
    (hvalid : isValidId r.id = true) (hne : r.id ≠ u.id) (h : t.run (u.script s) = (.ok q, t')) :
    (t'.run (s.read u.id)).1 = .ok r := by
  obtain ⟨r', t₁, temp, place', hread', -, hmake, htemp, hfree, hplace', hover, rfl⟩ :=
    FileStore.update_replaces h
  obtain rfl : r = r' := by simpa [hread] using hread'
  obtain ⟨hid, text, hbytes, hof⟩ := FileStore.read_eq_ok_iff.1 hread
  obtain ⟨place, hplace, hfile⟩ := FileTree.bytes_eq_ok_iff.1 hbytes
  have hgrows : FileTree.Grows t t₁ := by
    simpa [hmake] using FileTree.grows_makeDirectories t (s.directory r.id)
  have hplace := FileTree.resolve_mono hgrows.keepsDirectories hplace
  have hfile := hgrows.keeps place _ hfile
  have hother : place ≠ place' := by
    rintro rfl
    exact hne (FileStore.id_eq_of_place_eq hvalid hid hplace' hplace)
  have htempne : place ≠ temp := (FileStore.temp_ne_place htemp hplace).symm
  have hafter := FileTree.resolve_mono
    (FileTree.keepsDirectories_replaced q.toText.toUTF8 hfree hover).1 hplace
  refine (FileStore.read_eq_ok_iff_of_resolve hid hafter).2 ⟨text, ?_, hof⟩
  rw [FileTree.find?_replaced _ (FileTree.ne_nil_of_find? hfree) (FileTree.ne_nil_of_find? hover),
    if_neg hother, if_neg htempne, hfile]

/-! ### Many updates -/

variable {us : List Update}

/-- An update is as sound after sound updates as it was before them. -/
theorem IsSound.runAll (hv : v.IsSound s t) (hus : ∀ u ∈ us, u.IsSound s t) :
    v.IsSound s (t.runAll (us.map (·.script s))) := by
  induction us using List.reverseRecOn generalizing v with
  | nil => exact hv
  | append_singleton us u ih =>
    have before : ∀ u ∈ us, u.IsSound s t := fun u hu => hus u (by simp [hu])
    rw [List.map_append, List.map_singleton, FileTree.runAll_concat]
    exact (ih (hus u (by simp)) before).after (ih hv before)

/-- **Updates one after the other** apply to the records one after the other. -/
theorem reads_runAll (hus : ∀ u ∈ us, u.IsSound s t) (id : String) :
    ((t.runAll (us.map (·.script s))).run (s.read id)).1 =
      (t.run (s.read id)).1.map (applyAll us id) := by
  induction us using List.reverseRecOn with
  | nil =>
    show (t.run (s.read id)).1 = (t.run (s.read id)).1.map (applyAll [] id)
    cases (t.run (s.read id)).1 <;> rfl
  | append_singleton us u ih =>
    have before : ∀ u ∈ us, u.IsSound s t := fun u hu => hus u (by simp [hu])
    have hu : u.IsSound s (t.runAll (us.map (·.script s))) := (hus u (by simp)).runAll before
    rw [List.map_append, List.map_singleton, FileTree.runAll_concat, hu.reads, ih before]
    cases (t.run (s.read id)).1 with
    | error fault => rfl
    | ok r =>
      have hone (r : Record) : applyAll [u] id r = if u.id = id then u.apply r else r :=
        applyAll_concat []
      simp only [Except.map, hone, applyAll_concat]

/-- An update after others returns the record that it leaves. -/
theorem IsSound.result (h : u.IsSound s t) (hus : ∀ u ∈ us, u.IsSound s t) :
    ((t.runAll (us.map (·.script s))).run (u.script s)).1 =
      (t.run (s.read u.id)).1.map (applyAll (us ++ [u]) u.id) := by
  obtain ⟨r, temp, place, hread, -, -, -, -, -, hrun⟩ := (h.runAll hus).run
  rw [reads_runAll hus] at hread
  rw [hrun]
  cases hq : (t.run (s.read u.id)).1 with
  | error fault => simp [hq, Except.map] at hread
  | ok q =>
    have hr : applyAll us u.id q = r := by simpa [hq, Except.map] using hread
    simp [Except.map, applyAll_concat, hr]

end Update

/-! ### Single requests -/

namespace FileStore.Holds

variable {s : FileStore} {t : FileTree} {place : Path} {c : Catalogue} {id content : String}
  {stamp : Stamp} {item : Item}

/-- An API is there and read, or it is missing and asked for in vain. -/
theorem read_or_missing (h : Holds s place t c) (id : String) :
    (∃ item, c.lookup id = some item ∧ t.run (s.read id) = (.ok item.record, t)) ∨
      c.lookup id = none ∧ ∃ fault, t.run (s.read id) = (.error fault, t) := by
  cases hl : c.lookup id with
  | some item => exact .inl ⟨item, rfl, h.run_read_of_lookup (h.items id item hl).1 hl⟩
  | none =>
    refine .inr ⟨rfl, ?_⟩
    by_cases hid : isValidId id = true
    · exact ⟨_, h.run_read_of_missing hid hl⟩
    · exact ⟨_, run_read_of_not_isValidId hid⟩

/-- A record that is kept alike is read alike. -/
theorem read_congr {t' : FileTree} {c' : Catalogue} (h : Holds s place t c)
    (h' : Holds s place t' c') (same : c'.lookup id = c.lookup id) :
    (t'.run (s.read id)).1 = (t.run (s.read id)).1 := by
  by_cases hid : isValidId id = true
  · cases hl : c.lookup id with
    | some item =>
      rw [h.run_read_of_lookup hid hl, h'.run_read_of_lookup hid (same.trans hl)]
    | none => rw [h.run_read_of_missing hid hl, h'.run_read_of_missing hid (same.trans hl)]
  · rw [run_read_of_not_isValidId hid, run_read_of_not_isValidId hid]

/-- A definition that is kept alike is fetched alike. -/
theorem fetch_congr {t' : FileTree} {c' : Catalogue} (h : Holds s place t c)
    (h' : Holds s place t' c')
    (same : (c'.lookup id).bind (·.definition) = (c.lookup id).bind (·.definition)) :
    (t'.run (s.fetch id)).1 = (t.run (s.fetch id)).1 := by
  have answer : (c'.serve (.fetch id)).1 = (c.serve (.fetch id)).1 := by
    simp only [Catalogue.serve, same]
    split
    · split <;> rfl
    · rfl
  have hserve := congrArg Prod.fst (h.serve_fetch id)
  have hserve' := congrArg Prod.fst (h'.serve_fetch id)
  rw [answer, ← hserve] at hserve'
  simp only [FileStore.serve, FileTree.run_bind, FileTree.run_pure] at hserve'
  cases hfetch : (t.run (s.fetch id)).1 <;> cases hfetch' : (t'.run (s.fetch id)).1 <;>
    simp_all [Except.map]

/-- An API is registered under an identifier that is safe and free; otherwise nothing happens. -/
theorem run_create {r : Record} (h : Holds s place t c) (now : r.updatedAt.isValid = true)
    (tag : IsUsableTag stamp.tag) :
    (isValidId r.id = true ∧ r.id ∉ c ∧ ∃ t', t.run (s.create r stamp.tag) = (.ok (), t') ∧
        Holds s place t' (c.insert r.id ⟨r, none⟩)) ∨
      ¬(isValidId r.id = true ∧ r.id ∉ c) ∧
        ∃ fault, t.run (s.create r stamp.tag) = (.error fault, t) := by
  unfold FileStore.create
  by_cases hid : isValidId r.id = true
  · rw [if_pos hid, FileTree.run_bind, FileTree.run_exists?, h.exists_record hid]
    cases hl : c.lookup r.id with
    | none => exact .inl ⟨hid, AList.lookup_eq_none.1 hl, h.writeRecord_new hid hl now tag⟩
    | some item =>
      have hmem : r.id ∈ c := AList.lookup_isSome.1 (by rw [hl]; rfl)
      exact .inr ⟨fun free => free.2 hmem, _, rfl⟩
  · rw [if_neg hid]
    exact .inr ⟨fun free => hid free.1, _, rfl⟩

/-- A definition is kept for an API that is there. -/
theorem run_importDefinition (content : String) (h : Holds s place t c)
    (hl : c.lookup id = some item) (tag : IsUsableTag stamp.tag) :
    ∃ t', t.run (s.importDefinition id content stamp.tag) = (.ok (), t') ∧
      Holds s place t' (c.insert id { item with definition := some content }) := by
  obtain ⟨hid, -, -⟩ := h.items id item hl
  obtain ⟨answer, holds⟩ := h.serve_importDefinition id content tag
  simp only [FileStore.serve, FileTree.run_bind, FileTree.run_pure, Catalogue.serve,
    Catalogue.onItem_of_lookup hid hl] at answer holds
  rcases hrun : t.run (s.importDefinition id content stamp.tag) with ⟨fault | _, t'⟩ <;>
    rw [hrun] at answer holds
  · cases answer
  · exact ⟨t', rfl, holds⟩

/-- An update of an API that is there succeeds, and replaces one file. -/
theorem run_update (field : TextField) (content : String) (h : Holds s place t c)
    (hl : c.lookup id = some item) (now : stamp.now.isValid = true) (tag : IsUsableTag stamp.tag) :
    ∃ t', t.run (s.update id field content stamp) =
        (.ok (item.record.setContent field content stamp.now), t') ∧
      Holds s place t'
        (c.insert id { item with record := item.record.setContent field content stamp.now }) ∧
      ∀ p, p ≠ place ++ [id, recordFile] → t'.find? p = t.find? p := by
  obtain ⟨hid, -, -⟩ := h.items id item hl
  have sound : (⟨id, field, content, stamp⟩ : Update).IsSound s t :=
    Update.isSound_of_holds h hl now tag
  obtain ⟨r, temp, file, hread, -, htemp, hfree, hfile, hover, hrun⟩ := sound.run
  obtain rfl : item.record = r := by simpa [h.run_read_of_lookup hid hl] using hread
  obtain ⟨-, holds⟩ := h.serve_update id field content now tag
  have run : t.run (s.update id field content stamp) =
      (.ok (item.record.setContent field content stamp.now), _) := hrun
  refine ⟨_, run, ?_, fun p hp => ?_⟩
  · simpa only [FileStore.serve, FileTree.run_bind, run, FileTree.run_pure,
      Catalogue.serve_update_of_lookup hid hl] using holds
  · have hfile' := h.resolve_file hid hl isPlain_recordFile isUsable_recordFile
    have htemp' := h.resolve_file hid hl (isPlain_tempName recordFile stamp.tag) tag.recordFile
    obtain rfl : place ++ [id] ++ [recordFile] = file := by
      simpa [recordPath, hfile'] using hfile
    obtain rfl : place ++ [id] ++ [tempName recordFile stamp.tag] = temp := by
      simpa [recordPath, tempPath_snoc, htemp'] using htemp
    -- The temporary file is gone in the end, and was not there before.
    rw [FileTree.find?_replaced _ (by simp) (by simp), if_neg (by simpa using hp)]
    split
    next htemp => rw [htemp, h.find?_temp]
    next => rfl

end FileStore.Holds

end PublisherConsole.Storage
