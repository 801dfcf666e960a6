import PublisherConsole.Proofs.Storage.Catalogue

/-!
# A store keeps a catalogue

`Holds` says that the files below the directory of all APIs are those of a catalogue, and no others.
It is kept by every request, which is answered as the catalogue answers it (`Holds.serve`), and so by
any number of them. The main statement is `store_keeps_catalogue`, about a store that begins empty.
-/

namespace PublisherConsole.Storage

/-- A tag with which files can be written. -/
def IsUsableTag (tag : String) : Prop := IsUsable (tempName definitionFile tag)

/-- The longer of the two names decides. -/
theorem IsUsableTag.recordFile {tag : String} (h : IsUsableTag tag) :
    IsUsable (tempName recordFile tag) := by
  have hr : Storage.recordFile.utf8ByteSize ≤ definitionFile.utf8ByteSize := by decide
  obtain ⟨hshort, hnul⟩ := h
  simp only [tempName, String.utf8ByteSize_append] at hshort
  refine ⟨?_, ?_⟩
  · simp only [tempName, String.utf8ByteSize_append]
    omega
  · simp only [tempName, String.toList_append, List.mem_append] at hnul ⊢
    have : '\x00' ∉ Storage.recordFile.toList := by decide
    tauto

/-- Numbers with dots between them are usable, if they are not too long. -/
theorem isUsableTag_of_digits {tag : String} (hshort : tag.utf8ByteSize ≤ 237)
    (hd : ∀ c ∈ tag.toList, c.isDigit = true ∨ c = '.') : IsUsableTag tag := by
  have hdefinition : definitionFile.utf8ByteSize = 13 := by decide
  have hdot : ".".utf8ByteSize = 1 := by decide
  have htmp : ".tmp".utf8ByteSize = 4 := by decide
  constructor
  · simp only [tempName, String.utf8ByteSize_append, FileTree.maxNameLength]
    omega
  · simp only [tempName, String.toList_append, List.mem_append, not_or]
    refine ⟨⟨⟨by decide, by decide⟩, fun h => ?_⟩, by decide⟩
    rcases hd _ h with hnul | hnul <;> exact absurd hnul (by decide)

theorem tempName_ne_recordFile (name tag : String) : tempName name tag ≠ recordFile := by
  intro h
  have := getLast?_tempName name tag
  rw [h] at this
  exact absurd this (by decide)

theorem tempName_ne_definitionFile (name tag : String) : tempName name tag ≠ definitionFile := by
  intro h
  have := getLast?_tempName name tag
  rw [h] at this
  exact absurd this (by decide)

/-- A request with instants of the calendar and with usable tags, such as numbers with dots between
them. -/
def Request.IsSound : Request → Prop
  | .create r tag => r.updatedAt.isValid = true ∧ IsUsableTag tag
  | .importDefinition _ _ tag => IsUsableTag tag
  | .update _ _ _ stamp => stamp.now.isValid = true ∧ IsUsableTag stamp.tag
  | .read _ | .fetch _ | .list => True

namespace FileStore

/-- Answer a request. -/
def serve (s : FileStore) : Request → Script (Except Fault Answer)
  | .create r tag => do return (← s.create r tag).map fun _ => .done
  | .importDefinition id text tag => do
    return (← s.importDefinition id text tag).map fun _ => .done
  | .update id field content stamp => do return (← s.update id field content stamp).map .record
  | .read id => do return (← s.read id).map .record
  | .fetch id => do return (← s.fetch id).map .text
  | .list => do return (← s.list).map .records

/-- Answer one request after the other. -/
def serveAll (s : FileStore) (t : FileTree) : List Request → List (Except Fault Answer) × FileTree
  | [] => ([], t)
  | q :: qs =>
    let (answer, t) := t.run (s.serve q)
    let (answers, t) := serveAll s t qs
    (answer :: answers, t)

variable {s : FileStore} {t : FileTree} {place : Path} {c : Catalogue} {id tag : String} {item : Item}
  {r : Record}

/-- The files below a place are those of a catalogue, each record is kept under its own identifier,
and can be read back. -/
structure Holds (s : FileStore) (place : Path) (t : FileTree) (c : Catalogue) : Prop where
  apis : t.resolve s.apis = .ok place
  entries : ∀ p, t.find? (place ++ p) = c.entryAt? p
  names : (t.namesBelow place).Nodup
  items : ∀ id item, c.lookup id = some item →
    isValidId id = true ∧ item.record.id = id ∧ item.record.updatedAt.isValid = true

/-- An empty directory holds no APIs. -/
theorem holds_empty (apis : t.resolve s.apis = .ok place) (there : t.find? place = some .directory)
    (fresh : ∀ p, p ≠ [] → t.find? (place ++ p) = none) : Holds s place t ∅ where
  apis := apis
  entries p := by
    match p with
    | [] => simpa using there
    | [id] => simpa using fresh [id] (by simp)
    | [id, name] => simpa using fresh [id, name] (by simp)
    | x :: y :: z :: p => simpa using fresh (x :: y :: z :: p) (by simp)
  names := by
    have : t.namesBelow place = [] := by
      refine List.eq_nil_iff_forall_not_mem.2 fun name hname => ?_
      have := FileTree.mem_namesBelow.1 hname
      rw [fresh [name] (by simp)] at this
      cases this
    simp [this]
  items id item h := by simp at h

/-! ### Places -/

namespace Holds

variable (h : Holds s place t c)
include h

theorem find?_place : t.find? place = some .directory := by
  simpa using h.entries []

theorem find?_directory : t.find? (place ++ [id]) = (c.lookup id).map fun _ => .directory := by
  simpa using h.entries [id]

theorem resolve_directory (hid : isValidId id = true) :
    t.resolve (s.directory id) = .ok (place ++ [id]) := by
  rw [directory_of_isValidId hid]
  exact (FileTree.resolve_snoc_iff (isPlain_of_isValidId hid)).2
    ⟨isUsable_of_isValidId hid, place, h.apis, h.find?_place, rfl⟩

/-- The files of an API that is there have their places. -/
theorem resolve_file (hid : isValidId id = true) (hl : c.lookup id = some item) {name : String}
    (hn : IsPlain name) (hu : IsUsable name) :
    t.resolve (s.directory id ++ [name]) = .ok (place ++ [id] ++ [name]) :=
  (FileTree.resolve_snoc_iff hn).2
    ⟨hu, _, h.resolve_directory hid, by rw [h.find?_directory, hl]; rfl, rfl⟩

/-- The files of an API that is missing have none. -/
theorem resolve_missing (hid : isValidId id = true) (hl : c.lookup id = none) {name : String}
    (hu : IsUsable name) : t.resolve (s.directory id ++ [name]) = .error .noSuchFile :=
  FileTree.resolve_snoc_of_missing (h.resolve_directory hid) (by rw [h.find?_directory, hl]; rfl)
    hu.noNul

theorem find?_record (hl : c.lookup id = some item) :
    t.find? (place ++ [id] ++ [recordFile]) = some (.file item.record.toText.toUTF8) := by
  have := h.entries [id, recordFile]
  simpa [hl] using this

theorem find?_definition (hl : c.lookup id = some item) :
    t.find? (place ++ [id] ++ [definitionFile]) = item.definition.map (.file ·.toUTF8) := by
  have := h.entries [id, definitionFile]
  simpa [hl, recordFile_ne_definitionFile.symm] using this

theorem find?_temp (name : String) : t.find? (place ++ [id] ++ [tempName name tag]) = none := by
  have := h.entries [id, tempName name tag]
  rw [Catalogue.entryAt?_of_ne (tempName_ne_recordFile _ _) (tempName_ne_definitionFile _ _)] at this
  simpa using this

/-- A record is there exactly when the catalogue has it. -/
theorem exists_record (hid : isValidId id = true) :
    (t.entryAt? (s.recordPath id)).isSome = (c.lookup id).isSome := by
  cases hl : c.lookup id with
  | none =>
    rw [recordPath, FileTree.entryAt?, h.resolve_missing hid hl isUsable_recordFile]
    rfl
  | some item =>
    rw [recordPath, FileTree.entryAt?_of_resolve
      (h.resolve_file hid hl isPlain_recordFile isUsable_recordFile), h.find?_record hl]
    rfl

/-! ### Reading -/

theorem run_read_of_lookup (hid : isValidId id = true) (hl : c.lookup id = some item) :
    t.run (s.read id) = (.ok item.record, t) := by
  obtain ⟨-, -, hvalid⟩ := h.items id item hl
  refine Prod.ext ?_ run_read_tree
  exact read_of_written hid hvalid
    (h.resolve_file hid hl isPlain_recordFile isUsable_recordFile) (h.find?_record hl)

theorem run_read_of_missing (hid : isValidId id = true) (hl : c.lookup id = none) :
    t.run (s.read id) = (.error (.apiNotFound id), t) := by
  rw [FileStore.read, if_pos hid, FileTree.run_bind, FileTree.run_exists?]
  simp [h.exists_record hid, hl]

theorem serve_read (id : String) :
    t.run (s.serve (.read id)) = ((c.serve (.read id)).1, t) := by
  simp only [serve, FileTree.run_bind, Catalogue.serve]
  by_cases hid : isValidId id = true
  · cases hl : c.lookup id with
    | none => rw [h.run_read_of_missing hid hl, Catalogue.onItem_of_missing hid hl]; rfl
    | some item => rw [h.run_read_of_lookup hid hl, Catalogue.onItem_of_lookup hid hl]; rfl
  · rw [Catalogue.onItem_of_not_isValidId hid]
    simp [FileStore.read, hid]
    rfl

theorem serve_fetch (id : String) :
    t.run (s.serve (.fetch id)) = ((c.serve (.fetch id)).1, t) := by
  simp only [serve, FileTree.run_bind, Catalogue.serve]
  by_cases hid : isValidId id = true
  · rw [if_pos (isValidId_iff.1 hid), FileStore.fetch, if_pos hid, FileTree.run_bind,
      FileTree.run_readText, definitionPath]
    cases hl : c.lookup id with
    | none =>
      have htext : t.text (s.directory id ++ [definitionFile]) = .error .noSuchFile := by
        rw [FileTree.text, FileTree.bytes, h.resolve_missing hid hl isUsable_definitionFile]
        rfl
      simp [htext, Except.map]
    | some item =>
      have hplace := h.resolve_file hid hl isPlain_definitionFile isUsable_definitionFile
      cases hd : item.definition with
      | none =>
        have htext : t.text (s.directory id ++ [definitionFile]) = .error .noSuchFile := by
          have hnone : t.find? (place ++ [id] ++ [definitionFile]) = none := by
            rw [h.find?_definition hl, hd]
            rfl
          simp only [FileTree.text, FileTree.bytes, hplace, bind, Except.bind, hnone]
        simp [htext, hd, Except.map]
      | some text =>
        have htext : t.text (s.directory id ++ [definitionFile]) = .ok text :=
          FileTree.text_eq_ok_iff.2 (FileTree.bytes_eq_ok_iff.2
            ⟨_, hplace, by rw [h.find?_definition hl, hd]; rfl⟩)
        simp [htext, hd, Except.map]
  · simp [FileStore.fetch, hid, isValidId_iff.not.1 hid, Except.map]

/-- Files of records are found and read, one directory after the other. -/
theorem run_readAll {names : List String} (hn : ∀ name ∈ names, name ∈ c) :
    t.run (s.readAll names) =
      (.ok (names.filterMap fun id => (c.lookup id).map (·.record)), t) := by
  -- A name is that of a directory with a record, so the search never stops and never passes one over.
  induction names with
  | nil => rfl
  | cons id names ih =>
    obtain ⟨item, hl⟩ := Option.isSome_iff_exists.1 (AList.lookup_isSome.2 (hn id (by simp)))
    obtain ⟨hid, -, hvalid⟩ := h.items id item hl
    have hplace : t.resolve (s.apis ++ [id, recordFile]) = .ok (place ++ [id] ++ [recordFile]) := by
      have := h.resolve_file hid hl isPlain_recordFile isUsable_recordFile
      rwa [directory_of_isValidId hid, List.append_assoc] at this
    have htext : t.text (s.apis ++ [id, recordFile]) = .ok item.record.toText :=
      FileTree.text_eq_ok_iff.2 (FileTree.bytes_eq_ok_iff.2 ⟨_, hplace, h.find?_record hl⟩)
    rw [readAll, FileTree.run_bind, FileTree.run_isFile, FileTree.entryAt?_of_resolve hplace,
      h.find?_record hl]
    simp only [if_true, FileTree.run_bind, run_readRecordFile, htext, Record.ofText_toText hvalid,
      ih fun name hname => hn name (by simp [hname]), FileTree.run_pure, List.filterMap_cons, hl,
      Option.map_some]

/-- The names in the directory of all APIs are the identifiers. -/
theorem perm_names : (t.namesBelow place).Perm c.keys := by
  refine (List.perm_ext_iff_of_nodup h.names c.keys_nodup).2 fun name => ?_
  rw [FileTree.mem_namesBelow, h.find?_directory, Option.isSome_map, AList.lookup_isSome,
    AList.mem_keys]

theorem serve_list : t.run (s.serve .list) = ((c.serve .list).1, t) := by
  have hlist : t.list s.apis = .ok (t.namesBelow place) := by
    simp only [FileTree.list, h.apis, bind, Except.bind, h.find?_place]
  have hread := h.run_readAll fun name hname => AList.mem_keys.2 (h.perm_names.mem_iff.1 hname)
  have hperm := (h.perm_names.filterMap fun id => (c.lookup id).map (·.record)).trans
    (.of_eq c.filterMap_keys)
  have hsort := Catalogue.listing_eq_of_perm (fun id item hl => (h.items id item hl).2.1) hperm
  simp only [serve, FileStore.list, FileTree.run_bind, FileTree.run_list, hlist, hread, hsort,
    FileTree.run_pure, Catalogue.serve, Except.map]

/-! ### Writing -/

/-- What is kept under the identifiers when one of them gets another item. -/
theorem items_insert (hid : isValidId id = true) (hr : item.record.id = id)
    (hv : item.record.updatedAt.isValid = true) (x : String) (old : Item)
    (hx : (c.insert id item).lookup x = some old) :
    isValidId x = true ∧ old.record.id = x ∧ old.record.updatedAt.isValid = true := by
  by_cases hxid : x = id
  · subst hxid
    rw [AList.lookup_insert] at hx
    cases hx
    exact ⟨hid, hr, hv⟩
  · rw [AList.lookup_insert_ne hxid] at hx
    exact h.items x old hx

/-- A file of an API is replaced, and the rest of the files stays. -/
theorem replaced {name : String} {content : ByteArray} (c' : Catalogue) (hid : isValidId id = true)
    (hl : c.lookup id = some item) (hn : IsPlain name) (hu : IsUsable name)
    (ht : IsUsable (tempName name tag))
    (hover : t.find? (place ++ [id] ++ [name]) ≠ some .directory)
    (hc : ∀ p, c'.entryAt? p = if p = [id, name] then some (.file content) else c.entryAt? p)
    (hitems : ∀ x new, c'.lookup x = some new →
      isValidId x = true ∧ new.record.id = x ∧ new.record.updatedAt.isValid = true) :
    ∃ t', t.run (replaceFile (s.directory id ++ [name]) tag content) = (.ok (), t') ∧
      Holds s place t' c' := by
  -- A catalogue takes no temporary files, so the place of this one is free before and after.
  have hfree : t.find? (place ++ [id] ++ [tempName name tag]) ≠ some .directory := by
    simp [-List.append_assoc, h.find?_temp]
  refine ⟨_, FileTree.run_replaceFile_snoc content (h.resolve_directory hid)
    (by rw [h.find?_directory, hl]; rfl) hn hu ht hfree hover, ?_, fun p => ?_, ?_, hitems⟩
  · exact FileTree.resolve_mono (FileTree.keepsDirectories_replaced content hfree hover).1 h.apis
  · rw [FileTree.find?_replaced content (by simp) (by simp), hc, h.entries]
    have hplace : place ++ p = place ++ [id] ++ [name] ↔ p = [id, name] := by simp
    have htemp : place ++ p = place ++ [id] ++ [tempName name tag] ↔ p = [id, tempName name tag] := by
      simp
    simp only [hplace, htemp]
    split
    · rfl
    · split
      next hp => rw [hp, Catalogue.entryAt?_of_ne (tempName_ne_recordFile _ _)
          (tempName_ne_definitionFile _ _)]
      next => rfl
  · rw [FileTree.namesBelow_replaced (by simp) (by simp)]
    exact h.names

/-- The directory of a new API is made, and its record is written there. -/
theorem writeRecord_new (hid : isValidId r.id = true) (hl : c.lookup r.id = none)
    (hr : r.updatedAt.isValid = true) (ht : IsUsableTag tag) :
    ∃ t', t.run (s.writeRecord r tag) = (.ok (), t') ∧
      Holds s place t' (c.insert r.id ⟨r, none⟩) := by
  have hmissing : t.find? (place ++ [r.id]) = none := by rw [h.find?_directory, hl]; rfl
  have hmake := FileTree.run_makeDirectories_of_missing (h.resolve_directory hid) hmissing
  have hgrows := FileTree.grows_insert_directory hmissing
  have hfind : ∀ x, (t.insert (place ++ [r.id]) .directory).find? x =
      if x = place ++ [r.id] then some .directory else t.find? x :=
    fun x => FileTree.find?_insert (by simp)
  -- The catalogue has nothing under this identifier, so the new directory is empty.
  have hbelow : ∀ name, (t.insert (place ++ [r.id]) .directory).find? (place ++ [r.id] ++ [name]) =
      none := by
    intro name
    rw [hfind, if_neg (by simp), List.append_assoc, h.entries]
    simp [hl]
  have hfree := hbelow (tempName recordFile tag)
  have hover := hbelow recordFile
  have hreplace := FileTree.run_replaceFile_snoc r.toText.toUTF8
    (FileTree.resolve_mono hgrows.keepsDirectories (h.resolve_directory hid))
    (by rw [hfind, if_pos rfl]) isPlain_recordFile isUsable_recordFile ht.recordFile
    (by simp [-List.append_assoc, hfree]) (by simp [-List.append_assoc, hover])
  refine ⟨_, run_writeRecord_eq_ok_iff.2 ⟨_, hmake, hreplace⟩, ?_, fun p => ?_, ?_,
    h.items_insert hid rfl hr⟩
  · refine FileTree.resolve_mono (hgrows.keepsDirectories.trans ?_) h.apis
    exact (FileTree.keepsDirectories_replaced _ (by simp [-List.append_assoc, hfree])
      (by simp [-List.append_assoc, hover])).1
  · rw [FileTree.find?_replaced _ (by simp) (by simp), Catalogue.entryAt?_insert_new hl, hfind,
      h.entries]
    have hplace : place ++ p = place ++ [r.id] ++ [recordFile] ↔ p = [r.id, recordFile] := by simp
    have htemp : place ++ p = place ++ [r.id] ++ [tempName recordFile tag] ↔
        p = [r.id, tempName recordFile tag] := by simp
    have hdir : place ++ p = place ++ [r.id] ↔ p = [r.id] := by simp
    simp only [hplace, htemp, hdir]
    by_cases hp : p = [r.id, recordFile]
    · simp [hp]
    · by_cases hq : p = [r.id, tempName recordFile tag]
      · simp [hq, hl, tempName_ne]
      · simp [hp, hq]
  · rw [FileTree.namesBelow_replaced (by simp) (by simp), FileTree.namesBelow_insert, hmissing]
    simp only [Option.isSome_none, Bool.false_eq_true, if_false]
    refine List.nodup_append.2 ⟨h.names, by simp, fun x hx y hy => ?_⟩
    obtain rfl : y = r.id := by simpa using hy
    rintro rfl
    rw [FileTree.mem_namesBelow, hmissing] at hx
    cases hx

theorem serve_create (hr : r.updatedAt.isValid = true) (ht : IsUsableTag tag) :
    (t.run (s.serve (.create r tag))).1 = (c.serve (.create r tag)).1 ∧
      Holds s place (t.run (s.serve (.create r tag))).2 (c.serve (.create r tag)).2 := by
  simp only [serve, FileTree.run_bind, FileTree.run_pure, Catalogue.serve]
  by_cases hid : isValidId r.id = true
  · rw [if_pos (isValidId_iff.1 hid), FileStore.create, if_pos hid, FileTree.run_bind,
      FileTree.run_exists?, h.exists_record hid]
    cases hl : c.lookup r.id with
    | none =>
      obtain ⟨t', hrun, holds⟩ := h.writeRecord_new hid hl hr ht
      simpa [AList.lookup_eq_none.1 hl, hrun, Except.map] using holds
    | some item =>
      have hmem : r.id ∈ c := AList.lookup_isSome.1 (by simp [hl])
      simpa [hmem, Except.map] using h
  · simpa [FileStore.create, hid, isValidId_iff.not.1 hid, Except.map] using h

theorem serve_importDefinition (id text : String) (ht : IsUsableTag tag) :
    (t.run (s.serve (.importDefinition id text tag))).1 =
        (c.serve (.importDefinition id text tag)).1 ∧
      Holds s place (t.run (s.serve (.importDefinition id text tag))).2
        (c.serve (.importDefinition id text tag)).2 := by
  simp only [serve, FileTree.run_bind, FileTree.run_pure, Catalogue.serve]
  by_cases hid : isValidId id = true
  · rw [FileStore.importDefinition, if_pos hid, FileTree.run_bind, FileTree.run_exists?,
      h.exists_record hid]
    cases hl : c.lookup id with
    | none =>
      rw [Catalogue.onItem_of_missing hid hl]
      simpa [Except.map] using h
    | some item =>
      rw [Catalogue.onItem_of_lookup hid hl]
      obtain ⟨-, hr, hv⟩ := h.items id item hl
      have hover : t.find? (place ++ [id] ++ [definitionFile]) ≠ some .directory := by
        rw [h.find?_definition hl]
        cases item.definition <;> simp
      obtain ⟨t', hrun, holds⟩ := h.replaced (c.insert id { item with definition := some text })
        hid hl isPlain_definitionFile isUsable_definitionFile ht hover
        (Catalogue.entryAt?_insert_definition hl) (h.items_insert hid hr hv)
      simp only [Option.isSome_some, if_true, FileTree.run_bind, definitionPath, hrun,
        FileTree.run_pure]
      exact ⟨rfl, holds⟩
  · rw [Catalogue.onItem_of_not_isValidId hid]
    simpa [FileStore.importDefinition, hid, Except.map] using h

theorem serve_update (id : String) (field : TextField) (content : String) {stamp : Stamp}
    (hnow : stamp.now.isValid = true) (ht : IsUsableTag stamp.tag) :
    (t.run (s.serve (.update id field content stamp))).1 =
        (c.serve (.update id field content stamp)).1 ∧
      Holds s place (t.run (s.serve (.update id field content stamp))).2
        (c.serve (.update id field content stamp)).2 := by
  simp only [serve, FileTree.run_bind, FileTree.run_pure]
  by_cases hid : isValidId id = true
  · cases hl : c.lookup id with
    | none =>
      rw [Catalogue.serve, Catalogue.onItem_of_missing hid hl]
      simpa [FileStore.update, FileTree.run_bind, h.run_read_of_missing hid hl, Except.map]
    | some item =>
      rw [Catalogue.serve_update_of_lookup hid hl]
      obtain ⟨-, hr, hv⟩ := h.items id item hl
      obtain ⟨r, hset⟩ : ∃ r, r = item.record.setContent field content stamp.now := ⟨_, rfl⟩
      -- A record is kept under its own identifier, so it is written where it was read.
      have hrid : r.id = id := by rw [hset, Record.id_setContent, hr]
      have hover : t.find? (place ++ [id] ++ [recordFile]) ≠ some .directory := by
        rw [h.find?_record hl]
        simp
      obtain ⟨t', hrun, holds⟩ := h.replaced (c.insert id { item with record := r })
        hid hl isPlain_recordFile isUsable_recordFile ht.recordFile hover
        (Catalogue.entryAt?_insert_record hl)
        (h.items_insert hid hrid (by rw [hset, Record.updatedAt_setContent, hnow]))
      have hmake := run_makeDirectories_of_resolve
        (h.resolve_file hid hl isPlain_recordFile isUsable_recordFile)
      have hupdate : t.run (s.update id field content stamp) = (.ok r, t') := by
        refine run_update_eq_ok_iff.2 ⟨item.record, by rw [h.run_read_of_lookup hid hl], hset,
          run_writeRecord_eq_ok_iff.2 ⟨t, ?_, ?_⟩⟩
        · rw [hrid, hmake]
        · rw [hrid]
          exact hrun
      rw [hupdate]
      simp only [← hset]
      exact ⟨rfl, holds⟩
  · rw [Catalogue.serve, Catalogue.onItem_of_not_isValidId hid]
    simpa [FileStore.update, FileStore.read, FileTree.run_bind, hid, Except.map] using h

/-- **A request is answered as the catalogue answers it**, and the files go on keeping it. -/
theorem serve {q : Request} (hq : q.IsSound) :
    (t.run (s.serve q)).1 = (c.serve q).1 ∧
      Holds s place (t.run (s.serve q)).2 (c.serve q).2 := by
  cases q with
  | create r tag => exact h.serve_create hq.1 hq.2
  | importDefinition id text tag => exact h.serve_importDefinition id text hq
  | update id field content stamp => exact h.serve_update id field content hq.1 hq.2
  | read id =>
    have hc : (c.serve (.read id)).2 = c := by
      simp only [Catalogue.serve, Catalogue.onItem]
      split
      · split <;> rfl
      · rfl
    rw [h.serve_read id, hc]
    exact ⟨rfl, h⟩
  | fetch id =>
    have hc : (c.serve (.fetch id)).2 = c := by
      simp only [Catalogue.serve]
      split
      · split <;> rfl
      · rfl
    rw [h.serve_fetch id, hc]
    exact ⟨rfl, h⟩
  | list =>
    rw [h.serve_list]
    exact ⟨rfl, h⟩

omit h in
theorem serveAll {qs : List Request} (h : Holds s place t c) (hq : ∀ q ∈ qs, q.IsSound) :
    (s.serveAll t qs).1 = (c.serveAll qs).1 ∧
      Holds s place (s.serveAll t qs).2 (c.serveAll qs).2 := by
  induction qs generalizing t c with
  | nil => exact ⟨rfl, h⟩
  | cons q qs ih =>
    obtain ⟨hanswer, holds⟩ := h.serve (hq q (by simp))
    obtain ⟨hanswers, holds⟩ := ih holds fun q hmem => hq q (by simp [hmem])
    simp only [FileStore.serveAll, Catalogue.serveAll]
    exact ⟨by rw [hanswer, hanswers], holds⟩

end Holds

/-- **A store keeps a catalogue.** A store whose directory of APIs is empty, and which nobody else
writes to, answers any requests one after the other as a catalogue that begins empty. Its files are
then exactly those of the catalogue, whose listing has every record once, by name and then by
identifier. -/
theorem store_keeps_catalogue (apis : t.resolve s.apis = .ok place)
    (there : t.find? place = some .directory) (fresh : ∀ p, p ≠ [] → t.find? (place ++ p) = none)
    {qs : List Request} (sound : ∀ q ∈ qs, q.IsSound) :
    (s.serveAll t qs).1 = (Catalogue.serveAll ∅ qs).1 ∧
      (∀ p, (s.serveAll t qs).2.find? (place ++ p) = (Catalogue.serveAll ∅ qs).2.entryAt? p) ∧
      (Catalogue.serveAll ∅ qs).2.listing.Perm (Catalogue.serveAll ∅ qs).2.records ∧
      (Catalogue.serveAll ∅ qs).2.listing.Pairwise
        fun a b => a.name < b.name ∨ a.name = b.name ∧ a.id ≤ b.id := by
  obtain ⟨hanswers, holds⟩ := (holds_empty apis there fresh).serveAll sound
  exact ⟨hanswers, holds.entries, Catalogue.perm_listing _, Catalogue.pairwise_listing _⟩

/-- Requests to a store at the root, whose directory of APIs was just made. An update changes one text
and the time, and leaves the place in the listing, which begins with the API that came last. -/
theorem store_keeps_catalogue_from_scratch :
    let made : Time.Instant := ⟨⟨2020, 1, 1⟩, 0, 0, 0, 0⟩
    let later : Time.Instant := ⟨⟨2021, 2, 3⟩, 4, 5, 6, 7⟩
    let b' : Record := ⟨"b", "N", none, some "# B", .api, "CREATED", later⟩
    let requests : List Request :=
      [ .create (.fresh "b" "N" made) "1", .create (.fresh "a" "N" made) "2"
      , .create (.fresh "c" "M" made) "3", .create (.fresh "b" "L" made) "4"
      , .create (.fresh "../b" "L" made) "5", .importDefinition "a" "old" "6"
      , .importDefinition "a" "text" "7", .importDefinition "d" "text" "8", .list
      , .update "b" .overview "# B" ⟨later, "9"⟩, .update "d" .overview "# D" ⟨later, "10"⟩
      , .update ".b" .overview "# B" ⟨later, "11"⟩, .read "b", .read "d", .fetch "a", .fetch "b"
      , .list ]
    let tree : FileTree := ⟨[(["apis"], .directory)]⟩
    tree.resolve (apis ⟨[]⟩) = .ok ["apis"] ∧ tree.find? ["apis"] = some .directory ∧
      (∀ p, p ≠ [] → tree.find? (["apis"] ++ p) = none) ∧ (∀ q ∈ requests, q.IsSound) ∧
      (FileStore.serveAll ⟨[]⟩ tree requests).1 =
        [ .ok .done, .ok .done, .ok .done, .error (.alreadyExists "b")
        , .error (.invalidId "../b"), .ok .done, .ok .done, .error (.apiNotFound "d")
        , .ok (.records [.fresh "c" "M" made, .fresh "a" "N" made, .fresh "b" "N" made])
        , .ok (.record b'), .error (.apiNotFound "d"), .error (.invalidId ".b"), .ok (.record b')
        , .error (.apiNotFound "d"), .ok (.text "text"), .error (.definitionNotFound "b")
        , .ok (.records [.fresh "c" "M" made, .fresh "a" "N" made, b']) ] := by
  intro made later b' requests tree
  have hapis : tree.resolve (apis ⟨[]⟩) = .ok ["apis"] :=
    FileTree.resolve_eq_ok_iff.2 ⟨by decide, rfl⟩
  have hfresh : ∀ p, p ≠ [] → tree.find? (["apis"] ++ p) = none := by
    intro p hp
    obtain ⟨x, p, rfl⟩ := List.exists_cons_of_ne_nil hp
    rfl
  have usable : ∀ tag ∈ ["1", "2", "3", "4", "5", "6", "7", "8", "9", "10", "11"],
      IsUsableTag tag := by
    simp only [List.forall_mem_cons]
    refine ⟨?_, ?_, ?_, ?_, ?_, ?_, ?_, ?_, ?_, ?_, ?_, nofun⟩ <;>
      exact isUsableTag_of_digits (by decide) (by simp)
  have hsound : ∀ q ∈ requests, q.IsSound := by
    simp only [requests, List.forall_mem_cons, Request.IsSound]
    exact ⟨⟨by decide, usable "1" (by simp)⟩, ⟨by decide, usable "2" (by simp)⟩,
      ⟨by decide, usable "3" (by simp)⟩, ⟨by decide, usable "4" (by simp)⟩,
      ⟨by decide, usable "5" (by simp)⟩, usable "6" (by simp), usable "7" (by simp),
      usable "8" (by simp), trivial, ⟨by decide, usable "9" (by simp)⟩,
      ⟨by decide, usable "10" (by simp)⟩, ⟨by decide, usable "11" (by simp)⟩, trivial, trivial,
      trivial, trivial, trivial, nofun⟩
  refine ⟨hapis, rfl, hfresh, hsound, ?_⟩
  rw [(store_keeps_catalogue hapis rfl hfresh hsound).1]
  -- What was changed last is in front of the others, until they are sorted.
  have before : [.fresh "a" "N" made, .fresh "c" "M" made, .fresh "b" "N" made].mergeSort
      Record.precedes = [.fresh "c" "M" made, .fresh "a" "N" made, .fresh "b" "N" made] :=
    Record.mergeSort_eq_of_perm (by decide) (by decide) (by simp [Record.fresh])
  have after : [b', .fresh "a" "N" made, .fresh "c" "M" made].mergeSort Record.precedes =
      [.fresh "c" "M" made, .fresh "a" "N" made, b'] :=
    Record.mergeSort_eq_of_perm (by decide) (by decide) (by simp [Record.fresh, b'])
  rw [Record.precedes_eq] at before after
  conv_rhs => rw [← before, ← after]
  subst requests made later b'
  rfl

end FileStore

end PublisherConsole.Storage
