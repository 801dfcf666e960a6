import PublisherConsole.Proofs.Api.RoundTrip
import PublisherConsole.Proofs.Storage.Replacement
import PublisherConsole.Storage.FileStore

/-!
# Reading and writing in a store

A safe identifier is the name of a directory (`directory_of_isValidId`). What the operations of a
store do to a tree is said by one lemma each: reading leaves it alone and finds the record in a file
(`read_eq_ok_iff`), writing makes a directory and replaces a file (`run_writeRecord_eq_ok_iff`), and
an update is a reading and a writing (`run_update_eq_ok_iff`).
-/

namespace PublisherConsole

namespace Record

variable {r : Record} {field : TextField} {content : String} {now : Time.Instant}

@[simp] theorem id_setContent : (r.setContent field content now).id = r.id := by
  cases field <;> rfl

@[simp] theorem updatedAt_setContent : (r.setContent field content now).updatedAt = now := by
  cases field <;> rfl

theorem text?_setContent (f : TextField) :
    (r.setContent field content now).text? f = if f = field then some content else r.text? f := by
  cases field <;> cases f <;> rfl

end Record

namespace Storage

/-! ### Names -/

theorem isPlain_recordFile : IsPlain recordFile := by constructor <;> decide

theorem isPlain_definitionFile : IsPlain definitionFile := by constructor <;> decide

theorem isUsable_recordFile : IsUsable recordFile := by constructor <;> decide

theorem isUsable_definitionFile : IsUsable definitionFile := by constructor <;> decide

theorem recordFile_ne_definitionFile : recordFile ≠ definitionFile := by decide

section Identifiers

variable {id : String}

/-- The characters of a safe identifier are letters, digits and three marks. -/
theorem isSafe_of_mem (h : isValidId id = true) {c : Char} (hc : c ∈ id.toList) :
    c.isAlphanum = true ∨ c = '-' ∨ c = '_' ∨ c = '.' := by
  simp only [isValidId, Bool.and_eq_true, List.all_eq_true] at h
  simpa [or_assoc] using h.1.2 c hc

theorem notMem_of_isValidId (h : isValidId id = true) {c : Char} (hc : c.isAlphanum = false)
    (hm : c ≠ '-' ∧ c ≠ '_' ∧ c ≠ '.') : c ∉ id.toList := by
  intro hmem
  have := isSafe_of_mem h hmem
  simp [hc, hm] at this

theorem isPlain_of_isValidId (h : isValidId id = true) : IsPlain id := by
  simp only [isValidId, Bool.and_eq_true, decide_eq_true_eq] at h
  constructor <;> rintro rfl <;> exact absurd rfl h.2

theorem isUsable_of_isValidId (h : isValidId id = true) : IsUsable id := by
  refine ⟨?_, notMem_of_isValidId h rfl (by decide)⟩
  simp only [isValidId, Bool.and_eq_true, decide_eq_true_eq] at h
  exact h.1.1.2.trans (by decide)

/-- A safe identifier is one name below a path. -/
theorem below_of_isValidId (h : isValidId id = true) (p : Path) : p.below id = p ++ [id] := by
  have hslash : '/' ∉ id.toList := notMem_of_isValidId h rfl (by decide)
  have hempty : id ≠ "" := by
    simp only [isValidId, Bool.and_eq_true, decide_eq_true_eq] at h
    exact h.1.1.1
  have hhead : id.toList.head? ≠ some '/' := fun hh => hslash (List.mem_of_head? hh)
  have hlist : id.toList ≠ [] := fun hl => hempty (String.toList_inj.1 hl)
  rw [Path.below, if_neg hempty, if_neg hhead, Path.names, List.splitOn_eq_singleton hslash]
  simp [hlist]

end Identifiers

namespace FileStore

variable {s : FileStore} {t t' : FileTree} {id tag : String} {field : TextField} {content : String}
  {stamp : Stamp} {r r' : Record} {place : Path}

/-- A safe identifier is the name of the directory of its API. -/
theorem directory_of_isValidId (h : isValidId id = true) : s.directory id = s.apis ++ [id] :=
  below_of_isValidId h s.apis

/-! ### Reading and writing a record -/

theorem run_readRecordFile {p : Path} :
    t.run (readRecordFile p) =
      (match t.text p with
        | .error e => .error (.system e)
        | .ok text =>
          match Record.ofText text with
          | .ok r => .ok r
          | .error e => .error (.json e), t) := by
  rw [readRecordFile, FileTree.run_bind, FileTree.run_readText]
  cases t.text p with
  | error fault => rfl
  | ok text => dsimp only; cases Record.ofText text <;> rfl

/-- Reading leaves the tree alone. -/
theorem run_read_tree : (t.run (s.read id)).2 = t := by
  unfold FileStore.read
  split
  · rw [FileTree.run_bind, FileTree.run_exists?]
    dsimp only
    split
    · rw [run_readRecordFile]
    · rfl
  · rfl

/-- A record is read when the identifier is safe and its file holds the text of a record. -/
theorem read_eq_ok_iff :
    (t.run (s.read id)).1 = .ok r ↔
      isValidId id = true ∧
        ∃ text, t.bytes (s.recordPath id) = .ok text.toUTF8 ∧ Record.ofText text = .ok r := by
  unfold FileStore.read
  split
  next hid =>
    rw [FileTree.run_bind, FileTree.run_exists?]
    dsimp only
    split
    next =>
      rw [run_readRecordFile]
      simp only [hid, true_and, ← FileTree.text_eq_ok_iff]
      cases t.text (s.recordPath id) with
      | error fault => simp
      | ok text => cases hr : Record.ofText text <;> simp [hr]
    next hmissing =>
      have : ∀ content, t.bytes (s.recordPath id) ≠ .ok content := by
        intro content h
        obtain ⟨q, hq, hf⟩ := FileTree.bytes_eq_ok_iff.1 h
        rw [FileTree.entryAt?_of_resolve hq, hf] at hmissing
        exact hmissing rfl
      simp [this]
  next hid => simp [hid]

/-- A record is written once its directory is there and its file is replaced. -/
theorem run_writeRecord_eq_ok_iff :
    t.run (s.writeRecord r tag) = (.ok (), t') ↔
      ∃ t₁, t.run (makeDirectories (s.directory r.id)) = (.ok (), t₁) ∧
        t₁.run (replaceFile (s.recordPath r.id) tag r.toText.toUTF8) = (.ok (), t') := by
  rw [writeRecord, FileTree.run_bind]
  generalize t.run (makeDirectories (s.directory r.id)) = outcome
  obtain ⟨made, t₁⟩ := outcome
  cases made with
  | error fault => simp
  | ok _ =>
    simp only [FileTree.run_bind, Prod.mk.injEq, true_and, exists_eq_left']
    generalize t₁.run (replaceFile (s.recordPath r.id) tag r.toText.toUTF8) = outcome
    obtain ⟨moved, t₂⟩ := outcome
    cases moved <;> simp

/-- An update reads a record, changes it, and writes it. -/
theorem run_update_eq_ok_iff :
    t.run (s.update id field content stamp) = (.ok r', t') ↔
      ∃ r, (t.run (s.read id)).1 = .ok r ∧ r' = r.setContent field content stamp.now ∧
        t.run (s.writeRecord r' stamp.tag) = (.ok (), t') := by
  rw [FileStore.update, FileTree.run_bind, run_read_tree]
  cases (t.run (s.read id)).1 with
  | error fault => simp
  | ok r =>
    simp only [FileTree.run_bind, Except.ok.injEq, exists_eq_left']
    constructor
    · intro h
      generalize hw : t.run (s.writeRecord (r.setContent field content stamp.now) stamp.tag) =
        outcome at h
      obtain ⟨written, t₁⟩ := outcome
      cases written with
      | error fault => simp at h
      | ok _ =>
        simp only [FileTree.run_pure, Prod.mk.injEq, Except.ok.injEq] at h
        obtain ⟨rfl, rfl⟩ := h
        exact ⟨rfl, hw⟩
    · rintro ⟨rfl, hw⟩
      rw [hw]
      rfl

/-! ### Where a record is -/

/-- The file of a record lies in the directory of its identifier. -/
theorem resolve_recordPath_iff :
    t.resolve (s.recordPath id) = .ok place ↔
      ∃ d, t.resolve (s.directory id) = .ok d ∧ t.find? d = some .directory ∧
        place = d ++ [recordFile] := by
  rw [recordPath, FileTree.resolve_snoc_iff isPlain_recordFile]
  exact and_iff_right ⟨by decide, by decide⟩

/-- The temporary file of a record is the file of no record. -/
theorem temp_ne_place {id' : String} {temp : Path}
    (ht : t.resolve (tempPath (s.recordPath id) tag) = .ok temp)
    (hp : t.resolve (s.recordPath id') = .ok place) : temp ≠ place := by
  rw [recordPath, tempPath_snoc, FileTree.resolve_snoc_iff (isPlain_tempName _ _)] at ht
  obtain ⟨-, d, -, -, rfl⟩ := ht
  obtain ⟨d', -, -, rfl⟩ := resolve_recordPath_iff.1 hp
  intro h
  exact tempName_ne _ _ (List.singleton_inj.1 (List.append_inj' h rfl).2)

/-- Where the file of a record has a place, its directory is there already. -/
theorem run_makeDirectories_of_resolve (h : t.resolve (s.recordPath id) = .ok place) :
    t.run (makeDirectories (s.directory id)) = (.ok (), t) := by
  obtain ⟨d, hd, hdir, -⟩ := resolve_recordPath_iff.1 h
  exact FileTree.run_makeDirectories_of_directory hd hdir

/-- The record in a file with a known place. -/
theorem read_eq_ok_iff_of_resolve (hid : isValidId id = true)
    (h : t.resolve (s.recordPath id) = .ok place) :
    (t.run (s.read id)).1 = .ok r ↔
      ∃ text : String, t.find? place = some (.file text.toUTF8) ∧ Record.ofText text = .ok r := by
  simp [read_eq_ok_iff, hid, FileTree.bytes_eq_ok_iff, h]

/-- What was written is what is read. -/
theorem read_of_written (hid : isValidId id = true) (hr : r.updatedAt.isValid = true)
    (h : t.resolve (s.recordPath id) = .ok place)
    (hplace : t.find? place = some (.file r.toText.toUTF8)) : (t.run (s.read id)).1 = .ok r :=
  (read_eq_ok_iff_of_resolve hid h).2 ⟨r.toText, hplace, Record.ofText_toText hr⟩

end FileStore

end Storage

end PublisherConsole
