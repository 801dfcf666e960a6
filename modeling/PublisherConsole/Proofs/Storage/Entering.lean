import PublisherConsole.Proofs.Storage.AllOrNothing

/-!
# Entering an API into any tree

A store whose directory is there need not keep a catalogue: its tree may hold anything below it. What
entering an API comes to then is said by `CanEnter`: a record is written exactly if nothing is in its
way, and otherwise all is as before, but for the directory of the API and a temporary file
(`run_create_cases`). A definition is kept for it exactly if no directory stands where it or its
temporary file goes (`run_importDefinition_cases`).
-/

namespace PublisherConsole.Storage

namespace FileTree

variable {α : Type} {t t' : FileTree} {p d x : Path} {name : String} {content : ByteArray}
  {P : FileTree → Prop} {Q : α → FileTree → Prop}

/-- What a script weathers holds when nothing happens to it. -/
theorem Weathers.run {w : Script α} (h : t.Weathers (fun _ turn => turn = .served) P Q w) :
    P (t.run w).2 ∧ Q (t.run w).1 (t.run w).2 := by
  induction w generalizing t with
  | done a => exact h
  | step call next ih => exact ih _ (h.2 .served rfl)

/-- The tree with a directory at a place where nothing was. -/
def withDirectory (t : FileTree) (q : Path) : FileTree :=
  match t.find? q with
  | none => t.insert q .directory
  | some _ => t

theorem find?_withDirectory {q : Path} (h : x ≠ q) : (t.withDirectory q).find? x = t.find? x := by
  unfold withDirectory
  split
  next missing => rw [find?_insert (ne_nil_of_find? (t := t) (by simp [missing])), if_neg h]
  next => rfl

theorem grows_withDirectory (t : FileTree) (q : Path) : Grows t (t.withDirectory q) := by
  unfold withDirectory
  split
  next missing => exact grows_insert_directory missing
  next => exact .refl t

theorem find?_withDirectory_self {q : Path} (h : ∀ content, t.find? q ≠ some (.file content)) :
    (t.withDirectory q).find? q = some .directory := by
  unfold withDirectory
  split
  next missing => rw [find?_insert (ne_nil_of_find? (t := t) (by simp [missing])), if_pos rfl]
  next e there =>
    cases e with
    | directory => exact there
    | file content => exact absurd there (h content)

/-- Nothing is found below a file. -/
theorem resolve_snoc_of_file (h : t.resolve p = .ok d) (hd : t.find? d = some (.file content))
    (hnul : '\x00' ∉ name.toList) : t.resolve (p ++ [name]) = .error .notDirectory := by
  obtain ⟨hp, hfollow⟩ := resolve_eq_ok_iff.1 h
  have hany : (p ++ [name]).any (·.contains '\x00') = false := by
    simp only [List.any_append, List.any_cons, List.any_nil, Bool.or_false, Bool.or_eq_false_iff,
      List.any_eq_false, String.contains_char_eq, decide_eq_true_eq, decide_eq_false_iff_not]
    exact ⟨hp, hnul⟩
  rw [resolve, hany, if_neg Bool.false_ne_true, follow_append_of_ok hfollow, follow, hd]

/-- No directory can be made below a file. -/
theorem run_makeDirectories_below_file (h : t.resolve p = .ok d)
    (hd : t.find? d = some (.file content)) (hnul : '\x00' ∉ name.toList) :
    t.run (makeDirectories (p ++ [name])) = (.error .notDirectory, t) := by
  have place := resolve_snoc_of_file h hd hnul
  have hmake : t.makeDirectory (p ++ [name]) = .error .notDirectory := by
    simp [makeDirectory, place, bind, Except.bind]
  have entry : t.entryAt? (p ++ [name]) = none := by rw [entryAt?, place]
  rw [makeDirectories, List.reverse_append, List.reverse_singleton, List.singleton_append]
  simp [makeDirectoriesUp, run_bind, hmake, changed, entry]

/-- No directory can be made where a file is. -/
theorem run_makeDirectories_of_file (h : t.resolve p = .ok d)
    (hd : t.find? d = some (.file content)) :
    t.run (makeDirectories p) = (.error .fileExists, t) := by
  rw [makeDirectories]
  cases hp : p.reverse with
  | nil =>
    obtain rfl : p = [] := List.reverse_eq_nil_iff.1 hp
    obtain rfl : [] = d := by simpa [resolve_eq_ok_iff] using h
    simp at hd
  | cons name above =>
    have hreverse : (name :: above).reverse = p := by rw [← hp, List.reverse_reverse]
    have hmake : t.makeDirectory p = .error .fileExists := by
      simp [makeDirectory, h, hd, bind, Except.bind]
    simp [makeDirectoriesUp, hreverse, run_bind, hmake, changed, entryAt?_of_resolve h, hd]

/-- A directory is made in another one unless a file is in its way. -/
theorem run_makeDirectories_snoc (hn : IsPlain name) (hu : IsUsable name) (h : t.resolve p = .ok d)
    (hd : t.find? d = some .directory) :
    t.run (makeDirectories (p ++ [name])) =
      (match t.find? (d ++ [name]) with
        | some (.file _) => .error .fileExists
        | _ => .ok (), t.withDirectory (d ++ [name])) := by
  have place : t.resolve (p ++ [name]) = .ok (d ++ [name]) :=
    (resolve_snoc_iff hn).2 ⟨hu, d, h, hd, rfl⟩
  unfold withDirectory
  cases hfind : t.find? (d ++ [name]) with
  | none => exact run_makeDirectories_of_missing place hfind
  | some e =>
    cases e with
    | directory => exact run_makeDirectories_of_directory place hfind
    | file content => exact run_makeDirectories_of_file place hfind

/-- A file is replaced in a directory that is there, unless a directory stands where it or its
temporary file goes; then all directories are kept, and nothing changes but the temporary file. -/
theorem run_replaceFile_snoc_cases {tag : String} (content : ByteArray) (hp : t.resolve p = .ok d)
    (hd : t.find? d = some .directory) (hn : IsPlain name) (hu : IsUsable name)
    (ht : IsUsable (tempName name tag)) :
    ((t.find? (d ++ [tempName name tag]) ≠ some .directory ∧
          t.find? (d ++ [name]) ≠ some .directory) ∧
        t.run (replaceFile (p ++ [name]) tag content) =
          (.ok (), t.replaced (d ++ [tempName name tag]) (d ++ [name]) content)) ∨
      (t.find? (d ++ [tempName name tag]) = some .directory ∨
          t.find? (d ++ [name]) = some .directory) ∧
        ∃ fault t', t.run (replaceFile (p ++ [name]) tag content) = (.error fault, t') ∧
          KeepsDirectories t t' ∧ ∀ x, x ≠ d ++ [tempName name tag] → t'.find? x = t.find? x := by
  have htemp : t.resolve (tempPath (p ++ [name]) tag) = .ok (d ++ [tempName name tag]) := by
    rw [tempPath_snoc]
    exact (resolve_snoc_iff (isPlain_tempName name tag)).2 ⟨ht, d, hp, hd, rfl⟩
  have htarget : t.resolve (p ++ [name]) = .ok (d ++ [name]) :=
    (resolve_snoc_iff hn).2 ⟨hu, d, hp, hd, rfl⟩
  by_cases free : t.find? (d ++ [tempName name tag]) ≠ some .directory ∧
      t.find? (d ++ [name]) ≠ some .directory
  · exact .inl ⟨free, run_replaceFile_snoc content hp hd hn hu ht free.1 free.2⟩
  · refine .inr ⟨by tauto, ?_⟩
    obtain ⟨-, settled, -⟩ := (weathers_replaceFile t (p ++ [name]) tag content).run
    rcases hrun : t.run (replaceFile (p ++ [name]) tag content) with ⟨fault | _, t'⟩
    · rw [hrun] at settled
      refine ⟨fault, t', rfl, fun x => (settled.directories x).2,
        fun x hx => settled.elsewhere x fun hx' => hx ?_⟩
      simpa [htemp] using hx'.symm
    · obtain ⟨temp, place, htemp', hfree, htarget', hover, -⟩ := run_replaceFile_eq_ok_iff.1 hrun
      obtain rfl : d ++ [tempName name tag] = temp := by simpa [htemp] using htemp'
      obtain rfl : d ++ [name] = place := by simpa [htarget] using htarget'
      exact absurd ⟨hfree, hover⟩ free

end FileTree

namespace FileStore

variable {s : FileStore} {t t' : FileTree} {place : Path} {id tag text : String} {r : Record}

/-- Nothing is in the way of the directory of an API, its record, and the temporary file of that. -/
structure HasRoom (place : Path) (t : FileTree) (id tag : String) : Prop where
  noFile : ∀ content, t.find? (place ++ [id]) ≠ some (.file content)
  noTemp : t.find? (place ++ [id] ++ [tempName recordFile tag]) ≠ some .directory
  noRecord : t.find? (place ++ [id] ++ [recordFile]) ≠ some .directory

/-- What an API needs to be entered: a safe identifier that is free, and room. -/
structure CanEnter (s : FileStore) (place : Path) (t : FileTree) (id tag : String) : Prop
    extends HasRoom place t id tag where
  safe : isValidId id = true
  free : t.entryAt? (s.recordPath id) = none

/-- A directory stands where a definition or its temporary file goes. -/
def IsBlocked (place : Path) (t : FileTree) (id tag : String) : Prop :=
  t.find? (place ++ [id] ++ [tempName definitionFile tag]) = some .directory ∨
    t.find? (place ++ [id] ++ [definitionFile]) = some .directory

/-- All is as before, but for the directory of an API and a temporary file. No record or definition
was made or changed, and no file was added. -/
structure IsSpared (t : FileTree) (place : Path) (id tag : String) (t' : FileTree) : Prop where
  unwritten : Unwritten t t'
  nothingAdded : NothingAdded t t'
  frame : ∀ x, x ≠ place ++ [id] → x ≠ place ++ [id] ++ [tempName recordFile tag] →
    t'.find? x = t.find? x

theorem isSpared_refl (t : FileTree) : IsSpared t place id tag t :=
  ⟨unwritten_refl t, fun _ h => h, fun _ _ _ => rfl⟩

/-- The tree in which a record is written. -/
def entered (t : FileTree) (place : Path) (r : Record) (tag : String) : FileTree :=
  (t.withDirectory (place ++ [r.id])).replaced (place ++ [r.id] ++ [tempName recordFile tag])
    (place ++ [r.id] ++ [recordFile]) r.toText.toUTF8

/-- The tree in which a definition is written. -/
def imported (t : FileTree) (place : Path) (id text tag : String) : FileTree :=
  t.replaced (place ++ [id] ++ [tempName definitionFile tag]) (place ++ [id] ++ [definitionFile])
    text.toUTF8

theorem resolve_directory_of_isValidId (safe : isValidId id = true)
    (happis : t.resolve s.apis = .ok place) (hplace : t.find? place = some .directory) :
    t.resolve (s.directory id) = .ok (place ++ [id]) := by
  rw [directory_of_isValidId safe]
  exact (FileTree.resolve_snoc_iff (isPlain_of_isValidId safe)).2
    ⟨isUsable_of_isValidId safe, place, happis, hplace, rfl⟩

/-- A record is written in a directory of its own, unless something is in the way. -/
theorem run_writeRecord_cases (r : Record) (safe : isValidId r.id = true)
    (happis : t.resolve s.apis = .ok place) (hplace : t.find? place = some .directory)
    (ht : IsUsableTag tag) :
    HasRoom place t r.id tag ∧ t.run (s.writeRecord r tag) = (.ok (), entered t place r tag) ∨
      ¬HasRoom place t r.id tag ∧ ∃ fault t', t.run (s.writeRecord r tag) = (.error fault, t') ∧
        ∀ x, x ≠ place ++ [r.id] → x ≠ place ++ [r.id] ++ [tempName recordFile tag] →
          t'.find? x = t.find? x := by
  have made := FileTree.run_makeDirectories_snoc (isPlain_of_isValidId safe)
    (isUsable_of_isValidId safe) happis hplace
  rw [← directory_of_isValidId safe] at made
  by_cases noFile : ∀ content, t.find? (place ++ [r.id]) ≠ some (.file content)
  swap
  · push Not at noFile
    obtain ⟨content, hfile⟩ := noFile
    rw [hfile] at made
    refine .inr ⟨fun room => room.noFile content hfile, .system .fileExists,
      t.withDirectory (place ++ [r.id]), ?_, fun x hx _ => FileTree.find?_withDirectory hx⟩
    rw [writeRecord, FileTree.run_bind, made]
    rfl
  have made : t.run (makeDirectories (s.directory r.id)) =
      (.ok (), t.withDirectory (place ++ [r.id])) := by
    rw [made]
    split
    next content hfile => exact absurd hfile (noFile content)
    next => rfl
  have grows := FileTree.grows_withDirectory t (place ++ [r.id])
  have below (name : String) : (t.withDirectory (place ++ [r.id])).find?
      (place ++ [r.id] ++ [name]) = t.find? (place ++ [r.id] ++ [name]) :=
    FileTree.find?_withDirectory (by simp)
  have hd : (t.withDirectory (place ++ [r.id])).resolve (s.directory r.id) =
      .ok (place ++ [r.id]) :=
    resolve_directory_of_isValidId safe (FileTree.resolve_mono grows.keepsDirectories happis)
      (grows.keeps _ _ hplace)
  rcases FileTree.run_replaceFile_snoc_cases r.toText.toUTF8 hd
      (FileTree.find?_withDirectory_self noFile) isPlain_recordFile isUsable_recordFile
      ht.recordFile with ⟨way, hrun⟩ | ⟨blocked, fault, t', hrun, -, frame⟩
  · rw [below, below] at way
    exact .inl ⟨⟨noFile, way.1, way.2⟩, run_writeRecord_eq_ok_iff.2 ⟨_, made, hrun⟩⟩
  · rw [below, below] at blocked
    refine .inr ⟨fun room => blocked.elim room.noTemp room.noRecord, .system fault, t', ?_,
      fun x hx hx' => by rw [frame x hx', FileTree.find?_withDirectory hx]⟩
    rw [writeRecord, FileTree.run_bind, made]
    simp only [FileTree.run_bind, recordPath, hrun]
    rfl

/-- **A record is entered if it can be**, and otherwise all is as before. -/
theorem run_create_cases (r : Record) (happis : t.resolve s.apis = .ok place)
    (hplace : t.find? place = some .directory) (ht : IsUsableTag tag) :
    CanEnter s place t r.id tag ∧ t.run (s.create r tag) = (.ok (), entered t place r tag) ∨
      ¬CanEnter s place t r.id tag ∧ ∃ fault t', t.run (s.create r tag) = (.error fault, t') ∧
        IsSpared t place r.id tag t' := by
  by_cases safe : isValidId r.id = true
  swap
  · have refused : t.run (s.create r tag) = (.error (.invalidId r.id), t) := by
      rw [create, if_neg safe]
      rfl
    exact .inr ⟨fun can => safe can.safe, _, t, refused, isSpared_refl t⟩
  by_cases free : t.entryAt? (s.recordPath r.id) = none
  swap
  · have there : (t.entryAt? (s.recordPath r.id)).isSome = true := by
      rwa [← Option.ne_none_iff_isSome]
    have refused : t.run (s.create r tag) = (.error (.alreadyExists r.id), t) := by
      rw [create, if_pos safe, FileTree.run_bind, FileTree.run_exists?, there]
      rfl
    exact .inr ⟨fun can => free can.free, _, t, refused, isSpared_refl t⟩
  have goes : t.run (s.create r tag) = t.run (s.writeRecord r tag) := by
    rw [create, if_pos safe, FileTree.run_bind, FileTree.run_exists?, free]
    rfl
  rcases run_writeRecord_cases r safe happis hplace ht with
    ⟨room, hrun⟩ | ⟨noRoom, fault, t', hrun, frame⟩
  · exact .inl ⟨⟨room, safe, free⟩, goes.trans hrun⟩
  · -- What a failure leaves of records and definitions is known whatever its cause.
    obtain ⟨-, concluded⟩ := (weathers_writeRecord s t r tag).run
    rw [hrun] at concluded
    exact .inr ⟨fun can => noRoom can.toHasRoom, fault, t', goes.trans hrun, concluded.1,
      concluded.2 fun _ _ served => served, frame⟩

/-- What an API needs to have in a tree for a definition to be kept for it. -/
structure IsEntered (s : FileStore) (place : Path) (t : FileTree) (id : String) : Prop where
  safe : isValidId id = true
  directory : t.resolve (s.directory id) = .ok (place ++ [id])
  there : t.find? (place ++ [id]) = some .directory
  record : (t.find? (place ++ [id] ++ [recordFile])).isSome = true

theorem IsEntered.resolve_record (h : IsEntered s place t id) :
    t.resolve (s.recordPath id) = .ok (place ++ [id] ++ [recordFile]) :=
  (FileTree.resolve_snoc_iff isPlain_recordFile).2 ⟨isUsable_recordFile, _, h.directory, h.there, rfl⟩

/-- **A definition is kept for an API that is there**, unless a directory is in its way; then the API
stays there with its record. -/
theorem run_importDefinition_cases (text : String) (h : IsEntered s place t id)
    (ht : IsUsableTag tag) :
    ¬IsBlocked place t id tag ∧
        t.run (s.importDefinition id text tag) = (.ok (), imported t place id text tag) ∨
      IsBlocked place t id tag ∧ ∃ fault t',
        t.run (s.importDefinition id text tag) = (.error fault, t') ∧ IsEntered s place t' id ∧
          t'.find? (place ++ [id] ++ [recordFile]) = t.find? (place ++ [id] ++ [recordFile]) := by
  have goes : t.run (s.importDefinition id text tag) =
      ((t.run (replaceFile (s.definitionPath id) tag text.toUTF8)).1.mapError .system,
        (t.run (replaceFile (s.definitionPath id) tag text.toUTF8)).2) := by
    rw [importDefinition, if_pos h.safe, FileTree.run_bind, FileTree.run_exists?,
      FileTree.entryAt?_of_resolve h.resolve_record, h.record]
    simp only [if_true, FileTree.run_bind]
    rcases t.run (replaceFile (s.definitionPath id) tag text.toUTF8) with ⟨fault | _, t'⟩ <;> rfl
  rcases FileTree.run_replaceFile_snoc_cases text.toUTF8 h.directory h.there isPlain_definitionFile
      isUsable_definitionFile ht with ⟨way, hrun⟩ | ⟨blocked, fault, t', hrun, keeps, frame⟩
  · refine .inl ⟨fun blocked => blocked.elim way.1 way.2, ?_⟩
    rw [goes, definitionPath, hrun]
    rfl
  · have same := frame (place ++ [id] ++ [recordFile])
      (by simpa using (tempName_ne_recordFile definitionFile tag).symm)
    refine .inr ⟨blocked, .system fault, t', ?_,
      ⟨h.safe, FileTree.resolve_mono keeps h.directory, keeps _ h.there, by rw [same]; exact h.record⟩,
      same⟩
    rw [goes, definitionPath, hrun]
    rfl

/-! ### What is there then -/

theorem tempName_definitionFile_ne : tempName definitionFile tag ≠ tempName recordFile tag := by
  intro h
  have := congrArg String.length h
  rw [length_tempName, length_tempName] at this
  have hrecord : recordFile.length = 8 := rfl
  have hdefinition : definitionFile.length = 13 := rfl
  omega

/-- Writing the record puts nothing in the way of the definition, and clears no way for it. -/
theorem isBlocked_entered :
    IsBlocked place (entered t place r tag) r.id tag ↔ IsBlocked place t r.id tag := by
  have other {name : String} (h : name ≠ recordFile) (h' : name ≠ tempName recordFile tag) :
      (entered t place r tag).find? (place ++ [r.id] ++ [name]) =
        t.find? (place ++ [r.id] ++ [name]) := by
    rw [entered, FileTree.find?_replaced _ (by simp) (by simp), if_neg (by simpa using h),
      if_neg (by simpa using h'), FileTree.find?_withDirectory (by simp)]
  rw [IsBlocked, IsBlocked, other (tempName_ne_recordFile _ _) tempName_definitionFile_ne,
    other recordFile_ne_definitionFile.symm (tempName_ne_definitionFile _ _).symm]

/-- A record that was entered is there. -/
theorem CanEnter.isEntered (can : CanEnter s place t r.id tag)
    (happis : t.resolve s.apis = .ok place) (hplace : t.find? place = some .directory) :
    IsEntered s place (entered t place r tag) r.id ∧
      (entered t place r tag).find? (place ++ [r.id] ++ [recordFile]) =
        some (.file r.toText.toUTF8) := by
  have grows := FileTree.grows_withDirectory t (place ++ [r.id])
  have below (name : String) : (t.withDirectory (place ++ [r.id])).find?
      (place ++ [r.id] ++ [name]) = t.find? (place ++ [r.id] ++ [name]) :=
    FileTree.find?_withDirectory (by simp)
  have keeps := (FileTree.keepsDirectories_replaced (t := t.withDirectory (place ++ [r.id]))
    r.toText.toUTF8 (by rw [below]; exact can.noTemp) (by rw [below]; exact can.noRecord)).1
  have hdir := FileTree.find?_withDirectory_self can.noFile
  have hd := resolve_directory_of_isValidId can.safe
    (FileTree.resolve_mono grows.keepsDirectories happis) (grows.keeps _ _ hplace)
  have hrecord : (entered t place r tag).find? (place ++ [r.id] ++ [recordFile]) =
      some (.file r.toText.toUTF8) := by
    rw [entered, FileTree.find?_replaced _ (by simp) (by simp), if_pos rfl]
  exact ⟨⟨can.safe, FileTree.resolve_mono keeps hd, keeps _ hdir, by rw [hrecord]; rfl⟩, hrecord⟩

/-- The record of an API that was entered is read. -/
theorem IsEntered.run_read (h : IsEntered s place t id) (now : r.updatedAt.isValid = true)
    (hrecord : t.find? (place ++ [id] ++ [recordFile]) = some (.file r.toText.toUTF8)) :
    (t.run (s.read id)).1 = .ok r :=
  read_of_written h.safe now h.resolve_record hrecord

/-- A definition that was kept is fetched, and the record is as it was. -/
theorem IsEntered.imported (h : IsEntered s place t id) (clear : ¬IsBlocked place t id tag)
    (text : String) :
    IsEntered s place (imported t place id text tag) id ∧
      (imported t place id text tag).find? (place ++ [id] ++ [recordFile]) =
          t.find? (place ++ [id] ++ [recordFile]) ∧
        ((FileStore.imported t place id text tag).run (s.fetch id)).1 = .ok text := by
  obtain ⟨noTemp, noDefinition⟩ := not_or.1 clear
  have keeps := (FileTree.keepsDirectories_replaced text.toUTF8 noTemp noDefinition).1
  have hdirectory := FileTree.resolve_mono keeps h.directory
  have hthere := keeps _ h.there
  have hrecord : (FileStore.imported t place id text tag).find? (place ++ [id] ++ [recordFile]) =
      t.find? (place ++ [id] ++ [recordFile]) := by
    rw [FileStore.imported, FileTree.find?_replaced _ (by simp) (by simp), if_neg, if_neg]
    · simpa using (tempName_ne_recordFile definitionFile tag).symm
    · simpa using recordFile_ne_definitionFile
  refine ⟨⟨h.safe, hdirectory, hthere, by rw [hrecord]; exact h.record⟩, hrecord, ?_⟩
  have hdefinition : (FileStore.imported t place id text tag).text (s.definitionPath id) =
      .ok text := by
    refine FileTree.text_eq_ok_iff.2 (FileTree.bytes_eq_ok_iff.2 ⟨_,
      (FileTree.resolve_snoc_iff isPlain_definitionFile).2
        ⟨isUsable_definitionFile, _, hdirectory, hthere, rfl⟩, ?_⟩)
    rw [FileStore.imported, FileTree.find?_replaced _ (by simp) (by simp), if_pos rfl]
  rw [fetch, if_pos h.safe, FileTree.run_bind, FileTree.run_readText, hdefinition]
  rfl

end FileStore

end PublisherConsole.Storage
