import PublisherConsole.Proofs.Storage.Tree
import PublisherConsole.Storage.Script

/-!
# What composite operations do to a tree

* `run_bind` splits the run of a script, and `run_makeDirectory` and its siblings run single calls;
* `makeDirectories` only adds directories (`grows_makeDirectories`), none where the directory is
  there, and one where only the last is missing;
* `run_overwriteFile_eq_ok_iff` says when a file is overwritten, and `bytes_overwritten` what is
  read from it then;
* `run_replaceFile_eq_ok_iff` says when a file is replaced, and `find?_replaced` what the tree holds
  then.
-/

namespace PublisherConsole.Storage

/-- The temporary file beside a target. -/
def tempPath (target : Path) (tag : String) : Path :=
  target.withName (target.getLastD "file" ++ "." ++ tag ++ ".tmp")

/-- The name of the temporary file for a name. -/
def tempName (name tag : String) : String := name ++ "." ++ tag ++ ".tmp"

theorem tempPath_snoc (p : Path) (name tag : String) :
    tempPath (p ++ [name]) tag = p ++ [tempName name tag] := by
  simp [tempPath, Path.withName, tempName]

theorem length_tempName (name tag : String) :
    (tempName name tag).length = name.length + tag.length + 5 := by
  have h1 : ".".length = 1 := rfl
  have h4 : ".tmp".length = 4 := rfl
  simp only [tempName, String.length_append, h1, h4]
  omega

theorem tempName_ne (name tag : String) : tempName name tag ≠ name := by
  intro h
  have := congrArg String.length h
  rw [length_tempName] at this
  omega

/-- The name of a temporary file has an ending of its own. -/
theorem getLast?_tempName (name tag : String) :
    (tempName name tag).toList.getLast? = some 'p' := by
  have h : ".tmp".toList = ['.', 't', 'm', 'p'] := rfl
  rw [tempName, String.toList_append, h, List.getLast?_append]
  rfl

theorem isPlain_tempName (name tag : String) : IsPlain (tempName name tag) := by
  constructor <;> intro h <;> have := congrArg String.length h <;> rw [length_tempName] at this
  · have h1 : ".".length = 1 := rfl
    omega
  · have h2 : "..".length = 2 := rfl
    omega

namespace FileTree

variable {α β : Type} {t t' : FileTree} {p q x : Path} {e : Entry} {content : ByteArray}

/-! ### Scripts -/

@[simp] theorem run_done (a : α) : t.run (.done a) = (a, t) := rfl

@[simp] theorem run_pure (a : α) : t.run (pure a) = (a, t) := rfl

/-- A script goes on from the tree that it has reached. -/
theorem run_bind (s : Script α) (k : α → Script β) :
    t.run (s >>= k) = (t.run s).2.run (k (t.run s).1) := by
  induction s generalizing t with
  | done a => rfl
  | step call next ih => exact ih (t.answer call).1

@[simp] theorem run_exists? : t.run (.exists? p) = ((t.entryAt? p).isSome, t) := rfl

@[simp] theorem run_isDirectory :
    t.run (.isDirectory p) =
      ((match t.entryAt? p with | some .directory => true | _ => false), t) := rfl

@[simp] theorem run_isFile :
    t.run (.isFile p) = ((match t.entryAt? p with | some (.file _) => true | _ => false), t) := rfl

@[simp] theorem run_readText : t.run (.readText p) = (t.text p, t) := rfl

@[simp] theorem run_list : t.run (.list p) = (t.list p, t) := rfl

@[simp] theorem run_makeDirectory : t.run (.makeDirectory p) = t.changed (t.makeDirectory p) := rfl

@[simp] theorem run_create : t.run (.create p) = t.changed (t.create p) := rfl

@[simp] theorem run_write : t.run (.write p content) = t.changed (t.write p content) := rfl

@[simp] theorem run_sync : t.run (.sync p) = ((t.bytes p).map fun _ => (), t) := rfl

@[simp] theorem run_rename {source target : Path} :
    t.run (.rename source target) = t.changed (t.rename source target) := rfl

theorem changed_eq_ok_iff {r : Except SystemFault FileTree} :
    t.changed r = (.ok (), t') ↔ r = .ok t' := by
  cases r <;> simp [changed]

/-! ### Directories -/

/-- One tree has the entries of the other, and at most directories besides. -/
structure Grows (t t' : FileTree) : Prop where
  keeps : ∀ x e, t.find? x = some e → t'.find? x = some e
  new : ∀ x, t.find? x = none → t'.find? x = none ∨ t'.find? x = some .directory

theorem Grows.refl (t : FileTree) : Grows t t := ⟨fun _ _ h => h, fun _ h => .inl h⟩

theorem Grows.trans {t'' : FileTree} (h : Grows t t') (h' : Grows t' t'') : Grows t t'' where
  keeps x e hx := h'.keeps x e (h.keeps x e hx)
  new x hx := by
    rcases h.new x hx with hx | hx
    · exact h'.new x hx
    · exact .inr (h'.keeps x _ hx)

theorem Grows.keepsDirectories (h : Grows t t') : KeepsDirectories t t' :=
  fun x hx => h.keeps x _ hx

theorem grows_insert_directory (h : t.find? q = none) : Grows t (t.insert q .directory) := by
  have hq : q ≠ [] := ne_nil_of_find? (t := t) (by simp [h])
  refine ⟨fun x e hx => ?_, fun x hx => ?_⟩
  · have hne : x ≠ q := by rintro rfl; simp [h] at hx
    rw [find?_insert hq, if_neg hne, hx]
  · by_cases hne : x = q
    · exact .inr (by rw [find?_insert hq, if_pos hne])
    · exact .inl (by rw [find?_insert hq, if_neg hne, hx])

theorem grows_changed_makeDirectory (t : FileTree) (p : Path) :
    Grows t (t.changed (t.makeDirectory p)).2 := by
  cases h : t.makeDirectory p with
  | error fault => exact .refl t
  | ok t' =>
    obtain ⟨q, -, hq, rfl⟩ := makeDirectory_eq_ok_iff.1 h
    exact grows_insert_directory hq

theorem grows_bind {s : Script α} {k : α → Script β} (hs : Grows t (t.run s).2)
    (hk : ∀ a t, Grows t (t.run (k a)).2) : Grows t (t.run (s >>= k)).2 := by
  rw [run_bind]
  exact hs.trans (hk _ _)

/-- Making directories adds directories only. -/
theorem grows_makeDirectoriesUp (names : List String) (t : FileTree) :
    Grows t (t.run (makeDirectoriesUp names)).2 := by
  -- The names come last first, so the induction goes up from the directory to those above it.
  induction names generalizing t with
  | nil => exact .refl t
  | cons name above ih =>
    refine grows_bind (grows_changed_makeDirectory t _) fun made t => ?_
    have check : ∀ (fault : SystemFault) (there : Bool) (t : FileTree), Grows t
        (t.run (if there then pure (.ok ()) else pure (.error fault) :
          Script (Except SystemFault Unit))).2 := by
      intro fault there t
      cases there <;> exact .refl t
    split
    · exact .refl t
    · refine grows_bind (ih t) fun above t => ?_
      split
      · exact .refl t
      · refine grows_bind (grows_changed_makeDirectory t _) fun made t => ?_
        split
        · exact .refl t
        · exact grows_bind (.refl t) (check _)
    · exact grows_bind (.refl t) (check _)

theorem grows_makeDirectories (t : FileTree) (p : Path) :
    Grows t (t.run (makeDirectories p)).2 :=
  grows_makeDirectoriesUp p.reverse t

/-- Where the directory is there, nothing happens. -/
theorem run_makeDirectories_of_directory (h : t.resolve p = .ok q)
    (hq : t.find? q = some .directory) : t.run (makeDirectories p) = (.ok (), t) := by
  rw [makeDirectories]
  cases hp : p.reverse with
  | nil => rfl
  | cons name above =>
    have hreverse : (name :: above).reverse = p := by rw [← hp, List.reverse_reverse]
    have hmake : t.makeDirectory p = .error .fileExists := by
      simp [makeDirectory, h, hq, bind, Except.bind]
    simp [makeDirectoriesUp, hreverse, run_bind, hmake, changed, entryAt?_of_resolve h, hq]

/-- The directory above a path that leads to a place is there. -/
theorem run_makeDirectories_above (h : t.resolve p = .ok q) :
    t.run (makeDirectories p.dropLast) = (.ok (), t) := by
  rcases List.eq_nil_or_concat p with rfl | ⟨d, name, rfl⟩
  · rfl
  · rw [List.concat_eq_append] at h
    rw [List.concat_eq_append, List.dropLast_concat]
    obtain ⟨hnul, hfollow⟩ := resolve_eq_ok_iff.1 h
    obtain ⟨m, hm, hlast⟩ := follow_append_iff.1 hfollow
    have hd : t.resolve d = .ok m :=
      resolve_eq_ok_iff.2 ⟨fun n hn => hnul n (List.mem_append_left _ hn), hm⟩
    exact run_makeDirectories_of_directory hd (follow_cons_iff.1 hlast).1

/-- Where only the last directory is missing, it is made. -/
theorem run_makeDirectories_of_missing (h : t.resolve p = .ok q) (hq : t.find? q = none) :
    t.run (makeDirectories p) = (.ok (), t.insert q .directory) := by
  rw [makeDirectories]
  cases hp : p.reverse with
  | nil =>
    obtain rfl : p = [] := List.reverse_eq_nil_iff.1 hp
    obtain rfl : [] = q := by simpa [resolve_eq_ok_iff] using h
    simp at hq
  | cons name above =>
    have hreverse : (name :: above).reverse = p := by rw [← hp, List.reverse_reverse]
    have hmake : t.makeDirectory p = .ok (t.insert q .directory) :=
      makeDirectory_eq_ok_iff.2 ⟨q, h, hq, rfl⟩
    simp [makeDirectoriesUp, hreverse, run_bind, hmake, changed]

/-- Where the last two directories are missing, both are made. -/
theorem run_makeDirectories_snoc_of_missing {name : String} (hn : IsPlain name) (hu : IsUsable name)
    (h : t.resolve p = .ok q) (hq : t.find? q = none) (fresh : t.find? (q ++ [name]) = none) :
    t.run (makeDirectories (p ++ [name])) =
      (.ok (), (t.insert q .directory).insert (q ++ [name]) .directory) := by
  have missing : t.makeDirectory (p ++ [name]) = .error .noSuchFile := by
    simp [makeDirectory, resolve_snoc_of_missing h hq hu.noNul, bind, Except.bind]
  have above : t.run (makeDirectoriesUp p.reverse) = (.ok (), t.insert q .directory) :=
    run_makeDirectories_of_missing h hq
  have place : (t.insert q .directory).resolve (p ++ [name]) = .ok (q ++ [name]) :=
    (resolve_snoc_iff hn).2 ⟨hu, q, resolve_mono (grows_insert_directory hq).keepsDirectories h,
      by simp [find?_insert (ne_nil_of_find? (t := t) (p := q) (by simp [hq]))], rfl⟩
  have made : (t.insert q .directory).makeDirectory (p ++ [name]) =
      .ok ((t.insert q .directory).insert (q ++ [name]) .directory) :=
    makeDirectory_eq_ok_iff.2 ⟨_, place,
      by simp [find?_insert (ne_nil_of_find? (t := t) (p := q) (by simp [hq])), fresh], rfl⟩
  rw [makeDirectories, List.reverse_append, List.reverse_singleton, List.singleton_append]
  simp [makeDirectoriesUp, run_bind, missing, above, made, changed]

/-! ### Overwritten and replaced files -/

/-- The tree in which a file was filled at one place and moved to another. -/
def replaced (t : FileTree) (temp place : Path) (content : ByteArray) : FileTree :=
  (((t.insert temp (.file .empty)).insert temp (.file content)).erase temp).insert place
    (.file content)

variable {temp place d target : Path} {tag : String}

/-- A file that is put where no directory is leaves the directories alone. -/
theorem keepsDirectories_insert_file (content : ByteArray) (h : t.find? q ≠ some .directory) :
    KeepsDirectories t (t.insert q (.file content)) ∧
      KeepsDirectories (t.insert q (.file content)) t := by
  have hq := ne_nil_of_find? h
  constructor
  · intro x hx
    have hne : x ≠ q := by rintro rfl; exact h hx
    rw [find?_insert hq, if_neg hne, hx]
  · intro x hx
    rw [find?_insert hq] at hx
    split at hx
    · cases hx
    · exact hx

/-- **When a file is overwritten.** It has a place, and no directory is there. -/
theorem run_overwriteFile_eq_ok_iff :
    t.run (overwriteFile p content) = (.ok (), t') ↔
      ∃ place, t.resolve p = .ok place ∧ t.find? place ≠ some .directory ∧
        t' = (t.insert place (.file .empty)).insert place (.file content) := by
  have hrun : t.run (overwriteFile p content) = (.ok (), t') ↔
      ∃ t₁, t.create p = .ok t₁ ∧ t₁.write p content = .ok t' := by
    rw [overwriteFile, run_bind, run_create]
    cases t.create p with
    | error fault => simp [changed]
    | ok t₁ =>
      show t₁.run (Script.write p content) = (.ok (), t') ↔ _
      rw [run_write, changed_eq_ok_iff]
      simp
  rw [hrun]
  constructor
  · rintro ⟨t₁, hcreate, hwrite⟩
    obtain ⟨place, hplace, hfree, rfl⟩ := create_eq_ok_iff.1 hcreate
    obtain ⟨q, old, hq, -, rfl⟩ := write_eq_ok_iff.1 hwrite
    have keeps := (keepsDirectories_insert_file .empty hfree).1
    obtain rfl : place = q := by simpa [resolve_mono keeps hplace] using hq
    exact ⟨place, hplace, hfree, rfl⟩
  · rintro ⟨place, hplace, hfree, rfl⟩
    have keeps := (keepsDirectories_insert_file .empty hfree).1
    have hcreated : (t.insert place (.file .empty)).find? place = some (.file .empty) := by
      simp [find?_insert (ne_nil_of_find? hfree)]
    exact ⟨_, create_eq_ok_iff.2 ⟨place, hplace, hfree, rfl⟩,
      write_eq_ok_iff.2 ⟨place, .empty, resolve_mono keeps hplace, hcreated, rfl⟩⟩

/-- A file that has been overwritten is read with its new content, along the same path. -/
theorem bytes_overwritten {place : Path} (hplace : t.resolve p = .ok place)
    (hfree : t.find? place ≠ some .directory) (content : ByteArray) :
    ((t.insert place (.file .empty)).insert place (.file content)).bytes p = .ok content := by
  have hne := ne_nil_of_find? hfree
  have first := (keepsDirectories_insert_file .empty hfree).1
  have second := (keepsDirectories_insert_file content (q := place)
    (t := t.insert place (.file .empty)) (by simp [find?_insert hne])).1
  exact bytes_eq_ok_iff.2
    ⟨place, resolve_mono (first.trans second) hplace, by simp [find?_insert hne]⟩

/-- A replaced file has the new content, and the other place is free. -/
theorem find?_replaced (content : ByteArray) (ht : temp ≠ []) (hp : place ≠ []) (x : Path) :
    (t.replaced temp place content).find? x =
      if x = place then some (.file content) else if x = temp then none else t.find? x := by
  rw [replaced, find?_insert hp, find?_erase ht, find?_insert ht, find?_insert ht]
  by_cases hx : x = temp <;> simp [hx]

theorem namesBelow_replaced (ht : temp.dropLast ≠ d) (hp : place.dropLast ≠ d) :
    (t.replaced temp place content).namesBelow d = t.namesBelow d := by
  rw [replaced, namesBelow_insert_of_ne hp, namesBelow_erase_of_ne ht, namesBelow_insert_of_ne ht,
    namesBelow_insert_of_ne ht]

/-- Neither a file filled elsewhere nor the one replaced was a directory. -/
theorem keepsDirectories_replaced (content : ByteArray) (ht : t.find? temp ≠ some .directory)
    (hp : t.find? place ≠ some .directory) :
    KeepsDirectories t (t.replaced temp place content) ∧
      KeepsDirectories (t.replaced temp place content) t := by
  have find := find?_replaced (t := t) content (ne_nil_of_find? ht) (ne_nil_of_find? hp)
  constructor
  · intro x hx
    have hxp : x ≠ place := by rintro rfl; exact hp hx
    have hxt : x ≠ temp := by rintro rfl; exact ht hx
    rw [find, if_neg hxp, if_neg hxt, hx]
  · intro x hx
    rw [find] at hx
    split at hx
    · cases hx
    · split at hx
      · cases hx
      · exact hx

theorem run_fillAndMove_eq_ok_iff :
    t.run (fillAndMove target temp content) = (.ok (), t') ↔
      ∃ t₁ t₂, t.create temp = .ok t₁ ∧ t₁.write temp content = .ok t₂ ∧
        (∃ old, t₂.bytes temp = .ok old) ∧ t₂.rename temp target = .ok t' := by
  rw [fillAndMove, run_bind, run_create]
  cases t.create temp with
  | error fault => simp [changed]
  | ok t₁ =>
    simp only [changed, run_bind, run_write, Except.ok.injEq, exists_and_left, exists_eq_left']
    cases t₁.write temp content with
    | error fault => simp
    | ok t₂ =>
      simp only [run_bind, run_sync, Except.ok.injEq, exists_eq_left']
      cases t₂.bytes temp with
      | error fault => simp [Except.map]
      | ok old => simp [Except.map, changed_eq_ok_iff]

/-- The calls that replace a file, where it and its temporary file have places. -/
theorem calls_of_replaced (content : ByteArray) (htemp : t.resolve p = .ok temp)
    (hfree : t.find? temp ≠ some .directory) (hplace : t.resolve target = .ok place)
    (hover : t.find? place ≠ some .directory) :
    t.create p = .ok (t.insert temp (.file .empty)) ∧
      (t.insert temp (.file .empty)).write p content =
        .ok ((t.insert temp (.file .empty)).insert temp (.file content)) ∧
      ((t.insert temp (.file .empty)).insert temp (.file content)).bytes p = .ok content ∧
      ((t.insert temp (.file .empty)).insert temp (.file content)).rename p target =
        .ok (t.replaced temp place content) := by
  have htn := ne_nil_of_find? hfree
  have first := keepsDirectories_insert_file .empty hfree
  have hcreated : (t.insert temp (.file .empty)).find? temp = some (.file .empty) := by
    simp [find?_insert htn]
  have second := keepsDirectories_insert_file content (q := temp)
    (t := t.insert temp (.file .empty)) (by simp [hcreated])
  have hwritten : ((t.insert temp (.file .empty)).insert temp (.file content)).find? temp =
      some (.file content) := by
    simp [find?_insert htn]
  have htemp₁ := resolve_mono first.1 htemp
  have htemp₂ := resolve_mono second.1 htemp₁
  refine ⟨create_eq_ok_iff.2 ⟨temp, htemp, hfree, rfl⟩,
    write_eq_ok_iff.2 ⟨temp, .empty, htemp₁, hcreated, rfl⟩,
    bytes_eq_ok_iff.2 ⟨temp, htemp₂, hwritten⟩,
    rename_eq_ok_iff.2 ⟨temp, place, content, htemp₂,
      resolve_mono (first.1.trans second.1) hplace, hwritten, ?_, rfl⟩⟩
  intro hdir
  exact hover (first.2 _ (second.2 _ hdir))

/-- **When a file is replaced.** Its temporary file and it both have a place, neither of them is a
directory, and nothing else changes. -/
theorem run_replaceFile_eq_ok_iff :
    t.run (replaceFile target tag content) = (.ok (), t') ↔
      ∃ temp place, t.resolve (tempPath target tag) = .ok temp ∧ t.find? temp ≠ some .directory ∧
        t.resolve target = .ok place ∧ t.find? place ≠ some .directory ∧
          t' = t.replaced temp place content := by
  have hrun : t.run (replaceFile target tag content) = (.ok (), t') ↔
      t.run (fillAndMove target (tempPath target tag) content) = (.ok (), t') := by
    rw [replaceFile, run_bind, ← tempPath]
    generalize t.run (fillAndMove target (tempPath target tag) content) = outcome
    obtain ⟨result, t₁⟩ := outcome
    cases result <;> simp [run_bind]
  rw [hrun, run_fillAndMove_eq_ok_iff]
  -- The temporary file is no directory before or after, so paths lead to the same places throughout.
  constructor
  · rintro ⟨t₁, t₂, hcreate, hwrite, -, hrename⟩
    obtain ⟨temp, htemp, hfree, rfl⟩ := create_eq_ok_iff.1 hcreate
    obtain ⟨q, old, hq, hold, rfl⟩ := write_eq_ok_iff.1 hwrite
    obtain ⟨p, place, moved, hp, hplace, hmoved, hover, rfl⟩ := rename_eq_ok_iff.1 hrename
    have first := keepsDirectories_insert_file .empty hfree
    obtain rfl : temp = q := by simpa [resolve_mono first.1 htemp] using hq
    have second := keepsDirectories_insert_file content (q := temp)
      (t := t.insert temp (.file .empty)) (by simp [hold])
    obtain rfl : temp = p := by
      simpa [resolve_mono (first.1.trans second.1) htemp] using hp
    have htn := ne_nil_of_find? hfree
    obtain rfl : content = moved := by simpa [find?_insert htn] using hmoved
    have hplace' := resolve_mono (second.2.trans first.2) hplace
    refine ⟨temp, place, htemp, hfree, hplace', ?_, rfl⟩
    intro hdir
    exact hover (second.1 _ (first.1 _ hdir))
  · rintro ⟨temp, place, htemp, hfree, hplace, hover, rfl⟩
    obtain ⟨hcreate, hwrite, hbytes, hrename⟩ := calls_of_replaced content htemp hfree hplace hover
    exact ⟨_, _, hcreate, hwrite, ⟨content, hbytes⟩, hrename⟩

/-- A file is replaced in a directory that is there, if its names can be used. -/
theorem run_replaceFile_snoc {name : String} (content : ByteArray) (hd : t.resolve p = .ok d)
    (hdir : t.find? d = some .directory) (hn : IsPlain name) (hu : IsUsable name)
    (ht : IsUsable (tempName name tag)) (hfree : t.find? (d ++ [tempName name tag]) ≠ some .directory)
    (hover : t.find? (d ++ [name]) ≠ some .directory) :
    t.run (replaceFile (p ++ [name]) tag content) =
      (.ok (), t.replaced (d ++ [tempName name tag]) (d ++ [name]) content) := by
  refine run_replaceFile_eq_ok_iff.2 ⟨_, _, ?_, hfree, ?_, hover, rfl⟩
  · rw [tempPath_snoc]
    exact (resolve_snoc_iff (isPlain_tempName _ _)).2 ⟨ht, d, hd, hdir, rfl⟩
  · exact (resolve_snoc_iff hn).2 ⟨hu, d, hd, hdir, rfl⟩

end FileTree

end PublisherConsole.Storage
