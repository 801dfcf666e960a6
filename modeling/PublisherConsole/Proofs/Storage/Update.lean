import PublisherConsole.Proofs.Storage.Store

/-!
# What an update changes

An update reads the record of the identifier that it is given, and writes it to the place that the
identifier inside the record names. `update_keeps_to_its_record_iff` says exactly when the two agree
well enough for the caller: when both identifiers lead to the same file, or when nothing had to be
written. A record whose own identifier leads elsewhere is written there, and the one that was asked
for stays as it was.
-/

namespace PublisherConsole

namespace Storage

namespace FileStore

variable {s : FileStore} {t t' : FileTree} {id tag : String} {field : TextField} {content : String}
  {stamp : Stamp} {r r' : Record} {place : Path}

/-- What an update leaves: a tree with directories added at most, in which the file was replaced. -/
theorem update_replaces (h : t.run (s.update id field content stamp) = (.ok r', t')) :
    ∃ r t₁ temp place', (t.run (s.read id)).1 = .ok r ∧
      r' = r.setContent field content stamp.now ∧
      t.run (makeDirectories (s.directory r.id)) = (.ok (), t₁) ∧
      t₁.resolve (tempPath (s.recordPath r.id) stamp.tag) = .ok temp ∧
      t₁.find? temp ≠ some .directory ∧ t₁.resolve (s.recordPath r.id) = .ok place' ∧
      t₁.find? place' ≠ some .directory ∧ t' = t₁.replaced temp place' r'.toText.toUTF8 := by
  obtain ⟨r, hread, rfl, hwrite⟩ := run_update_eq_ok_iff.1 h
  obtain ⟨t₁, hmake, hreplace⟩ := run_writeRecord_eq_ok_iff.1 hwrite
  rw [Record.id_setContent] at hmake hreplace
  obtain ⟨temp, place', htemp, hfree, hplace, hover, rfl⟩ :=
    FileTree.run_replaceFile_eq_ok_iff.1 hreplace
  exact ⟨r, t₁, temp, place', hread, rfl, hmake, htemp, hfree, hplace, hover, rfl⟩

/-- The update of `id` shows in what is read of `id`, and nowhere else in the tree. -/
def KeepsToItsRecord (s : FileStore) (id : String) (r' : Record) (t t' : FileTree) : Prop :=
  (t'.run (s.read id)).1 = .ok r' ∧
    ∀ p, t.resolve (s.recordPath id) ≠ .ok p → t'.find? p = t.find? p

/-- An update that shows where it should, and nowhere else, wrote the file that it read, or it had
nothing to write. -/
theorem KeepsToItsRecord.written (hr : (t.run (s.read id)).1 = .ok r)
    (h : t.run (s.update id field content stamp) = (.ok r', t'))
    (hk : s.KeepsToItsRecord id r' t t') :
    t.entryAt? (tempPath (s.recordPath r.id) stamp.tag) = none ∧
      (t.resolve (s.recordPath r.id) = t.resolve (s.recordPath id) ∨
        r' = r ∧ t.bytes (s.recordPath r.id) = .ok r.toText.toUTF8) := by
  obtain ⟨q, t₁, temp, place', hread, hr', hmake, htemp, hfree, hplace', hover, rfl⟩ :=
    update_replaces h
  obtain rfl : r = q := by simpa [hr] using hread
  obtain ⟨hid, text, hbytes, hof⟩ := read_eq_ok_iff.1 hr
  obtain ⟨place, hplace, hfile⟩ := FileTree.bytes_eq_ok_iff.1 hbytes
  obtain ⟨hseen, hframe⟩ := hk
  have hframe : ∀ p, p ≠ place → (t₁.replaced temp place' r'.toText.toUTF8).find? p = t.find? p :=
    fun p hp => hframe p (by rw [hplace]; simpa using hp.symm)
  have hgrows : FileTree.Grows t t₁ := by
    simpa [hmake] using FileTree.grows_makeDirectories t (s.directory r.id)
  have hkeeps := FileTree.keepsDirectories_replaced r'.toText.toUTF8 hfree hover
  have hfind := FileTree.find?_replaced (t := t₁) r'.toText.toUTF8
    (FileTree.ne_nil_of_find? hfree) (FileTree.ne_nil_of_find? hover)
  -- A directory that was added would show outside the file.
  have hback : FileTree.KeepsDirectories t₁ t := by
    intro x hx
    have hne : x ≠ place := by
      rintro rfl
      rw [hgrows.keeps x _ hfile] at hx
      cases hx
    rw [← hframe x hne]
    exact hkeeps.1 x hx
  have htemp := FileTree.resolve_mono hback htemp
  have hplace' := FileTree.resolve_mono hback hplace'
  have htempplace : temp ≠ place' := temp_ne_place htemp hplace'
  have hafter := FileTree.resolve_mono hkeeps.1 (FileTree.resolve_mono hgrows.keepsDirectories hplace)
  obtain ⟨text', hfile', hof'⟩ := (read_eq_ok_iff_of_resolve hid hafter).1 hseen
  -- The temporary file is gone in the end, and the record that was asked for is not.
  have htempne : temp ≠ place := by
    rintro rfl
    rw [hfind, if_neg htempplace, if_pos rfl] at hfile'
    cases hfile'
  refine ⟨?_, ?_⟩
  · rw [FileTree.entryAt?_of_resolve htemp, ← hframe temp htempne, hfind, if_neg htempplace,
      if_pos rfl]
  · by_cases hsame : place' = place
    · exact .inl (by rw [hplace', hplace, hsame])
    · right
      have hold := hgrows.keeps place _ hfile
      rw [hfind, if_neg (Ne.symm hsame), if_neg (Ne.symm htempne), hold] at hfile'
      obtain rfl : text = text' := by
        simpa [String.toByteArray_inj] using hfile'
      obtain rfl : r = r' := by simpa [hof] using hof'
      refine ⟨rfl, FileTree.bytes_eq_ok_iff.2 ⟨place', hplace', ?_⟩⟩
      rw [← hframe place' hsame, hfind, if_pos rfl]

/-- An update that writes the file that it read, or has nothing to write, shows where it should and
nowhere else, if its temporary file is new. -/
theorem keepsToItsRecord_of_written (hnow : stamp.now.isValid = true)
    (hr : (t.run (s.read id)).1 = .ok r)
    (h : t.run (s.update id field content stamp) = (.ok r', t'))
    (hnew : t.entryAt? (tempPath (s.recordPath r.id) stamp.tag) = none)
    (hw : t.resolve (s.recordPath r.id) = t.resolve (s.recordPath id) ∨
      r' = r ∧ t.bytes (s.recordPath r.id) = .ok r.toText.toUTF8) :
    s.KeepsToItsRecord id r' t t' := by
  obtain ⟨q, t₁, temp, place', hread, hr', hmake, htemp, hfree, hplace', hover, rfl⟩ :=
    update_replaces h
  obtain rfl : r = q := by simpa [hr] using hread
  obtain ⟨hid, text, hbytes, hof⟩ := read_eq_ok_iff.1 hr
  obtain ⟨place, hplace, hfile⟩ := FileTree.bytes_eq_ok_iff.1 hbytes
  have hvalid : r'.updatedAt.isValid = true := by rw [hr', Record.updatedAt_setContent, hnow]
  -- The file that is written has a place already, so no directory is made for it.
  have hthere : ∃ p, t.resolve (s.recordPath r.id) = .ok p := by
    rcases hw with hsame | ⟨-, hother⟩
    · exact ⟨place, by rw [hsame, hplace]⟩
    · obtain ⟨p, hp, -⟩ := FileTree.bytes_eq_ok_iff.1 hother
      exact ⟨p, hp⟩
  obtain ⟨p, hp⟩ := hthere
  obtain rfl : t = t₁ := by simpa [run_makeDirectories_of_resolve hp] using hmake
  obtain rfl : place' = p := by simpa [hplace'] using hp
  rw [FileTree.entryAt?_of_resolve htemp] at hnew
  have hkeeps := FileTree.keepsDirectories_replaced r'.toText.toUTF8 hfree hover
  have hfind := FileTree.find?_replaced (t := t) r'.toText.toUTF8
    (FileTree.ne_nil_of_find? hfree) (FileTree.ne_nil_of_find? hover)
  have hafter := FileTree.resolve_mono hkeeps.1 hplace
  have hframe : ∀ x, x ≠ place' →
      (t.replaced temp place' r'.toText.toUTF8).find? x = t.find? x := by
    intro x hx
    rw [hfind, if_neg hx]
    split
    next heq => rw [heq, hnew]
    next => rfl
  rcases hw with hsame | ⟨rfl, hother⟩
  · obtain rfl : place' = place := by simpa [hplace', hplace] using hsame
    refine ⟨read_of_written hid hvalid hafter (by rw [hfind, if_pos rfl]), fun x hx => hframe x ?_⟩
    rintro rfl
    exact hx hplace
  · have hsame : ∀ x, (t.replaced temp place' r'.toText.toUTF8).find? x = t.find? x := by
      intro x
      by_cases hx : x = place'
      · obtain ⟨p, hp, hfile'⟩ := FileTree.bytes_eq_ok_iff.1 hother
        obtain rfl : place' = p := by simpa [hplace'] using hp
        rw [hx, hfind, if_pos rfl, hfile']
      · exact hframe x hx
    refine ⟨?_, fun x _ => hsame x⟩
    rw [read_eq_ok_iff_of_resolve hid hafter, hsame]
    exact ⟨text, hfile, hof⟩

/-- **When an update keeps to its record.** A successful update returns the record that was there,
with the text and the time replaced. It shows in what is read of its identifier, and nowhere else in
the tree, exactly when its temporary file is new and the identifier inside the record leads to the
file that was read; or else when the record did not change and is written in that other file
already. -/
theorem update_keeps_to_its_record_iff (hnow : stamp.now.isValid = true)
    (h : t.run (s.update id field content stamp) = (.ok r', t')) :
    ∃ r, (t.run (s.read id)).1 = .ok r ∧ r' = r.setContent field content stamp.now ∧
      (s.KeepsToItsRecord id r' t t' ↔
        t.entryAt? (tempPath (s.recordPath r.id) stamp.tag) = none ∧
          (t.resolve (s.recordPath r.id) = t.resolve (s.recordPath id) ∨
            r' = r ∧ t.bytes (s.recordPath r.id) = .ok r.toText.toUTF8)) := by
  obtain ⟨r, hread, hr', -⟩ := run_update_eq_ok_iff.1 h
  exact ⟨r, hread, hr', fun hk => hk.written hread h,
    fun hw => keepsToItsRecord_of_written hnow hread h hw.1 hw.2⟩

/-- A record whose identifier is not the name of the directory it is put in. -/
def misplacedRecord : Record := .fresh "b" "N" ⟨⟨2020, 1, 1⟩, 0, 0, 0, 0⟩

/-- A store with that record in the directory of another identifier. -/
def misplacedTree : FileTree :=
  ⟨[ (["apis"], .directory), (["apis", "a"], .directory)
   , (["apis", "a", "api.json"], .file misplacedRecord.toText.toUTF8) ]⟩

/-- A time and a tag to update with. -/
def misplacedStamp : Stamp := ⟨⟨⟨2024, 1, 1⟩, 0, 0, 0, 0⟩, "1"⟩

/-- The update of a misplaced record goes elsewhere: the directory that its own identifier names is
made, the record is written there, and the one that was asked for stays as it was. -/
theorem update_strays_from_a_misplaced_record :
    misplacedStamp.now.isValid = true ∧
      ∃ r' t', misplacedTree.run (FileStore.update ⟨[]⟩ "a" .overview "x" misplacedStamp) =
          (.ok r', t') ∧
        ¬KeepsToItsRecord ⟨[]⟩ "a" r' misplacedTree t' := by
  have hnow : misplacedStamp.now.isValid = true := by decide
  have hplace : misplacedTree.resolve (recordPath ⟨[]⟩ "a") = .ok ["apis", "a", "api.json"] :=
    FileTree.resolve_eq_ok_iff.2 ⟨by decide, rfl⟩
  have hread : (misplacedTree.run (FileStore.read ⟨[]⟩ "a")).1 = .ok misplacedRecord :=
    read_of_written (by decide) (by decide) hplace rfl
  have hmake : misplacedTree.run (makeDirectories (directory ⟨[]⟩ "b")) =
      (.ok (), misplacedTree.insert ["apis", "b"] .directory) :=
    FileTree.run_makeDirectories_of_missing (FileTree.resolve_eq_ok_iff.2 ⟨by decide, rfl⟩) rfl
  obtain ⟨changed, hchanged⟩ : ∃ r, r = misplacedRecord.setContent .overview "x"
    misplacedStamp.now := ⟨_, rfl⟩
  have hid : changed.id = "b" := by rw [hchanged]; rfl
  have htemp : (misplacedTree.insert ["apis", "b"] .directory).find?
      ["apis", "b", "api.json.1.tmp"] = none := rfl
  have hfile : (misplacedTree.insert ["apis", "b"] .directory).find? ["apis", "b", "api.json"] =
      none := rfl
  have hreplace : (misplacedTree.insert ["apis", "b"] .directory).run
      (replaceFile (recordPath ⟨[]⟩ "b") misplacedStamp.tag changed.toText.toUTF8) =
      (.ok (), (misplacedTree.insert ["apis", "b"] .directory).replaced
        ["apis", "b", "api.json.1.tmp"] ["apis", "b", "api.json"] changed.toText.toUTF8) :=
    FileTree.run_replaceFile_eq_ok_iff.2 ⟨["apis", "b", "api.json.1.tmp"], ["apis", "b", "api.json"],
      FileTree.resolve_eq_ok_iff.2 ⟨by decide, rfl⟩, by simp [htemp],
      FileTree.resolve_eq_ok_iff.2 ⟨by decide, rfl⟩, by simp [hfile], rfl⟩
  rw [← hid] at hmake hreplace
  have hwrite := run_writeRecord_eq_ok_iff.2 ⟨_, hmake, hreplace⟩
  have hupdate := (run_update_eq_ok_iff (s := ⟨[]⟩) (t := misplacedTree)).2
    ⟨misplacedRecord, hread, hchanged, hwrite⟩
  refine ⟨hnow, _, _, hupdate, ?_⟩
  obtain ⟨r, hr, -, hiff⟩ := update_keeps_to_its_record_iff hnow hupdate
  obtain rfl : misplacedRecord = r := by simpa [hread] using hr
  rw [hiff]
  rintro ⟨-, hsame | ⟨hsame, -⟩⟩
  · have hnone : misplacedTree.follow [] (recordPath ⟨[]⟩ misplacedRecord.id) =
        .error .noSuchFile := rfl
    rw [hplace, FileTree.resolve_eq_ok_iff, hnone] at hsame
    cases hsame.2
  · rw [hchanged] at hsame
    cases congrArg Record.overview hsame

end FileStore

end Storage

end PublisherConsole
