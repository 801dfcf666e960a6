import PublisherConsole.Proofs.Json.Keeping
import PublisherConsole.Proofs.Json.Reading
import PublisherConsole.Proofs.Storage.Replacement
import PublisherConsole.Storage.ConfigurationFile

/-!
# Configurations survive their file

A configuration is read back from the text that is written for it (`Configuration.ofText_toText`),
if its timeout is a number of at most 64 bits. Files may be written by hand, with members missing or
in another order, with unknown ones, or with lists in the place of objects. But a timeout that was
read has at most 64 bits all the same (`Configuration.timeout_le_of_ofText`), so a configuration that
has been read survives, too.

The rest is a matter of the file: `Configuration.run_save_eq_ok_iff` says when it is written, and
`Configuration.run_load_of_saved` that it is read from there. The main statement is
`configuration_survives_its_file`.
-/

namespace PublisherConsole

open Json

/-! ### Written configurations are read back -/

/-- The fields of a user that has been read as a whole. -/
def User.toFields (u : User) : User.Fields := ⟨some u.name, some u.scopes⟩

/-- A user is read back. -/
theorem User.reads_object {bs : List Char} (hb : Blanks bs) (depth : Nat) (u : User) :
    Reads User.shape.read
      (bs ++ (Value.object
        [("username", .text u.name), ("scopes", .list (u.scopes.map .text))]).pretty depth) u := by
  have name := (reads_readText blanks_space u.name).before
  have scopes := (reads_readTexts blanks_space (depth + 1) u.scopes).before
  have takes : Shape.Takes User.shape (depth + 1) User.shape.blank
      [("username", .text u.name), ("scopes", .list (u.scopes.map .text))] u.toFields := by
    refine .cons _ rfl rfl (name.put fun v => User.Fields.mk (some v) none) ?_
    exact .cons _ rfl rfl (scopes.put fun v => User.Fields.mk _ (some v)) (.nil _)
  exact Shape.reads_object hb takes rfl

namespace Configuration

variable {c : Configuration} {text : String}

/-- The fields of a configuration that has been read as a whole. -/
def toFields (c : Configuration) : Fields :=
  ⟨some c.user, some c.publisherUrl, some c.accessToken, some c.fetchTimeoutSeconds⟩

/-- The fields take the members that are written for a configuration. -/
theorem takes_members (h : c.fetchTimeoutSeconds ≤ maxExact) (depth : Nat) :
    Shape.Takes shape depth shape.blank
      [ ("user", .object
          [ ("username", .text c.user.name), ("scopes", .list (c.user.scopes.map .text)) ])
      , ("publisher_url", .optionalText c.publisherUrl)
      , ("access_token", .optionalText c.accessToken)
      , ("fetch_timeout_seconds", .natural c.fetchTimeoutSeconds) ]
      c.toFields := by
  have user := (User.reads_object blanks_space depth c.user).before
  have url := (reads_readOptional blanks_space depth c.publisherUrl).before
  have token := (reads_readOptional blanks_space depth c.accessToken).before
  have timeout := reads_readNat64 blanks_space h depth
  refine .cons _ rfl rfl (user.put fun v => Fields.mk (some v) none none none) ?_
  refine .cons _ rfl rfl (url.put fun v => Fields.mk _ (some v) none none) ?_
  refine .cons _ rfl rfl (token.put fun v => Fields.mk _ _ (some v) none) ?_
  exact .cons _ rfl rfl (timeout.put fun v => Fields.mk _ _ _ (some v)) (.nil _)

/-- A configuration is read back from its text. -/
theorem ofText_toText (h : c.fetchTimeoutSeconds ≤ maxExact) : ofText c.toText = .ok c := by
  obtain ⟨q, hq⟩ := Shape.reads_object (s := shape) (a := c) blanks_nil (takes_members h 1) rfl []
    ⟨1, 0⟩
  simp only [List.nil_append, List.append_nil] at hq
  simp only [ofText, toText, readWhole, Cursor.start, Value.toText, String.toList_ofList, toValue,
    hq, bind, Except.bind]
  rfl

/-! ### The timeout that is read -/

/-- The timeout, as soon as it has been read, has at most 64 bits. -/
theorem keeps_timeout : shape.Keeps fun f => ∀ n ∈ f.fetchTimeoutSeconds, n ≤ maxExact := by
  intro field hfield f f' c c' hf h
  -- All fields but the timeout leave it alone.
  simp only [shape, List.mem_cons, List.not_mem_nil, or_false] at hfield
  rcases hfield with rfl | rfl | rfl | rfl
  case inr.inr.inr =>
    obtain ⟨⟨n, c₁⟩, hn, h⟩ := bind_eq_ok h
    cases h
    intro n' hn'
    obtain rfl : n = n' := by simpa using hn'
    exact le_of_readNat64 hn
  all_goals
    obtain ⟨⟨v, c₁⟩, -, h⟩ := bind_eq_ok h
    cases h
    exact hf

/-- **The timeout of a configuration that is read has at most 64 bits.** -/
theorem timeout_le_of_ofText (h : ofText text = .ok c) : c.fetchTimeoutSeconds ≤ maxExact := by
  obtain ⟨c', h⟩ := exists_of_readWhole h
  obtain ⟨f, hf, hcomplete⟩ := keeps_timeout.exists_of_read (by simp [shape]) h
  cases hcomplete
  cases hn : f.fetchTimeoutSeconds with
  | none =>
    show default.fetchTimeoutSeconds ≤ maxExact
    decide
  | some n => simpa [hn] using hf n hn

/-! ### The file -/

open Storage

variable {t t₁ t' : FileTree} {p place : Path}

/-- The directories above a path can be made, and then the path leads to a place where no directory
is: a file can be put there. -/
def Admits (t : FileTree) (p : Path) : Prop :=
  ∃ t₁ place, t.run (makeDirectories p.dropLast) = (.ok (), t₁) ∧ t₁.resolve p = .ok place ∧
    t₁.find? place ≠ some .directory

/-- **When a configuration is saved**, and what the tree holds then. -/
theorem run_save_eq_ok_iff :
    t.run (c.save p) = (.ok (), t') ↔
      ∃ t₁ place, t.run (makeDirectories p.dropLast) = (.ok (), t₁) ∧ t₁.resolve p = .ok place ∧
        t₁.find? place ≠ some .directory ∧
          t' = (t₁.insert place (.file .empty)).insert place (.file c.toText.toUTF8) := by
  have hrun : t.run (c.save p) = (.ok (), t') ↔
      ∃ t₁, t.run (makeDirectories p.dropLast) = (.ok (), t₁) ∧
        t₁.run (overwriteFile p c.toText.toUTF8) = (.ok (), t') := by
    rw [save, FileTree.run_bind]
    rcases t.run (makeDirectories p.dropLast) with ⟨fault | ⟨⟨⟩⟩, t₁⟩
    · simp
    · simp only [FileTree.run_bind, Prod.mk.injEq, true_and, exists_eq_left']
      generalize t₁.run (overwriteFile p c.toText.toUTF8) = outcome
      rcases outcome with ⟨fault | ⟨⟨⟩⟩, t₂⟩ <;> simp
  rw [hrun]
  simp only [FileTree.run_overwriteFile_eq_ok_iff, exists_and_left]

theorem saved_iff_admits : (t.run (c.save p)).1 = .ok () ↔ Admits t p := by
  constructor
  · intro h
    obtain ⟨t₁, place, hmade, hplace, hfree, -⟩ :=
      run_save_eq_ok_iff.1 (Prod.ext h rfl : t.run (c.save p) = (.ok (), _))
    exact ⟨t₁, place, hmade, hplace, hfree⟩
  · rintro ⟨t₁, place, hmade, hplace, hfree⟩
    rw [run_save_eq_ok_iff.2 ⟨t₁, place, hmade, hplace, hfree, rfl⟩]

/-- Loading goes by the text of the file. -/
theorem run_load_of_text {text : String} (h : t.text p = .ok text) (hc : ofText text = .ok c) :
    t.run (load p) = (.ok c, t) := by
  simp only [load, FileTree.run_bind, FileTree.run_readText, h, hc, FileTree.run_pure]

theorem exists_text_of_load (h : (t.run (load p)).1 = .ok c) :
    ∃ text, t.text p = .ok text ∧ ofText text = .ok c := by
  rw [load, FileTree.run_bind, FileTree.run_readText] at h
  cases ht : t.text p with
  | error fault => simp [ht] at h
  | ok text =>
    cases hc : ofText text with
    | error fault => simp [ht, hc] at h
    | ok c' =>
      obtain rfl : c' = c := by simpa [ht, hc] using h
      exact ⟨text, rfl, hc⟩

/-- A file that can be read is there, so its configuration is loaded and not the default one. -/
theorem run_loadOrDefault_of_load (h : (t.run (load p)).1 = .ok c) :
    t.run (loadOrDefault p) = (.ok c, t) := by
  obtain ⟨text, ht, hc⟩ := exists_text_of_load h
  obtain ⟨place, hplace, hfile⟩ := FileTree.bytes_eq_ok_iff.1 (FileTree.text_eq_ok_iff.1 ht)
  rw [loadOrDefault, FileTree.run_bind, FileTree.run_exists?, FileTree.entryAt?_of_resolve hplace,
    hfile]
  exact run_load_of_text ht hc

/-- **What is saved is loaded.** -/
theorem run_load_of_saved (hc : c.fetchTimeoutSeconds ≤ maxExact)
    (h : t.run (c.save p) = (.ok (), t')) : t'.run (load p) = (.ok c, t') := by
  obtain ⟨t₁, place, -, hplace, hfree, rfl⟩ := run_save_eq_ok_iff.1 h
  exact run_load_of_text
    (FileTree.text_eq_ok_iff.2 (FileTree.bytes_overwritten hplace hfree _)) (ofText_toText hc)

/-- A file that can be read can be written, as its directory is there. -/
theorem admits_of_load (h : (t.run (load p)).1 = .ok c) : Admits t p := by
  obtain ⟨text, ht, -⟩ := exists_text_of_load h
  obtain ⟨place, hplace, hfile⟩ := FileTree.bytes_eq_ok_iff.1 (FileTree.text_eq_ok_iff.1 ht)
  exact ⟨t, place, FileTree.run_makeDirectories_above hplace, hplace, by simp [hfile]⟩

/-- **Configurations survive their file.**

* A configuration with any texts and with any timeout of 64 bits can be saved wherever a file can
  be put, and nowhere else. Where it has been saved, it is loaded again exactly as it was, and the
  default configuration does not take its place.
* Whatever file a configuration has been loaded from, it has such a timeout, and it can be saved
  over that file and loaded again. -/
theorem configuration_survives_its_file :
    (∀ (c : Configuration) (t : FileTree) (p : Path), c.fetchTimeoutSeconds < 2 ^ 64 →
        ((t.run (c.save p)).1 = .ok () ↔ Admits t p) ∧
        ∀ t', t.run (c.save p) = (.ok (), t') →
          t'.run (load p) = (.ok c, t') ∧ t'.run (loadOrDefault p) = (.ok c, t')) ∧
      ∀ (c : Configuration) (t : FileTree) (p : Path), (t.run (load p)).1 = .ok c →
        c.fetchTimeoutSeconds < 2 ^ 64 ∧
          ∃ t', t.run (c.save p) = (.ok (), t') ∧ t'.run (load p) = (.ok c, t') := by
  have bound : ∀ n, n < 2 ^ 64 ↔ n ≤ maxExact := fun n => by rw [maxExact]; omega
  constructor
  · intro c t p hc
    refine ⟨saved_iff_admits, fun t' h => ?_⟩
    have loaded := run_load_of_saved ((bound _).1 hc) h
    exact ⟨loaded, run_loadOrDefault_of_load (by rw [loaded])⟩
  · intro c t p h
    obtain ⟨text, -, htext⟩ := exists_text_of_load h
    have hc := timeout_le_of_ofText htext
    have saved : t.run (c.save p) = (.ok (), (t.run (c.save p)).2) :=
      Prod.ext (saved_iff_admits.2 (admits_of_load h)) rfl
    exact ⟨(bound _).2 hc, _, saved, run_load_of_saved hc saved⟩

/-- A configuration with the largest timeout, and with texts that are empty or have escapes. -/
def extreme : Configuration := ⟨⟨"é\"\n", ["", "a\\b"]⟩, some "", none, 18446744073709551615⟩

/-- A configuration that was written by hand: the user is a list that ends early, one member is
unknown, and others are missing. -/
def handwritten : String :=
  "\x7b\"fetch_timeout_seconds\": 7, \"x\": [-1e9], \"user\": [\"u\"]\x7d"

/-- A file can be put below a directory that is missing. -/
theorem admits_below_missing : Admits .empty ["conf", "c.json"] := by
  have plain : IsPlain "conf" ∧ IsPlain "c.json" := by constructor <;> constructor <;> decide
  have usable : IsUsable "conf" ∧ IsUsable "c.json" := by constructor <;> constructor <;> decide
  have root : FileTree.empty.resolve [] = .ok [] := rfl
  have above : FileTree.empty.resolve ["conf"] = .ok ["conf"] :=
    (FileTree.resolve_snoc_iff (p := []) plain.1).2 ⟨usable.1, [], root, rfl, rfl⟩
  have made := FileTree.run_makeDirectories_of_missing above rfl
  have place : (FileTree.empty.insert ["conf"] .directory).resolve ["conf", "c.json"] =
      .ok ["conf", "c.json"] :=
    (FileTree.resolve_snoc_iff (p := ["conf"]) plain.2).2 ⟨usable.2, ["conf"],
      FileTree.resolve_mono (FileTree.grows_insert_directory rfl).keepsDirectories above, rfl, rfl⟩
  have free : (FileTree.empty.insert ["conf"] .directory).find? ["conf", "c.json"] = none := rfl
  exact ⟨_, _, made, place, by simp [free]⟩

/-- The one is saved below a directory that was missing, and the other one over its own file. -/
theorem configuration_survives_its_file_by_hand :
    (∃ t' : FileTree, t'.run (load ["conf", "c.json"]) = (.ok extreme, t')) ∧
      ∃ t' : FileTree, t'.run (load ["c.json"]) =
        (.ok ⟨⟨"u", User.default.scopes⟩, none, none, 7⟩, t') := by
  obtain ⟨admitted, loaded⟩ :=
    configuration_survives_its_file.1 extreme .empty ["conf", "c.json"] (by decide)
  have saved := admitted.2 admits_below_missing
  let t : FileTree := ⟨[(["c.json"], .file handwritten.toUTF8)]⟩
  have plain : IsPlain "c.json" := by constructor <;> decide
  have usable : IsUsable "c.json" := by constructor <;> decide
  have place : t.resolve ["c.json"] = .ok ["c.json"] :=
    (FileTree.resolve_snoc_iff (p := []) plain).2 ⟨usable, [], rfl, rfl, rfl⟩
  have text : t.text ["c.json"] = .ok handwritten :=
    FileTree.text_eq_ok_iff.2 (FileTree.bytes_eq_ok_iff.2 ⟨_, place, rfl⟩)
  have read : ofText handwritten = .ok ⟨⟨"u", User.default.scopes⟩, none, none, 7⟩ := by
    have given : (ofText handwritten).toOption =
        some ⟨⟨"u", User.default.scopes⟩, none, none, 7⟩ := by decide +kernel
    cases h : ofText handwritten <;> simp_all [Except.toOption]
  obtain ⟨-, t', -, again⟩ := configuration_survives_its_file.2 _ t ["c.json"]
    (congrArg Prod.fst (run_load_of_text text read))
  exact ⟨⟨_, (loaded _ (Prod.ext saved rfl)).1⟩, t', again⟩

end Configuration

end PublisherConsole
