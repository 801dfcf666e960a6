import Mathlib.Tactic
import PublisherConsole.Storage.FileTree

/-!
# Entries, places and changes of a tree

What a change of a tree does is said by the entries that are found in it: `find?_insert` and
`find?_erase`, with `mem_namesBelow` for the names in a directory. Where a path leads depends only on
the directories of the tree (`resolve_mono`), and one name at a time (`resolve_snoc_iff`). Each
operation that may fail has a lemma that says when it succeeds, and with which tree.
-/

namespace PublisherConsole.Storage

/-- A name that stands for an entry of its own. -/
structure IsPlain (name : String) : Prop where
  ne_here : name ≠ "."
  ne_above : name ≠ ".."

/-- A name that the file system takes. -/
structure IsUsable (name : String) : Prop where
  short : name.utf8ByteSize ≤ FileTree.maxNameLength
  noNul : '\x00' ∉ name.toList

namespace FileTree

variable {t t' : FileTree} {p q d x : Path} {e : Entry} {name : String} {content : ByteArray}

/-! ### Entries -/

@[simp] theorem find?_nil (t : FileTree) : t.find? [] = some .directory := by simp [find?]

theorem find?_of_ne_nil (h : p ≠ []) : t.find? p = t.entries.lookup p := by simp [find?, h]

theorem ne_nil_of_find? (h : t.find? p ≠ some .directory) : p ≠ [] := by
  rintro rfl
  exact h (find?_nil t)

/-- Where nothing was, an entry is found behind all others. -/
theorem lookup_append_singleton (entries : List (Path × Entry)) (h : entries.lookup p = none) :
    (entries ++ [(p, e)]).lookup x = if x = p then some e else entries.lookup x := by
  rw [List.lookup_append]
  by_cases hx : x = p
  · simp [hx, h]
  · have : (x == p) = false := by simpa using hx
    cases hl : entries.lookup x <;> simp [List.lookup_cons, this, hx]

/-- A replaced entry is found in its place. -/
theorem lookup_map_replace {κ β : Type} [BEq κ] [LawfulBEq κ] [DecidableEq κ] {p x : κ} {e : β}
    (entries : List (κ × β)) :
    (entries.map fun (q, old) => if q = p then (q, e) else (q, old)).lookup x =
      if x = p then (entries.lookup p).map fun _ => e else entries.lookup x := by
  induction entries with
  | nil => simp
  | cons entry entries ih =>
    obtain ⟨q, old⟩ := entry
    by_cases hq : q = p
    · subst hq
      by_cases hx : x = q
      · simp [hx]
      · have : (x == q) = false := by simpa using hx
        simpa [List.lookup_cons, this, hx] using ih
    · have hp : (p == q) = false := by simpa using fun h => hq h.symm
      by_cases hx : x = q
      · simp [hx, hq]
      · have : (x == q) = false := by simpa using hx
        simpa [List.lookup_cons, this, hq, hp] using ih

/-- An entry that is put in is found, and no other changes. -/
theorem find?_insert (h : p ≠ []) :
    (t.insert p e).find? x = if x = p then some e else t.find? x := by
  by_cases hx : x = []
  · subst hx
    simp [h.symm]
  · rw [find?_of_ne_nil hx, find?_of_ne_nil hx, insert]
    split
    next hs =>
      obtain ⟨old, hs⟩ := Option.isSome_iff_exists.1 hs
      simp [lookup_map_replace, hs]
    next hs => exact lookup_append_singleton _ (Option.not_isSome_iff_eq_none.1 hs)

/-- An entry that is taken away is not found, and no other changes. -/
theorem find?_erase (h : p ≠ []) :
    (t.erase p).find? x = if x = p then none else t.find? x := by
  by_cases hx : x = []
  · subst hx
    simp [h.symm]
  · rw [find?_of_ne_nil hx, find?_of_ne_nil hx, erase]
    induction t.entries with
    | nil => simp
    | cons entry entries ih =>
      obtain ⟨q, old⟩ := entry
      by_cases hq : q = p
      · subst hq
        by_cases hxq : x = q
        · simpa [hxq] using ih
        · have : (x == q) = false := by simpa using hxq
          simpa [hxq, List.lookup_cons, this] using ih
      · by_cases hxq : x = q
        · simp [hxq, hq]
        · have : (x == q) = false := by simpa using hxq
          simpa [hq, List.lookup_cons, this] using ih

/-! ### Names in a directory -/

theorem lookup_isSome_iff (entries : List (Path × Entry)) :
    (entries.lookup p).isSome ↔ p ∈ entries.map Prod.fst := by
  induction entries with
  | nil => simp
  | cons entry entries ih =>
    obtain ⟨q, old⟩ := entry
    by_cases h : p = q
    · simp [h]
    · have : (p == q) = false := by simpa using h
      simp only [List.lookup_cons, this, List.map_cons, List.mem_cons, h, false_or]
      exact ih

theorem dropLast_getLast?_iff : q.dropLast = d ∧ q.getLast? = some name ↔ q = d ++ [name] := by
  constructor
  · rintro ⟨rfl, h⟩
    exact (List.dropLast_append_getLast? name h).symm
  · rintro rfl
    simp

/-- The names in a directory are those of the entries in it. -/
theorem mem_namesBelow : name ∈ t.namesBelow d ↔ (t.find? (d ++ [name])).isSome := by
  rw [find?_of_ne_nil (by simp), lookup_isSome_iff]
  simp only [namesBelow, List.mem_filterMap, List.mem_map, Prod.exists]
  constructor
  · rintro ⟨q, old, hmem, h⟩
    split at h
    next hd => exact ⟨q, old, hmem, dropLast_getLast?_iff.1 ⟨hd, h⟩⟩
    next => cases h
  · rintro ⟨q, old, hmem, rfl⟩
    exact ⟨_, old, hmem, by simp⟩

/-- Elsewhere the names stay. -/
theorem namesBelow_insert_of_ne (h : p.dropLast ≠ d) : (t.insert p e).namesBelow d = t.namesBelow d := by
  unfold insert
  split
  · simp only [namesBelow, List.filterMap_map]
    refine List.filterMap_congr fun entry _ => ?_
    obtain ⟨q, old⟩ := entry
    by_cases hq : q = p <;> simp [hq]
  · simp [namesBelow, h]

/-- A replaced entry keeps its name, and a new one comes last. -/
theorem namesBelow_insert :
    (t.insert (d ++ [name]) e).namesBelow d =
      if (t.find? (d ++ [name])).isSome then t.namesBelow d else t.namesBelow d ++ [name] := by
  rw [find?_of_ne_nil (by simp), insert]
  split
  · simp only [namesBelow, List.filterMap_map]
    refine List.filterMap_congr fun entry _ => ?_
    obtain ⟨q, old⟩ := entry
    by_cases hq : q = d ++ [name] <;> simp [hq]
  · simp [namesBelow]

theorem namesBelow_erase_of_ne (h : p.dropLast ≠ d) : (t.erase p).namesBelow d = t.namesBelow d := by
  simp only [namesBelow, erase]
  induction t.entries with
  | nil => rfl
  | cons entry entries ih =>
    obtain ⟨q, old⟩ := entry
    by_cases hq : q = p
    · subst hq
      simpa [h] using ih
    · simp only [ne_eq, hq, not_false_eq_true, decide_true, List.filter_cons_of_pos,
        List.filterMap_cons, ih]

/-! ### Places -/

/-- Directories of the one tree are directories of the other. -/
def KeepsDirectories (t t' : FileTree) : Prop :=
  ∀ x, t.find? x = some .directory → t'.find? x = some .directory

theorem KeepsDirectories.trans {t'' : FileTree} (h : KeepsDirectories t t')
    (h' : KeepsDirectories t' t'') : KeepsDirectories t t'' :=
  fun x hx => h' x (h x hx)

/-- Where a name leads from a directory. -/
theorem follow_cons_iff {rest : Path} :
    t.follow d (name :: rest) = .ok q ↔
      t.find? d = some .directory ∧ name.utf8ByteSize ≤ maxNameLength ∧
        t.follow (if name = "." then d else if name = ".." then d.dropLast else d ++ [name]) rest =
          .ok q := by
  rw [follow]
  cases hd : t.find? d with
  | none => simp
  | some entry =>
    cases entry with
    | file content => simp
    | directory =>
      by_cases hlong : name.utf8ByteSize > maxNameLength
      · simp [hlong, Nat.not_le.2 hlong]
      · simp only [if_neg hlong, Nat.not_lt.1 hlong, true_and]
        by_cases hhere : name = "."
        · simp [hhere]
        · by_cases habove : name = ".." <;> simp [hhere, habove]

@[simp] theorem follow_nil : t.follow d [] = .ok q ↔ d = q := by simp [follow]

/-- A path that leads somewhere still does so among more directories. -/
theorem follow_mono (h : KeepsDirectories t t') (hq : t.follow d p = .ok q) :
    t'.follow d p = .ok q := by
  induction p generalizing d with
  | nil => simpa using hq
  | cons name rest ih =>
    rw [follow_cons_iff] at hq ⊢
    exact ⟨h d hq.1, hq.2.1, ih hq.2.2⟩

theorem follow_append_iff {p' : Path} :
    t.follow d (p ++ p') = .ok q ↔ ∃ m, t.follow d p = .ok m ∧ t.follow m p' = .ok q := by
  induction p generalizing d with
  | nil => simp
  | cons name rest ih =>
    simp only [List.cons_append, follow_cons_iff, ih]
    constructor
    · rintro ⟨hd, hshort, m, hm, hq⟩
      exact ⟨m, ⟨hd, hshort, hm⟩, hq⟩
    · rintro ⟨m, ⟨hd, hshort, hm⟩, hq⟩
      exact ⟨hd, hshort, m, hm, hq⟩

theorem follow_append_of_ok {p' : Path} (h : t.follow d p = .ok q) :
    t.follow d (p ++ p') = t.follow q p' := by
  -- The equivalence above is silent about failures, so the names are followed once more.
  induction p generalizing d with
  | nil => rw [List.nil_append, follow_nil.1 h]
  | cons name rest ih =>
    obtain ⟨hd, hshort, hrest⟩ := follow_cons_iff.1 h
    rw [List.cons_append, follow, hd]
    simp only [Nat.not_lt.2 hshort, if_false]
    split
    next hhere => rw [if_pos hhere] at hrest; exact ih hrest
    next hhere =>
      rw [if_neg hhere] at hrest
      split
      next habove => rw [if_pos habove] at hrest; exact ih hrest
      next habove => rw [if_neg habove] at hrest; exact ih hrest

theorem resolve_eq_ok_iff :
    t.resolve p = .ok q ↔ (∀ name ∈ p, '\x00' ∉ name.toList) ∧ t.follow [] p = .ok q := by
  have nul : p.any (·.contains '\x00') = true ↔ ∃ name ∈ p, '\x00' ∈ name.toList := by
    simp [String.contains_char_eq]
  -- A path with a NUL in it leads nowhere, whatever its names are.
  unfold resolve
  by_cases h : p.any (·.contains '\x00') = true
  · obtain ⟨name, hmem, hnul⟩ := nul.1 h
    rw [if_pos h]
    exact ⟨fun hq => by simp at hq, fun hq => absurd hnul (hq.1 name hmem)⟩
  · rw [if_neg h]
    exact ⟨fun hq => ⟨fun name hmem hnul => h (nul.2 ⟨name, hmem, hnul⟩), hq⟩, fun hq => hq.2⟩

/-- A path leads to the same place among more directories. -/
theorem resolve_mono (h : KeepsDirectories t t') (hq : t.resolve p = .ok q) :
    t'.resolve p = .ok q := by
  rw [resolve_eq_ok_iff] at hq ⊢
  exact ⟨hq.1, follow_mono h hq.2⟩

/-- A plain name leads to the entry of that name in the directory before it. -/
theorem resolve_snoc_iff (hn : IsPlain name) :
    t.resolve (p ++ [name]) = .ok q ↔
      IsUsable name ∧ ∃ d, t.resolve p = .ok d ∧ t.find? d = some .directory ∧ q = d ++ [name] := by
  simp only [resolve_eq_ok_iff, follow_append_iff, follow_cons_iff, hn.ne_here, hn.ne_above,
    if_false, follow_nil, List.mem_append, List.mem_singleton, or_imp, forall_and, forall_eq]
  constructor
  · rintro ⟨⟨hp, hnul⟩, d, hd, hdir, hshort, rfl⟩
    exact ⟨⟨hshort, hnul⟩, d, ⟨hp, hd⟩, hdir, rfl⟩
  · rintro ⟨hu, d, ⟨hp, hd⟩, hdir, rfl⟩
    exact ⟨⟨hp, hu.noNul⟩, d, hd, hdir, hu.short, rfl⟩

/-- Nothing is found below what is missing. -/
theorem resolve_snoc_of_missing (h : t.resolve p = .ok q) (hq : t.find? q = none)
    (hnul : '\x00' ∉ name.toList) : t.resolve (p ++ [name]) = .error .noSuchFile := by
  obtain ⟨hp, hfollow⟩ := resolve_eq_ok_iff.1 h
  have hany : (p ++ [name]).any (·.contains '\x00') = false := by
    simp only [List.any_append, List.any_cons, List.any_nil, Bool.or_false, Bool.or_eq_false_iff,
      List.any_eq_false, String.contains_char_eq, decide_eq_true_eq, decide_eq_false_iff_not]
    exact ⟨hp, hnul⟩
  rw [resolve, hany, if_neg Bool.false_ne_true, follow_append_of_ok hfollow, follow, hq]

theorem entryAt?_of_resolve (h : t.resolve p = .ok q) : t.entryAt? p = t.find? q := by
  simp [entryAt?, h]

/-! ### Operations that may fail -/

theorem bytes_eq_ok_iff :
    t.bytes p = .ok content ↔ ∃ q, t.resolve p = .ok q ∧ t.find? q = some (.file content) := by
  unfold bytes
  cases h : t.resolve p with
  | error fault => simp [bind, Except.bind]
  | ok q =>
    cases hq : t.find? q with
    | none => simp [bind, Except.bind, hq]
    | some entry => cases entry <;> simp [bind, Except.bind, hq]

theorem fromUTF8?_eq_some_iff {s : String} :
    String.fromUTF8? content = some s ↔ content = s.toUTF8 := by
  unfold String.fromUTF8?
  split
  next hvalid =>
    rw [Option.some.injEq]
    constructor <;> rintro rfl <;> rfl
  next hinvalid =>
    refine iff_of_false (by simp) ?_
    rintro rfl
    exact hinvalid s.isValidUTF8

theorem text_eq_ok_iff {s : String} : t.text p = .ok s ↔ t.bytes p = .ok s.toUTF8 := by
  unfold text
  cases t.bytes p with
  | error fault => simp [bind, Except.bind]
  | ok content =>
    simp only [bind, Except.bind, Except.ok.injEq, ← fromUTF8?_eq_some_iff]
    cases String.fromUTF8? content <;> simp

theorem makeDirectory_eq_ok_iff :
    t.makeDirectory p = .ok t' ↔
      ∃ q, t.resolve p = .ok q ∧ t.find? q = none ∧ t' = t.insert q .directory := by
  unfold makeDirectory
  cases h : t.resolve p with
  | error fault => simp [bind, Except.bind]
  | ok q => cases hq : t.find? q <;> simp [bind, Except.bind, hq, eq_comm]

theorem create_eq_ok_iff :
    t.create p = .ok t' ↔
      ∃ q, t.resolve p = .ok q ∧ t.find? q ≠ some .directory ∧ t' = t.insert q (.file .empty) := by
  unfold create
  cases h : t.resolve p with
  | error fault => simp [bind, Except.bind]
  | ok q =>
    cases hq : t.find? q with
    | none => simp [bind, Except.bind, hq, eq_comm]
    | some entry => cases entry <;> simp [bind, Except.bind, hq, eq_comm]

theorem write_eq_ok_iff :
    t.write p content = .ok t' ↔
      ∃ q old, t.resolve p = .ok q ∧ t.find? q = some (.file old) ∧
        t' = t.insert q (.file content) := by
  unfold write
  cases h : t.resolve p with
  | error fault => simp [bind, Except.bind]
  | ok q =>
    cases hq : t.find? q with
    | none => simp [bind, Except.bind, hq]
    | some entry => cases entry <;> simp [bind, Except.bind, hq, eq_comm]

theorem rename_eq_ok_iff {source target : Path} :
    t.rename source target = .ok t' ↔
      ∃ p q content, t.resolve source = .ok p ∧ t.resolve target = .ok q ∧
        t.find? p = some (.file content) ∧ t.find? q ≠ some .directory ∧
          t' = (t.erase p).insert q (.file content) := by
  unfold rename
  cases hp : t.resolve source with
  | error fault => simp [bind, Except.bind]
  | ok p =>
    cases hq : t.resolve target with
    | error fault => simp [bind, Except.bind]
    | ok q =>
      cases hfp : t.find? p with
      | none => simp [bind, Except.bind, hfp]
      | some entry =>
        cases entry <;> cases hfq : t.find? q with
        | none => simp [bind, Except.bind, hfp, hfq, eq_comm]
        | some entry' => cases entry' <;> simp [bind, Except.bind, hfp, hfq, eq_comm]

theorem remove_eq_ok_iff :
    t.remove p = .ok t' ↔
      ∃ q old, t.resolve p = .ok q ∧ t.find? q = some (.file old) ∧ t' = t.erase q := by
  unfold remove
  cases h : t.resolve p with
  | error fault => simp [bind, Except.bind]
  | ok q =>
    cases hq : t.find? q with
    | none => simp [bind, Except.bind, hq]
    | some entry => cases entry <;> simp [bind, Except.bind, hq, eq_comm]

end FileTree

end PublisherConsole.Storage
