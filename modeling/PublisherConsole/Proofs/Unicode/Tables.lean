import PublisherConsole.Unicode.CaseFold
import PublisherConsole.Unicode.Cluster
import PublisherConsole.Unicode.TextWidth

/-!
# Looking up single characters

The tables of code points are kept as text, and a text is read best from the list of its characters
(`words_ofList`). So a character can be looked up in a proof, by `ClassTable.classOf_ofList` or
`Ranges.contains_ofList`, whatever the length of the table. What holds of all characters of a set is
read off its spans (`Ranges.exists_span_of_contains`), by deciding that they lie apart from others. In
the same way no entry of the tables of folded case has a line end (`mem_foldCase_iff`).
-/

namespace PublisherConsole.Unicode

/-- The words between the blanks and line ends of a list of characters. -/
def wordsOf (cs : List Char) : List (List Char) :=
  let step (c : Char) (acc : List (List Char)) : List (List Char) :=
    if c = ' ' || c = '\n' then [] :: acc
    else
      match acc with
      | [] => [[c]]
      | w :: ws => (c :: w) :: ws
  (cs.foldr step [[]]).filter (· ≠ [])

theorem words_ofList (cs : List Char) : words (String.ofList cs) = wordsOf cs := by
  rw [words, String.toList_ofList]
  rfl

theorem Ranges.contains_ofList (cs : List Char) (c : Char) :
    (Ranges.ofText (String.ofList cs)).contains c =
      (Ranges.mk ((wordsOf cs).map Ranges.spanOfText).toArray).contains c := by
  rw [Ranges.ofText, words_ofList]

theorem ClassTable.classOf_ofList {α : Type} (other : α) (ofLetter : Char → α) (cs : List Char)
    (c : Char) :
    (ClassTable.ofText other ofLetter (String.ofList cs)).classOf c =
      ClassTable.classOf ⟨((wordsOf cs).map fun token =>
        (hexNumber (token.takeWhile (· ≠ ':')), ofLetter (token.getLastD '?'))).toArray, other⟩
        c := by
  rw [ClassTable.ofText, words_ofList]

/-! ### Spans that lie apart -/

/-- What a search finds lies in one of the spans. -/
theorem Ranges.exists_span_of_search {spans : Array (Nat × Nat)} {n fuel lo hi : Nat}
    (h : Ranges.search spans n fuel lo hi = true) :
    ∃ span ∈ spans, span.1 ≤ n ∧ n ≤ span.2 := by
  fun_induction Ranges.search spans n fuel lo hi with
  | case1 | case2 | case6 => cases h
  | case3 lo hi fuel _ mid a b hspan below ih => exact ih h
  | case4 lo hi fuel _ mid a b hspan below above ih => exact ih h
  | case5 lo hi fuel _ mid a b hspan below above =>
    exact ⟨(a, b), Array.mem_of_getElem? hspan, Nat.le_of_not_lt below, Nat.le_of_not_lt above⟩

/-- No span of the one has a code point in a span of the other. -/
def AreApart (as bs : List (Nat × Nat)) : Prop := ∀ a ∈ as, ∀ b ∈ bs, a.2 < b.1 ∨ b.2 < a.1

instance (as bs : List (Nat × Nat)) : Decidable (AreApart as bs) :=
  inferInstanceAs (Decidable (∀ a ∈ as, ∀ b ∈ bs, a.2 < b.1 ∨ b.2 < a.1))

/-- The spans written in a list of characters. -/
def spansOf (cs : List Char) : List (Nat × Nat) := (wordsOf cs).map Ranges.spanOfText

theorem Ranges.exists_span_of_contains {cs : List Char} {c : Char}
    (h : (Ranges.ofText (String.ofList cs)).contains c = true) :
    ∃ span ∈ spansOf cs, span.1 ≤ c.toNat ∧ c.toNat ≤ span.2 := by
  rw [Ranges.contains_ofList] at h
  obtain ⟨span, hmem, hspan⟩ := Ranges.exists_span_of_search h
  exact ⟨span, List.mem_toArray.1 hmem, hspan⟩

theorem Ranges.not_mem_of_contains {cs : List Char} {c : Char} (others : List (Nat × Nat))
    (hc : (Ranges.ofText (String.ofList cs)).contains c = true)
    (h : AreApart (spansOf cs) others) :
    ∀ span ∈ others, ¬ (span.1 ≤ c.toNat ∧ c.toNat ≤ span.2) := by
  intro other hother hin
  obtain ⟨span, hspan, hle⟩ := Ranges.exists_span_of_contains hc
  rcases h span hspan other hother with hlt | hlt <;> omega

set_option maxRecDepth 100000 in
/-- No emoji is a control character. -/
theorem isControl_of_emoji {c : Char} (h : emoji.contains c = true) : isControl c = false := by
  have hapart := Ranges.not_mem_of_contains [(0, 0x1f), (0x7f, 0x9f)] h (by decide +kernel)
  simp only [List.forall_mem_cons, isControl, Bool.or_eq_false_iff, Bool.and_eq_false_iff,
    decide_eq_false_iff_not] at hapart ⊢
  omega

set_option maxRecDepth 100000 in
/-- Some stretches of the code have no characters without cells. Among others these are the no-break
space, the Tifinagh joiner, symbols, East Asian characters, and the regional indicators with all
emoji behind them. -/
theorem zeroWidth_of_toNat {c : Char}
    (h : c.toNat = 0xa0 ∨ 0x20f1 ≤ c.toNat ∧ c.toNat ≤ 0x2cee ∨ c.toNat = 0x2d7f ∨
      0x3165 ≤ c.toNat ∧ c.toNat ≤ 0xa66e ∨ 0x1e94b ≤ c.toNat ∧ c.toNat ≤ 0xdffff) :
    zeroWidth.contains c = false := by
  cases hzero : zeroWidth.contains c with
  | false => rfl
  | true =>
    have hapart := Ranges.not_mem_of_contains [(0xa0, 0xa0), (0x20f1, 0x2cee), (0x2d7f, 0x2d7f),
      (0x3165, 0xa66e), (0x1e94b, 0xdffff)] hzero (by decide +kernel)
    simp only [List.forall_mem_cons] at hapart
    omega

theorem zeroWidth_of_isRegional {c : Char} (h : isRegional c.toNat = true) :
    zeroWidth.contains c = false := by
  simp only [isRegional, Bool.and_eq_true, decide_eq_true_eq] at h
  exact zeroWidth_of_toNat (by omega)

set_option maxRecDepth 100000 in
/-- An emoji with a text form takes cells of its own. -/
theorem zeroWidth_of_textVariants {c : Char} (h : textVariants.contains c = true) :
    zeroWidth.contains c = false := by
  have hapart := Ranges.not_mem_of_contains
    [(0, 0x20f0), (0x2cef, 0x1e94a), (0xe0000, 0xffffffff)] h (by decide +kernel)
  have hlast : c.toNat ≤ 0xffffffff := Nat.le_of_lt_succ c.val.toNat_lt
  simp only [List.forall_mem_cons] at hapart
  exact zeroWidth_of_toNat (by omega)

/-! ### Single characters -/

set_option maxRecDepth 100000 in
theorem clusterClass_tab : clusterClass '\t' = .control := by
  have hclass : clusterClasses.classOf '\t' = .control :=
    (ClassTable.classOf_ofList _ _ _ _).trans (by decide +kernel)
  rw [clusterClass, if_neg (by decide), hclass]

set_option maxRecDepth 100000 in
/-- Two East Asian characters take two cells each. -/
theorem plainWidth_wide : plainWidth '日' = 2 ∧ plainWidth '本' = 2 := by
  have hzero : zeroWidth.contains '日' = false ∧ zeroWidth.contains '本' = false :=
    ⟨zeroWidth_of_toNat (by decide), zeroWidth_of_toNat (by decide)⟩
  have hdouble : doubleWidth.contains '日' = true ∧ doubleWidth.contains '本' = true :=
    ⟨(Ranges.contains_ofList _ _).trans (by decide +kernel),
      (Ranges.contains_ofList _ _).trans (by decide +kernel)⟩
  simp [plainWidth, hzero, hdouble]

set_option maxRecDepth 100000 in
theorem followingOf_wide : followingOf '日' = .plain ∧ followingOf '本' = .plain := by
  have halef : alefs.contains '日' = false ∧ alefs.contains '本' = false :=
    ⟨(Ranges.contains_ofList _ _).trans (by decide +kernel),
      (Ranges.contains_ofList _ _).trans (by decide +kernel)⟩
  have hemoji : emojiPresentation.contains '日' = false ∧ emojiPresentation.contains '本' = false :=
    ⟨(Ranges.contains_ofList _ _).trans (by decide +kernel),
      (Ranges.contains_ofList _ _).trans (by decide +kernel)⟩
  simp [followingOf, halef, hemoji, isKhmerSubscript, isTifinagh, isModifier, isRegional]

/-! ### Folded case -/

theorem all_words_ofList {cs : List Char} {p : List Char → Bool} (h : (wordsOf cs).all p = true) :
    (words (String.ofList cs)).all p = true := by
  rwa [words_ofList]

set_option maxRecDepth 100000 in
/-- No character folds to a control character, be it on its own. -/
theorem le_target_of_mem_foldTable {r : FoldRun} (h : r ∈ foldTable) : 0x20 ≤ r.target := by
  have hall : (words foldRuns).all (fun w => decide (0x20 ≤ (FoldRun.ofToken w).target)) = true :=
    all_words_ofList (by decide +kernel)
  obtain ⟨w, hw, rfl⟩ := List.mem_map.1 h
  exact of_decide_eq_true (List.all_eq_true.1 hall w hw)

set_option maxRecDepth 100000 in
/-- No character folds to a control character among others. -/
theorem le_of_mem_foldWordTable {e : Nat × List Char} (h : e ∈ foldWordTable) {c : Char}
    (hc : c ∈ e.2) : 0x20 ≤ c.toNat := by
  have hall : (words foldWords).all (fun w =>
      ((splitPlus ((w.dropWhile (· ≠ ':')).drop 1)).map fun part => Char.ofNat (hexNumber part)).all
        fun c => decide (0x20 ≤ c.toNat)) = true := all_words_ofList (by decide +kernel)
  obtain ⟨w, hw, rfl⟩ := List.mem_map.1 h
  exact of_decide_eq_true (List.all_eq_true.1 (List.all_eq_true.1 hall w hw) c hc)

/-- What a character folds to: itself, another letter, or an entry of a table. -/
theorem foldBy_cases {entries : List (Nat × List Char)} {runs : List FoldRun}
    (htarget : ∀ r ∈ runs, 0x20 ≤ r.target) (d : Char) :
    foldBy entries runs d = [d] ∨ (∃ n, 0x20 ≤ n ∧ foldBy entries runs d = [Char.ofNat n]) ∨
      ∃ e ∈ entries, foldBy entries runs d = e.2 := by
  unfold foldBy
  dsimp only
  split
  · split
    · exact .inr (.inl ⟨_, Nat.le_add_left _ _, rfl⟩)
    · exact .inl rfl
  · split
    next cs hcs =>
      obtain ⟨before, behind, rfl, -⟩ := List.lookup_eq_some_iff.1 hcs
      exact .inr (.inr ⟨(d.toNat, cs), by simp, rfl⟩)
    next =>
      split
      next r hr =>
        exact .inr (.inl ⟨_, Nat.le_add_right_of_le (htarget r (List.mem_of_find?_eq_some hr)), rfl⟩)
      next => exact .inl rfl

/-- A line end is folded from itself only. -/
theorem mem_foldChar_iff {c d : Char} (h : c = '\n' ∨ c = '\r') : c ∈ foldChar d ↔ c = d := by
  have hlow : 0 < c.toNat ∧ c.toNat < 0x20 := by rcases h with rfl | rfl <;> decide
  constructor
  · intro hc
    have htarget : ∀ r ∈ foldTable, 0x20 ≤ r.target := fun _ => le_target_of_mem_foldTable
    rw [foldChar] at hc
    rcases foldBy_cases htarget d with hd | ⟨n, hn, hd⟩ | ⟨e, he, hd⟩ <;> rw [hd] at hc
    · exact List.mem_singleton.1 hc
    · obtain rfl := List.mem_singleton.1 hc
      by_cases hvalid : n.isValidChar
      · have : (Char.ofNat n).toNat = n := by
          rw [Char.ofNat, dif_pos hvalid]
          rfl
        omega
      · -- A number that is no character stands for the first one, which is none of the two either.
        have : (Char.ofNat n).toNat = 0 := by
          rw [Char.ofNat, dif_neg hvalid]
          rfl
        omega
    · have := le_of_mem_foldWordTable he hc
      omega
  · rintro rfl
    rcases h with rfl | rfl <;> decide

theorem mem_foldCase_iff {c : Char} (h : c = '\n' ∨ c = '\r') (cs : List Char) :
    c ∈ foldCase cs ↔ c ∈ cs := by
  simp [foldCase, mem_foldChar_iff h]

end PublisherConsole.Unicode
