import PublisherConsole.Proofs.Markdown.LineEnds.Pages
import PublisherConsole.Proofs.Markdown.LineEnds.Pieces
import PublisherConsole.Markdown.Document

/-!
# Code and HTML in a text with carriage returns

A line that is read to its line feed has a carriage return in front of it now (`Source.LineTo`), which is
left out, so that the stretch breaks off there. What was read of code is then recut (`CodeScan.IsRecut`):
each line feed starts a stretch of its own. Adding a line keeps this (`CodeScan.IsRecut.addLine`), and so it
holds of fenced and of indented code. A line of HTML falls into two parts (`htmlLine_crlf`).
-/

namespace PublisherConsole.Markdown

open Text (splitRows)

/-! ### Recut code -/

theorem recut_of_notMem {row : List Char} (some : row ≠ []) (line : '\n' ∉ row) : recut row = [row] := by
  rw [recut, Text.splitRows_of_notMem line]
  simp [some]

theorem recut_feed : recut ['\n'] = [['\n']] := rfl

/-- How the rows of a text go on with another one: the first row of it goes on the last row. -/
theorem splitRows_append {cs ds : List Char} {rows more : List (List Char)} {row first : List Char}
    (left : splitRows cs = rows ++ [row]) (right : splitRows ds = first :: more) :
    splitRows (cs ++ ds) = rows ++ (row ++ first) :: more := by
  induction cs generalizing rows row with
  | nil =>
    obtain ⟨rfl, rfl⟩ : rows = [] ∧ row = [] := by
      cases rows with
      | nil => simpa [splitRows] using left.symm
      | cons _ rows => simp [splitRows] at left
    simpa using right
  | cons c cs ih =>
    obtain ⟨rows', row', last⟩ : ∃ rows' row', splitRows cs = rows' ++ [row'] :=
      ⟨_, _, (List.dropLast_append_getLast (Text.splitRows_ne_nil cs)).symm⟩
    have rest := ih last
    rw [List.cons_append, splitRows]
    rw [splitRows] at left
    split
    next feed =>
      rw [if_pos feed, last, ← List.cons_append] at left
      obtain ⟨rfl, same⟩ := List.append_inj' left rfl
      obtain rfl := List.singleton_inj.1 same
      rw [rest]
      rfl
    next feed =>
      rw [if_neg feed, last] at left
      rw [rest]
      cases rows' with
      | nil =>
        obtain ⟨rfl, same⟩ := List.append_inj' (show [] ++ [c :: row'] = rows ++ [row] from left) rfl
        obtain rfl := List.singleton_inj.1 same
        rfl
      | cons first' rows' =>
        obtain ⟨rfl, same⟩ := List.append_inj'
          (show (c :: first') :: rows' ++ [row'] = rows ++ [row] from left) rfl
        obtain rfl := List.singleton_inj.1 same
        rfl

/-- The last stretch of recut code starts with its last line feed, if there is one. -/
theorem exists_recut {cs : List Char} (some : cs ≠ []) : ∃ front piece, recut cs = front ++ [piece] ∧
    (∀ ds, '\n' ∉ ds → recut (cs ++ ds) = front ++ [piece ++ ds]) ∧
      recut (cs ++ ['\n']) = front ++ [piece, ['\n']] := by
  have whole := Text.intercalate_splitRows cs
  have last := (List.dropLast_append_getLast (Text.splitRows_ne_nil cs)).symm
  generalize (splitRows cs).dropLast = rows at last
  generalize (splitRows cs).getLast _ = row at last
  have feed : splitRows (cs ++ ['\n']) = rows ++ (row ++ []) :: [[]] := splitRows_append last rfl
  have more (ds : List Char) (line : '\n' ∉ ds) := splitRows_append last (Text.splitRows_of_notMem line)
  rw [last] at whole
  unfold recut
  rw [last, feed]
  cases rows with
  | nil =>
    obtain rfl : row = cs := by simpa using whole
    refine ⟨[], row, by simp [some], fun ds line => ?_, by simp [some]⟩
    rw [more ds line]
    simp [some]
  | cons first rows =>
    refine ⟨(if first.isEmpty then [] else [first]) ++ rows.map ('\n' :: ·), '\n' :: row, by simp, fun ds line => ?_,
      by simp⟩
    rw [more ds line]
    simp

/-! ### Lines -/

variable {s : Source} {i j k n n' columns : Nat} {path : List Container} {c c' kept kept' : CodeScan}

namespace Source

/-- A line, from a place in it to behind its line feed or to the end of the source. -/
inductive LineTo (s : Source) (i : Nat) : Nat → Prop
  | feed {k : Nat} (low : i ≤ k) (here : s.char? k = some '\n') (line : s.feeds k = s.feeds i) : LineTo s i (k + 1)
  | stop {k : Nat} (low : i < k) (inside : k ≤ s.stop) (line : s.feeds k = s.feeds i) : LineTo s i k

theorem LineTo.lt (h : s.LineTo i j) : i < j := by
  cases h with
  | feed low => exact Nat.lt_succ_of_le low
  | stop low => exact low

theorem lineTo_nextLine [s.IsPlain] (inside : i < s.stop) : s.LineTo i (s.nextLine i) := by
  induction i using s.forall_of_next with
  | h i ih =>
  rcases s.seen i with ⟨here, -⟩ | ⟨here, -, -, -⟩ | @⟨c, here, -, -, feed, -⟩
  · exact absurd inside (Nat.not_lt.2 (char?_eq_none.1 here))
  · rw [nextLine_of_feed here]
    exact .feed (Nat.le_refl i) here rfl
  · have next := feeds_of_char here feed
    rw [nextLine_of_char here feed]
    by_cases more : i + 1 < s.stop
    · have rest := ih inside more
      generalize s.nextLine (i + 1) = j at rest ⊢
      cases rest with
      | feed low here line => exact .feed (Nat.le_of_succ_le low) here (line.trans next)
      | stop low inside line => exact .stop (Nat.lt_of_succ_lt low) inside (line.trans next)
    · rw [nextLine_of_le (Nat.not_lt.1 more)]
      exact .stop (Nat.lt_succ_self i) inside next

/-- Whether a line that was read to a place ends with a carriage return and a line feed. -/
def hasReturn (s : Source) (stop : Nat) : Bool := s.isAt (stop - 2) '\r' && stop ≥ 2

theorem hasReturn_eq_false [s.IsPlain] (stop : Nat) : s.hasReturn stop = false := by
  rw [hasReturn, isAt]
  cases here : s.char? (stop - 2) with
  | none => rfl
  | some c => simp [ne_return here]

theorem feed_crlf [s.IsPlain] (here : s.char? k = some '\n') : s.crlf.char? (s.shift k) = some '\r' ∧
    s.crlf.char? (s.shift k + 1) = some '\n' ∧ s.shift (k + 1) = s.shift k + 2 := by
  rcases s.seen k with ⟨none, -⟩ | ⟨-, there, next, behind⟩ | ⟨other, -, -, feed, -⟩
  · cases here.symm.trans none
  · exact ⟨there, next, behind⟩
  · exact absurd (Option.some.inj (other.symm.trans here)) feed

theorem slice_feed_crlf [s.IsPlain] (here : s.char? k = some '\n') :
    s.crlf.slice (s.shift k + 1) (s.shift (k + 1)) = ['\n'] := by
  obtain ⟨-, next, behind⟩ := feed_crlf here
  rw [behind, slice_succ (Nat.le_refl _) next, slice_of_le (Nat.le_refl _), List.nil_append]

theorem hasReturn_crlf_of_feed [s.IsPlain] (here : s.char? k = some '\n') :
    s.crlf.hasReturn (s.shift (k + 1)) = true := by
  obtain ⟨there, -, behind⟩ := feed_crlf here
  rw [hasReturn, behind, Nat.add_sub_cancel, isAt, there]
  simp

theorem hasReturn_crlf_of_stop [s.IsPlain] (low : i < k) (inside : k ≤ s.stop) (line : s.feeds k = s.feeds i) :
    s.crlf.hasReturn (s.shift k) = false := by
  obtain ⟨k, rfl⟩ : ∃ j, k = j + 1 := ⟨k - 1, by omega⟩
  have last : s.feeds k = s.feeds i := feeds_between line (Nat.le_of_lt_succ low) (Nat.le_succ k)
  have next : s.shift (k + 1) = s.shift k + 1 := shift_add (line.trans last.symm)
  rw [hasReturn, next]
  rcases Nat.eq_zero_or_pos k with rfl | some
  · rw [shift_zero]
    exact Bool.and_false _
  · rw [show s.shift k + 1 - 2 = s.shift k - 1 by omega, isAt, char?_before some]
    cases here : s.char? (k - 1) with
    | none => rfl
    | some c => simp [ne_return here]

end Source

/-! ### Stretches of code -/

/-- What was read of code, and what was read of it with carriage returns: every stretch is recut. -/
inductive CodeScan.IsRecut (s : Source) : CodeScan → CodeScan → Prop
  | closed {texts texts' : List (List Char)} (h : texts'.reverse = texts.reverse.flatMap recut) :
    IsRecut s ⟨texts, none⟩ ⟨texts', none⟩
  | running {texts texts' : List (List Char)} {first first' last : Nat} (lt : first < last) (inside : last ≤ s.stop)
    (lt' : first' < s.shift last)
    (h : (s.crlf.slice first' (s.shift last) :: texts').reverse = (s.slice first last :: texts).reverse.flatMap recut) :
    IsRecut s ⟨texts, some (first, last)⟩ ⟨texts', some (first', s.shift last)⟩

theorem slice_ne_nil [h : s.IsPlain] (lt : i < j) (inside : j ≤ s.stop) : s.slice i j ≠ [] := by
  obtain ⟨j, rfl⟩ : ∃ k, j = k + 1 := ⟨j - 1, by omega⟩
  obtain ⟨c, here⟩ : ∃ c, s.char? j = some c :=
    Option.ne_none_iff_exists'.1 fun none => absurd (Source.char?_eq_none.1 none) (by omega)
  rw [Source.slice_succ (Nat.le_of_lt_succ lt) here]
  exact List.append_ne_nil_of_right_ne_nil _ (List.cons_ne_nil c [])

theorem slice_append (s : Source) (low : i ≤ j) (high : j ≤ k) : s.slice i k = s.slice i j ++ s.slice j k := by
  rw [Source.slice_eq, Source.slice_eq, Source.slice_eq]
  by_cases inside : j ≤ s.stop
  · have both : min k s.stop - i = (min j s.stop - i) + (min k s.stop - j) := by omega
    rw [both, List.take_add, List.drop_drop, show i + (min j s.stop - i) = j by omega]
  · rw [show min k s.stop - j = 0 by omega, List.take_zero, List.append_nil,
      show min k s.stop = min j s.stop by omega]

namespace CodeScan

/-- A stretch that goes on is one stretch. -/
theorem addSpan_addSpan (c : CodeScan) (low : i ≤ j) (lt : j < k) :
    (c.addSpan s i j).addSpan s j k = c.addSpan s i k := by
  rcases Nat.eq_or_lt_of_le low with rfl | more
  · rw [addSpan, addSpan, if_pos (Nat.le_refl _)]
    rfl
  · obtain ⟨texts, span⟩ := c
    unfold addSpan
    rw [if_neg (Nat.not_le.2 more), if_neg (Nat.not_le.2 lt), if_neg (Nat.not_le.2 (Nat.lt_trans more lt))]
    cases span with
    | none => simp
    | some span =>
      obtain ⟨first, last⟩ := span
      dsimp only
      by_cases on : last = i
      · rw [if_pos on, if_pos on]
        exact if_pos rfl
      · rw [if_neg on, if_neg on]
        exact if_pos rfl

namespace IsRecut

theorem nil (s : Source) : IsRecut s ⟨[], none⟩ ⟨[], none⟩ := .closed rfl

theorem finish (h : IsRecut s c c') : c'.finish s.crlf = (c.finish s).flatMap recut := by
  rw [CodeScan.finish, CodeScan.finish]
  cases h with
  | closed h => exact h
  | running _ _ _ h => exact h

variable [s.IsPlain]

/-- A stretch in a line. -/
theorem addSpan (h : IsRecut s c c') (lt : i < j) (inside : j ≤ s.stop) (line : s.feeds j = s.feeds i) :
    IsRecut s (c.addSpan s i j) (c'.addSpan s.crlf (s.shift i) (s.shift j)) := by
  have same : s.crlf.slice (s.shift i) (s.shift j) = s.slice i j := Source.slice_crlf_of_line line.symm
  have row := Source.lineFeed_notMem_slice line.symm
  have lt' := (Source.shift_lt_iff (s := s)).2 lt
  have fresh {texts texts' : List (List Char)} (h : texts'.reverse = texts.reverse.flatMap recut) :
      IsRecut s ⟨texts, some (i, j)⟩ ⟨texts', some (s.shift i, s.shift j)⟩ := by
    refine .running lt inside lt' ?_
    rw [List.reverse_cons, List.reverse_cons, List.flatMap_append, List.flatMap_singleton, h, same,
      recut_of_notMem (slice_ne_nil lt inside) row]
  unfold CodeScan.addSpan
  rw [if_neg (Nat.not_le.2 lt), if_neg (Nat.not_le.2 lt')]
  cases h with
  | closed h => exact fresh h
  | @running texts texts' first first' last some' inside' more h =>
    simp only [Source.shift_inj]
    split
    next on =>
      subst on
      refine .running (Nat.lt_trans some' lt) inside (Nat.lt_trans more lt') ?_
      obtain ⟨front, piece, pieces, append, -⟩ := exists_recut (slice_ne_nil some' inside')
      rw [List.reverse_cons, List.reverse_cons, List.flatMap_append, List.flatMap_singleton] at h ⊢
      rw [slice_append s (Nat.le_of_lt some') (Nat.le_of_lt lt), append _ row,
        slice_append s.crlf (Nat.le_of_lt more) (Nat.le_of_lt lt'), same, ← List.append_assoc]
      rw [pieces, ← List.append_assoc] at h
      obtain ⟨front', piece'⟩ := List.append_inj' h rfl
      rw [front', List.singleton_inj.1 piece']
    next => exact fresh h

/-- A line feed starts a stretch of its own, and is one of its own in the middle of one. -/
theorem addFeed (h : IsRecut s c c') (here : s.char? k = some '\n') :
    IsRecut s (c.addSpan s k (k + 1)) (c'.addSpan s.crlf (s.shift k + 1) (s.shift (k + 1))) := by
  obtain ⟨-, -, behind⟩ := Source.feed_crlf here
  have inside := Source.lt_stop here
  have same := Source.slice_feed_crlf here
  have feed : s.slice k (k + 1) = ['\n'] := by
    rw [Source.slice_succ (Nat.le_refl k) here, Source.slice_of_le (Nat.le_refl k), List.nil_append]
  have lt' : s.shift k + 1 < s.shift (k + 1) := by omega
  have fresh {texts texts' : List (List Char)} (h : texts'.reverse = texts.reverse.flatMap recut) :
      IsRecut s ⟨texts, some (k, k + 1)⟩ ⟨texts', some (s.shift k + 1, s.shift (k + 1))⟩ := by
    refine .running (Nat.lt_succ_self k) inside lt' ?_
    rw [List.reverse_cons, List.reverse_cons, List.flatMap_append, List.flatMap_singleton, h, same, feed, recut_feed]
  unfold CodeScan.addSpan
  rw [if_neg (Nat.not_le.2 (Nat.lt_succ_self k)), if_neg (Nat.not_le.2 lt')]
  cases h with
  | closed h => exact fresh h
  | @running texts texts' first first' last some' inside' more h =>
    have apart : s.shift last ≠ s.shift k + 1 := by
      intro on
      have low := (Source.shift_lt_iff (s := s) (i := k) (j := last)).1 (by omega)
      have high := (Source.shift_lt_iff (s := s) (i := last) (j := k + 1)).1 (by omega)
      omega
    dsimp only
    rw [if_neg apart]
    split
    next on =>
      subst on
      refine .running (Nat.lt_succ_of_lt some') inside lt' ?_
      obtain ⟨front, piece, pieces, -, append⟩ := exists_recut (slice_ne_nil some' inside')
      rw [List.reverse_cons, List.reverse_cons, List.flatMap_append, List.flatMap_singleton] at h ⊢
      rw [slice_append s (Nat.le_of_lt some') (Nat.le_succ last), feed, append, same]
      dsimp only [CodeScan.closeSpan]
      rw [List.reverse_cons, h, pieces, List.append_assoc, List.append_assoc]
      rfl
    next => exact fresh h

/-- **A line of code is recut.** -/
theorem addLine (h : IsRecut s c c') (line : s.LineTo i j) (columns : Nat) :
    IsRecut s (c.addLine s columns i j) (c'.addLine s.crlf columns (s.shift i) (s.shift j)) := by
  have blanks : IsRecut s
      (if columns > 0 then { c.closeSpan s with texts := List.replicate columns ' ' :: (c.closeSpan s).texts } else c)
      (if columns > 0 then
        { c'.closeSpan s.crlf with texts := List.replicate columns ' ' :: (c'.closeSpan s.crlf).texts } else c') := by
    split
    next some =>
      have row : recut (List.replicate columns ' ') = [List.replicate columns ' '] :=
        recut_of_notMem (by simp; omega) (by simp)
      have put {texts texts' : List (List Char)} (h : texts'.reverse = texts.reverse.flatMap recut) :
          IsRecut s ⟨List.replicate columns ' ' :: texts, none⟩ ⟨List.replicate columns ' ' :: texts', none⟩ := by
        refine .closed ?_
        rw [List.reverse_cons, List.reverse_cons, List.flatMap_append, List.flatMap_singleton, h, row]
      cases h with
      | closed h => exact put h
      | running _ _ _ h => exact put h
    next => exact h
  have plain : (s.isAt (j - 2) '\r' && decide (j ≥ 2)) = false := s.hasReturn_eq_false j
  unfold CodeScan.addLine
  dsimp only
  rw [plain, if_neg Bool.false_ne_true]
  generalize (if columns > 0 then _ else c) = d at blanks ⊢
  generalize (if columns > 0 then _ else c') = d' at blanks ⊢
  cases line with
  | @feed k low here line =>
    have return' := Source.hasReturn_crlf_of_feed here
    obtain ⟨-, -, behind⟩ := Source.feed_crlf here
    have last : s.shift (k + 1) - 2 = s.shift k ∧ s.shift (k + 1) - 1 = s.shift k + 1 := by omega
    rw [Source.hasReturn] at return'
    rw [if_pos return', last.1, last.2, ← addSpan_addSpan d low (Nat.lt_succ_self k)]
    refine addFeed ?_ here
    rcases Nat.eq_or_lt_of_le low with rfl | lt
    · rw [CodeScan.addSpan, CodeScan.addSpan, if_pos (Nat.le_refl _), if_pos (Nat.le_refl _)]
      exact blanks
    · exact blanks.addSpan lt (Nat.le_of_lt (Source.lt_stop here)) line
  | stop low inside line =>
    have none := Source.hasReturn_crlf_of_stop low inside line
    rw [Source.hasReturn] at none
    rw [none, if_neg Bool.false_ne_true]
    exact blanks.addSpan low inside line

end IsRecut

end CodeScan

theorem Source.lt_nextLine [s.IsPlain] (inside : i < s.stop) : i < s.nextLine i := (s.lineTo_nextLine inside).lt

/-! ### Fenced code -/

/-- The signs of a fence stand at its place. -/
theorem of_fence? {f : Fence} (read : fence? s i = some f) :
    (f.sign ≠ '\n' ∧ f.sign ≠ '\r') ∧ i + f.length = s.skipRun f.sign i ∧ 3 ≤ f.length := by
  unfold fence? at read
  split at read
  next c _ =>
    split at read
    next sign =>
      have plain : c ≠ '\n' ∧ c ≠ '\r' := by
        rcases Bool.or_eq_true_iff.1 sign with same | same <;> rw [of_decide_eq_true same] <;> decide
      dsimp only at read
      split at read
      · cases read
      · split at read
        · cases read
        · obtain rfl := Option.some.inj read
          have low : i ≤ s.skipRun c i := s.le_skip _ i
          exact ⟨plain, by dsimp only; omega, by dsimp only; omega⟩
    next => cases read
  next => cases read

theorem fencedFrom_of_le (end' : s.stop ≤ i) (f : Fence) (indent n : Nat) (c : CodeScan) :
    fencedFrom s path f indent n c i = (c, i) := by
  cases n with
  | zero => rfl
  | succ n =>
    have margin := Margin.ofLine_of_le end' path
    have used (k : Nat) : (Margin.start i).use s k = (decide (0 = k), Margin.start i) := by
      rw [Margin.use, Margin.useUpTo_of_le end' rfl]
    have closed : closingFence? s f (Margin.start i).place = some i := if_pos (decide_eq_true end')
    rw [fencedFrom]
    generalize Margin.ofLine s path i = read at margin ⊢
    obtain ⟨inside, m⟩ := read
    obtain rfl : m = Margin.start i := margin
    dsimp only
    rw [used, used]
    dsimp only
    rw [closed]
    cases inside <;> rfl

theorem le_of_closingFence? {f : Fence} (read : closingFence? s f i = some j) : i ≤ j := by
  unfold closingFence? at read
  dsimp only at read
  split at read
  · exact Nat.le_of_eq (Option.some.inj read)
  · split at read
    · cases read
    · obtain ⟨_, -, rfl⟩ := Option.map_eq_some_iff.1 read
      exact Nat.le_trans (s.le_skip _ i) (s.le_skip _ _)

theorem le_nextLine (s : Source) (i : Nat) : i ≤ s.nextLine i := by
  have low : i ≤ s.find '\n' i := s.le_skip _ i
  unfold Source.nextLine
  dsimp only
  split
  · exact low
  · exact Nat.le_succ_of_le low

theorem le_fencedFrom (path : List Container) (f : Fence) (indent n : Nat) (c : CodeScan) (i : Nat) :
    i ≤ (fencedFrom s path f indent n c i).2 := by
  induction n generalizing c i with
  | zero => exact Nat.le_refl i
  | succ n ih =>
    have low := Margin.le_place_ofLine (s := s) path i
    rw [fencedFrom]
    dsimp only
    split
    · exact Nat.le_refl i
    · have low := Nat.le_trans low (Margin.le_place_use (s := s) indent _)
      split
      next closing =>
        split at closing
        · cases closing
        · exact Nat.le_trans low (Nat.le_trans (Margin.le_place_use 4 _) (le_of_closingFence? closing))
      next => exact Nat.le_trans low (Nat.le_trans (le_nextLine s _) (ih _ _))

/-! ### Going on -/

theorem nextLine_le_indentedFrom {blank : Bool} (n : Nat) (c kept : CodeScan) (columns i : Nat) :
    s.nextLine i ≤ (indentedFrom s path (n + 1) c kept blank columns i).2.1 := by
  induction n generalizing c kept blank columns i with
  | zero =>
    rw [indentedFrom]
    dsimp only
    split
    · exact Nat.le_refl _
    · exact Nat.le_trans (Margin.le_place_ofLine path _) (Margin.le_place_use 4 _)
  | succ n ih =>
    rw [indentedFrom]
    dsimp only
    split
    · exact Nat.le_refl _
    · exact Nat.le_trans (Nat.le_trans (Margin.le_place_ofLine path _) (Margin.le_place_use 4 _))
        (Nat.le_trans (le_nextLine s _) (ih ..))

theorem nextLine_le_htmlFrom {ending : Option (List Char)} (n : Nat) (parts : List HtmlPart) (columns i : Nat) :
    s.nextLine i ≤ (htmlFrom s path ending (n + 1) parts columns i).2 := by
  induction n generalizing parts columns i with
  | zero =>
    rw [htmlFrom]
    dsimp only
    split
    · exact Nat.le_refl _
    · split <;> split <;> first | exact Nat.le_refl _ | exact Margin.le_place_ofLine path _
  | succ n ih =>
    have further (parts : List HtmlPart) (columns : Nat) := Nat.le_trans
      (Margin.le_place_ofLine (s := s) path (s.nextLine i)) (Nat.le_trans (le_nextLine s _) (ih parts columns _))
    rw [htmlFrom]
    dsimp only
    split
    · exact Nat.le_refl _
    · split <;> split <;> first | exact Nat.le_refl _ | exact further _ _

/-! ### Fenced code with carriage returns -/

variable [s.IsPlain]

theorem fencedFrom_crlf (path : List Container) {f : Fence} (feed : f.sign ≠ '\n') (plain : f.sign ≠ '\r')
    (indent : Nat) (h : c.IsRecut s c') (enough : s.stop ≤ i + n) (enough' : s.crlf.stop ≤ s.shift i + n') :
    (fencedFrom s path f indent n c i).1.IsRecut s (fencedFrom s.crlf path f indent n' c' (s.shift i)).1 ∧
      (fencedFrom s.crlf path f indent n' c' (s.shift i)).2 = s.shift (fencedFrom s path f indent n c i).2 := by
  induction n using Nat.strong_induction_on generalizing n' i c c' with
  | h n ih =>
  by_cases end' : s.stop ≤ i
  · rw [fencedFrom_of_le end', fencedFrom_of_le (Source.shift_le_iff.2 end')]
    exact ⟨h, rfl⟩
  · have inside := (Source.shift_lt_iff (s := s)).2 (Nat.not_le.1 end')
    obtain ⟨n, rfl⟩ : ∃ m, n = m + 1 := ⟨n - 1, by omega⟩
    obtain ⟨n', rfl⟩ : ∃ m, n' = m + 1 := ⟨n' - 1, by rw [Source.stop_crlf] at enough'; omega⟩
    rw [fencedFrom, fencedFrom, Margin.ofLine_crlf]
    have few := Margin.left_ofLine_le (s := s) path i
    have low := Margin.le_place_ofLine (s := s) path i
    generalize Margin.ofLine s path i = read at few low ⊢
    obtain ⟨belongs, m⟩ := read
    dsimp only at few low ⊢
    cases belongs with
    | false => exact ⟨h, rfl⟩
    | true =>
      have few : (m.use s indent).2.left ≤ 3 := Margin.left_useUpTo_le few indent
      have low := Nat.le_trans low (Margin.le_place_use (s := s) indent m)
      rw [Margin.use_crlf]
      generalize (m.use s indent).2 = m at few low ⊢
      dsimp only
      have deep := Margin.use_of_le (s := s) (m := m)
      have behind := Margin.le_place_use (s := s) 4 m
      rw [Margin.use_crlf]
      generalize m.use s 4 = read at deep behind ⊢
      obtain ⟨deep', close⟩ := read
      dsimp only at deep behind ⊢
      have fence : (if deep' = true then none else closingFence? s.crlf f (s.shiftMargin close).place) =
          (if deep' = true then none else closingFence? s f close.place).map s.shift := by
        rw [place_shiftMargin, closingFence?_crlf feed plain]
        split <;> rfl
      rw [fence, place_shiftMargin, left_shiftMargin, Source.nextLine_crlf]
      cases closing : (if deep' = true then none else closingFence? s f close.place) with
      | some behind => exact ⟨h, rfl⟩
      | none =>
        -- At the end of the source the fence would be closed, so there is a line left.
        have inside : m.place < s.stop := by
          by_contra end'
          have end' := Nat.not_lt.1 end'
          rw [deep end' few, if_neg Bool.false_ne_true, closingFence?, Source.isEnd,
            if_pos (decide_eq_true (Nat.le_trans end' behind))] at closing
          cases closing
        have line := Source.lineTo_nextLine inside
        have lt := Nat.lt_of_le_of_lt low line.lt
        have lt' := (Source.shift_lt_iff (s := s)).2 lt
        exact ih n (Nat.lt_succ_self n) (h.addLine line m.left) (by omega) (by omega)

/-! ### Indented code -/

theorem indentedFrom_crlf (path : List Container) (blank : Bool) (inside : i < s.stop) (h : c.IsRecut s c')
    (h' : kept.IsRecut s kept') (columns : Nat) (enough : s.stop ≤ i + n) (enough' : s.crlf.stop ≤ s.shift i + n') :
    (indentedFrom s path n c kept blank columns i).1.IsRecut s
        (indentedFrom s.crlf path n' c' kept' blank columns (s.shift i)).1 ∧
      (indentedFrom s.crlf path n' c' kept' blank columns (s.shift i)).2.1 =
        s.shift (indentedFrom s path n c kept blank columns i).2.1 ∧
      (indentedFrom s.crlf path n' c' kept' blank columns (s.shift i)).2.2 =
        (indentedFrom s path n c kept blank columns i).2.2 := by
  induction n using Nat.strong_induction_on generalizing n' i c c' kept kept' blank columns with
  | h n ih =>
  have inside' := (Source.shift_lt_iff (s := s)).2 inside
  obtain ⟨n, rfl⟩ : ∃ m, n = m + 1 := ⟨n - 1, by omega⟩
  obtain ⟨n', rfl⟩ : ∃ m, n' = m + 1 := ⟨n' - 1, by rw [Source.stop_crlf] at enough'; omega⟩
  have line := Source.lineTo_nextLine inside
  have lt := line.lt
  have added := h.addLine line columns
  have kept : (if blank then kept else c.addLine s columns i (s.nextLine i)).IsRecut s
      (if blank then kept' else c'.addLine s.crlf columns (s.shift i) (s.shift (s.nextLine i))) := by
    split
    · exact h'
    · exact added
  rw [indentedFrom, indentedFrom]
  dsimp only
  rw [Source.nextLine_crlf, Margin.ofLine_crlf]
  generalize s.nextLine i = behind at lt added kept ⊢
  have low := Margin.le_place_ofLine (s := s) path behind
  generalize Margin.ofLine s path behind = read at low ⊢
  obtain ⟨belongs, m⟩ := read
  have low : behind ≤ (m.use s 4).2.place := Nat.le_trans low (Margin.le_place_use 4 m)
  dsimp only
  rw [Margin.use_crlf]
  generalize m.use s 4 = read at low ⊢
  obtain ⟨deep, m⟩ := read
  dsimp only at low ⊢
  rw [Margin.isAtEnd_crlf, place_shiftMargin, Source.isEnd_crlf, Source.blankLine?_crlf, Option.isSome_map,
    left_shiftMargin]
  split
  next => exact ⟨kept, rfl, rfl⟩
  next more =>
    have inside : m.place < s.stop := by
      simp only [Bool.or_eq_true, not_or, Source.isEnd, decide_eq_true_eq, Nat.not_le] at more
      exact more.2
    have lt := Nat.lt_of_lt_of_le lt low
    have lt' := (Source.shift_lt_iff (s := s)).2 lt
    exact ih n (Nat.lt_succ_self n) _ inside added kept m.left (by omega) (by omega)

/-! ### HTML -/

/-- A part of a line of HTML whose line feed has a carriage return in front of it: it falls apart there. -/
def HtmlPart.recut : HtmlPart → List HtmlPart
  | .html cs => if cs.getLast? = some '\n' then [.html cs.dropLast, .html ['\n']] else [.html cs]
  | .indent cs => [.indent cs]

theorem event_recut (part : HtmlPart) : part.recut.map HtmlPart.event = part.event.recut := by
  cases part with
  | html cs =>
    rw [HtmlPart.event, Event.recut, String.toList_ofList, HtmlPart.recut]
    split <;> rfl
  | indent cs => rfl

theorem htmlLine_crlf (line : s.LineTo i j) (columns : Nat) :
    htmlLine s.crlf columns (s.shift i) (s.shift j) = (htmlLine s columns i j).flatMap HtmlPart.recut := by
  have plain : (s.isAt (j - 2) '\r' && decide (j ≥ 2)) = false := s.hasReturn_eq_false j
  have blanks : (if columns > 0 then [HtmlPart.indent (List.replicate columns ' ')] else []).flatMap HtmlPart.recut =
      if columns > 0 then [HtmlPart.indent (List.replicate columns ' ')] else [] := by
    split <;> rfl
  unfold htmlLine
  dsimp only
  rw [plain, if_neg Bool.false_ne_true, List.flatMap_append, blanks]
  cases line with
  | @feed k low here line =>
    have return' := Source.hasReturn_crlf_of_feed here
    obtain ⟨-, -, behind⟩ := Source.feed_crlf here
    have last : s.shift (k + 1) - 2 = s.shift k ∧ s.shift (k + 1) - 1 = s.shift k + 1 := by omega
    rw [Source.hasReturn] at return'
    rw [if_pos return', last.1, last.2, Source.slice_crlf_of_line line.symm, Source.slice_feed_crlf here,
      List.flatMap_singleton, Source.slice_succ low here, HtmlPart.recut]
    simp
  | stop low inside line =>
    have none := Source.hasReturn_crlf_of_stop low inside line
    have row := Source.lineFeed_notMem_slice line.symm
    rw [Source.hasReturn] at none
    rw [none, if_neg Bool.false_ne_true, Source.slice_crlf_of_line line.symm, List.flatMap_singleton, HtmlPart.recut,
      if_neg fun last => row (List.mem_of_getLast? last)]

theorem lineHas_crlf {text : List Char} (some : text ≠ []) (feed : '\n' ∉ text) (plain : '\r' ∉ text) (i j : Nat) :
    lineHas s.crlf (s.shift i) (s.shift j) text = lineHas s i j text := by
  have found : findBehind? (s.upTo j).crlf text (s.shift i) = (findBehind? (s.upTo j) text i).map s.shift :=
    findBehind?_crlf (s := s.upTo j) some feed plain i
  rw [lineHas, lineHas, Source.upTo_crlf, found, Option.isSome_map]

theorem htmlFrom_crlf {ending : Option (List Char)}
    (text_plain : ∀ text ∈ ending, text ≠ [] ∧ '\n' ∉ text ∧ '\r' ∉ text)
    (parts : List HtmlPart) (inside : i < s.stop) (columns : Nat) (enough : s.stop ≤ i + n)
    (enough' : s.crlf.stop ≤ s.shift i + n') :
    htmlFrom s.crlf path ending n' (parts.flatMap HtmlPart.recut) columns (s.shift i) =
      ((htmlFrom s path ending n parts columns i).1.flatMap HtmlPart.recut,
        s.shift (htmlFrom s path ending n parts columns i).2) := by
  induction n using Nat.strong_induction_on generalizing n' i parts columns with
  | h n ih =>
  have inside' := (Source.shift_lt_iff (s := s)).2 inside
  obtain ⟨n, rfl⟩ : ∃ m, n = m + 1 := ⟨n - 1, by omega⟩
  obtain ⟨n', rfl⟩ : ∃ m, n' = m + 1 := ⟨n' - 1, by rw [Source.stop_crlf] at enough'; omega⟩
  have line := Source.lineTo_nextLine inside
  have lt := line.lt
  rw [htmlFrom, htmlFrom]
  dsimp only
  rw [Source.nextLine_crlf, Margin.ofLine_crlf, htmlLine_crlf line, ← List.flatMap_append]
  generalize s.nextLine i = behind at lt ⊢
  have low := Margin.le_place_ofLine (s := s) path behind
  generalize Margin.ofLine s path behind = read at low ⊢
  obtain ⟨belongs, m⟩ := read
  dsimp only at low ⊢
  have lt' := (Source.shift_lt_iff (s := s)).2 (Nat.lt_of_lt_of_le lt low)
  have rest (more : s.isEnd m.place = false) :
      htmlFrom s.crlf path ending n' ((parts ++ htmlLine s columns i behind).flatMap HtmlPart.recut) m.left
          (s.shift m.place) = _ :=
    ih n (Nat.lt_succ_self n) (parts ++ htmlLine s columns i behind) (by simpa [Source.isEnd] using more) m.left
      (by omega) (by omega)
  cases belongs with
  | false => rfl
  | true =>
    rw [place_shiftMargin, Source.isEnd_crlf, left_shiftMargin, Margin.isAtEnd_crlf, Source.blankLine?_crlf,
      Option.isSome_map, Bool.not_true, if_neg Bool.false_ne_true, if_neg Bool.false_ne_true]
    cases ending with
    | some text =>
      obtain ⟨some, feed, plain⟩ := text_plain text rfl
      dsimp only
      rw [lineHas_crlf some feed plain]
      split
      · rfl
      next more =>
        simp only [Bool.or_eq_true, not_or, Bool.not_eq_true] at more
        exact rest more.2
    | none =>
      dsimp only
      split
      · rfl
      next more =>
        simp only [Bool.or_eq_true, not_or, Bool.not_eq_true] at more
        exact rest more.1.2

/-- Parts of HTML have no carriage returns, and no line feed in front of their end. -/
theorem isPlain_of_mem_htmlLine (columns i : Nat) :
    ∀ part ∈ htmlLine s columns i (s.nextLine i), part.event.IsPlain := by
  have plain : (s.isAt (s.nextLine i - 2) '\r' && decide (s.nextLine i ≥ 2)) = false := s.hasReturn_eq_false _
  unfold htmlLine
  dsimp only
  rw [plain, if_neg Bool.false_ne_true]
  refine List.forall_mem_append.2 ⟨?_, List.forall_mem_singleton.2 ?_⟩
  · split
    · exact List.forall_mem_singleton.2 (.other fun _ => ⟨nofun, nofun⟩)
    · exact nofun
  · by_cases inside : i < s.stop
    · have line := Source.lineTo_nextLine inside
      generalize s.nextLine i = j at line ⊢
      cases line with
      | feed low here line =>
        rw [Source.slice_succ low here]
        exact .htmlLine (Source.lineFeed_notMem_slice line.symm) fun mem =>
          Source.IsPlain.notMem (s.slice_subset _ _ mem)
      | stop _ _ line => exact .html (Source.lineFeed_notMem_slice line.symm)
    · rw [Source.nextLine_of_le (Nat.not_lt.1 inside), Source.slice_of_le (Nat.le_refl i)]
      exact .html List.not_mem_nil

theorem isPlain_of_mem_htmlFrom {ending : Option (List Char)} {parts : List HtmlPart}
    (h : ∀ part ∈ parts, part.event.IsPlain) (n columns i : Nat) :
    ∀ part ∈ (htmlFrom s path ending n parts columns i).1, part.event.IsPlain := by
  induction n generalizing parts columns i with
  | zero => exact h
  | succ n ih =>
    have more := List.forall_mem_append.2 ⟨h, isPlain_of_mem_htmlLine (s := s) columns i⟩
    rw [htmlFrom]
    dsimp only
    split
    · exact more
    · split <;> split <;> first | exact more | exact ih more _ _

end PublisherConsole.Markdown
