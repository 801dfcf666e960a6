import PublisherConsole.Proofs.Markdown.LineEnds.Tags

/-!
# HTML and addresses in a text with carriage returns

What begins a block of HTML is told from one line (`htmlBlockEnd?_crlf`, `isBlockElement_crlf`), and what
ends HTML is a text without line ends, which is found where it was (`findBehind?_crlf`). An element inside of
a line ends where it has ended (`inlineHtml?_crlf`), with the same text but for the line ends
(`text_shiftScan`); so does an address between angle brackets (`autolinkEnd?_crlf`).
-/

namespace PublisherConsole.Markdown

variable {s : Source} {i j n n' : Nat} {c : Char} {text name : List Char}

namespace Source

theorem slice_cons (s : Source) (i n : Nat) : s.slice i (i + (n + 1)) =
    match s.char? i with
    | none => []
    | some c => c :: s.slice (i + 1) (i + 1 + n) := by
  rw [slice_eq, slice_eq, char?]
  by_cases bound : i < s.stop
  · rw [if_pos bound, ← Array.getElem?_toList,
      show min (i + (n + 1)) s.stop - i = min (i + 1 + n) s.stop - (i + 1) + 1 by omega]
    cases here : s.chars.toList[i]? with
    | none => simp [List.drop_eq_nil_iff.2 (List.getElem?_eq_none_iff.1 here)]
    | some c =>
      obtain ⟨inside, rfl⟩ := List.getElem?_eq_some_iff.1 here
      rw [List.drop_eq_getElem_cons inside, List.take_succ_cons]
  · rw [if_neg bound, show min (i + (n + 1)) s.stop - i = 0 by omega]
    rfl

theorem feeds_of_startsWith (feed : '\n' ∉ text) (here : s.startsWith i text = true) :
    s.feeds (i + text.length) = s.feeds i := by
  induction text generalizing i with
  | nil => rfl
  | cons c text ih =>
    rw [List.mem_cons, not_or] at feed
    obtain ⟨first, rest⟩ := Bool.and_eq_true_iff.1 here
    rw [List.length_cons, Nat.add_comm text.length, ← Nat.add_assoc, ih feed.2 rest,
      feeds_of_isAt first (Ne.symm feed.1)]

end Source

theorem hasNameAt_cons (s : Source) (i : Nat) (c : Char) (name : List Char) : hasNameAt s i (c :: name) =
    ((s.char? i).any (fun d => lowerBasic d = c) && hasNameAt s (i + 1) name) := by
  rw [hasNameAt, hasNameAt, List.length_cons, Source.slice_cons]
  cases s.char? i with
  | none => simp
  | some d => simp

theorem feeds_of_hasNameAt (feed : '\n' ∉ name) (here : hasNameAt s i name = true) :
    s.feeds (i + name.length) = s.feeds i := by
  induction name generalizing i with
  | nil => rfl
  | cons c name ih =>
    rw [List.mem_cons, not_or] at feed
    rw [hasNameAt_cons] at here
    obtain ⟨first, rest⟩ := Bool.and_eq_true_iff.1 here
    obtain ⟨d, at', lower⟩ := (Option.any_eq_true _ _).1 first
    rw [List.length_cons, Nat.add_comm name.length, ← Nat.add_assoc, ih feed.2 rest, Source.feeds_of_char at']
    rintro rfl
    exact feed.1 (of_decide_eq_true lower)

theorem behindText?_of_end (here : s.stop ≤ i) (n : Nat) : behindText? s text n i = none := by
  cases n with
  | zero => rfl
  | succ n => rw [behindText?, Source.isEnd, decide_eq_true here, if_pos rfl]

theorem startsWith_eq_false (here : s.char? i = some c) (some : text ≠ []) (other : c ∉ text) :
    s.startsWith i text = false := by
  cases text with
  | nil => exact absurd rfl some
  | cons d text =>
    rw [List.mem_cons, not_or] at other
    rw [Source.startsWith, Source.isAt, here, decide_eq_false (fun same => other.1 (Option.some.inj same)),
      Bool.false_and]

/-- Looking for a text goes on behind a character that is not in it. -/
theorem behindText?_of_notMem (here : s.char? i = some c) (some : text ≠ []) (other : c ∉ text) :
    behindText? s text (n + 1) i = behindText? s text n (i + 1) := by
  rw [behindText?, startsWith_eq_false here some other, Source.isEnd,
    decide_eq_false (Nat.not_le.2 (Source.lt_stop here))]
  rfl

theorem hostEnd?_of_end (here : s.char? i = none) (n : Nat) : hostEnd? s n i = none := by
  cases n with
  | zero => rfl
  | succ n =>
    rw [hostEnd?, Source.skip_eq, here]
    simp

/-- What is cut out of a tag takes its carriage returns with it. -/
theorem text_shiftScan {t : TagScan} (start : Nat) :
    (s.shiftScan t).text s.crlf (s.shift start) = withReturns (t.text s start) := by
  have step (cuts : List (Nat × Nat)) (done : List Char) (start : Nat) :
      (cuts.map fun cut => (s.shift cut.1, s.shift cut.2)).foldl
          (fun acc cut => (acc.1 ++ s.crlf.slice acc.2 cut.1, cut.2)) (withReturns done, s.shift start) =
        (withReturns (cuts.foldl (fun acc cut => (acc.1 ++ s.slice acc.2 cut.1, cut.2)) (done, start)).1,
          s.shift (cuts.foldl (fun acc cut => (acc.1 ++ s.slice acc.2 cut.1, cut.2)) (done, start)).2) := by
    induction cuts generalizing done start with
    | nil => rfl
    | cons cut cuts ih =>
      rw [List.map_cons, List.foldl_cons, List.foldl_cons, ← ih, Source.slice_crlf, withReturns_append]
  have all := congrArg (fun r : List Char × Nat => r.1 ++ s.crlf.slice r.2 (s.shift t.place)) (step t.cuts [] start)
  refine Eq.trans all ?_
  dsimp only
  rw [Source.slice_crlf, ← withReturns_append]
  rfl

variable [s.IsPlain]

theorem hasNameAt_crlf (feed : '\n' ∉ name) (plain : '\r' ∉ name) :
    hasNameAt s.crlf (s.shift i) name = hasNameAt s i name := by
  induction name generalizing i with
  | nil => simp [hasNameAt, Source.slice_of_le]
  | cons c name ih =>
    rw [List.mem_cons, not_or] at feed plain
    have same : decide (lowerBasic '\r' = c) = decide (lowerBasic '\n' = c) := by
      rw [decide_eq_false (show lowerBasic '\r' ≠ c from plain.1),
        decide_eq_false (show lowerBasic '\n' ≠ c from feed.1)]
    rw [hasNameAt_cons, hasNameAt_cons, Source.any_crlf (p := fun d => lowerBasic d = c) same]
    cases first : (s.char? i).any (fun d => lowerBasic d = c) with
    | false => rfl
    | true =>
      obtain ⟨d, here, lower⟩ := (Option.any_eq_true _ _).1 first
      have next : s.feeds (i + 1) = s.feeds i := by
        refine Source.feeds_of_char here ?_
        rintro rfl
        exact feed.1 (of_decide_eq_true lower)
      rw [← Source.shift_add next, ih feed.2 plain.2]

/-- The start of an HTML element that goes on over blank lines. -/
theorem rawElements_plain : ∀ name ∈ rawElements, '\n' ∉ name ∧ '\r' ∉ name := by decide

@[simp] theorem htmlBlockEnd?_crlf (i : Nat) : htmlBlockEnd? s.crlf (s.shift i) = htmlBlockEnd? s i := by
  unfold htmlBlockEnd?
  dsimp only
  congr 1
  · refine List.find?_congr fun name h => ?_
    obtain ⟨feed, plain⟩ := rawElements_plain name h
    rw [hasNameAt_crlf feed plain]
    cases here : hasNameAt s i name with
    | false => rfl
    | true =>
      rw [← Source.shift_add (feeds_of_hasNameAt feed here)]
      rcases s.seen (i + name.length) with ⟨here, there⟩ | ⟨here, there, -, -⟩ | ⟨here, there, -, -, -⟩ <;>
        rw [here, there]
      rfl
  · rw [Source.startsWith_crlf (by decide) (by decide),
      Source.startsWith_crlf (by decide) (by decide), Source.isAt_crlf (by decide) (by decide),
      Source.isAt_crlf (by decide) (by decide)]
    cases sign : s.isAt i '!' with
    | false => rfl
    | true => rw [← Source.shift_add (Source.feeds_of_isAt sign (by decide)), Source.any_crlf rfl]

@[simp] theorem isBlockElement_crlf (i : Nat) : isBlockElement s.crlf (s.shift i) = isBlockElement s i := by
  have start : (if s.isAt i '/' = true then s.shift i + 1 else s.shift i) =
      s.shift (if s.isAt i '/' = true then i + 1 else i) := by
    split
    next slash => rw [Source.shift_add (Source.feeds_of_isAt slash (by decide))]
    next => rfl
  unfold isBlockElement
  rw [Source.isAt_crlf (by decide) (by decide)]
  dsimp only
  rw [start]
  generalize (if s.isAt i '/' = true then i + 1 else i) = start
  rw [Source.skip_crlf rfl, Source.slice_crlf_of_line (Source.feeds_skip rfl _).symm]
  congr 1
  rcases s.seen (s.skip isBasicAlphanumeric start) with
    ⟨here, there⟩ | ⟨here, there, -, -⟩ | @⟨c, here, there, -, feed, -⟩
  · rw [here, there]
  · rw [here, there]
    rfl
  · rw [here, there, ← Source.shift_add (Source.feeds_of_char here feed), Source.isAt_crlf (by decide) (by decide)]

/-! ### Texts that are looked for -/

theorem behindText?_crlf_of_le (some : text ≠ []) (feed : '\n' ∉ text) (plain : '\r' ∉ text)
    (enough : s.stop ≤ i + n) (enough' : s.crlf.stop ≤ s.shift i + n') :
    behindText? s.crlf text n' (s.shift i) = (behindText? s text n i).map s.shift := by
  induction n using Nat.strong_induction_on generalizing n' i with
  | h n ih =>
  rcases s.seen i with ⟨here, -⟩ | ⟨here, there, next, behind⟩ | @⟨c, here, there, behind, -, -⟩
  · have bound := Source.char?_eq_none.1 here
    have bound' : s.crlf.stop ≤ s.shift i := Source.shift_le_iff.2 bound
    rw [behindText?_of_end bound, behindText?_of_end bound']
    rfl
  · obtain ⟨n, n', rfl, rfl, left, left'⟩ := enough_feed here behind enough enough'
    rw [behindText?_of_notMem here some feed, behindText?_of_notMem there some plain,
      behindText?_of_notMem next some feed, ← ih n (Nat.lt_succ_self n) left left', behind]
  · obtain ⟨n, n', rfl, rfl, rest⟩ := enough_succ here enough enough'
    rw [behindText?, behindText?, Source.isEnd_crlf, Source.startsWith_crlf feed plain]
    split
    · rfl
    · split
      next found =>
        rw [← Source.shift_add (Source.feeds_of_startsWith feed found)]
        rfl
      next =>
        obtain ⟨left, left'⟩ := rest (i + 1) (Nat.lt_succ_self i)
        rw [← behind]
        exact ih n (Nat.lt_succ_self n) left left'

theorem findBehind?_crlf (some : text ≠ []) (feed : '\n' ∉ text) (plain : '\r' ∉ text) (i : Nat) :
    findBehind? s.crlf text (s.shift i) = (findBehind? s text i).map s.shift :=
  behindText?_crlf_of_le some feed plain (by omega) (by omega)

@[simp] theorem markupDeclaration?_crlf (i : Nat) :
    markupDeclaration? s.crlf (s.shift i) = (markupDeclaration? s i).map s.shift := by
  unfold markupDeclaration?
  rcases s.seen i with ⟨here, there⟩ | ⟨here, there, -, -⟩ | @⟨c, here, there, behind, feed, plain⟩
  · rw [here, there]
    rfl
  · rw [here, there]
    rfl
  · rw [here, there, ← behind]
    dsimp only
    split
    · rw [Source.isAt_crlf (by decide) (by decide), findBehind?_crlf (by decide) (by decide) (by decide)]
      split <;> rfl
    · split
      · rw [Source.startsWith_crlf (by decide) (by decide)]
        split
        next data =>
          have line : s.feeds (i + 7) = s.feeds (i + 1) := Source.feeds_of_startsWith (by decide) data
          have place : s.shift i + 7 = s.shift (i + 7) :=
            (Source.shift_add (line.trans (Source.feeds_of_char here feed))).symm
          rw [place, Source.find_crlf (by decide) (by decide), Source.skipRun_crlf (by decide) (by decide)]
          simp only [gt_iff_lt, Source.shift_lt_iff]
          rw [Source.isAt_crlf (by decide) (by decide)]
          split
          next close =>
            rw [← Source.shift_add (Source.feeds_of_isAt (Bool.and_eq_true_iff.1 close).2 (by decide))]
            rfl
          next => rfl
        next => rfl
      · split
        · rw [Source.skip_crlf rfl, Source.skip_crlf rfl]
          simp only [Source.shift_inj]
          split
          · rfl
          · rw [Source.find_crlf (by decide) (by decide), Source.isAt_crlf (by decide) (by decide)]
            split
            next close =>
              rw [← Source.shift_add (Source.feeds_of_isAt close (by decide))]
              rfl
            next => rfl
        · rfl

theorem inlineHtml?_crlf {skip skip' : Nat → Nat} (h : s.Skips (some skip) (some skip'))
    (front : 0 < i ∨ s.feeds (i + 1) = s.feeds i) :
    inlineHtml? s.crlf skip' (s.shift i) = (inlineHtml? s skip i).map s.shiftScan := by
  have tag := tag?_crlf h (i := s.shift i - 1) (j := i - 1) (by
    rcases Nat.eq_zero_or_pos i with rfl | some
    · have first := front.resolve_left (Nat.lt_irrefl 0)
      rw [Source.shift_zero, Nat.zero_sub, Source.shift_add (i := 0) first, Source.shift_zero]
    · have := (Source.shift_lt_iff (s := s)).2 some
      rw [Nat.sub_add_cancel some]
      omega)
  unfold inlineHtml?
  rcases s.seen i with ⟨here, there⟩ | ⟨here, there, -, -⟩ | @⟨c, here, there, behind, -, -⟩
  · rw [here, there]
    rfl
  · rw [here, there]
    exact tag
  · rw [here, there, ← behind, markupDeclaration?_crlf, findBehind?_crlf (by decide) (by decide) (by decide)]
    dsimp only
    split
    · cases markupDeclaration? s (i + 1) <;> rfl
    · split
      · cases findBehind? s ['?', '>'] (i + 1) <;> rfl
      · exact tag

/-! ### Addresses -/

@[simp] theorem uriEnd?_crlf (i : Nat) : uriEnd? s.crlf (s.shift i) = (uriEnd? s i).map s.shift := by
  unfold uriEnd?
  dsimp only
  rw [Source.any_crlf rfl, Source.skip_crlf rfl, Source.isAt_crlf (by decide) (by decide),
    Source.shift_sub (Source.feeds_skip rfl _).symm]
  generalize s.skip _ i = colon
  split
  · split
    next scheme =>
      have sign := (Bool.and_eq_true_iff.1 (Bool.and_eq_true_iff.1 scheme).1).1
      rw [← Source.shift_add (Source.feeds_of_isAt sign (by decide)), Source.skip_crlf rfl,
        Source.isAt_crlf (by decide) (by decide)]
      split
      next close =>
        rw [← Source.shift_add (Source.feeds_of_isAt close (by decide))]
        rfl
      next => rfl
    next => rfl
  · rfl

theorem hostEnd?_crlf_of_le (enough : s.stop ≤ i + n) (enough' : s.crlf.stop ≤ s.shift i + n') :
    hostEnd? s.crlf n' (s.shift i) = (hostEnd? s n i).map s.shift := by
  induction n using Nat.strong_induction_on generalizing n' i with
  | h n ih =>
  cases here : s.char? i with
  | none =>
    rw [hostEnd?_of_end here, hostEnd?_of_end (Source.char?_crlf_eq_none here)]
    rfl
  | some c =>
    obtain ⟨n, n', rfl, rfl, rest⟩ := enough_succ here enough enough'
    have line := Source.feeds_skip (s := s) (p := fun c => isBasicAlphanumeric c || c = '-') rfl i
    have low := s.le_skip (fun c => isBasicAlphanumeric c || c = '-') i
    rw [hostEnd?, hostEnd?, Source.skip_crlf rfl]
    generalize s.skip (fun c => isBasicAlphanumeric c || c = '-') i = stop at line low ⊢
    by_cases none : stop = i
    · simp [none]
    · have before : s.shift stop - 1 = s.shift (stop - 1) := by
        have below := s.feeds_le (show i ≤ stop - 1 by omega)
        have above := s.feeds_le (show stop - 1 ≤ stop by omega)
        simp only [Source.shift]
        omega
      simp only [Source.shift_inj]
      rw [before, Source.shift_sub line.symm, Source.isAt_crlf (by decide) (by decide),
        Source.isAt_crlf (by decide) (by decide), Source.isAt_crlf (by decide) (by decide)]
      split
      · rfl
      · split
        next dot =>
          obtain ⟨left, left'⟩ := rest (stop + 1) (by omega)
          rw [← Source.shift_add (Source.feeds_of_isAt dot (by decide))]
          exact ih n (Nat.lt_succ_self n) left left'
        next => rfl

@[simp] theorem mailEnd?_crlf (i : Nat) : mailEnd? s.crlf (s.shift i) = (mailEnd? s i).map s.shift := by
  unfold mailEnd?
  rw [Source.skip_crlf rfl]
  generalize s.skip isMailChar i = sign
  simp only [gt_iff_lt, Source.shift_lt_iff]
  rw [Source.isAt_crlf (by decide) (by decide)]
  split
  next at' =>
    have next := Source.shift_add (Source.feeds_of_isAt (Bool.and_eq_true_iff.1 at').2 (by decide))
    rw [← next, hostEnd?_crlf_of_le (n := s.stop - sign) (by omega) (by omega)]
    cases hostEnd? s (s.stop - sign) (sign + 1) with
    | none => rfl
    | some stop =>
      dsimp only [Option.map_some]
      rw [Source.isAt_crlf (by decide) (by decide)]
      split
      next close =>
        rw [← Source.shift_add (Source.feeds_of_isAt close (by decide))]
        rfl
      next => rfl
  next => rfl

@[simp] theorem autolinkEnd?_crlf (i : Nat) :
    autolinkEnd? s.crlf (s.shift i) = (autolinkEnd? s i).map s.shift := by
  rw [autolinkEnd?, autolinkEnd?, uriEnd?_crlf, mailEnd?_crlf]
  cases uriEnd? s i <;> rfl

end PublisherConsole.Markdown
