import Mathlib.Data.List.Chain
import PublisherConsole.Proofs.Markdown.Inlines
import PublisherConsole.Proofs.Markdown.LineEnds.Labels
import PublisherConsole.Proofs.Markdown.LineEnds.Pages
import PublisherConsole.Proofs.Markdown.LineEnds.Pieces

/-!
# Paragraphs of a text with carriage returns

Pieces that come to stand where `Source.shift` says settle to the same elements, apart from the line ends
in HTML. This needs that the pieces of a paragraph follow each other (`Source.HasRow`): what is read from
the next piece on is read from where the last one has ended. Settling a piece keeps this, and goes to where
its state comes to stand (`linkStep_crlf`); so does the whole paragraph (`settle_crlf`). A label with an
escaped line end reads differently, but no definition has it in either case (`reference_crlf`,
`ownLabel?_crlf`).

In the elements carriage returns are seen in HTML only: `Inline.recut` is what becomes of one. Signs of
emphasis are paired as before (`pairSigns_recut`), and the events of the elements are the ones of a text
whose lines end with carriage returns as well (`inlinesEvents_recut`).
-/

namespace PublisherConsole.Markdown

/-! ### Elements -/

mutual

/-- An element of a text whose lines end with carriage returns as well: they are seen in HTML only. -/
def Inline.recut : Inline → Inline
  | .html cs => .html (withReturns cs)
  | .element tag content => .element tag (Inline.recutAll content)
  | e => e

/-- A row of elements of a text whose lines end with carriage returns as well. -/
def Inline.recutAll : List Inline → List Inline
  | [] => []
  | e :: es => e.recut :: Inline.recutAll es

end

theorem Inline.recutAll_eq (es : List Inline) : recutAll es = es.map recut := by
  induction es with
  | nil => rfl
  | cons e es ih => rw [recutAll, ih, List.map_cons]

theorem Inline.recut_run (sign : Char) (count : Nat) (opens closes : Bool) :
    recut (.run sign count opens closes) = .run sign count opens closes := rfl

@[simp] theorem Inline.recut_element (tag : Tag) (content : List Inline) :
    recut (.element tag content) = .element tag (content.map recut) := by rw [recut, recutAll_eq]

/-! ### Emphasis -/

namespace Pairing

variable (p : Pairing)

/-- Pairing with carriage returns in what was put out. -/
def recut : Pairing := { p with output := p.output.map Inline.recut }

theorem emit_recut (e : Inline) : p.recut.emit e.recut = (p.emit e).recut := rfl

theorem emitSigns_recut (sign : Char) (n : Nat) : p.recut.emitSigns sign n = (p.emitSigns sign n).recut := by
  induction n generalizing p with
  | zero => rfl
  | succ n ih => exact ih (p.emit (.text [sign]))

theorem wrap_recut (sign : Char) (n : Nat) (content : List Inline) :
    wrap sign n (content.map Inline.recut) = (wrap sign n content).map Inline.recut := by
  fun_induction wrap sign n content with
  | case1 content => rfl
  | case2 content => simp [wrap]
  | case3 n content ih => rw [wrap, ← ih, List.map_singleton, Inline.recut_element]

theorem pair_recut (o : Opener) (outer : List Opener) (sign : Char) (count : Nat) :
    p.recut.pair o outer sign count = (p.pair o outer sign count).recut := by
  have wrapped (n : Nat) : wrap sign (min count o.count) ((p.recut.output.take n).reverse) =
      (wrap sign (min count o.count) (p.output.take n).reverse).map Inline.recut := by
    rw [recut, ← wrap_recut, ← List.map_take, ← List.map_reverse]
  rw [pair, pair, wrapped]
  simp [recut]

theorem closeRun_recut (sign : Char) (runLength : Nat) (both : Bool) (fuel count : Nat) :
    closeRun sign runLength both fuel count p.recut =
      ((closeRun sign runLength both fuel count p).1, (closeRun sign runLength both fuel count p).2.recut) := by
  induction fuel generalizing count p with
  | zero => rfl
  | succ fuel ih =>
    have found : p.recut.find? sign runLength both = p.find? sign runLength both := rfl
    rw [closeRun, closeRun, found]
    split
    · rfl
    · cases p.find? sign runLength both with
      | none => rfl
      | some r =>
        dsimp only
        rw [pair_recut, ih]

theorem step_recut (e : Inline) : p.recut.step e.recut = (p.step e).recut := by
  cases e with
  | run sign count opens closes =>
    have closed : (if closes then closeRun sign count (opens && closes) count count p.recut
        else (count, p.recut)) =
        Prod.map id recut (if closes then closeRun sign count (opens && closes) count count p
          else (count, p)) := by
      split
      · exact closeRun_recut ..
      · rfl
    rw [Inline.recut_run, step, step]
    dsimp only
    rw [closed]
    generalize (if closes then closeRun sign count (opens && closes) count count p else (count, p)) = r
    dsimp only [Prod.map, id]
    rw [emitSigns_recut]
    split <;> rfl
  | element tag content => exact p.emit_recut (.element tag content)
  | html cs => exact p.emit_recut (.html cs)
  | _ => rfl

end Pairing

theorem pairSigns_recut (es : List Inline) :
    pairSigns (es.map Inline.recut) = (pairSigns es).map Inline.recut := by
  have fold (p : Pairing) : (es.map Inline.recut).foldl Pairing.step p.recut =
      (es.foldl Pairing.step p).recut := by
    induction es generalizing p with
    | nil => rfl
    | cons e es ih =>
      rw [List.map_cons, List.foldl_cons, List.foldl_cons, Pairing.step_recut]
      exact ih _
  rw [pairSigns, pairSigns, List.map_reverse]
  exact congrArg (fun p : Pairing => p.output.reverse) (fold .start)

/-! ### Events -/

mutual

theorem inlineEvents_recut : (e : Inline) → inlineEvents e.recut = (inlineEvents e).flatMap Event.recut
  | .text _ | .code _ | .softBreak | .hardBreak => rfl
  | .html cs => by simp [Inline.recut, inlineEvents, Event.recut]
  | .run sign count _ _ => by
    rw [Inline.recut_run, inlineEvents, List.flatMap_replicate]
    exact (List.flatten_replicate_singleton ..).symm
  | .element tag content => by
    rw [Inline.recut, inlineEvents, inlineEvents, inlinesEvents_recut content]
    simp [Event.recut]

theorem inlinesEvents_recut :
    (es : List Inline) → inlinesEvents (Inline.recutAll es) = (inlinesEvents es).flatMap Event.recut
  | [] => rfl
  | e :: es => by
    rw [Inline.recutAll, inlinesEvents, inlinesEvents, inlineEvents_recut e, inlinesEvents_recut es,
      List.flatMap_append]

end

/-! ### Pieces that follow each other -/

variable {s : Source} {i j b n n' : Nat} {p : Piece} {pieces rest : List Piece} {path : List Container}

namespace Source

/-- Pieces that stand where they should, each in the line where the one in front of it ends. -/
structure HasRow (s : Source) (pieces : List Piece) : Prop where
  piece : ∀ p ∈ pieces, s.HasPiece p
  chain : pieces.IsChain fun p q => s.feeds q.start = s.feeds p.stop

theorem HasPieces.hasRow (h : s.HasPieces b pieces) : s.HasRow pieces.reverse := by
  suffices held : (∀ p ∈ pieces, s.HasPiece p) ∧ pieces.IsChain fun p q => s.feeds p.start = s.feeds q.stop from
    ⟨fun p hp => held.1 p (List.mem_reverse.1 hp), List.isChain_reverse.2 held.2⟩
  induction h with
  | nil => exact ⟨nofun, .nil⟩
  | cons before here stop ih =>
    refine ⟨List.forall_mem_cons.2 ⟨here, ih.1⟩, ih.2.cons fun q hq => ?_⟩
    cases before with
    | nil => cases hq
    | cons _ _ stop => exact Option.some.inj hq ▸ stop.symm

/-- A piece that does not end in front of a place may be cut off there. -/
theorem HasPiece.cut (h : s.HasPiece p) (lt : i < p.stop) : s.HasPiece { p with start := max p.start i } := by
  rcases Nat.le_total i p.start with le | le
  · rwa [Nat.max_eq_left le]
  · rw [Nat.max_eq_right le]
    cases h with
    | inLine stop _ =>
      have here := feeds_between stop le (Nat.le_of_lt lt)
      have next := feeds_between stop (Nat.le_succ_of_le le) lt
      exact .inLine (stop.trans here.symm) (next.trans here.symm)
    | lineEnd kind front =>
      refine .lineEnd kind ?_
      rcases Nat.eq_or_lt_of_le le with rfl | more
      · exact front
      · exact .inl (Nat.lt_of_le_of_lt (Nat.zero_le _) more)

/-- What is asked of a piece that is no break is asked of its places only. -/
theorem HasPiece.stale (h : s.HasPiece p) : s.HasPiece (stale p) := by
  obtain ⟨start, stop, kind⟩ := p
  cases kind with
  | linkClose fresh =>
    cases h with
    | inLine stop next => exact .inLine stop next
    | lineEnd kind => rcases kind with kind | kind <;> cases kind
  | _ => exact h

namespace HasRow

theorem suffix (h : s.HasRow pieces) (last : rest <:+ pieces) : s.HasRow rest :=
  ⟨fun p hp => h.piece p (last.mem hp), h.chain.suffix last⟩

/-- Where pieces stand is not changed by closing off the source. -/
theorem upTo (h : s.HasRow pieces) (k : Nat) : (s.upTo k).HasRow pieces where
  piece p hp := by
    cases h.piece p hp with
    | inLine stop next => exact .inLine stop next
    | lineEnd kind front => exact .lineEnd kind front
  chain := h.chain

theorem tail (h : s.HasRow (p :: rest)) : s.HasRow rest := h.suffix (List.suffix_cons _ _)

theorem dropTo (h : s.HasRow pieces) (i : Nat) : s.HasRow (dropTo pieces i) := by
  unfold Markdown.dropTo
  split
  next => exact ⟨nofun, .nil⟩
  next p rest left =>
    have kept : s.HasRow (p :: rest) := h.suffix (left ▸ List.dropWhile_suffix _)
    have lt : i < p.stop := by
      have first := List.head?_dropWhile_not (fun p : Piece => decide (p.stop ≤ i)) pieces
      rw [left] at first
      simpa using first
    exact ⟨List.forall_mem_cons.2 ⟨(kept.piece p List.mem_cons_self).cut lt, kept.tail.piece⟩,
      kept.tail.chain.cons (List.isChain_cons.1 kept.chain).1⟩

theorem stale {front behind : List Piece} (h : s.HasRow (front ++ p :: behind)) :
    s.HasRow (front ++ stale p :: behind) where
  piece q hq := by
    rcases List.mem_append.1 hq with hq | hq
    · exact h.piece q (List.mem_append_left _ hq)
    · rcases List.mem_cons.1 hq with rfl | hq
      · exact (h.piece p (by simp)).stale
      · exact h.piece q (by simp [hq])
  chain := by
    have places : (Markdown.stale p).start = p.start ∧ (Markdown.stale p).stop = p.stop := by
      obtain ⟨start, stop, kind⟩ := p
      cases kind <;> exact ⟨rfl, rfl⟩
    obtain ⟨left, right, between⟩ := List.isChain_append.1 h.chain
    obtain ⟨first, others⟩ := List.isChain_cons.1 right
    refine List.isChain_append.2 ⟨left, others.cons ?_, fun q hq q' hq' => ?_⟩
    · rwa [places.2]
    · obtain rfl := Option.some.inj hq'
      rw [places.1]
      exact between q hq p rfl

variable {c : InlineContext} {l : Linking}

/-- What follows a reference is among the pieces behind the bracket. -/
theorem collapsed {behind : List Piece} (h : s.HasRow rest) (found : reference c rest = .collapsed behind) :
    s.HasRow behind := by
  unfold reference at found
  split at found
  · cases found
  · split at found
    next p more _ =>
      obtain rfl := Reference.collapsed.inj found
      exact h.suffix ((List.drop_suffix 1 more).trans (List.suffix_cons p more))
    next => split at found <;> cases found

theorem closeBracket (h : s.HasRow rest) (fresh : Bool) : s.HasRow (closeBracket c l p fresh rest).2 := by
  unfold Markdown.closeBracket
  dsimp only
  split
  next => exact h
  next b brackets _ =>
    -- A bracket is enclosed with some pieces left, or stands for itself.
    have resolved {pieces pieces' : List Piece} (h : s.HasRow pieces) (h' : s.HasRow pieces')
        (label : List Char) (l l' : Linking) :
        s.HasRow (if c.labels.contains label then (l, pieces) else (l', pieces')).2 := by
      split
      · exact h
      · exact h'
    split
    · exact h
    · split
      next stop _ => exact h.dropTo stop
      next =>
        split
        next label stop _ =>
          split
          next => exact h
          next q behind left =>
            have kept : s.HasRow (q :: behind) := h.suffix (left ▸ List.dropWhile_suffix _)
            refine resolved kept.tail ?_ label _ _
            have all : s.HasRow (rest.takeWhile (fun q => decide (q.stop ≤ stop - 1)) ++ q :: behind) := by
              rwa [← left, List.takeWhile_append_dropWhile]
            exact all.stale
        next others found =>
          split
          · split
            · exact h
            · exact resolved (h.collapsed found) h _ _ _
          · exact h
        next =>
          split
          · split
            · exact h
            · exact resolved h h _ _ _
          · exact h

theorem closeTicks (h : s.HasRow rest) (escaped : Bool) : s.HasRow (closeTicks c l p escaped rest).2 := by
  unfold Markdown.closeTicks
  dsimp only
  generalize p.stop - p.start - (if escaped then 1 else 0) = count
  split
  · exact h
  · split
    next => exact h
    next q behind left => exact (h.suffix (left ▸ List.dropWhile_suffix _)).tail

theorem closeAngle (h : s.HasRow rest) : s.HasRow (closeAngle c l p rest).2 := by
  unfold Markdown.closeAngle
  dsimp only
  split
  next => exact h
  next =>
    split
    next => exact h.dropTo _
    next =>
      split
      next => exact h.dropTo _
      next => exact h

/-- Settling a piece leaves pieces that follow each other. -/
theorem linkStep (h : s.HasRow rest) : s.HasRow (linkStep c l p rest).2 := by
  unfold Markdown.linkStep
  dsimp only
  split <;> first | exact h | exact h.closeTicks _ | exact h.closeAngle | exact h.closeBracket _

end HasRow

end Source

/-! ### Code -/

theorem codeChars_of_end {inTable : Bool} {stop : Nat} (here : s.char? i = none ∨ stop ≤ i) (n : Nat) :
    codeChars s path inTable stop n i = [] := by
  cases n with
  | zero => rfl
  | succ n =>
    rw [codeChars]
    split
    · rfl
    next inside => rw [here.resolve_right inside]

section

variable [s.IsPlain]

/-- A line end in code is one blank, however the line ends. -/
theorem codeChars_crlf {inTable : Bool} {stop : Nat} (enough : stop ≤ i + n)
    (enough' : s.shift stop ≤ s.shift i + n') :
    codeChars s.crlf path inTable (s.shift stop) n' (s.shift i) = codeChars s path inTable stop n i := by
  induction n using Nat.strong_induction_on generalizing n' i with
  | h n ih =>
  by_cases behind : stop ≤ i
  · rw [codeChars_of_end (.inr behind), codeChars_of_end (.inr (Source.shift_le_iff.2 behind))]
  · have inside := (Source.shift_lt_iff (s := s)).2 (Nat.not_le.1 behind)
    obtain ⟨n, rfl⟩ : ∃ m, n = m + 1 := ⟨n - 1, by omega⟩
    obtain ⟨n', rfl⟩ : ∃ m, n' = m + 1 := ⟨n' - 1, by omega⟩
    have rest {j : Nat} (lt : i < j) :
        codeChars s.crlf path inTable (s.shift stop) n' (s.shift j) = codeChars s path inTable stop n j := by
      have lt' := (Source.shift_lt_iff (s := s)).2 lt
      exact ih n (Nat.lt_succ_self n) (by omega) (by omega)
    rcases s.seen i with ⟨here, there⟩ | ⟨here, there, -, -⟩ | @⟨c, here, there, next, feed, plain⟩
    · rw [codeChars_of_end (.inl here), codeChars_of_end (.inl there)]
    · have low : i + 1 ≤ skipMargin (s.upTo stop) path (i + 1) := Margin.le_place_ofLine path (i + 1)
      have margin : skipMargin (s.upTo stop).crlf path (s.shift (i + 1)) =
          s.shift (skipMargin (s.upTo stop) path (i + 1)) := skipMargin_crlf (s := s.upTo stop) path (i + 1)
      rw [codeChars, codeChars, if_neg behind, if_neg (Nat.not_le.2 inside), here, there, Source.lineEnd?_crlf,
        lineEnd?_of_feed here, Source.upTo_crlf]
      dsimp only [Option.map_some, Option.getD_some]
      rw [isLineEnd_feed, isLineEnd_return, if_pos rfl, if_pos rfl, margin, rest low]
    · rw [codeChars, codeChars, if_neg behind, if_neg (Nat.not_le.2 inside), here, there, ← next,
        Source.isAt_crlf (by decide) (by decide)]
      dsimp only
      rw [isLineEnd_of_ne feed plain, if_neg Bool.false_ne_true, if_neg Bool.false_ne_true]
      split
      next bar =>
        have second := (Source.feeds_of_isAt (Bool.and_eq_true_iff.1 bar).2 (by decide)).trans
          (Source.feeds_of_char here feed)
        rw [← Source.shift_add second, rest (by omega)]
      next => rw [rest (Nat.lt_succ_self i)]

/-! ### Steps -/

theorem skips_skipMargin (s : Source) [s.IsPlain] (path : List Container) :
    s.Skips (some (skipMargin s path)) (some (skipMargin s.crlf path)) where
  shift i := congrArg some (skipMargin_crlf path i)
  le _ i h := Option.some.inj h ▸ Margin.le_place_ofLine path i
  le_stop _ _ h := Option.some.inj h ▸ Margin.place_ofLine_le path

end

/-- The context of a paragraph whose lines end with carriage returns as well. -/
def InlineContext.crlf (c : InlineContext) : InlineContext := { c with source := c.source.crlf }

/-- Where an open bracket comes to stand. -/
def Source.shiftBracket (s : Source) (b : Bracket) : Bracket := { b with start := s.shift b.start }

/-- Where the state of the first round comes to stand. -/
def Source.shiftLinking (s : Source) (l : Linking) : Linking :=
  ⟨l.output.map Inline.recut, l.size, l.brackets.map s.shiftBracket⟩

/-- Where a state and the pieces behind it come to stand. -/
def Source.shiftState (s : Source) (r : Linking × List Piece) : Linking × List Piece :=
  (s.shiftLinking r.1, r.2.map s.shiftPiece)

variable {c : InlineContext} {l : Linking}

theorem enclose_crlf (b : Bracket) :
    (s.shiftLinking l).enclose (s.shiftBracket b) = s.shiftLinking (l.enclose b) := by
  have content : pairSigns ((s.shiftLinking l).output.take (l.size - (b.place + 1))).reverse =
      (pairSigns (l.output.take (l.size - (b.place + 1))).reverse).map Inline.recut := by
    rw [← pairSigns_recut, List.map_reverse, List.map_take]
    rfl
  have killed (os : List Bracket) :
      (os.map s.shiftBracket).map (fun o => if o.image then o else { o with dead := true }) =
        (os.map fun o => if o.image then o else { o with dead := true }).map s.shiftBracket := by
    rw [List.map_map, List.map_map]
    exact List.map_congr_left fun o _ => (apply_ite s.shiftBracket (o.image = true) o { o with dead := true }).symm
  unfold Linking.enclose
  dsimp only [Source.shiftLinking] at content ⊢
  rw [killed, ← apply_ite (List.map s.shiftBracket), List.map_cons, Inline.recut_element, ← content, List.map_drop]
  rfl

theorem dropTo_crlf (pieces : List Piece) (i : Nat) :
    dropTo (pieces.map s.shiftPiece) (s.shift i) = (dropTo pieces i).map s.shiftPiece := by
  unfold dropTo
  rw [List.dropWhile_map]
  have same : (fun p : Piece => decide (p.stop ≤ s.shift i)) ∘ s.shiftPiece = fun p => decide (p.stop ≤ i) := by
    funext p
    simp
  rw [same]
  cases pieces.dropWhile fun p => decide (p.stop ≤ i) with
  | nil => rfl
  | cons p rest => simp [Source.shiftPiece]

/-- A piece that is no break stands in one line. -/
theorem Source.HasPiece.line (h : s.HasPiece p) (soft : p.kind ≠ .softBreak) (hard : p.kind ≠ .hardBreak) :
    s.feeds p.stop = s.feeds p.start ∧ s.feeds (p.start + 1) = s.feeds p.start := by
  cases h with
  | inLine stop next => exact ⟨stop, next⟩
  | lineEnd kind => exact absurd kind (not_or.2 ⟨soft, hard⟩)

theorem dropWhile_crlf {f g : Piece → Bool} (same : ∀ p ∈ pieces, g (s.shiftPiece p) = f p) :
    (pieces.map s.shiftPiece).dropWhile g = (pieces.dropWhile f).map s.shiftPiece := by
  induction pieces with
  | nil => rfl
  | cons p pieces ih =>
    obtain ⟨here, rest⟩ := List.forall_mem_cons.1 same
    rw [List.map_cons, List.dropWhile_cons, List.dropWhile_cons, here, ih rest]
    split <;> rfl

section

variable [c.source.IsPlain]

theorem closeTicks_crlf {escaped : Bool} (here : c.source.HasPiece p) (kind : p.kind = .ticks escaped)
    (row : c.source.HasRow rest) :
    closeTicks c.crlf (c.source.shiftLinking l) (c.source.shiftPiece p) escaped (rest.map c.source.shiftPiece) =
      c.source.shiftState (closeTicks c l p escaped rest) := by
  have line := (here.line (by rw [kind]; nofun) (by rw [kind]; nofun)).1
  have chars : c.crlf.source.slice (c.source.shift p.start) (c.source.shift p.stop) =
      c.source.slice p.start p.stop := Source.slice_crlf_of_line line.symm
  have left {f : Piece → Bool} (same : ∀ q ∈ rest, f (c.source.shiftPiece q) = f q) :
      (rest.map c.source.shiftPiece).dropWhile f = (rest.dropWhile f).map c.source.shiftPiece := dropWhile_crlf same
  unfold closeTicks
  rw [start_shiftPiece, stop_shiftPiece, Source.shift_sub line.symm, chars]
  dsimp only
  generalize p.stop - p.start - (if escaped then 1 else 0) = count
  split
  · rfl
  · rw [left]
    rotate_left
    · intro q hq
      rw [kind_shiftPiece, start_shiftPiece, stop_shiftPiece]
      cases kind : q.kind with
      | ticks _ =>
        have line := ((row.piece q hq).line (by rw [kind]; nofun) (by rw [kind]; nofun)).1
        dsimp only
        rw [Source.shift_sub line.symm]
      | _ => rfl
    generalize rest.dropWhile _ = left
    cases left with
    | nil => rfl
    | cons q behind =>
      have code : codeChars c.crlf.source c.path c.inTable (c.source.shift q.start)
          (c.source.shift q.start - c.source.shift p.stop) (c.source.shift p.stop) =
            codeChars c.source c.path c.inTable q.start (q.start - p.stop) p.stop :=
        codeChars_crlf (by omega) (by omega)
      rw [List.map_cons]
      dsimp only [start_shiftPiece, InlineContext.crlf] at code ⊢
      rw [code]
      cases escaped <;> rfl

end

/-! ### Addresses -/

theorem feeds_hostEnd? (read : hostEnd? s n i = some j) : s.feeds j = s.feeds i := by
  induction n generalizing i with
  | zero => cases read
  | succ n ih =>
    have name := Source.feeds_skip (s := s) (p := fun c => isBasicAlphanumeric c || c = '-') rfl i
    rw [hostEnd?] at read
    split at read
    · cases read
    · split at read
      next dot => exact (ih read).trans ((Source.feeds_of_isAt dot (by decide)).trans name)
      next => exact Option.some.inj read ▸ name

/-- An address ends with an angle bracket, in its line. -/
theorem of_autolinkEnd? (read : autolinkEnd? s i = some j) :
    ∃ k, j = k + 1 ∧ s.char? k = some '>' ∧ s.feeds k = s.feeds i := by
  rw [autolinkEnd?, Option.or_eq_some_iff] at read
  rcases read with read | ⟨-, read⟩
  · unfold uriEnd? at read
    dsimp only at read
    split at read
    · split at read
      next colon =>
        obtain ⟨close, read⟩ := Option.ite_none_right_eq_some.1 read
        simp only [Bool.and_eq_true] at colon
        refine ⟨_, (Option.some.inj read).symm, of_decide_eq_true close, ?_⟩
        rw [Source.feeds_skip rfl, Source.feeds_of_isAt colon.1.1 (by decide), Source.feeds_skip rfl]
      next => cases read
    · cases read
  · unfold mailEnd? at read
    dsimp only at read
    split at read
    next sign =>
      cases host : hostEnd? s (s.stop - s.skip isMailChar i) (s.skip isMailChar i + 1) with
      | none =>
        rw [host] at read
        cases read
      | some stop =>
        rw [host] at read
        obtain ⟨close, read⟩ := Option.ite_none_right_eq_some.1 read
        refine ⟨stop, (Option.some.inj read).symm, of_decide_eq_true close, ?_⟩
        rw [feeds_hostEnd? host, Source.feeds_of_isAt (Bool.and_eq_true_iff.1 sign).2 (by decide),
          Source.feeds_skip (by decide)]
    next => cases read

section

variable [c.source.IsPlain]

theorem closeAngle_crlf (here : c.source.HasPiece p) (kind : p.kind = .angle) (row : c.source.HasRow (p :: rest)) :
    closeAngle c.crlf (c.source.shiftLinking l) (c.source.shiftPiece p) (rest.map c.source.shiftPiece) =
      c.source.shiftState (closeAngle c l p rest) := by
  obtain ⟨line, next⟩ := here.line (by rw [kind]; nofun) (by rw [kind]; nofun)
  unfold closeAngle
  cases rest with
  | nil => rfl
  | cons q more =>
    have adjacent : c.source.feeds q.start = c.source.feeds p.stop := (List.isChain_cons.1 row.chain).1 q rfl
    have front : 0 < q.start ∨ c.source.feeds (q.start + 1) = c.source.feeds q.start := by
      cases row.piece q (by simp) with
      | inLine _ next => exact .inr next
      | lineEnd _ front => exact front
    have address : autolinkEnd? c.crlf.source (c.source.shift q.start) =
        (autolinkEnd? c.source q.start).map c.source.shift := autolinkEnd?_crlf q.start
    have html : inlineHtml? c.crlf.source (skipMargin c.crlf.source c.crlf.path) (c.source.shift q.start) =
        (inlineHtml? c.source (skipMargin c.source c.path) q.start).map c.source.shiftScan :=
      inlineHtml?_crlf (skips_skipMargin c.source c.path) front
    rw [List.map_cons]
    dsimp only
    rw [start_shiftPiece, address, html]
    cases read : autolinkEnd? c.source q.start with
    | some stop =>
      obtain ⟨k, rfl, close, same⟩ := of_autolinkEnd? read
      have chars : c.crlf.source.slice (c.source.shift p.start + 1) (c.source.shift (k + 1) - 1) =
          c.source.slice (p.start + 1) (k + 1 - 1) := by
        rw [← Source.shift_add next, Source.shift_add (Source.feeds_of_char close (by decide)), Nat.add_sub_cancel,
          Nat.add_sub_cancel]
        exact Source.slice_crlf_of_line (next.trans (line.symm.trans (adjacent.symm.trans same.symm)))
      dsimp only [Option.map_some, start_shiftPiece]
      rw [chars, ← List.map_cons, dropTo_crlf]
      rfl
    | none =>
      cases inlineHtml? c.source (skipMargin c.source c.path) q.start with
      | none => rfl
      | some t =>
        have text : (c.source.shiftScan t).text c.crlf.source (c.source.shift p.start) =
            withReturns (t.text c.source p.start) := text_shiftScan p.start
        dsimp only [Option.map_some, Option.map_none, start_shiftPiece, place_shiftScan]
        rw [text, ← List.map_cons, dropTo_crlf]
        rfl

end

/-! ### Brackets -/

/-- The labels that have definitions are in one line. -/
def InlineContext.IsKnown (c : InlineContext) : Prop := ∀ label ∈ c.labels, IsOneLine label

theorem contains_of_not_isOneLine (known : c.IsKnown) {label : List Char} (h : ¬ IsOneLine label) :
    c.labels.contains label = false := by
  simpa using fun mem => h (known label mem)

/-- What two references refer to, without carriage returns and with them: both labels have a definition, or none. -/
inductive InlineContext.SameReference (c : InlineContext) : Reference → Reference → Prop
  | missing : SameReference c .missing .missing
  | collapsed (rest : List Piece) : SameReference c (.collapsed rest) (.collapsed (rest.map c.source.shiftPiece))
  | full {label label' : List Char} (h : c.labels.contains label' = c.labels.contains label) (stop : Nat) :
    SameReference c (.full label stop) (.full label' (c.source.shift stop))

/-- A label ends with a bracket. -/
theorem of_referenceLabel? {label : List Char} (read : referenceLabel? s path i = some (label, j)) :
    ∃ k, j = k + 1 ∧ s.char? k = some ']' := by
  have ahead (i j : Nat) (h : some (skipMargin s path i) = some j) : i ≤ j ∧ s.IsClear i j :=
    Option.some.inj h ▸ ⟨Margin.le_place_ofLine path i, .ofLine s path i⟩
  obtain ⟨-, read⟩ := Option.ite_none_right_eq_some.1 read
  rw [label?] at read
  obtain ⟨⟨_, _⟩, found, heq⟩ := Option.map_eq_some_iff.1 read
  obtain ⟨-, rfl⟩ := Prod.mk.inj heq
  obtain ⟨k, stop, -, close, -⟩ := stop_of_labelFrom? ahead found
  exact ⟨k, stop, close⟩

theorem of_reference {label : List Char} (found : reference c rest = .full label j) :
    ∃ k, j = k + 1 ∧ c.source.char? k = some ']' := by
  unfold reference at found
  split at found
  · cases found
  · split at found
    · cases found
    · split at found
      next read =>
        obtain ⟨rfl, rfl⟩ := Reference.full.inj found
        exact of_referenceLabel? read
      · cases found

/-- The pieces in front of the bracket that ends a label are the same ones. -/
theorem decide_stop_le_of_reference {label : List Char} {stop : Nat} (found : reference c rest = .full label stop)
    (q : Piece) : decide ((c.source.shiftPiece q).stop ≤ c.source.shift stop - 1) = decide (q.stop ≤ stop - 1) := by
  obtain ⟨k, rfl, close⟩ := of_reference found
  rw [Source.shift_add (Source.feeds_of_char close (by decide)), Nat.add_sub_cancel, Nat.add_sub_cancel,
    stop_shiftPiece, decide_eq_decide, Source.shift_le_iff]

section

variable [c.source.IsPlain]

theorem reference_crlf (h : c.source.HasPlainLabels) (known : c.IsKnown) :
    c.SameReference (reference c rest) (reference c.crlf (rest.map c.source.shiftPiece)) := by
  cases rest with
  | nil => exact .missing
  | cons p more =>
    have brackets : c.crlf.source.startsWith (c.source.shift p.start) ['[', ']'] =
        c.source.startsWith p.start ['[', ']'] := Source.startsWith_crlf (by decide) (by decide)
    have label : c.source.SameLabel (referenceLabel? c.source c.path p.start)
        (referenceLabel? c.crlf.source c.crlf.path (c.source.shift p.start)) := sameLabel_referenceLabel? h c.path p.start
    rw [List.map_cons, reference, reference, start_shiftPiece, brackets]
    split
    · rw [← List.map_drop]
      exact .collapsed _
    · generalize referenceLabel? c.source c.path p.start = r,
        referenceLabel? c.crlf.source c.crlf.path (c.source.shift p.start) = r' at label
      cases label with
      | missing => exact .missing
      | same label j => exact .full rfl j
      | other many many' j =>
        exact .full ((contains_of_not_isOneLine known many').trans (contains_of_not_isOneLine known many).symm) j

theorem ownLabel?_crlf (h : c.source.HasPlainLabels) (known : c.IsKnown) (b : Bracket) (stop : Nat) :
    (ownLabel? c.crlf (c.source.shiftBracket b) (c.source.shift stop)).any c.labels.contains =
      (ownLabel? c b stop).any c.labels.contains := by
  have label : (c.source.upTo stop).SameLabel (referenceLabel? (c.source.upTo stop) c.path b.start)
      (referenceLabel? (c.crlf.source.upTo (c.source.shift stop)) c.crlf.path (c.source.shift b.start)) := by
    rw [InlineContext.crlf, Source.upTo_crlf]
    exact sameLabel_referenceLabel? (s := c.source.upTo stop) (h.upTo stop) c.path b.start
  rw [ownLabel?, ownLabel?, show (c.source.shiftBracket b).start = c.source.shift b.start from rfl]
  generalize referenceLabel? (c.source.upTo stop) c.path b.start = r,
    referenceLabel? (c.crlf.source.upTo (c.source.shift stop)) c.crlf.path (c.source.shift b.start) = r' at label
  cases label with
  | missing => rfl
  | same label j =>
    simp only [Source.shift_upTo, Source.shift_inj]
  | other many many' j =>
    simp only [Source.shift_upTo, Source.shift_inj]
    split
    · exact (contains_of_not_isOneLine known many').trans (contains_of_not_isOneLine known many).symm
    · rfl

omit [c.source.IsPlain] in
/-- What is done with a label depends only on whether it has a definition. -/
theorem elim_contains {α : Type} (labels : List (List Char)) (label : Option (List Char)) (linked plain : α) :
    label.elim plain (fun label => if labels.contains label then linked else plain) =
      if label.any labels.contains then linked else plain := by
  cases label <;> rfl

omit [c.source.IsPlain] in
theorem elim_contains_congr {α β : Type} {labels : List (List Char)} {label label' : Option (List Char)}
    (same : label'.any labels.contains = label.any labels.contains) (f : α → β) (linked plain : α) :
    label'.elim (f plain) (fun label' => if labels.contains label' then f linked else f plain) =
      f (label.elim plain fun label => if labels.contains label then linked else plain) := by
  rw [elim_contains, elim_contains, same, apply_ite f]

theorem stale_shiftPiece (p : Piece) : s.shiftPiece (stale p) = stale (s.shiftPiece p) := by
  obtain ⟨start, stop, kind⟩ := p
  cases kind <;> rfl

theorem closeBracket_crlf (h : c.source.HasPlainLabels) (known : c.IsKnown) (fresh : Bool) :
    closeBracket c.crlf (c.source.shiftLinking l) (c.source.shiftPiece p) fresh (rest.map c.source.shiftPiece) =
      c.source.shiftState (closeBracket c l p fresh rest) := by
  have opens : (c.source.shiftLinking l).brackets = l.brackets.map c.source.shiftBracket := rfl
  unfold closeBracket
  rw [opens]
  dsimp only
  cases l.brackets with
  | nil => rfl
  | cons b brackets =>
    have enclosed : ({ c.source.shiftLinking l with brackets := brackets.map c.source.shiftBracket } :
        Linking).enclose (c.source.shiftBracket b) =
          c.source.shiftLinking (({ l with brackets } : Linking).enclose b) :=
      enclose_crlf (l := { l with brackets }) b
    have stop : inlineLinkEnd? c.crlf.source c.crlf.path (c.source.shiftPiece p).stop =
        (inlineLinkEnd? c.source c.path p.stop).map c.source.shift := inlineLinkEnd?_crlf c.path p.stop
    have dead : (c.source.shiftBracket b).dead = b.dead := rfl
    rw [List.map_cons]
    dsimp only
    rw [enclosed, stop, dead]
    split
    · rfl
    · cases inlineLinkEnd? c.source c.path p.stop with
      | some stop =>
        dsimp only [Option.map_some]
        rw [dropTo_crlf]
        rfl
      | none =>
        dsimp only [Option.map_none]
        have same : c.SameReference (reference c rest) (reference c.crlf (rest.map c.source.shiftPiece)) :=
          reference_crlf h known
        have before {label : List Char} {stop : Nat} (found : reference c rest = .full label stop) :=
          decide_stop_le_of_reference found
        generalize reference c rest = r,
          reference c.crlf (rest.map c.source.shiftPiece) = r' at same before
        have resolved (behind : List Piece) := elim_contains_congr (ownLabel?_crlf h known b p.stop) c.source.shiftState
          (({ l with brackets } : Linking).enclose b, behind) ({ l.emit (.text [']']) with brackets }, rest)
        rw [stop_shiftPiece]
        generalize ownLabel? c b p.stop = label, ownLabel? c.crlf _ _ = label' at resolved
        cases same with
        | @full label label' alike stop =>
          have before := before rfl
          dsimp only
          have inside : (fun q : Piece => decide (q.stop ≤ c.source.shift stop - 1)) ∘ c.source.shiftPiece =
              fun q => decide (q.stop ≤ stop - 1) := funext before
          rw [dropWhile_crlf fun q _ => before q, List.takeWhile_map, inside]
          generalize rest.dropWhile _ = left
          cases left with
          | nil => rfl
          | cons q behind =>
            have alike : (some label').any c.labels.contains = (some label).any c.labels.contains := alike
            have others := elim_contains_congr alike c.source.shiftState (({ l with brackets } : Linking).enclose b, behind)
              ({ l.emit (.text [']']) with brackets }, rest.takeWhile (·.stop ≤ stop - 1) ++ stale q :: behind)
            rw [Source.shiftState, Source.shiftState, List.map_append, List.map_cons, stale_shiftPiece] at others
            exact others
        | collapsed behind =>
          dsimp only
          split
          · cases label <;> cases label' <;> exact resolved behind
          · rfl
        | missing =>
          dsimp only
          split
          · cases label <;> cases label' <;> exact resolved rest
          · rfl

/-- **Settling a piece goes to where its state comes to stand.** -/
theorem linkStep_crlf (h : c.source.HasPlainLabels) (known : c.IsKnown) (row : c.source.HasRow (p :: rest)) :
    linkStep c.crlf (c.source.shiftLinking l) (c.source.shiftPiece p) (rest.map c.source.shiftPiece) =
      c.source.shiftState (linkStep c l p rest) := by
  have here := row.piece p List.mem_cons_self
  have chars (soft : p.kind ≠ .softBreak) (hard : p.kind ≠ .hardBreak) :
      c.crlf.source.slice (c.source.shift p.start) (c.source.shift p.stop) = c.source.slice p.start p.stop :=
    Source.slice_crlf_of_line (here.line soft hard).1.symm
  unfold linkStep
  dsimp only
  rw [kind_shiftPiece, start_shiftPiece, stop_shiftPiece]
  cases kind : p.kind with
  | text =>
    dsimp only
    rw [chars (by rw [kind]; nofun) (by rw [kind]; nofun)]
    rfl
  | run opens closes =>
    have line := (here.line (by rw [kind]; nofun) (by rw [kind]; nofun)).1
    dsimp only
    rw [chars (by rw [kind]; nofun) (by rw [kind]; nofun), Source.shift_sub line.symm]
    rfl
  | linkOpen =>
    dsimp only
    rw [chars (by rw [kind]; nofun) (by rw [kind]; nofun)]
    rfl
  | imageOpen =>
    have next := (here.line (by rw [kind]; nofun) (by rw [kind]; nofun)).2
    dsimp only
    rw [chars (by rw [kind]; nofun) (by rw [kind]; nofun), ← Source.shift_add next]
    rfl
  | ticks escaped => exact closeTicks_crlf here kind row.tail
  | angle => exact closeAngle_crlf here kind row
  | linkClose fresh => exact closeBracket_crlf h known fresh
  | entity | softBreak | hardBreak => rfl

theorem linkPieces_crlf (h : c.source.HasPlainLabels) (known : c.IsKnown) (row : c.source.HasRow pieces) (n : Nat)
    (l : Linking) :
    linkPieces c.crlf n (c.source.shiftLinking l) (pieces.map c.source.shiftPiece) =
      c.source.shiftLinking (linkPieces c n l pieces) := by
  induction n generalizing l pieces with
  | zero => rfl
  | succ n ih =>
    cases pieces with
    | nil => rfl
    | cons p rest =>
      rw [List.map_cons, linkPieces, linkPieces, linkStep_crlf h known row]
      exact ih row.tail.linkStep _

/-- **Pieces settle to the same elements, apart from the line ends in HTML.** -/
theorem settle_crlf (h : c.source.HasPlainLabels) (known : c.IsKnown) (row : c.source.HasRow pieces) :
    settle c.crlf (pieces.map c.source.shiftPiece) = (settle c pieces).map Inline.recut := by
  have linked : linkPieces c.crlf (pieces.length + 1) ⟨[], 0, []⟩ (pieces.map c.source.shiftPiece) =
      c.source.shiftLinking (linkPieces c (pieces.length + 1) ⟨[], 0, []⟩ pieces) :=
    linkPieces_crlf h known row _ ⟨[], 0, []⟩
  rw [settle, settle, List.length_map, linked, ← pairSigns_recut, List.map_reverse]
  rfl

end

/-! ### Plain text -/

theorem text_subset (s : Source) (start : Nat) (t : TagScan) : t.text s start ⊆ s.chars.toList := by
  have cut (cuts : List (Nat × Nat)) (acc : List Char × Nat) (h : acc.1 ⊆ s.chars.toList) :
      (cuts.foldl (fun acc cut => (acc.1 ++ s.slice acc.2 cut.1, cut.2)) acc).1 ⊆ s.chars.toList := by
    induction cuts generalizing acc with
    | nil => exact h
    | cons cut cuts ih => exact ih _ (List.append_subset.2 ⟨h, s.slice_subset ..⟩)
  exact List.append_subset.2 ⟨cut t.cuts ([], start) (List.nil_subset _), s.slice_subset ..⟩

/-- There is no carriage return in HTML if there is none in the text. -/
theorem isPlain_of_mem_settle [h : c.source.IsPlain] (pieces : List Piece) :
    ∀ e ∈ inlinesEvents (settle c pieces), e.IsPlain := by
  have law : HoldsOfEvents c (fun _ => True) Event.IsPlain :=
    { start := fun _ => .other fun _ => ⟨nofun, nofun⟩
      stop := fun _ => .other fun _ => ⟨nofun, nofun⟩
      text := fun _ => .other fun _ => ⟨nofun, nofun⟩
      code := fun _ => .other fun _ => ⟨nofun, nofun⟩
      softBreak := fun _ _ => .other fun _ => ⟨nofun, nofun⟩
      hardBreak := fun _ _ => .other fun _ => ⟨nofun, nofun⟩
      html := fun _ _ _ _ => .inlineHtml fun mem => h.notMem (text_subset c.source _ _ mem)
      cut := fun _ _ => trivial
      stale := fun _ => trivial }
  exact law.settle fun _ _ => trivial

end PublisherConsole.Markdown
