import PublisherConsole.Markdown.Stream

/-!
# What holds of the elements of a paragraph

The pieces of a paragraph are settled from left to right, and links and emphasis enclose what was put
out before. `HoldsOfInlines` says what has to be shown so that something holds of all elements that
come out, at any depth: that it holds of what single pieces come to, and of an element if it holds of
its content. Pieces may be cut off at their front on the way, so that what is asked of them has to
bear that.

The main statement is `HoldsOfInlines.settle`. It rests on what one closing run, one bracket and one
piece keep. `HoldsOfEvents.settle` is what follows for the events of the elements.
-/

namespace PublisherConsole.Markdown

/-- The elements that settling may enclose others in. -/
inductive Tag.IsInline : Tag → Prop
  | emphasis : IsInline .emphasis
  | strong : IsInline .strong
  | strikethrough : IsInline .strikethrough
  | link : IsInline .link
  | image : IsInline .image

theorem Pairing.isInline_tag (sign : Char) (double : Bool) : (Pairing.tag sign double).IsInline := by
  unfold Pairing.tag
  split
  · exact .strikethrough
  · split
    · exact .strong
    · exact .emphasis

/-- What holds of every element that pieces come to. -/
structure HoldsOfInlines (c : InlineContext) (q : Piece → Prop) (p : Inline → Prop) : Prop where
  text (cs : List Char) : p (.text cs)
  code (cs : List Char) : p (.code cs)
  run (sign : Char) (count : Nat) (opens closes : Bool) : p (.run sign count opens closes)
  softBreak {piece : Piece} (h : q piece) (kind : piece.kind = .softBreak) : p .softBreak
  hardBreak {piece : Piece} (h : q piece) (kind : piece.kind = .hardBreak) : p .hardBreak
  html {piece next : Piece} (h : q piece) (h' : q next) {t : TagScan}
    (read : inlineHtml? c.source (skipMargin c.source c.path) next.start = some t) :
    p (.html (t.text c.source piece.start))
  element {tag : Tag} {content : List Inline} (inline : tag.IsInline) (h : ∀ i ∈ content, p i) :
    p (.element tag content)
  cut {piece : Piece} (h : q piece) (i : Nat) : q { piece with start := max piece.start i }
  stale {piece : Piece} (h : q piece) : q (stale piece)

namespace HoldsOfInlines

variable {c : InlineContext} {q : Piece → Prop} {p : Inline → Prop}

/-! ### Emphasis -/

section Emphasis

variable {output : Pairing}

theorem forall_mem_emit {e : Inline} (h : ∀ i ∈ output.output, p i) (he : p e) :
    ∀ i ∈ (output.emit e).output, p i := List.forall_mem_cons.2 ⟨he, h⟩

variable (law : HoldsOfInlines c q p)

include law

theorem forall_mem_emitSigns (h : ∀ i ∈ output.output, p i) (sign : Char) (n : Nat) :
    ∀ i ∈ (output.emitSigns sign n).output, p i := by
  induction n generalizing output with
  | zero => exact h
  | succ n ih => exact ih (forall_mem_emit h (law.text _))

theorem forall_mem_wrap (sign : Char) (n : Nat) {content : List Inline} (h : ∀ i ∈ content, p i) :
    ∀ i ∈ Pairing.wrap sign n content, p i := by
  have one (double : Bool) {content : List Inline} (h : ∀ i ∈ content, p i) :
      ∀ i ∈ [Inline.element (Pairing.tag sign double) content], p i :=
    List.forall_mem_singleton.2 (law.element (Pairing.isInline_tag sign double) h)
  fun_induction Pairing.wrap sign n content with
  | case1 content => exact h
  | case2 content => exact one false h
  | case3 n content ih => exact ih (one true h)

theorem forall_mem_pair (h : ∀ i ∈ output.output, p i) (o : Opener) (outer : List Opener)
    (sign : Char) (count : Nat) : ∀ i ∈ (output.pair o outer sign count).output, p i := by
  have content (n : Nat) : ∀ i ∈ (output.output.take n).reverse, p i := fun i hi =>
    h i (List.mem_of_mem_take (List.mem_reverse.1 hi))
  intro i hi
  rcases List.mem_append.1 hi with hi | hi
  · exact law.forall_mem_wrap sign _ (content _) i (List.mem_reverse.1 hi)
  · exact h i (List.mem_of_mem_drop hi)

theorem forall_mem_closeRun (h : ∀ i ∈ output.output, p i) (sign : Char) (runLength : Nat)
    (both : Bool) (fuel count : Nat) :
    ∀ i ∈ (Pairing.closeRun sign runLength both fuel count output).2.output, p i := by
  induction fuel generalizing output count with
  | zero => exact h
  | succ fuel ih =>
    rw [Pairing.closeRun]
    split
    · exact h
    · split
      · exact h
      · exact ih (law.forall_mem_pair h _ _ _ _) _

theorem forall_mem_step (h : ∀ i ∈ output.output, p i) {e : Inline} (he : p e) :
    ∀ i ∈ (output.step e).output, p i := by
  cases e with
  | run sign count opens closes =>
    -- What is left of a closing run is put out as text, and may open.
    have closed : ∀ i ∈ (if closes then Pairing.closeRun sign count (opens && closes) count count output
        else (count, output)).2.output, p i := by
      split
      · exact law.forall_mem_closeRun h _ _ _ _ _
      · exact h
    unfold Pairing.step
    dsimp only
    generalize (if closes then Pairing.closeRun sign count (opens && closes) count count output
      else (count, output)) = left at closed
    have signs := law.forall_mem_emitSigns closed sign left.1
    split <;> exact signs
  | _ => exact forall_mem_emit h he

/-- It holds of what is left when signs have been paired. -/
theorem pairSigns {es : List Inline} (h : ∀ i ∈ es, p i) : ∀ i ∈ pairSigns es, p i := by
  have fold (output : Pairing) (h' : ∀ i ∈ output.output, p i) :
      ∀ i ∈ (es.foldl Pairing.step output).output, p i := by
    induction es generalizing output with
    | nil => exact h'
    | cons e es ih =>
      obtain ⟨here, rest⟩ := List.forall_mem_cons.1 h
      exact ih rest _ (law.forall_mem_step h' here)
  exact fun i hi => fold .start nofun i (List.mem_reverse.1 hi)

end Emphasis

/-! ### Links -/

section Links

variable {l : Linking} {piece : Piece} {rest : List Piece}

/-- It holds of what was put out, and what is asked of the pieces holds of those behind. -/
def Bears (q : Piece → Prop) (p : Inline → Prop) (state : Linking × List Piece) : Prop :=
  (∀ i ∈ state.1.output, p i) ∧ ∀ piece ∈ state.2, q piece

variable (law : HoldsOfInlines c q p)

include law

theorem forall_mem_enclose (h : ∀ i ∈ l.output, p i) (b : Bracket) :
    ∀ i ∈ (l.enclose b).output, p i := by
  have content : ∀ i ∈ (l.output.take (l.size - (b.place + 1))).reverse, p i := fun i hi =>
    h i (List.mem_of_mem_take (List.mem_reverse.1 hi))
  refine List.forall_mem_cons.2 ⟨law.element ?_ (law.pairSigns content), fun i hi =>
    h i (List.mem_of_mem_drop hi)⟩
  cases b.image
  · exact .link
  · exact .image

theorem forall_mem_dropTo (h : ∀ piece ∈ rest, q piece) (i : Nat) :
    ∀ piece ∈ dropTo rest i, q piece := by
  unfold dropTo
  split
  next => exact nofun
  next first more left =>
    have kept : ∀ piece ∈ first :: more, q piece := fun piece hp =>
      h piece ((List.dropWhile_suffix _).mem (left ▸ hp))
    obtain ⟨here, behind⟩ := List.forall_mem_cons.1 kept
    exact List.forall_mem_cons.2 ⟨law.cut here i, behind⟩

omit law in
/-- What follows a reference is among the pieces behind the bracket. -/
theorem forall_mem_of_collapsed {behind : List Piece} (h : ∀ piece ∈ rest, q piece)
    (found : reference c rest = .collapsed behind) : ∀ piece ∈ behind, q piece := by
  unfold reference at found
  split at found
  next => cases found
  next first more =>
    split at found
    next =>
      obtain rfl := Reference.collapsed.inj found
      exact fun piece hp => h piece (List.mem_cons_of_mem _ (List.mem_of_mem_drop hp))
    next => split at found <;> cases found

theorem closeBracket (h : Bears q p (l, rest)) (fresh : Bool) :
    Bears q p (closeBracket c l piece fresh rest) := by
  obtain ⟨out, behind⟩ := h
  have plain : ∀ i ∈ (l.emit (.text [']'])).output, p i := List.forall_mem_cons.2 ⟨law.text _, out⟩
  unfold Markdown.closeBracket
  dsimp only
  split
  next => exact ⟨plain, behind⟩
  next b brackets _ =>
    have enclosed : ∀ i ∈ (({ l with brackets } : Linking).enclose b).output, p i :=
      law.forall_mem_enclose (l := { l with brackets }) out b
    -- A bracket is enclosed with some pieces left, or stands for itself.
    have resolved {pieces pieces' : List Piece} (h : ∀ piece ∈ pieces, q piece)
        (h' : ∀ piece ∈ pieces', q piece) (label : List Char) :
        Bears q p (if c.labels.contains label then (({ l with brackets } : Linking).enclose b, pieces)
          else ({ l.emit (.text [']']) with brackets }, pieces')) := by
      split
      · exact ⟨enclosed, h⟩
      · exact ⟨plain, h'⟩
    split
    · exact ⟨plain, behind⟩
    · split
      next stop _ => exact ⟨enclosed, law.forall_mem_dropTo behind stop⟩
      next =>
        split
        next label stop _ =>
          split
          next => exact ⟨plain, behind⟩
          next first more left =>
            have kept : ∀ piece ∈ first :: more, q piece := fun piece hp =>
              behind piece ((List.dropWhile_suffix _).mem (left ▸ hp))
            obtain ⟨here, others⟩ := List.forall_mem_cons.1 kept
            refine resolved others (fun piece hp => ?_) label
            rcases List.mem_append.1 hp with hp | hp
            · exact behind piece ((List.takeWhile_prefix _).mem hp)
            · exact List.forall_mem_cons.2 ⟨law.stale here, others⟩ piece hp
        next others found =>
          split
          · split
            · exact ⟨plain, behind⟩
            · exact resolved (forall_mem_of_collapsed behind found) behind _
          · exact ⟨plain, behind⟩
        next =>
          split
          · split
            · exact ⟨plain, behind⟩
            · exact resolved behind behind _
          · exact ⟨plain, behind⟩

theorem closeTicks (h : Bears q p (l, rest)) (escaped : Bool) :
    Bears q p (closeTicks c l piece escaped rest) := by
  obtain ⟨out, behind⟩ := h
  have plain (cs : List Char) : ∀ i ∈ (l.emit (.text cs)).output, p i :=
    List.forall_mem_cons.2 ⟨law.text _, out⟩
  unfold Markdown.closeTicks
  dsimp only
  generalize piece.stop - piece.start - (if escaped then 1 else 0) = count
  split
  · exact ⟨plain _, behind⟩
  · split
    next => exact ⟨plain _, behind⟩
    next first more left =>
      refine ⟨List.forall_mem_cons.2 ⟨law.code _, ?_⟩, fun piece hp =>
        behind piece ((List.dropWhile_suffix _).mem (left ▸ List.mem_cons_of_mem _ hp))⟩
      cases escaped
      · exact out
      · exact plain _

theorem closeAngle (h : Bears q p (l, rest)) (hp : q piece) :
    Bears q p (closeAngle c l piece rest) := by
  obtain ⟨out, behind⟩ := h
  have put {e : Inline} (he : p e) : ∀ i ∈ (l.emit e).output, p i := List.forall_mem_cons.2 ⟨he, out⟩
  unfold Markdown.closeAngle
  dsimp only
  split
  next => exact ⟨put (law.text _), behind⟩
  next next more =>
    split
    next stop _ =>
      have address := law.element .link (List.forall_mem_singleton.2
        (law.text (c.source.slice (piece.start + 1) (stop - 1))))
      exact ⟨put address, law.forall_mem_dropTo behind stop⟩
    next =>
      split
      next t read =>
        exact ⟨put (law.html hp (behind next List.mem_cons_self) read),
          law.forall_mem_dropTo behind t.place⟩
      next => exact ⟨put (law.text _), behind⟩

/-- **Settling a piece keeps what holds of all elements.** -/
theorem linkStep (h : Bears q p (l, rest)) (hp : q piece) : Bears q p (linkStep c l piece rest) := by
  have put {e : Inline} (he : p e) : Bears q p (l.emit e, rest) :=
    ⟨List.forall_mem_cons.2 ⟨he, h.1⟩, h.2⟩
  unfold Markdown.linkStep
  dsimp only
  split
  next => exact put (law.text _)
  next => exact put (law.text _)
  next kind => exact put (law.softBreak hp kind)
  next kind => exact put (law.hardBreak hp kind)
  next => exact put (law.run _ _ _ _)
  next => exact law.closeTicks h _
  next => exact law.closeAngle h hp
  next => exact ⟨(put (law.text _)).1, h.2⟩
  next => exact ⟨(put (law.text _)).1, h.2⟩
  next => exact law.closeBracket h _

theorem linkPieces (h : Bears q p (l, rest)) (fuel : Nat) :
    ∀ i ∈ (linkPieces c fuel l rest).output, p i := by
  induction fuel generalizing l rest with
  | zero => exact h.1
  | succ fuel ih =>
    cases rest with
    | nil => exact h.1
    | cons piece rest =>
      obtain ⟨here, behind⟩ := List.forall_mem_cons.1 h.2
      rw [Markdown.linkPieces]
      exact ih (law.linkStep ⟨h.1, behind⟩ here)

/-- It holds of all elements that pieces come to. -/
theorem settle {pieces : List Piece} (h : ∀ piece ∈ pieces, q piece) :
    ∀ i ∈ settle c pieces, p i :=
  law.pairSigns fun i hi => law.linkPieces (l := ⟨[], 0, []⟩) ⟨nofun, h⟩ _ i (List.mem_reverse.1 hi)

end Links

end HoldsOfInlines

/-! ### Events -/

/-- What holds of every event of the elements that pieces come to. -/
structure HoldsOfEvents (c : InlineContext) (q : Piece → Prop) (p : Event → Prop) : Prop where
  start {tag : Tag} (h : tag.IsInline) : p (.start tag)
  stop {tag : Tag} (h : tag.IsInline) : p (.stop tag)
  text (s : String) : p (.text s)
  code (s : String) : p (.code s)
  softBreak {piece : Piece} (h : q piece) (kind : piece.kind = .softBreak) : p .softBreak
  hardBreak {piece : Piece} (h : q piece) (kind : piece.kind = .hardBreak) : p .hardBreak
  html {piece next : Piece} (h : q piece) (h' : q next) {t : TagScan}
    (read : inlineHtml? c.source (skipMargin c.source c.path) next.start = some t) :
    p (.inlineHtml (String.ofList (t.text c.source piece.start)))
  cut {piece : Piece} (h : q piece) (i : Nat) : q { piece with start := max piece.start i }
  stale {piece : Piece} (h : q piece) : q (stale piece)

theorem forall_mem_inlinesEvents {p : Event → Prop} {content : List Inline}
    (h : ∀ i ∈ content, ∀ e ∈ inlineEvents i, p e) : ∀ e ∈ inlinesEvents content, p e := by
  induction content with
  | nil => simp [inlinesEvents]
  | cons i content ih =>
    obtain ⟨here, rest⟩ := List.forall_mem_cons.1 h
    rw [inlinesEvents]
    exact fun e he => (List.mem_append.1 he).elim (here e) (ih rest e)

namespace HoldsOfEvents

variable {c : InlineContext} {q : Piece → Prop} {p : Event → Prop}

theorem holdsOfInlines (law : HoldsOfEvents c q p) :
    HoldsOfInlines c q fun i => ∀ e ∈ inlineEvents i, p e where
  text cs := List.forall_mem_singleton.2 (law.text _)
  code cs := List.forall_mem_singleton.2 (law.code _)
  run sign count _ _ e he := by
    rw [List.eq_of_mem_replicate he]
    exact law.text _
  softBreak h kind := List.forall_mem_singleton.2 (law.softBreak h kind)
  hardBreak h kind := List.forall_mem_singleton.2 (law.hardBreak h kind)
  html h h' _ read := List.forall_mem_singleton.2 (law.html h h' read)
  element inline h e he := by
    rw [inlineEvents, List.cons_append] at he
    rcases List.mem_cons.1 he with rfl | he
    · exact law.start inline
    · rcases List.mem_append.1 he with he | he
      · exact forall_mem_inlinesEvents h e he
      · obtain rfl := List.mem_singleton.1 he
        exact law.stop inline
  cut := law.cut
  stale := law.stale

/-- It holds of all events of the elements that pieces come to. -/
theorem settle (law : HoldsOfEvents c q p) {pieces : List Piece} (h : ∀ piece ∈ pieces, q piece) :
    ∀ e ∈ inlinesEvents (settle c pieces), p e :=
  forall_mem_inlinesEvents (law.holdsOfInlines.settle h)

end HoldsOfEvents

end PublisherConsole.Markdown
