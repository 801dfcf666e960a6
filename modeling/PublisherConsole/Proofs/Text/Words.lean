import Mathlib.Data.List.TakeWhile
import Mathlib.Tactic
import PublisherConsole.Text.Words

/-!
# What a row of text is divided into

A row is divided three times: into words where a line may end, each word at its hyphens, and each
part that is too wide once more. The text is never changed by it.

* `tokens_chars`: the tokens of a text put together are the text;
* `Parted` says of the flags for word starts that none stands between two blanks; it holds of those
  of a text (`parted_wordStarts`), as no line ends between two blanks;
* `Divides`: the words put together are the text, none is without characters, and behind the blanks
  of a word there is no other blank. `divides_words` says it of the words, `Divides.refine` keeps it
  when words are divided further, and `divides_fragments` is the outcome;
* `fragments_spec`: in a row without escape sequences every word takes the cells of its characters
  together, also when it is a part of a longer word, and it fits into a line if each of them does.
-/

namespace PublisherConsole

/-! ### Where a line may end -/

namespace Unicode

@[simp] theorem breakClass_blank : breakClass ' ' = .sp := rfl

/-- No line ends between two blanks. -/
theorem not_allows_blank {s : BreakContext} (h : s.last = .sp) : s.allows .sp = false := by
  simp [BreakContext.allows, h]

@[simp] theorem last_after_blank (s : BreakContext) : (s.after .sp).last = .sp := by
  simp [BreakContext.after]

@[simp] theorem last_start_blank : (BreakContext.start .sp).last = .sp := by
  simp [BreakContext.start]

@[simp] theorem length_breaksFrom (s : BreakContext) (cs : List Char) :
    (breaksFrom s cs).length = cs.length := by
  induction cs generalizing s with
  | nil => rfl
  | cons c cs ih => simp [breaksFrom, ih]

end Unicode

namespace Text

/-! ### Tokens -/

section Tokens

variable {s : EscapeState} {pending cs : List Char}

theorem tokensFrom_outside (pending : List Char) (c : Char) (cs : List Char) :
    tokensFrom .outside pending (c :: cs) =
      if c = escapeChar then tokensFrom .opened [c] cs
      else .visible c :: tokensFrom .outside [] cs := by
  simp [tokensFrom]

theorem tokensFrom_inside (hs : s ≠ .outside) (pending : List Char) (c : Char) (cs : List Char) :
    tokensFrom s pending (c :: cs) =
      if s.step c = .outside then .escape (c :: pending).reverse :: tokensFrom .outside [] cs
      else tokensFrom (s.step c) (c :: pending) cs := by
  rw [tokensFrom]
  · split
    next h => simp [h]
    next h => rw [if_neg h]
  · exact hs

theorem tokensFrom_chars (s : EscapeState) (pending cs : List Char) :
    (tokensFrom s pending cs).flatMap Token.chars =
      (if s = .outside then [] else pending.reverse) ++ cs := by
  induction cs generalizing s pending with
  | nil => cases s <;> simp [tokensFrom, Token.chars]
  | cons c cs ih =>
    by_cases hs : s = .outside
    · subst hs
      rw [tokensFrom_outside]
      split <;> simp [ih, Token.chars]
    · rw [tokensFrom_inside hs]
      by_cases hstep : s.step c = .outside <;> simp [ih, Token.chars, hs, hstep]

/-- The tokens of a text put together are the text. -/
theorem tokens_chars (cs : List Char) : (tokens cs).flatMap Token.chars = cs := by
  simp [tokens, tokensFrom_chars]

/-- An escape sequence begins with the escape character. -/
theorem head?_of_mem_tokensFrom {ds : List Char}
    (hp : s ≠ .outside → pending.reverse.head? = some escapeChar)
    (h : .escape ds ∈ tokensFrom s pending cs) : ds.head? = some escapeChar := by
  induction cs generalizing s pending with
  | nil => cases s <;> simp_all [tokensFrom]
  | cons c cs ih =>
    by_cases hs : s = .outside
    · subst hs
      rw [tokensFrom_outside] at h
      split at h
      next hc => exact ih (fun _ => by simp [hc]) h
      next hc => exact ih (fun hne => absurd rfl hne) (by simpa using h)
    · have hmore : (c :: pending).reverse.head? = some escapeChar := by
        rw [List.reverse_cons, List.head?_append, hp hs]
        rfl
      rw [tokensFrom_inside hs] at h
      split at h
      · rcases List.mem_cons.1 h with h | h
        · rw [Token.escape.inj h, hmore]
        · exact ih (fun hne => absurd rfl hne) h
      · exact ih (fun _ => hmore) h

theorem head?_of_escape {ds : List Char} (h : .escape ds ∈ tokens cs) :
    ds.head? = some escapeChar :=
  head?_of_mem_tokensFrom (fun hne => absurd rfl hne) h

/-- A token that has been read has characters, and only a visible blank begins with a blank. -/
theorem head?_token {t : Token} (h : t ∈ tokens cs) :
    ∃ c, t.chars.head? = some c ∧ (c = ' ' → t = .visible ' ') := by
  cases t with
  | visible c => exact ⟨c, rfl, fun hc => by rw [hc]⟩
  | escape ds => exact ⟨escapeChar, head?_of_escape h, fun hc => absurd hc (by decide)⟩

end Tokens

/-! ### Word starts -/

/-- The flags for word starts allow none at the beginning and none between two blanks; `before` is
the character in front of the text. -/
def Parted : Option Char → List Bool → List Char → Prop
  | _, [], _ => True
  | before, b :: _, [] => b = true → before ≠ none
  | before, b :: bs, c :: cs =>
    (b = true → before ≠ none ∧ ¬ (before = some ' ' ∧ c = ' ')) ∧ Parted (some c) bs cs

/-- Some of the flags are taken back. -/
def Fewer (bs bs' : List Bool) : Prop := List.Forall₂ (fun b b' => b = true → b' = true) bs bs'

theorem fewer_refl (bs : List Bool) : Fewer bs bs := List.forall₂_same.2 fun _ _ h => h

theorem Fewer.trans {bs bs' bs'' : List Bool} (h : Fewer bs bs') (h' : Fewer bs' bs'') :
    Fewer bs bs'' := by
  induction h generalizing bs'' with
  | nil => exact h'
  | cons hb _ ih =>
    cases h' with
    | cons hb' h' => exact .cons (fun h => hb' (hb h)) (ih h')

theorem Parted.of_fewer {before : Option Char} {bs bs' : List Bool} {cs : List Char}
    (h : Parted before bs' cs) (hf : Fewer bs bs') : Parted before bs cs := by
  induction hf generalizing before cs with
  | nil => trivial
  | cons hb _ ih =>
    cases cs with
    | nil => exact fun hb' => h (hb hb')
    | cons c cs => exact ⟨fun hb' => h.1 (hb hb'), ih h.2⟩

theorem fewer_zipWith {bs hs : List Bool} (h : bs.length = hs.length) :
    Fewer (List.zipWith (fun b h => b && !h) bs hs) bs := by
  induction bs generalizing hs with
  | nil => exact .nil
  | cons b bs ih =>
    cases hs with
    | nil => cases h
    | cons x hs => exact .cons (by simp_all) (ih (by simpa using h))

/-- Taking back a word start leaves the others. -/
theorem fewer_dropLastBreak (bs : List Bool) : Fewer (dropLastBreak bs) bs := by
  have hsplit : bs.reverse.takeWhile (· = false) ++ bs.reverse.dropWhile (· = false) =
    bs.reverse := List.takeWhile_append_dropWhile
  rw [Fewer, ← List.forall₂_reverse_iff, dropLastBreak, List.reverse_reverse]
  conv => rhs; rw [← hsplit]
  refine List.rel_append (fewer_refl _) ?_
  split
  next h => rw [h]; exact .nil
  next b rest h =>
    rw [h]
    exact .cons (by simp) (fewer_refl rest)

theorem parted_breaksFrom (s : Unicode.BreakContext) (before : Char) (cs : List Char)
    (h : before = ' ' → s.last = .sp) :
    Parted (some before) (Unicode.breaksFrom s cs ++ [true]) cs := by
  induction cs generalizing s before with
  | nil => exact fun _ => by simp
  | cons c cs ih =>
    refine ⟨fun hb => ⟨by simp, ?_⟩, ih _ c ?_⟩
    · rintro ⟨hbefore, rfl⟩
      rw [Unicode.breakClass_blank, Unicode.not_allows_blank (h (Option.some.inj hbefore))] at hb
      cases hb
    · rintro rfl
      exact Unicode.last_after_blank s

/-- No word starts between two blanks. -/
theorem parted_wordStarts (cs : List Char) : Parted none (wordStarts cs) cs := by
  cases cs with
  | nil => simp [wordStarts, dropLastBreak, Parted]
  | cons c cs =>
    have hbreaks := parted_breaksFrom (Unicode.BreakContext.start (Unicode.breakClass c)) c cs
      (by rintro rfl; exact Unicode.last_start_blank)
    refine ⟨by simp, hbreaks.of_fewer ((fewer_dropLastBreak _).trans (fewer_zipWith ?_))⟩
    simp [Unicode.breaksBefore]

/-! ### Words -/

/-- Two parts of a text of which the second one does not go on with the blanks that end the
first. -/
def Apart (a b : List Char) : Prop := a.getLast? = some ' ' → b.head? ≠ some ' '

section Cutting

variable {fresh : Bool} {starts : List Bool} {done : List Char} {ts : List Token}

/-- The parts put together are the text. -/
theorem flatten_cutTokens (fresh : Bool) (starts : List Bool) (done : List Char)
    (ts : List Token) :
    (cutTokens fresh starts done ts).flatten = done.reverse ++ ts.flatMap Token.chars := by
  induction ts generalizing fresh starts done with
  | nil => cases done <;> simp [cutTokens]
  | cons t ts ih =>
    simp only [cutTokens]
    split <;> simp [ih]

/-- The first part begins with what has been read. -/
theorem prefix_of_cutTokens {part : List Char} (hdone : done ≠ [])
    (h : (cutTokens fresh starts done ts).head? = some part) : done.reverse <+: part := by
  induction ts generalizing fresh starts done with
  | nil =>
    have : done.reverse = part := by simpa [cutTokens, hdone] using h
    exact this ▸ List.prefix_rfl
  | cons t ts ih =>
    simp only [cutTokens] at h
    split at h
    · exact (Option.some.inj h) ▸ List.prefix_rfl
    · have := ih (by simp [hdone]) h
      rw [List.reverse_append, List.reverse_reverse] at this
      exact (List.prefix_append _ _).trans this

theorem Parted.tail {before : Option Char} {c : Char} {cs : List Char}
    (h : Parted before starts (c :: cs)) : Parted (some c) starts.tail cs := by
  cases starts with
  | nil => cases cs <;> trivial
  | cons b bs => exact h.2

/-- A start for the next word is behind a character, and not between two blanks. -/
theorem Parted.start {before : Option Char} {cs : List Char} (h : Parted before starts cs)
    (hs : starts.headD false = true) :
    before ≠ none ∧ (before = some ' ' → cs.head? ≠ some ' ') := by
  cases starts with
  | nil => cases hs
  | cons b bs =>
    cases cs with
    | nil => exact ⟨h hs, fun _ => by simp⟩
    | cons c cs =>
      obtain ⟨hne, hblank⟩ := h.1 hs
      exact ⟨hne, fun hbefore hc => hblank ⟨hbefore, by simpa using hc⟩⟩

/-- The parts have characters, and no part begins behind a blank with another blank. -/
theorem isChain_cutTokens {before : Option Char}
    (hts : ∀ t ∈ ts, ∃ c, t.chars.head? = some c ∧ (c = ' ' → t = .visible ' '))
    (hstarts : Parted before starts (ts.filterMap Token.visible?))
    (hbefore : fresh = true → done.head? = before) :
    (∀ part ∈ cutTokens fresh starts done ts, part ≠ []) ∧
      (cutTokens fresh starts done ts).IsChain Apart := by
  induction ts generalizing fresh starts done before with
  | nil => cases done <;> simp [cutTokens]
  | cons t ts ih =>
    obtain ⟨first, hfirst, hblank⟩ := hts t (by simp)
    -- Behind the token its own character is the last visible one, if it is visible itself.
    have hrest : ∀ done', done'.head? = t.chars.reverse.head? →
        (∀ part ∈ cutTokens t.visible?.isSome (if t.visible?.isSome then starts.tail else starts)
          done' ts, part ≠ []) ∧
        (cutTokens t.visible?.isSome (if t.visible?.isSome then starts.tail else starts)
          done' ts).IsChain Apart := by
      intro done' hdone'
      have hts' : ∀ t ∈ ts, ∃ c, t.chars.head? = some c ∧ (c = ' ' → t = .visible ' ') :=
        fun t ht => hts t (List.mem_cons_of_mem _ ht)
      cases t with
      | visible c => exact ih hts' hstarts.tail fun _ => hdone'
      | escape ds => exact ih hts' hstarts (fun h => by cases h)
    have hchars : t.chars.reverse ≠ [] := by
      intro h
      rw [List.reverse_eq_nil_iff.1 h] at hfirst
      cases hfirst
    simp only [cutTokens]
    split
    next hcut =>
      obtain ⟨hfresh, hstart⟩ := Bool.and_eq_true_iff.1 hcut
      obtain ⟨hne, hnext⟩ := hstarts.start hstart
      have hdone : done ≠ [] := by
        rintro rfl
        exact hne (hbefore hfresh).symm
      obtain ⟨hparts, hchain⟩ := hrest (t.chars.reverse ++ []) (by simp)
      refine ⟨fun part hpart => ?_, ?_⟩
      · rcases List.mem_cons.1 hpart with rfl | hpart
        · simpa using hdone
        · exact hparts part hpart
      · refine List.isChain_cons.2 ⟨fun part hpart hlast hhead => ?_, hchain⟩
        rw [List.getLast?_reverse, hbefore hfresh] at hlast
        -- The next part begins with the token, so the token is a visible blank.
        obtain ⟨tail, rfl⟩ := prefix_of_cutTokens (by simpa using hchars) hpart
        have hhead' : t.chars.head? = some ' ' := by
          have hc : t.chars ≠ [] := by simpa using hchars
          simpa [List.head?_append_of_ne_nil _ hc] using hhead
        obtain rfl := hblank (Option.some.inj (hfirst.symm.trans hhead'))
        exact hnext hlast (by simp [Token.visible?])
    next => exact hrest _ (by rw [List.head?_append_of_ne_nil _ hchars])

end Cutting

/-- A text is what is left of it without the blanks at its end, and these blanks. -/
theorem dropBlanks_append (cs : List Char) :
    (cs.reverse.dropWhile (· = ' ')).reverse ++
      List.replicate (cs.length - (cs.reverse.dropWhile (· = ' ')).reverse.length) ' ' = cs := by
  have hsplit : (cs.reverse.dropWhile (· = ' ')).reverse ++ (cs.reverse.takeWhile (· = ' ')).reverse =
      cs := by
    rw [← List.reverse_append, List.takeWhile_append_dropWhile, List.reverse_reverse]
  have hlength := congrArg List.length hsplit
  rw [List.length_append] at hlength
  conv => rhs; rw [← hsplit]
  rw [List.append_cancel_left_eq, eq_comm, List.eq_replicate_iff]
  refine ⟨by omega, fun c hc => ?_⟩
  simpa using List.mem_takeWhile_imp (List.mem_reverse.1 hc)

@[simp] theorem all_ofChars (cs : List Char) : (Word.ofChars cs).all = cs := dropBlanks_append cs

/-- A word with blanks ends with a blank. -/
theorem getLast?_all {w : Word} (h : 0 < w.blanks) : w.all.getLast? = some ' ' := by
  rw [Word.all, List.getLast?_append_of_ne_nil _ (by simpa using h.ne')]
  simp [List.getLast?_replicate, h.ne']

/-- Words that a text can be put together from: each has characters, and none begins with a blank
behind the blanks of another one. -/
structure Divides (ws : List Word) (cs : List Char) : Prop where
  all : ws.flatMap Word.all = cs
  nonempty : ∀ w ∈ ws, w.all ≠ []
  apart : ws.IsChain fun v w => 0 < v.blanks → w.all.head? ≠ some ' '

theorem divides_words (cs : List Char) : Divides (words cs) cs := by
  have hflatten := flatten_cutTokens true
    (wordStarts ((tokens cs).filterMap Token.visible?)) [] (tokens cs)
  obtain ⟨hparts, hchain⟩ :
      (∀ part ∈ cutTokens true (wordStarts ((tokens cs).filterMap Token.visible?)) [] (tokens cs),
        part ≠ []) ∧
      (cutTokens true (wordStarts ((tokens cs).filterMap Token.visible?)) [] (tokens cs)).IsChain
        Apart :=
    isChain_cutTokens (fun _ => head?_token) (parted_wordStarts _) fun _ => rfl
  rw [tokens_chars, List.reverse_nil, List.nil_append] at hflatten
  refine ⟨?_, ?_, ?_⟩
  · rw [words, List.flatMap_map]
    simpa [List.flatMap] using hflatten
  · intro w hw
    obtain ⟨part, hpart, rfl⟩ := List.mem_map.1 hw
    rw [all_ofChars]
    exact hparts part hpart
  · refine (List.isChain_map _).2 (hchain.imp fun a b hab hblanks => ?_)
    rw [all_ofChars]
    refine hab ?_
    rw [← all_ofChars a]
    exact getLast?_all hblanks

/-! ### Parts of words -/

/-- Words that a word of the given characters and blanks is divided into: the blanks go to the last
one. -/
structure Refines (vs : List Word) (cs : List Char) (blanks : Nat) : Prop where
  all : vs.flatMap Word.all = cs ++ List.replicate blanks ' '
  nonempty : cs ++ List.replicate blanks ' ' ≠ [] → ∀ v ∈ vs, v.all ≠ []
  inner : vs.IsChain fun v _ => v.blanks = 0
  last : ∀ v ∈ vs.getLast?, v.blanks = blanks

theorem refines_singleton (cs : List Char) (cells blanks : Nat) :
    Refines [⟨cs, cells, blanks⟩] cs blanks where
  all := by simp [Word.all]
  nonempty h v hv := by
    obtain rfl := List.mem_singleton.1 hv
    exact h
  inner := .singleton _
  last := by simp

theorem Refines.cons {vs : List Word} {cs ds : List Char} {cells blanks : Nat}
    (h : Refines vs cs blanks) (hcs : cs ≠ []) (hds : ds ≠ []) :
    Refines (⟨ds, cells, 0⟩ :: vs) (ds ++ cs) blanks where
  all := by simp [Word.all, h.all]
  nonempty _ v hv := by
    rcases List.mem_cons.1 hv with rfl | hv
    · simpa [Word.all] using hds
    · exact h.nonempty (by simp [hcs]) v hv
  inner := List.isChain_cons.2 ⟨fun _ _ => rfl, h.inner⟩
  last := by
    have hvs : vs ≠ [] := by
      rintro rfl
      have := h.all
      simp_all
    rw [List.getLast?_cons_of_ne_nil hvs]
    exact h.last

/-- Dividing words further leaves the text divided. -/
theorem Divides.refine {ws : List Word} {cs : List Char} {g : Word → List Word}
    (h : Divides ws cs) (hg : ∀ w ∈ ws, Refines (g w) w.chars w.blanks) :
    Divides (ws.flatMap g) cs := by
  induction ws generalizing cs with
  | nil => exact h
  | cons w ws ih =>
    have hw := hg w (by simp)
    have hrest : Divides (ws.flatMap g) (ws.flatMap Word.all) :=
      ih ⟨rfl, fun v hv => h.nonempty v (List.mem_cons_of_mem _ hv), h.apart.tail⟩
        fun v hv => hg v (List.mem_cons_of_mem _ hv)
    refine ⟨?_, ?_, ?_⟩
    · rw [← h.all, List.flatMap_cons, List.flatMap_append, hw.all, hrest.all]
      rfl
    · intro v hv
      rw [List.flatMap_cons, List.mem_append] at hv
      exact hv.elim (hw.nonempty (h.nonempty w (by simp)) v) (hrest.nonempty v)
    · rw [List.flatMap_cons, List.isChain_append]
      refine ⟨hw.inner.imp fun v _ hv hblanks => absurd hv hblanks.ne', hrest.apart, ?_⟩
      intro v hv x hx hblanks
      rw [hw.last v hv] at hblanks
      -- The first of the words behind begins as the text behind does.
      have hhead : x.all.head? = (ws.flatMap Word.all).head? := by
        rw [← hrest.all]
        obtain ⟨tail, htail⟩ := List.head?_eq_some_iff.1 hx
        have hne := hrest.nonempty x (by rw [htail]; simp)
        rw [htail, List.flatMap_cons, List.head?_append_of_ne_nil _ hne]
      rw [hhead]
      cases ws with
      | nil => simp
      | cons w' ws =>
        have hne := h.nonempty w' (by simp)
        rw [List.flatMap_cons, List.head?_append_of_ne_nil _ hne]
        exact h.apart.rel hblanks

/-- Dividing at hyphens changes nothing, and each part has characters. -/
theorem cutHyphens_spec (before : Option Char) (done cs : List Char) :
    (cutHyphens before done cs).flatten = done.reverse ++ cs ∧
      ∀ part ∈ cutHyphens before done cs, part ≠ [] := by
  induction cs generalizing before done with
  | nil => cases done <;> simp [cutHyphens]
  | cons c cs ih =>
    simp only [cutHyphens]
    split
    · obtain ⟨hflatten, hparts⟩ := ih (some c) []
      refine ⟨by simp [hflatten], fun part hpart => ?_⟩
      rcases List.mem_cons.1 hpart with rfl | hpart
      · simp
      · exact hparts part hpart
    · obtain ⟨hflatten, hparts⟩ := ih (some c) (c :: done)
      exact ⟨by simp [hflatten], hparts⟩

theorem refines_partsOf (blanks : Nat) {parts : List (List Char)} (h : ∀ part ∈ parts, part ≠ []) :
    Refines (partsOf blanks parts) parts.flatten blanks := by
  induction parts with
  | nil => exact refines_singleton [] 0 blanks
  | cons part parts ih =>
    cases parts with
    | nil =>
      rw [List.flatten_singleton]
      exact refines_singleton part _ blanks
    | cons next parts =>
      have hnext := h next (by simp)
      exact (ih fun p hp => h p (List.mem_cons_of_mem _ hp)).cons (by simp [hnext]) (h part (by simp))

theorem refines_splitHyphens (w : Word) : Refines w.splitHyphens w.chars w.blanks := by
  obtain ⟨hflatten, hparts⟩ := cutHyphens_spec none [] w.chars
  have h := refines_partsOf w.blanks hparts
  rwa [hflatten] at h

theorem refines_cutCells (limit blanks : Nat) (done : List Char) (used : Nat) (ts : List Token)
    (h : 0 < used → done ≠ []) :
    Refines (cutCells limit blanks done used ts) (done.reverse ++ ts.flatMap Token.chars)
      blanks := by
  induction ts generalizing done used with
  | nil => simpa [cutCells] using refines_singleton done.reverse used blanks
  | cons t ts ih =>
    cases t with
    | escape cs => simpa [cutCells, Token.chars] using ih (cs.reverse ++ done) used (by simp_all)
    | visible c =>
      simp only [cutCells]
      split
      next hcut =>
        have hdone := h (by simp at hcut; omega)
        have hrest := ih [c] (Unicode.charWidth c) (by simp)
        exact (hrest.cons (by simp) (by simpa using hdone))
      next => simpa [Token.chars] using ih (c :: done) _ (by simp)

theorem refines_breakApart (limit : Nat) (w : Word) :
    Refines (w.breakApart limit) w.chars w.blanks := by
  unfold Word.breakApart
  split
  · simpa [tokens_chars] using refines_cutCells limit w.blanks [] 0 (tokens w.chars) (by simp)
  · exact refines_singleton w.chars w.cells w.blanks

/-- What the lines of a row are made of puts the row together again. -/
theorem divides_fragments (limit : Nat) (cs : List Char) : Divides (fragments limit cs) cs :=
  ((divides_words cs).refine fun w _ => refines_splitHyphens w).refine
    fun w _ => refines_breakApart limit w

/-! ### The cells of words -/

section Cells

open Unicode (charWidth)

variable {cs : List Char} {limit : Nat}

theorem total_reverse {α : Type} (measure : α → Nat) (xs : List α) :
    total measure xs.reverse = total measure xs := by
  induction xs with
  | nil => rfl
  | cons x xs ih => rw [List.reverse_cons, total_append, ih, total_cons, total_cons, total_nil]; omega

/-- Without an escape character every character is visible. -/
theorem tokens_of_notMem (h : escapeChar ∉ cs) : tokens cs = cs.map Token.visible := by
  rw [tokens]
  induction cs with
  | nil => rfl
  | cons c cs ih =>
    rw [List.mem_cons, not_or] at h
    rw [tokensFrom, if_neg (Ne.symm h.1), ih h.2, List.map_cons]

theorem cells_of_notMem (h : escapeChar ∉ cs) : cells cs = total charWidth cs := by
  rw [cells, tokens_of_notMem h, List.filterMap_map]
  congr
  exact List.filterMap_some

/-- A word that takes the cells of its characters. -/
def Word.IsExact (w : Word) : Prop := w.cells = total charWidth w.chars

theorem isExact_of_notMem {w : Word} (h : escapeChar ∉ w.chars) (hw : w.cells = cells w.chars) :
    w.IsExact := hw.trans (cells_of_notMem h)

theorem Divides.mem {ws : List Word} {w : Word} {c : Char} (h : Divides ws cs) (hw : w ∈ ws)
    (hc : c ∈ w.chars) : c ∈ cs := by
  rw [← h.all]
  exact List.mem_flatMap.2 ⟨w, hw, List.mem_append_left _ hc⟩

theorem isExact_of_mem_partsOf {blanks : Nat} {parts : List (List Char)} {w : Word}
    (h : ∀ part ∈ parts, escapeChar ∉ part) (hw : w ∈ partsOf blanks parts) : w.IsExact := by
  induction parts with
  | nil =>
    obtain rfl := List.mem_singleton.1 hw
    rfl
  | cons part parts ih =>
    rw [List.forall_mem_cons] at h
    cases parts with
    | nil =>
      obtain rfl := List.mem_singleton.1 hw
      exact isExact_of_notMem h.1 rfl
    | cons next parts =>
      rcases List.mem_cons.1 hw with rfl | hw
      · exact isExact_of_notMem h.1 rfl
      · exact ih h.2 hw

/-- The parts of a word that is divided take the cells of their characters, and fit if each of these
does. -/
theorem cutCells_spec {blanks used : Nat} {done : List Char} {w : Word}
    (hdone : used = total charWidth done) (hfits : used ≤ limit) (hcs : ∀ c ∈ cs, charWidth c ≤ limit)
    (hw : w ∈ cutCells limit blanks done used (cs.map Token.visible)) :
    w.IsExact ∧ w.cells ≤ limit := by
  induction cs generalizing done used with
  | nil =>
    obtain rfl := List.mem_singleton.1 hw
    exact ⟨hdone.trans (total_reverse _ _).symm, hfits⟩
  | cons c cs ih =>
    rw [List.forall_mem_cons] at hcs
    rw [List.map_cons, cutCells] at hw
    split at hw
    next hcut =>
      rcases List.mem_cons.1 hw with rfl | hw
      · exact ⟨hdone.trans (total_reverse _ _).symm, hfits⟩
      · exact ih (by simp) hcs.1 hcs.2 hw
    next hjoin =>
      refine ih ?_ ?_ hcs.2 hw
      · rw [hdone, total_cons, Nat.add_comm]
      · simp only [Bool.and_eq_true, decide_eq_true_eq, not_and, not_lt] at hjoin
        rcases Nat.eq_zero_or_pos used with rfl | hpos
        · simpa using hcs.1
        · exact hjoin hpos

theorem isExact_of_mem_splitHyphens {v w : Word} (h : escapeChar ∉ v.chars)
    (hw : w ∈ v.splitHyphens) : w.IsExact := by
  refine isExact_of_mem_partsOf (fun part hpart hc => h ?_) hw
  rw [← List.nil_append v.chars, ← List.reverse_nil, ← (cutHyphens_spec none [] v.chars).1]
  exact List.mem_flatten.2 ⟨part, hpart, hc⟩

theorem breakApart_spec {v w : Word} (hv : v.IsExact) (h : escapeChar ∉ v.chars)
    (hfits : ∀ c ∈ v.chars, charWidth c ≤ limit) (hw : w ∈ v.breakApart limit) :
    w.IsExact ∧ w.cells ≤ limit := by
  rw [Word.breakApart] at hw
  split at hw
  · rw [tokens_of_notMem h] at hw
    exact cutCells_spec rfl (Nat.zero_le _) hfits hw
  next hnarrow =>
    obtain rfl := List.mem_singleton.1 hw
    exact ⟨hv, Nat.le_of_not_lt hnarrow⟩

/-- **The words of a row take the cells of their characters**, and fit if each of these does. -/
theorem fragments_spec {w : Word} (h : escapeChar ∉ cs) (hfits : ∀ c ∈ cs, charWidth c ≤ limit)
    (hw : w ∈ fragments limit cs) : w.IsExact ∧ w.cells ≤ limit := by
  have hsplit := (divides_words cs).refine fun w _ => refines_splitHyphens w
  obtain ⟨v, hv, hw⟩ := List.mem_flatMap.1 hw
  have hmem {c : Char} (hc : c ∈ v.chars) : c ∈ cs := hsplit.mem hv hc
  obtain ⟨u, hu, hv⟩ := List.mem_flatMap.1 hv
  have hexact := isExact_of_mem_splitHyphens (fun hc => h ((divides_words cs).mem hu hc)) hv
  exact breakApart_spec hexact (fun hc => h (hmem hc)) (fun c hc => hfits c (hmem hc)) hw

end Cells

end Text

end PublisherConsole
