import PublisherConsole.Proofs.Json.Keeping
import PublisherConsole.Proofs.Json.SyntaxTree

/-!
# What is passed over was written

Whatever `skipValue` passes over is a value of the grammar (`written_of_skipValue`): its tokens are
traced first, from blanks to strings and numbers, and then what holds them together. `Written c c'`
says that a value stands between two cursors; `InList` and `InObject` say it of what is left of a list
or of an object.
-/

namespace PublisherConsole.Json

open Cursor

variable {c c' c₁ : Cursor} {cs bs : List Char} {x : Char} {fuel : Nat}

/-! ### Tokens -/

theorem peek?_of_rest {xs : List Char} (h : c.rest = x :: xs) : c.peek? = some x := by
  rw [peek?, h, List.head?_cons]

theorem rest_of_peek? (h : c.peek? = some x) : c.rest = x :: c.next.rest := by
  obtain ⟨_ | ⟨y, ys⟩, p⟩ := c
  · cases h
  · cases h
    rfl

/-- What `skipBlanks` passes over. -/
theorem exists_blanks (c : Cursor) : ∃ bs, Blanks bs ∧ c.rest = bs ++ c.skipBlanks.rest := by
  obtain ⟨cs, p⟩ := c
  unfold skipBlanks
  dsimp only
  fun_induction skipBlanksFrom cs p with
  | case1 => exact ⟨[], blanks_nil, rfl⟩
  | case2 x xs p hx ih =>
    obtain ⟨bs, hb, hrest⟩ := ih
    exact ⟨x :: bs, by simpa [Blanks, hx] using hb, by rw [List.cons_append, ← hrest]⟩
  | case3 => exact ⟨[], blanks_nil, rfl⟩

/-- A token behind blanks. -/
theorem exists_blanks_of_peek? (h : c.skipBlanks.peek? = some x) :
    ∃ bs, Blanks bs ∧ c.rest = bs ++ x :: c.skipBlanks.next.rest := by
  obtain ⟨bs, hb, hrest⟩ := exists_blanks c
  exact ⟨bs, hb, by rw [hrest, rest_of_peek? h]⟩

theorem Blanks.append {bs' : List Char} (hb : Blanks bs) (hb' : Blanks bs') :
    Blanks (bs ++ bs') := by
  intro x hx
  exact (List.mem_append.mp hx).elim (hb x) (hb' x)

/-- A literal is read letter by letter. -/
theorem rest_of_readLetters {ls : List Char} {u : Unit} (h : readLetters ls c = .ok (u, c')) :
    c.rest = ls ++ c'.rest := by
  induction ls generalizing c with
  | nil =>
    cases h
    rfl
  | cons l ls ih =>
    unfold readLetters at h
    split at h
    · cases h
    next x xs hrest =>
      split at h
      next hx =>
        have hpeek : c.peek? = some x := peek?_of_rest hrest
        rw [rest_of_peek? hpeek, hx, ih h, List.cons_append]
      · cases h

/-! ### Strings -/

theorem rest_of_readHex {n : Nat} (h : readHex c = .ok (n, c')) :
    ∃ w x y z, hexUnit? w x y z = some n ∧ c.rest = w :: x :: y :: z :: c'.rest := by
  unfold readHex at h
  dsimp only at h
  split at h
  · split at h
    next w x y z rest hrest =>
      split at h
      next w' x' y' z' hw hx hy hz =>
        cases h
        exact ⟨w, x, y, z, by simp only [hexUnit?, hw, hx, hy, hz], hrest⟩
      · cases h
    · cases h
  · cases h

/-- A string is passed over glyph by glyph. -/
theorem exists_body_of_skipCharsWithin (h : skipCharsWithin fuel c = .ok c') :
    ∃ gs, c.rest = body gs ++ '"' :: c'.rest := by
  induction fuel generalizing c with
  | zero => cases h
  | succ fuel ih =>
    unfold skipCharsWithin at h
    split at h
    · cases h
    next xs hrest =>
      cases h
      exact ⟨[], rest_of_peek? (peek?_of_rest hrest)⟩
    next xs hrest =>
      have hslash : c.rest = '\\' :: c.next.rest := rest_of_peek? (peek?_of_rest hrest)
      dsimp only at h
      split at h
      · cases h
      next ys hu =>
        have hmark : c.next.rest = 'u' :: c.next.next.rest := rest_of_peek? (peek?_of_rest hu)
        obtain ⟨⟨n, c₁⟩, hhex, h⟩ := bind_eq_ok h
        obtain ⟨w, x, y, z, hn, hunit⟩ := rest_of_readHex hhex
        dsimp only at h
        obtain ⟨gs, hgs⟩ := ih h
        exact ⟨.unit w x y z n hn :: gs, by simp [hslash, hmark, hunit, hgs]⟩
      next x ys _ hx =>
        have hletter : c.next.rest = x :: c.next.next.rest := rest_of_peek? (peek?_of_rest hx)
        split at h
        next y hy =>
          obtain ⟨gs, hgs⟩ := ih h
          exact ⟨.escape x y hy :: gs, by simp [hslash, hletter, hgs]⟩
        · cases h
    next x xs hquote hslash hrest =>
      have hplain : c.rest = x :: c.next.rest := rest_of_peek? (peek?_of_rest hrest)
      split at h
      · cases h
      next hcontrol =>
        obtain ⟨gs, hgs⟩ := ih h
        exact ⟨.plain x ⟨hquote, hslash, by omega⟩ :: gs, by simp [hplain, hgs]⟩

theorem rest_of_readPairMark {u : Unit} (h : readPairMark x c = .ok (u, c')) :
    c.rest = x :: c'.rest := by
  unfold readPairMark at h
  split at h
  · cases h
  next y ys hrest =>
    split at h
    next hy =>
      cases h
      exact rest_of_peek? (by simp [peek?, hrest, hy])
    · cases h

/-- A code point is one code unit or two. -/
theorem exists_units_of_readCodePoint (h : readCodePoint c = .ok (x, c')) :
    ∃ gs, '\\' :: 'u' :: c.rest = body gs ++ c'.rest := by
  obtain ⟨⟨n, c₁⟩, hhex, h⟩ := bind_eq_ok h
  obtain ⟨w, x, y, z, hn, hunit⟩ := rest_of_readHex hhex
  dsimp only at h
  split at h
  · cases h
  · split at h
    · obtain ⟨⟨⟨⟩, c₂⟩, hslash, h⟩ := bind_eq_ok h
      obtain ⟨⟨⟨⟩, c₃⟩, hu, h⟩ := bind_eq_ok h
      obtain ⟨⟨m, c₄⟩, hhex', h⟩ := bind_eq_ok h
      obtain ⟨w', x', y', z', hm, hunit'⟩ := rest_of_readHex hhex'
      dsimp only at h hunit'
      split at h
      · obtain rfl : c₄ = c' := (Prod.mk.inj (Except.ok.inj h)).2
        have hmarks : c₁.rest = '\\' :: 'u' :: c₃.rest := by
          rw [rest_of_readPairMark hslash, rest_of_readPairMark hu]
        refine ⟨[.unit w x y z n hn, .unit w' x' y' z' m hm], ?_⟩
        simp [hunit, hmarks, hunit']
      · cases h
    · cases h
      exact ⟨[.unit w x y z n hn], by simp [hunit]⟩

/-- What is read as a string is written as one. -/
theorem exists_body_of_readCharsWithin {done xs : List Char}
    (h : readCharsWithin fuel done c = .ok (xs, c')) :
    ∃ gs, c.rest = body gs ++ '"' :: c'.rest := by
  induction fuel generalizing done c with
  | zero => cases h
  | succ fuel ih =>
    unfold readCharsWithin at h
    split at h
    · cases h
    next xs hrest =>
      cases h
      exact ⟨[], rest_of_peek? (peek?_of_rest hrest)⟩
    next xs hrest =>
      have hslash : c.rest = '\\' :: c.next.rest := rest_of_peek? (peek?_of_rest hrest)
      dsimp only at h
      split at h
      · cases h
      next ys hu =>
        have hmark : c.next.rest = 'u' :: c.next.next.rest := rest_of_peek? (peek?_of_rest hu)
        obtain ⟨⟨x, c₁⟩, hpoint, h⟩ := bind_eq_ok h
        obtain ⟨units, hunits⟩ := exists_units_of_readCodePoint hpoint
        dsimp only at h
        obtain ⟨gs, hgs⟩ := ih h
        refine ⟨units ++ gs, ?_⟩
        rw [hslash, hmark, hunits, hgs]
        simp [body]
      next x ys _ hx =>
        have hletter : c.next.rest = x :: c.next.next.rest := rest_of_peek? (peek?_of_rest hx)
        split at h
        next y hy =>
          obtain ⟨gs, hgs⟩ := ih h
          exact ⟨.escape x y hy :: gs, by simp [hslash, hletter, hgs]⟩
        · cases h
    next x xs hquote hslash hrest =>
      have hplain : c.rest = x :: c.next.rest := rest_of_peek? (peek?_of_rest hrest)
      split at h
      · cases h
      next hcontrol =>
        obtain ⟨gs, hgs⟩ := ih h
        exact ⟨.plain x ⟨hquote, hslash, by omega⟩ :: gs, by simp [hplain, hgs]⟩

theorem exists_body_of_readString {s : String} (h : readString c = .ok (s, c')) :
    ∃ gs, c.rest = body gs ++ '"' :: c'.rest := by
  obtain ⟨⟨xs, c₁⟩, hchars, h⟩ := bind_eq_ok h
  cases h
  exact exists_body_of_readCharsWithin hchars

/-! ### Numbers -/

/-- The digits that `skipDigitsFrom` passes over. -/
theorem exists_digits (cs : List Char) (p : Place) :
    ∃ ds, (∀ x ∈ ds, x.isDigit = true) ∧ cs = ds ++ (skipDigitsFrom cs p).rest := by
  fun_induction skipDigitsFrom cs p with
  | case1 => exact ⟨[], by simp, rfl⟩
  | case2 x xs p hx ih =>
    obtain ⟨ds, hd, hrest⟩ := ih
    exact ⟨x :: ds, by simpa [hx] using hd, by rw [List.cons_append, ← hrest]⟩
  | case3 => exact ⟨[], by simp, rfl⟩

/-- A first digit is passed over with those behind it. -/
theorem skipDigitsFrom_next (h : c.peek? = some x) (hx : x.isDigit = true) :
    skipDigitsFrom c.rest c.place = skipDigitsFrom c.next.rest c.next.place := by
  obtain ⟨_ | ⟨y, ys⟩, p⟩ := c
  · cases h
  · obtain rfl : y = x := Option.some.inj h
    simp [skipDigitsFrom, hx]

/-- Digits from a first one on. -/
theorem exists_isDigits (h : c.peek? = some x) (hx : x.isDigit = true) :
    ∃ ds, IsDigits ds ∧ ds.head? = some x ∧
      c.rest = ds ++ (skipDigitsFrom c.rest c.place).rest := by
  obtain ⟨ds, hd, hrest⟩ := exists_digits c.next.rest c.next.place
  refine ⟨x :: ds, ⟨by simp, by simpa [hx] using hd⟩, rfl, ?_⟩
  rw [skipDigitsFrom_next h hx, List.cons_append, ← hrest, rest_of_peek? h]

theorem exists_sign (c : Cursor) :
    ∃ sign, (sign = [] ∨ sign = ['+'] ∨ sign = ['-']) ∧
      c.rest = sign ++ (exponentSign c).2.rest := by
  unfold exponentSign
  split
  next h => exact ⟨['+'], by simp, rest_of_peek? h⟩
  next h => exact ⟨['-'], by simp, rest_of_peek? h⟩
  next => exact ⟨[], by simp, rfl⟩

theorem exists_exponent_of_skipExponent {e : Char} (hpeek : c.peek? = some e)
    (he : e = 'e' ∨ e = 'E') (h : skipExponent c = .ok c') :
    ∃ exponent, IsExponent exponent ∧ c.rest = exponent ++ c'.rest := by
  obtain ⟨sign, hsign, hafter⟩ := exists_sign c.next
  unfold skipExponent at h
  dsimp only at h
  split at h
  · cases h
  next x xs hrest =>
    split at h
    next hx =>
      have hfirst : (exponentSign c.next).2.peek? = some x := peek?_of_rest hrest
      obtain ⟨ds, hd, -, hdigits⟩ := exists_isDigits hfirst hx
      rw [← skipDigitsFrom_next hfirst hx] at h
      cases h
      refine ⟨e :: (sign ++ ds), .inr ⟨e, sign, ds, he, hsign, hd, rfl⟩, ?_⟩
      rw [List.cons_append, List.append_assoc, ← hdigits, ← hafter]
      exact rest_of_peek? hpeek
    · cases h

theorem exists_fraction_of_skipFraction (hpeek : c.peek? = some '.') (h : skipFraction c = .ok c') :
    ∃ fraction exponent, IsFraction fraction ∧ IsExponent exponent ∧
      c.rest = fraction ++ (exponent ++ c'.rest) := by
  unfold skipFraction at h
  dsimp only at h
  split at h
  next x hx =>
    split at h
    next hdigit =>
      obtain ⟨ds, hd, -, hdigits⟩ := exists_isDigits hx hdigit
      -- Behind the digits stands an exponent or nothing.
      have hexponent : ∃ exponent, IsExponent exponent ∧
          (skipDigitsFrom c.next.rest c.next.place).rest = exponent ++ c'.rest := by
        split at h
        next he => exact exists_exponent_of_skipExponent he (.inl rfl) h
        next he => exact exists_exponent_of_skipExponent he (.inr rfl) h
        next =>
          cases h
          exact ⟨[], .inl rfl, rfl⟩
      obtain ⟨exponent, hexponent, hafter⟩ := hexponent
      refine ⟨'.' :: ds, exponent, .inr ⟨ds, hd, rfl⟩, hexponent, ?_⟩
      rw [rest_of_peek? hpeek, hdigits, hafter]
      simp
    · cases h
  · cases h

theorem exists_fraction_of_skipAfterWhole (h : skipAfterWhole c = .ok c') :
    ∃ fraction exponent, IsFraction fraction ∧ IsExponent exponent ∧
      c.rest = fraction ++ (exponent ++ c'.rest) := by
  have hnone : IsFraction [] := .inl rfl
  unfold skipAfterWhole at h
  split at h
  next hpoint => exact exists_fraction_of_skipFraction hpoint h
  next he =>
    obtain ⟨exponent, hexponent, hrest⟩ := exists_exponent_of_skipExponent he (.inl rfl) h
    exact ⟨[], exponent, hnone, hexponent, hrest⟩
  next he =>
    obtain ⟨exponent, hexponent, hrest⟩ := exists_exponent_of_skipExponent he (.inr rfl) h
    exact ⟨[], exponent, hnone, hexponent, hrest⟩
  next =>
    cases h
    exact ⟨[], [], hnone, .inl rfl, rfl⟩

/-- What is passed over as a number without a sign. -/
theorem exists_whole_of_skipUnsigned (h : skipUnsigned c = .ok c') :
    ∃ whole fraction exponent, IsWhole whole ∧ IsFraction fraction ∧ IsExponent exponent ∧
      c.rest = whole ++ (fraction ++ (exponent ++ c'.rest)) := by
  unfold skipUnsigned at h
  split at h
  · cases h
  next x xs hrest =>
    have hpeek : c.peek? = some x := peek?_of_rest hrest
    dsimp only at h
    split at h
    next hzero =>
      have hafter : skipAfterWhole c.next = .ok c' := by
        split at h
        next y hy =>
          split at h
          · cases h
          · exact h
        next hend =>
          cases h
          simp [skipAfterWhole, hend]
      obtain ⟨fraction, exponent, hf, hx, hafter⟩ := exists_fraction_of_skipAfterWhole hafter
      refine ⟨['0'], fraction, exponent, .inl rfl, hf, hx, ?_⟩
      rw [rest_of_peek? hpeek, hzero, hafter]
      rfl
    next hzero =>
      split at h
      next hdigit =>
        obtain ⟨ds, hd, hhead, hdigits⟩ := exists_isDigits hpeek hdigit
        rw [← skipDigitsFrom_next hpeek hdigit] at h
        obtain ⟨fraction, exponent, hf, hx, hafter⟩ := exists_fraction_of_skipAfterWhole h
        refine ⟨ds, fraction, exponent, .inr ⟨hd, by simpa [hhead] using hzero⟩, hf, hx, ?_⟩
        rw [hdigits, hafter]
      · cases h

/-- What is passed over as a number is written as one. -/
theorem exists_isNumeral_of_skipUnsigned {sign : List Char} (hsign : sign = [] ∨ sign = ['-'])
    (h : skipUnsigned c = .ok c') :
    ∃ cs, IsNumeral cs ∧ sign ++ c.rest = cs ++ c'.rest := by
  obtain ⟨whole, fraction, exponent, hw, hf, hx, hrest⟩ := exists_whole_of_skipUnsigned h
  refine ⟨sign ++ (whole ++ (fraction ++ exponent)),
    ⟨sign, whole, fraction, exponent, hsign, hw, hf, hx, rfl⟩, ?_⟩
  simp [hrest]

/-! ### Values that are passed over -/

/-- A value stands between the cursors, with blanks before it. -/
def Written (c c' : Cursor) : Prop :=
  ∃ bs t cs, Blanks bs ∧ Layout (.value t) cs ∧ c.rest = bs ++ (cs ++ c'.rest)

/-- What stands before an item or a key: blanks, and a comma among them when it is not the first. -/
def Leads (first : Bool) (lead : List Char) : Prop :=
  if first then Blanks lead else ∃ bs bs', Blanks bs ∧ Blanks bs' ∧ lead = bs ++ ',' :: bs'

theorem Leads.append {first : Bool} {lead : List Char} (h : Leads first lead) (hb : Blanks bs) :
    Leads first (lead ++ bs) := by
  cases first with
  | true => exact Blanks.append h hb
  | false =>
    obtain ⟨bs₁, bs₂, hb₁, hb₂, rfl⟩ := h
    exact ⟨bs₁, bs₂ ++ bs, hb₁, hb₂.append hb, by simp⟩

theorem leads_blanks (hb : Blanks bs) : Leads true bs := hb

theorem leads_comma (hb : Blanks bs) : Leads false (bs ++ [',']) := ⟨bs, [], hb, blanks_nil, rfl⟩

/-- Between the cursors stand the items of a list up to its closing bracket, behind the opening
bracket or behind an earlier item. -/
def InList (first : Bool) (c c' : Cursor) : Prop :=
  ∃ ts cs, c.rest = cs ++ c'.rest ∧
    if first then Layout (.value (.list ts)) ('[' :: cs) else Layout (.items ts) cs

/-- Between the cursors stand the members of an object up to its closing brace, behind the opening
brace or behind an earlier member. -/
def InObject (first : Bool) (c c' : Cursor) : Prop :=
  ∃ ms cs, c.rest = cs ++ c'.rest ∧
    if first then Layout (.value (.object ms)) ('\x7b' :: cs) else Layout (.members ms) cs

section Parts

variable {first : Bool} {lead bs' : List Char} {key : List Glyph} {c₂ : Cursor}

/-- A value that begins at once. -/
theorem written_of_layout {t : SyntaxTree} (h : Layout (.value t) cs)
    (hrest : c.rest = cs ++ c'.rest) : Written c c' := ⟨[], t, cs, blanks_nil, h, hrest⟩

theorem Written.of_skipBlanks (h : Written c.skipBlanks c') : Written c c' := by
  obtain ⟨bs, hb, hrest⟩ := exists_blanks c
  obtain ⟨bs', t, cs, hb', hvalue, hrest'⟩ := h
  exact ⟨bs ++ bs', t, cs, hb.append hb', hvalue, by rw [hrest, hrest', List.append_assoc]⟩

theorem InList.nil (hb : Blanks bs) (hrest : c.rest = bs ++ ']' :: c'.rest) :
    InList first c c' := by
  refine ⟨[], bs ++ [']'], by simpa using hrest, ?_⟩
  cases first with
  | true => exact .emptyList hb
  | false => exact .endList hb

theorem InList.cons (hlead : Leads first lead) (hrest : c.rest = lead ++ c₁.rest)
    (hvalue : Written c₁ c₂) (hlater : InList false c₂ c') : InList first c c' := by
  obtain ⟨bs, t, cs, hb, hvalue, hitem⟩ := hvalue
  obtain ⟨ts, later, hrest', hlater⟩ := hlater
  refine ⟨t :: ts, (lead ++ bs) ++ (cs ++ later), by simp [hrest, hitem, hrest'], ?_⟩
  have hlead' := hlead.append hb
  cases first with
  | true => exact .list hlead' hvalue hlater
  | false =>
    obtain ⟨bs₁, bs₂, hb₁, hb₂, heq⟩ := hlead'
    rw [heq]
    simpa using Layout.item hb₁ hb₂ hvalue hlater

theorem InObject.nil (hb : Blanks bs) (hrest : c.rest = bs ++ '\x7d' :: c'.rest) :
    InObject first c c' := by
  refine ⟨[], bs ++ ['\x7d'], by simpa using hrest, ?_⟩
  cases first with
  | true => exact .emptyObject hb
  | false => exact .endObject hb

theorem InObject.cons (hlead : Leads first lead) (hb : Blanks bs)
    (hrest : c.rest = lead ++ (quoted key ++ (bs ++ ':' :: c₁.rest))) (hvalue : Written c₁ c₂)
    (hlater : InObject false c₂ c') : InObject first c c' := by
  obtain ⟨bs', t, cs, hb', hvalue, hmember⟩ := hvalue
  obtain ⟨ms, later, hrest', hlater⟩ := hlater
  refine ⟨(key, t) :: ms, lead ++ (quoted key ++ (bs ++ ':' :: (bs' ++ (cs ++ later)))),
    by simp [hrest, hmember, hrest'], ?_⟩
  cases first with
  | true => exact .object hlead hb hb' hvalue hlater
  | false =>
    obtain ⟨bs₁, bs₂, hb₁, hb₂, rfl⟩ := hlead
    simpa using Layout.member hb₁ hb₂ hb hb' hvalue hlater

/-- A list stands from its opening bracket to its closing one. -/
theorem InList.written (h : InList true c.next c') (hpeek : c.peek? = some '[') : Written c c' := by
  obtain ⟨ts, cs, hrest, hlayout⟩ := h
  exact written_of_layout hlayout (by rw [rest_of_peek? hpeek, hrest]; rfl)

/-- An object stands from its opening brace to its closing one. -/
theorem InObject.written (h : InObject true c.next c') (hpeek : c.peek? = some '\x7b') :
    Written c c' := by
  obtain ⟨ms, cs, hrest, hlayout⟩ := h
  exact written_of_layout hlayout (by rw [rest_of_peek? hpeek, hrest]; rfl)

/-- A literal stands from its first letter to its last. -/
theorem written_of_letters {t : SyntaxTree} {ls : List Char} {u : Unit}
    (hlayout : Layout (.value t) (x :: ls)) (hpeek : c.peek? = some x)
    (h : readLetters ls c.next = .ok (u, c')) : Written c c' :=
  written_of_layout hlayout (by rw [rest_of_peek? hpeek, rest_of_readLetters h, List.cons_append])

/-- A string stands from quote to quote. -/
theorem written_of_body {gs : List Glyph} (hpeek : c.peek? = some '"')
    (h : c.next.rest = body gs ++ '"' :: c'.rest) : Written c c' :=
  written_of_layout (.text gs) (by simp [rest_of_peek? hpeek, h, quoted])

theorem exists_key_of_skipKey (h : skipKey c = .ok c') :
    ∃ bs key bs', Blanks bs ∧ Blanks bs' ∧
      c.rest = bs ++ (quoted key ++ (bs' ++ ':' :: c'.rest)) := by
  unfold skipKey at h
  dsimp only at h
  split at h
  next hquote =>
    obtain ⟨c₁, hstring, h⟩ := bind_eq_ok h
    obtain ⟨bs, hb, hrest⟩ := exists_blanks_of_peek? hquote
    obtain ⟨key, hkey⟩ := exists_body_of_skipCharsWithin hstring
    split at h
    next hcolon =>
      obtain ⟨bs', hb', hrest'⟩ := exists_blanks_of_peek? hcolon
      cases h
      exact ⟨bs, key, bs', hb, hb', by simp [hrest, hkey, hrest', quoted]⟩
    · cases h
    · cases h
  · cases h
  · cases h

end Parts

/-- What is passed over with the fuel is a value, or the rest of a list or of an object. -/
structure PassedSound (fuel : Nat) : Prop where
  value : ∀ {c c'}, skipValueWithin fuel c = .ok c' → Written c c'
  items : ∀ {c₀ c c' first lead}, Leads first lead → c₀.rest = lead ++ c.rest →
    skipItemsWithin fuel c = .ok c' → InList first c₀ c'
  members : ∀ {c₀ c c' first lead}, Leads first lead → c₀.rest = lead ++ c.rest →
    skipMembersWithin fuel c = .ok c' → InObject first c₀ c'

section Rounds

variable {c₀ : Cursor} {first : Bool} {lead : List Char}

theorem PassedSound.value_succ (ih : PassedSound fuel) (h : skipValueWithin (fuel + 1) c = .ok c') :
    Written c c' := by
  rw [skipValueWithin] at h
  dsimp only at h
  refine Written.of_skipBlanks ?_
  generalize c.skipBlanks = c at h
  split at h
  · cases h
  next hpeek =>
    refine InList.written ?_ hpeek
    obtain ⟨bs, hb, hblanks⟩ := exists_blanks c.next
    split at h
    next hclose =>
      cases h
      exact .nil hb (by rw [hblanks, rest_of_peek? hclose])
    next => exact ih.items (leads_blanks hb) hblanks h
    next => cases h
  next hpeek =>
    refine InObject.written ?_ hpeek
    obtain ⟨bs, hb, hblanks⟩ := exists_blanks c.next
    split at h
    next hclose =>
      cases h
      exact .nil hb (by rw [hblanks, rest_of_peek? hclose])
    next => exact ih.members (leads_blanks hb) hblanks h
    next => cases h
  next hpeek =>
    obtain ⟨gs, hgs⟩ := exists_body_of_skipCharsWithin h
    exact written_of_body hpeek hgs
  next hpeek =>
    obtain ⟨cs, hnumeral, hrest⟩ := exists_isNumeral_of_skipUnsigned (.inr rfl) h
    exact written_of_layout (.number cs hnumeral) (by rw [← hrest, rest_of_peek? hpeek]; rfl)
  next hpeek =>
    obtain ⟨⟨⟨⟩, c₁⟩, hletters, h⟩ := bind_eq_ok h
    cases h
    exact written_of_letters .null hpeek hletters
  next hpeek =>
    obtain ⟨⟨⟨⟩, c₁⟩, hletters, h⟩ := bind_eq_ok h
    cases h
    exact written_of_letters .yes hpeek hletters
  next hpeek =>
    obtain ⟨⟨⟨⟩, c₁⟩, hletters, h⟩ := bind_eq_ok h
    cases h
    exact written_of_letters .no hpeek hletters
  next x _ _ _ _ _ _ _ hpeek =>
    split at h
    · obtain ⟨cs, hnumeral, hrest⟩ := exists_isNumeral_of_skipUnsigned (.inl rfl) h
      exact written_of_layout (.number cs hnumeral) hrest
    · cases h

theorem PassedSound.items_succ (ih : PassedSound fuel) (hlead : Leads first lead)
    (hrest : c₀.rest = lead ++ c.rest) (h : skipItemsWithin (fuel + 1) c = .ok c') :
    InList first c₀ c' := by
  rw [skipItemsWithin] at h
  obtain ⟨c₁, hvalue, h⟩ := bind_eq_ok h
  refine .cons hlead hrest (ih.value hvalue) ?_
  dsimp only at h
  split at h
  next hcomma =>
    obtain ⟨bs, hb, hrest'⟩ := exists_blanks_of_peek? hcomma
    exact ih.items (leads_comma hb) (by simpa using hrest') h
  next hclose =>
    obtain ⟨bs, hb, hrest'⟩ := exists_blanks_of_peek? hclose
    cases h
    exact .nil hb hrest'
  · cases h
  · cases h

theorem PassedSound.members_succ (ih : PassedSound fuel) (hlead : Leads first lead)
    (hrest : c₀.rest = lead ++ c.rest) (h : skipMembersWithin (fuel + 1) c = .ok c') :
    InObject first c₀ c' := by
  rw [skipMembersWithin] at h
  obtain ⟨c₁, hkey, h⟩ := bind_eq_ok h
  obtain ⟨c₂, hvalue, h⟩ := bind_eq_ok h
  obtain ⟨bs, key, bs', hb, hb', hkey⟩ := exists_key_of_skipKey hkey
  refine .cons (hlead.append hb) hb' (by rw [hrest, hkey, List.append_assoc]) (ih.value hvalue) ?_
  dsimp only at h
  split at h
  next hcomma =>
    obtain ⟨bs, hb, hrest'⟩ := exists_blanks_of_peek? hcomma
    exact ih.members (leads_comma hb) (by simpa using hrest') h
  next hclose =>
    obtain ⟨bs, hb, hrest'⟩ := exists_blanks_of_peek? hclose
    cases h
    exact .nil hb hrest'
  · cases h
  · cases h

end Rounds

theorem passedSound (fuel : Nat) : PassedSound fuel := by
  induction fuel with
  | zero => exact ⟨nofun, fun _ _ => nofun, fun _ _ => nofun⟩
  | succ fuel ih => exact ⟨ih.value_succ, ih.items_succ, ih.members_succ⟩

/-- **What is passed over as a value is written as one.** -/
theorem written_of_skipValue (h : skipValue c = .ok c') : Written c c' := (passedSound _).value h

end PublisherConsole.Json
