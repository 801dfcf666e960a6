import PublisherConsole.Proofs.Json.SyntaxTree

/-!
# Values are passed over whole

A value that no reader wants is passed over from its first character to its last, whatever it holds
(`Layout.skipValue`). The fuel of `skipValue` suffices, since every round takes a character.
-/

namespace PublisherConsole.Json

open Cursor

variable {cs ds rest : List Char} {p : Place}

/-! ### Strings -/

theorem hexValue?_isSome_utf8Size {x : Char} {n : Nat} (h : hexValue? x = some n) :
    x.utf8Size = 1 := by
  have hascii : x.val ≤ 0x7f := by
    simp only [hexValue?, Char.isDigit, Char.le_def, Bool.and_eq_true, decide_eq_true_eq] at h
    split_ifs at h with hd ha hA
    · exact UInt32.le_trans hd.2 (by decide)
    · exact UInt32.le_trans ha.2 (by decide)
    · exact UInt32.le_trans hA.2 (by decide)
  simp [Char.utf8Size, hascii]

/-- The four digits of a code unit are read. -/
theorem readHex_unit {w x y z : Char} {n : Nat} (h : hexUnit? w x y z = some n) (rest : List Char)
    (p : Place) :
    ∃ q, readHex ⟨w :: x :: y :: z :: rest, p⟩ = .ok (n, ⟨rest, q⟩) := by
  unfold hexUnit? at h
  split at h
  next a b c d hw hx hy hz =>
    cases h
    have bytes : hasBytes 4 (w :: x :: y :: z :: rest) = true := by
      simp [hasBytes, hexValue?_isSome_utf8Size hw, hexValue?_isSome_utf8Size hx,
        hexValue?_isSome_utf8Size hy, hexValue?_isSome_utf8Size hz]
    refine ⟨p.afterAll [w, x, y, z], ?_⟩
    simp only [readHex, bytes, if_true, hw, hx, hy, hz]
  next => cases h

/-- A glyph is passed over in one round. -/
theorem skipCharsWithin_glyph (g : Glyph) (fuel : Nat) (rest : List Char) (p : Place) :
    ∃ q, skipCharsWithin (fuel + 1) ⟨g.written ++ rest, p⟩ = skipCharsWithin fuel ⟨rest, q⟩ := by
  cases g with
  | plain x free =>
    refine ⟨p.after x, ?_⟩
    obtain ⟨hquote, hslash, hcontrol⟩ := free
    simp only [Glyph.written, List.cons_append, List.nil_append, skipCharsWithin,
      if_neg (Nat.not_lt.mpr hcontrol), next_cons]
  | escape x y means =>
    refine ⟨(p.after '\\').after x, ?_⟩
    have hu : x ≠ 'u' := by rintro rfl; cases means
    simp only [Glyph.written, List.cons_append, List.nil_append, skipCharsWithin, next_cons]
    split <;> simp_all
  | unit w x y z n means =>
    obtain ⟨q, hq⟩ := readHex_unit means rest ((p.after '\\').after 'u')
    refine ⟨q, ?_⟩
    simp only [Glyph.written, List.cons_append, List.nil_append, skipCharsWithin, next_cons, hq,
      bind, Except.bind]

theorem length_le_body (gs : List Glyph) : gs.length ≤ (body gs).length := by
  induction gs with
  | nil => simp
  | cons g gs ih =>
    have : 0 < g.written.length := by cases g <;> simp [Glyph.written]
    simp only [body_cons, List.length_append, List.length_cons]
    omega

theorem skipCharsWithin_body {gs : List Glyph} {fuel : Nat} (hfuel : gs.length < fuel)
    (rest : List Char) (p : Place) :
    ∃ q, skipCharsWithin fuel ⟨body gs ++ '"' :: rest, p⟩ = .ok ⟨rest, q⟩ := by
  induction gs generalizing fuel p with
  | nil =>
    obtain ⟨fuel, rfl⟩ : ∃ n, fuel = n + 1 := ⟨fuel - 1, by simp at hfuel; omega⟩
    exact ⟨p.after '"', by simp [body, skipCharsWithin]⟩
  | cons g gs ih =>
    obtain ⟨fuel, rfl⟩ : ∃ n, fuel = n + 1 := ⟨fuel - 1, by simp at hfuel; omega⟩
    obtain ⟨q, hq⟩ := skipCharsWithin_glyph g fuel (body gs ++ '"' :: rest) p
    obtain ⟨q', hq'⟩ := ih (by simp at hfuel; omega) q
    refine ⟨q', ?_⟩
    rw [body_cons, List.append_assoc, hq, hq']

/-- A string is passed over behind its opening quote. -/
theorem skipString_body (gs : List Glyph) (rest : List Char) (p : Place) :
    ∃ q, skipString ⟨body gs ++ '"' :: rest, p⟩ = .ok ⟨rest, q⟩ := by
  refine skipCharsWithin_body ?_ rest p
  have := length_le_body gs
  simp only [List.length_append, List.length_cons]
  omega

/-! ### Numbers -/

/-- Digits are passed over up to a character that is none. -/
theorem skipDigitsFrom_append (hd : ∀ x ∈ ds, x.isDigit = true)
    (hrest : ∀ x ∈ rest.head?, x.isDigit = false) :
    ∃ q, skipDigitsFrom (ds ++ rest) p = ⟨rest, q⟩ := by
  induction ds generalizing p with
  | nil =>
    refine ⟨p, ?_⟩
    cases rest with
    | nil => rfl
    | cons x xs => simp [skipDigitsFrom, hrest x (by simp)]
  | cons d ds ih =>
    obtain ⟨q, hq⟩ := ih (fun x hx => hd x (by simp [hx])) (p := p.after d)
    exact ⟨q, by simp [skipDigitsFrom, hd d (by simp), hq]⟩

/-- An exponent is passed over from its letter on. -/
theorem skipExponent_append {e : Char} {sign : List Char} (he : Ends rest)
    (hsign : sign = [] ∨ sign = ['+'] ∨ sign = ['-']) (hd : IsDigits ds) :
    ∃ q, skipExponent ⟨e :: (sign ++ (ds ++ rest)), p⟩ = .ok ⟨rest, q⟩ := by
  obtain ⟨d, ds, rfl⟩ := List.exists_cons_of_ne_nil hd.1
  have hdigit : d.isDigit = true := hd.2 d (by simp)
  have hplus : d ≠ '+' := by rintro rfl; cases hdigit
  have hminus : d ≠ '-' := by rintro rfl; cases hdigit
  have hdigits (p : Place) : ∃ q, skipDigitsFrom (ds ++ rest) p = ⟨rest, q⟩ :=
    skipDigitsFrom_append (fun x hx => hd.2 x (by simp [hx])) fun x hx => (he.ne x hx).1
  rcases hsign with rfl | rfl | rfl
  · obtain ⟨q, hq⟩ := hdigits ((p.after e).after d)
    exact ⟨q, by simp [skipExponent, exponentSign, hplus, hminus, hdigit, hq]⟩
  · obtain ⟨q, hq⟩ := hdigits (((p.after e).after '+').after d)
    exact ⟨q, by simp [skipExponent, exponentSign, hdigit, hq]⟩
  · obtain ⟨q, hq⟩ := hdigits (((p.after e).after '-').after d)
    exact ⟨q, by simp [skipExponent, exponentSign, hdigit, hq]⟩

/-- An exponent or nothing, where a fraction might stand as well. -/
theorem skipAfterWhole_exponent (he : Ends rest) (hcs : IsExponent cs) :
    ∃ q, skipAfterWhole ⟨cs ++ rest, p⟩ = .ok ⟨rest, q⟩ := by
  rcases hcs with rfl | ⟨e, sign, ds, hletter, hsign, hd, rfl⟩
  · refine ⟨p, ?_⟩
    cases rest with
    | nil => rfl
    | cons x xs =>
      obtain ⟨-, hpoint, hlow, hhigh⟩ := he.ne x (by simp)
      simp [skipAfterWhole, hpoint, hlow, hhigh]
  · obtain ⟨q, hq⟩ := skipExponent_append (e := e) (p := p) he hsign hd
    refine ⟨q, ?_⟩
    rw [← hq]
    rcases hletter with rfl | rfl <;> simp [skipAfterWhole]

/-- Behind its digits a fraction is followed by what may follow the whole part. -/
theorem skipFraction_append (hd : IsDigits ds)
    (hrest : ∀ x ∈ rest.head?, x.isDigit = false ∧ x ≠ '.') :
    ∃ q, skipFraction ⟨'.' :: (ds ++ rest), p⟩ = skipAfterWhole ⟨rest, q⟩ := by
  obtain ⟨q, hq⟩ := skipDigitsFrom_append (p := p.after '.') hd.2 fun x hx => (hrest x hx).1
  refine ⟨q, ?_⟩
  obtain ⟨d, ds, rfl⟩ := List.exists_cons_of_ne_nil hd.1
  have hdigit : d.isDigit = true := hd.2 d (by simp)
  rw [List.cons_append] at hq ⊢
  simp only [skipFraction, next_cons, peek?_cons, hdigit, if_true, hq]
  cases rest with
  | nil => rfl
  | cons x xs =>
    have hpoint : x ≠ '.' := (hrest x (by simp)).2
    simp only [skipAfterWhole, peek?_cons]
    split <;> simp_all

/-- An exponent or what ends a value goes on neither with a digit nor with a point. -/
theorem IsExponent.ne {exponent : List Char} (h : IsExponent exponent) (he : Ends rest) :
    ∀ x ∈ (exponent ++ rest).head?, x.isDigit = false ∧ x ≠ '.' := by
  rcases h with rfl | ⟨e, sign, ds, hletter, -, -, rfl⟩
  · exact fun x hx => ⟨(he.ne x hx).1, (he.ne x hx).2.1⟩
  · rcases hletter with rfl | rfl <;> simp

/-- What follows the whole part of a number is passed over. -/
theorem skipAfterWhole_append {fraction exponent : List Char} (he : Ends rest)
    (hf : IsFraction fraction) (hx : IsExponent exponent) :
    ∃ q, skipAfterWhole ⟨fraction ++ (exponent ++ rest), p⟩ = .ok ⟨rest, q⟩ := by
  rcases hf with rfl | ⟨ds, hd, rfl⟩
  · exact skipAfterWhole_exponent he hx
  · obtain ⟨q, hq⟩ := skipFraction_append (p := p) hd (hx.ne he)
    obtain ⟨q', hq'⟩ := skipAfterWhole_exponent (p := q) he hx
    refine ⟨q', ?_⟩
    rw [← hq', ← hq]
    simp [skipAfterWhole]

/-- A number is passed over behind its sign. -/
theorem skipUnsigned_append {whole fraction exponent : List Char} (he : Ends rest)
    (hw : IsWhole whole) (hf : IsFraction fraction) (hx : IsExponent exponent) :
    ∃ q, skipUnsigned ⟨whole ++ (fraction ++ (exponent ++ rest)), p⟩ = .ok ⟨rest, q⟩ := by
  have hafter : ∀ x ∈ (fraction ++ (exponent ++ rest)).head?, x.isDigit = false := by
    rcases hf with rfl | ⟨ds, -, rfl⟩
    · exact fun x hx' => (hx.ne he x hx').1
    · simp
  rcases hw with rfl | ⟨hd, hzero⟩
  · obtain ⟨q, hq⟩ := skipAfterWhole_append (p := p.after '0') he hf hx
    refine ⟨q, ?_⟩
    rw [← hq]
    generalize fraction ++ (exponent ++ rest) = after at hafter
    cases after with
    | nil => rfl
    | cons x xs => simp [skipUnsigned, hafter x (by simp)]
  · obtain ⟨d, ds, rfl⟩ := List.exists_cons_of_ne_nil hd.1
    have hdigit : d.isDigit = true := hd.2 d (by simp)
    have hne : d ≠ '0' := by simpa using hzero
    have hds : ∀ x ∈ ds, x.isDigit = true := fun x hx => hd.2 x (by simp [hx])
    obtain ⟨q, hq⟩ := skipDigitsFrom_append (p := p.after d) hds hafter
    obtain ⟨q', hq'⟩ := skipAfterWhole_append (p := q) he hf hx
    exact ⟨q', by simp [skipUnsigned, hne, hdigit, hq, hq']⟩

/-! ### Values -/

/-- A literal is passed over letter by letter. -/
theorem readLetters_append (ls rest : List Char) (p : Place) :
    ∃ q, readLetters ls ⟨ls ++ rest, p⟩ = .ok ((), ⟨rest, q⟩) := by
  induction ls generalizing p with
  | nil => exact ⟨p, rfl⟩
  | cons l ls ih =>
    obtain ⟨q, hq⟩ := ih (p.after l)
    exact ⟨q, by simpa [readLetters] using hq⟩

/-- A key and its colon are passed over. -/
theorem skipKey_append {bs bs' : List Char} (hb : Blanks bs) (hb' : Blanks bs') (key : List Glyph)
    (rest : List Char) (p : Place) :
    ∃ q, skipKey ⟨bs ++ (quoted key ++ (bs' ++ ':' :: rest)), p⟩ = .ok ⟨rest, q⟩ := by
  obtain ⟨q, hq⟩ := skipString_body key (bs' ++ ':' :: rest) ((p.afterAll bs).after '"')
  refine ⟨(q.afterAll bs').after ':', ?_⟩
  simp only [quoted, List.cons_append, List.append_assoc, List.nil_append, skipKey,
    skipBlanks_append hb (x := '"') rfl, peek?_cons, next_cons, hq, bind, Except.bind,
    skipBlanks_append hb' (x := ':') rfl]

/-- A value is passed over, with blanks in front of it; behind an item or a member that is passed
over, so is the rest of its list or object. -/
def Passed (rest cs : List Char) : Part → Prop
  | .value _ => ∀ fuel bs p, 2 * cs.length ≤ fuel → Blanks bs → Ends rest →
      ∃ q, skipValueWithin fuel ⟨bs ++ (cs ++ rest), p⟩ = .ok ⟨rest, q⟩
  | .items _ => ∀ fuel c p, 2 * cs.length ≤ fuel → skipValueWithin fuel c = .ok ⟨cs ++ rest, p⟩ →
      ∃ q, skipItemsWithin (fuel + 1) c = .ok ⟨rest, q⟩
  | .members _ => ∀ fuel c c' p, 2 * cs.length ≤ fuel → skipKey c = .ok c' →
      skipValueWithin fuel c' = .ok ⟨cs ++ rest, p⟩ →
      ∃ q, skipMembersWithin (fuel + 1) c = .ok ⟨rest, q⟩

/-- The first character of a value decides how it is passed over; one round looks at it. -/
theorem passed_of_opens {t : SyntaxTree} {x : Char} {xs : List Char} (hx : isBlank x = false)
    (h : ∀ fuel p, 2 * xs.length < fuel → Ends rest →
      ∃ q, skipValueWithin (fuel + 1) ⟨x :: (xs ++ rest), p⟩ = .ok ⟨rest, q⟩) :
    Passed rest (x :: xs) (.value t) := by
  intro fuel bs p hfuel hb he
  obtain ⟨fuel, rfl⟩ : ∃ n, fuel = n + 1 := ⟨fuel - 1, by simp at hfuel; omega⟩
  obtain ⟨q, hq⟩ := h fuel (p.afterAll bs) (by simp at hfuel; omega) he
  refine ⟨q, ?_⟩
  rw [← hq]
  simp only [List.cons_append, skipValueWithin, skipBlanks_append hb hx, skipBlanks_cons hx]

/-- A number without a sign is passed over from its first digit on. -/
theorem skipValueWithin_digit {x : Char} {fuel : Nat} (hx : x.isDigit = true) :
    skipValueWithin (fuel + 1) ⟨x :: cs, p⟩ = skipUnsigned ⟨x :: cs, p⟩ := by
  have hblank : isBlank x = false := IsOpening.not_isBlank (by simp [IsOpening, hx])
  simp only [skipValueWithin, skipBlanks_cons hblank, peek?_cons]
  split <;> simp_all

theorem passed_numeral (h : IsNumeral cs) : Passed rest cs (.value (.number cs h)) := by
  obtain ⟨sign, whole, fraction, exponent, hsign, hw, hf, hx, htext⟩ := id h
  rcases hsign with rfl | rfl
  · have hcs : cs ++ rest = whole ++ (fraction ++ (exponent ++ rest)) := by simp [htext]
    obtain ⟨x, xs, rfl, hdigit⟩ : ∃ x xs, cs = x :: xs ∧ x.isDigit = true := by
      rcases hw with rfl | ⟨⟨hne, hd⟩, -⟩
      · exact ⟨'0', _, htext, rfl⟩
      · obtain ⟨d, ds, rfl⟩ := List.exists_cons_of_ne_nil hne
        exact ⟨d, _, htext, hd d (by simp)⟩
    refine passed_of_opens (IsOpening.not_isBlank (by simp [IsOpening, hdigit])) fun fuel p _ he => ?_
    rw [skipValueWithin_digit hdigit, ← List.cons_append, hcs]
    exact skipUnsigned_append he hw hf hx
  · subst htext
    refine passed_of_opens rfl fun fuel p _ he => ?_
    obtain ⟨q, hq⟩ := skipUnsigned_append (p := p.after '-') he hw hf hx
    refine ⟨q, ?_⟩
    rw [← hq, ← List.append_assoc, ← List.append_assoc]
    simp only [skipValueWithin, skipBlanks_cons (x := '-') rfl, peek?_cons, next_cons]
    simp

/-- A keyword is passed over letter by letter, once its first letter has told which one it is. -/
theorem passed_keyword {t : SyntaxTree} {x : Char} {ls : List Char} (hx : isBlank x = false)
    (hround : ∀ fuel p, skipValueWithin (fuel + 1) ⟨x :: (ls ++ rest), p⟩ =
      (readLetters ls ⟨ls ++ rest, p.after x⟩).map (·.2)) :
    Passed rest (x :: ls) (.value t) := by
  refine passed_of_opens hx fun fuel p _ _ => ?_
  obtain ⟨q, hq⟩ := readLetters_append ls rest (p.after x)
  exact ⟨q, by rw [hround, hq]; rfl⟩

/-! ### Lists and objects

A bracket is followed by the other one or by a first item, and behind an item comes a comma or the
bracket that closes the list. -/

section

variable {fuel : Nat} {bs : List Char} {x : Char} {c c' : Cursor}

theorem skipValueWithin_list (hb : Blanks bs) (hx : isBlank x = false) (hclose : x ≠ ']') :
    skipValueWithin (fuel + 1) ⟨'[' :: (bs ++ x :: cs), p⟩ =
      skipItemsWithin fuel ⟨x :: cs, (p.after '[').afterAll bs⟩ := by
  simp only [skipValueWithin, skipBlanks_cons (x := '[') rfl, peek?_cons, next_cons,
    skipBlanks_append hb hx]

theorem skipValueWithin_object (hb : Blanks bs) :
    skipValueWithin (fuel + 1) ⟨'\x7b' :: (bs ++ '"' :: cs), p⟩ =
      skipMembersWithin fuel ⟨'"' :: cs, (p.after '\x7b').afterAll bs⟩ := by
  simp only [skipValueWithin, skipBlanks_cons (x := '\x7b') rfl, peek?_cons, next_cons,
    skipBlanks_append hb (x := '"') rfl]
  rfl

theorem skipItemsWithin_comma (hb : Blanks bs)
    (hc : skipValueWithin fuel c = .ok ⟨bs ++ ',' :: cs, p⟩) :
    skipItemsWithin (fuel + 1) c = skipItemsWithin fuel ⟨cs, (p.afterAll bs).after ','⟩ := by
  conv_lhs => rw [skipItemsWithin]
  simp only [hc, bind, Except.bind, skipBlanks_append hb (x := ',') rfl, peek?_cons, next_cons]

theorem skipMembersWithin_comma (hb : Blanks bs) (hc : skipKey c = .ok c')
    (hc' : skipValueWithin fuel c' = .ok ⟨bs ++ ',' :: cs, p⟩) :
    skipMembersWithin (fuel + 1) c = skipMembersWithin fuel ⟨cs, (p.afterAll bs).after ','⟩ := by
  conv_lhs => rw [skipMembersWithin]
  simp only [hc, hc', bind, Except.bind, skipBlanks_append hb (x := ',') rfl, peek?_cons,
    next_cons]

end

/-- **A value is passed over whole**, from its first character to its last. -/
theorem Layout.passed {part : Part} (h : Layout part cs) (rest : List Char) :
    Passed rest cs part := by
  induction h generalizing rest with
  | null | yes | no =>
    refine passed_keyword rfl fun fuel p => ?_
    simp only [skipValueWithin, skipBlanks_cons (x := 'n') rfl, skipBlanks_cons (x := 't') rfl,
      skipBlanks_cons (x := 'f') rfl, peek?_cons, next_cons]
    rfl
  | number cs h => exact passed_numeral h
  | text gs =>
    refine passed_of_opens rfl fun fuel p _ _ => ?_
    obtain ⟨q, hq⟩ := skipString_body gs rest (p.after '"')
    refine ⟨q, ?_⟩
    simp only [List.append_assoc, List.cons_append, List.nil_append, skipValueWithin,
      skipBlanks_cons (x := '"') rfl, peek?_cons, next_cons, hq]
  | @emptyList bs hb =>
    refine passed_of_opens rfl fun fuel p _ _ => ⟨((p.after '[').afterAll bs).after ']', ?_⟩
    simp only [List.append_assoc, List.cons_append, List.nil_append, skipValueWithin,
      skipBlanks_cons (x := '[') rfl, peek?_cons, next_cons, skipBlanks_append hb (x := ']') rfl]
  | @list bs cs later' t ts hb first later ihFirst ihLater =>
    refine passed_of_opens rfl fun fuel p hfuel _ => ?_
    simp only [List.length_append] at hfuel
    obtain ⟨fuel, rfl⟩ : ∃ n, fuel = n + 1 := ⟨fuel - 1, by omega⟩
    obtain ⟨x, xs, rfl, hx⟩ := first.exists_opens
    obtain ⟨q, hq⟩ := ihFirst (later' ++ rest) fuel [] ((p.after '[').afterAll bs)
      (by omega) blanks_nil later.ends_items
    obtain ⟨q', hq'⟩ := ihLater rest fuel _ q (by omega) hq
    refine ⟨q', ?_⟩
    rw [← hq', List.append_assoc, List.append_assoc]
    exact skipValueWithin_list hb hx.isOpening.not_isBlank hx.isOpening.ne.2.1
  | @emptyObject bs hb =>
    refine passed_of_opens rfl fun fuel p _ _ => ⟨((p.after '\x7b').afterAll bs).after '\x7d', ?_⟩
    simp only [List.append_assoc, List.cons_append, List.nil_append, skipValueWithin,
      skipBlanks_cons (x := '\x7b') rfl, peek?_cons, next_cons,
      skipBlanks_append hb (x := '\x7d') rfl]
  | @object bs bs₁ bs₂ cs later' key t ms hb hb₁ hb₂ first later ihFirst ihLater =>
    refine passed_of_opens rfl fun fuel p hfuel _ => ?_
    simp only [List.length_append, List.length_cons] at hfuel
    obtain ⟨fuel, rfl⟩ : ∃ n, fuel = n + 1 := ⟨fuel - 1, by omega⟩
    obtain ⟨k, hk⟩ := skipKey_append blanks_nil hb₁ key (bs₂ ++ (cs ++ (later' ++ rest)))
      ((p.after '\x7b').afterAll bs)
    obtain ⟨q, hq⟩ := ihFirst (later' ++ rest) fuel bs₂ k (by omega) hb₂ later.ends_members
    obtain ⟨q', hq'⟩ := ihLater rest fuel _ _ q (by omega) hk hq
    refine ⟨q', ?_⟩
    rw [← hq']
    simp only [quoted, List.cons_append, List.append_assoc, List.nil_append,
      skipValueWithin_object hb]
  | @endList bs hb =>
    intro fuel c p _ hc
    refine ⟨(p.afterAll bs).after ']', ?_⟩
    simp only [skipItemsWithin, hc, bind, Except.bind, List.append_assoc, List.cons_append,
      List.nil_append, skipBlanks_append hb (x := ']') rfl, peek?_cons, next_cons]
  | @item bs bs' cs later' t ts hb hb' next later ihNext ihLater =>
    intro fuel c p hfuel hc
    simp only [List.length_cons, List.length_append] at hfuel
    obtain ⟨fuel, rfl⟩ : ∃ n, fuel = n + 1 := ⟨fuel - 1, by omega⟩
    obtain ⟨q, hq⟩ := ihNext (later' ++ rest) fuel bs' ((p.afterAll bs).after ',')
      (by omega) hb' later.ends_items
    obtain ⟨q', hq'⟩ := ihLater rest fuel _ q (by omega) hq
    simp only [List.append_assoc, List.cons_append] at hc
    exact ⟨q', (skipItemsWithin_comma hb hc).trans hq'⟩
  | @endObject bs hb =>
    intro fuel c c' p _ hc hc'
    refine ⟨(p.afterAll bs).after '\x7d', ?_⟩
    simp only [skipMembersWithin, hc, hc', bind, Except.bind, List.append_assoc, List.cons_append,
      List.nil_append, skipBlanks_append hb (x := '\x7d') rfl, peek?_cons, next_cons]
  | @member bs bs₁ bs₂ bs₃ cs later' key t ms hb hb₁ hb₂ hb₃ next later ihNext ihLater =>
    intro fuel c c' p hfuel hc hc'
    simp only [List.length_cons, List.length_append] at hfuel
    obtain ⟨fuel, rfl⟩ : ∃ n, fuel = n + 1 := ⟨fuel - 1, by omega⟩
    obtain ⟨k, hk⟩ := skipKey_append hb₁ hb₂ key (bs₃ ++ (cs ++ (later' ++ rest)))
      ((p.afterAll bs).after ',')
    obtain ⟨q, hq⟩ := ihNext (later' ++ rest) fuel bs₃ k (by omega) hb₃ later.ends_members
    obtain ⟨q', hq'⟩ := ihLater rest fuel _ _ q (by omega) hk hq
    simp only [List.append_assoc, List.cons_append] at hc'
    exact ⟨q', (skipMembersWithin_comma hb hc hc').trans hq'⟩

/-- A value is passed over with the fuel that its text gives. -/
theorem Layout.skipValue {t : SyntaxTree} {bs : List Char} (h : Layout (.value t) cs)
    (hb : Blanks bs) (he : Ends rest) (p : Place) :
    ∃ q, skipValue ⟨bs ++ (cs ++ rest), p⟩ = .ok ⟨rest, q⟩ := by
  refine h.passed rest _ bs p ?_ hb he
  simp only [List.length_append]
  omega

end PublisherConsole.Json
