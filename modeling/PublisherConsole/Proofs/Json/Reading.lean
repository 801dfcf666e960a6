import Mathlib.Tactic
import PublisherConsole.Json.Print
import PublisherConsole.Json.Shape

/-!
# Written values are read back

`Reads r cs a` says that the reader `r` takes exactly the text `cs` from the front and finds `a` in
it, whatever follows. What the printer writes is followed from the inside outwards:

* strings with their escapes (`reads_readString`, `reads_readTextAs`);
* optional texts (`reads_readOptional`), and lists of texts (`reads_readTexts`);
* numbers (`reads_readNat64`), which are only read up to where a value ends (`ReadsBefore`);
* the members of an object, for a record with named fields (`Shape.Takes`, `Shape.reads_object`).
-/

namespace PublisherConsole.Json

open Cursor

variable {α σ : Type} {a : α} {cs rest : List Char} {p : Place}

/-- The reader takes the text `cs` from the front and finds `a` in it, whatever follows. -/
def Reads (r : Reader α) (cs : List Char) (a : α) : Prop :=
  ∀ rest p, ∃ q, r ⟨cs ++ rest, p⟩ = .ok (a, ⟨rest, q⟩)

/-! ### Blanks -/

/-- Text of blanks only. -/
def Blanks (cs : List Char) : Prop := ∀ x ∈ cs, isBlank x = true

theorem blanks_nil : Blanks [] := by simp [Blanks]

theorem blanks_space : Blanks [' '] := by simp [Blanks, isBlank]

theorem blanks_newLine (depth : Nat) : Blanks (newLine depth) := by
  intro x hx
  simp only [newLine, List.mem_cons, List.mem_replicate] at hx
  rcases hx with rfl | ⟨-, rfl⟩ <;> rfl

/-- Blanks are passed over up to a character that is none. -/
theorem skipBlanks_append {bs : List Char} (hb : Blanks bs) {x : Char} (hx : isBlank x = false) :
    (⟨bs ++ x :: cs, p⟩ : Cursor).skipBlanks = ⟨x :: cs, p.afterAll bs⟩ := by
  unfold skipBlanks
  dsimp only
  induction bs generalizing p with
  | nil => simp [skipBlanksFrom, hx, Place.afterAll]
  | cons b bs ih =>
    have hblank : isBlank b = true := hb b (by simp)
    simp only [List.cons_append, skipBlanksFrom, hblank, if_true]
    rw [ih fun y hy => hb y (by simp [hy])]
    rfl

theorem skipBlanks_cons {x : Char} (hx : isBlank x = false) :
    (⟨x :: cs, p⟩ : Cursor).skipBlanks = ⟨x :: cs, p⟩ := by
  exact skipBlanks_append blanks_nil hx

@[simp] theorem peek?_cons (x : Char) : (⟨x :: cs, p⟩ : Cursor).peek? = some x := rfl

@[simp] theorem next_cons (x : Char) : (⟨x :: cs, p⟩ : Cursor).next = ⟨cs, p.after x⟩ := rfl

/-! ### Where a value ends -/

/-- Text in which a value that has just been written does not go on. -/
def Ends (rest : List Char) : Prop :=
  ∀ x ∈ rest.head?, isBlank x = true ∨ x = ',' ∨ x = ']' ∨ x = '\x7d'

/-- A value ends before the blanks behind it and before what separates or closes. -/
theorem ends_append {bs : List Char} {x : Char} (hb : Blanks bs)
    (hx : x = ',' ∨ x = ']' ∨ x = '\x7d') : Ends (bs ++ x :: rest) := by
  cases bs with
  | nil => simpa [Ends] using .inr hx
  | cons b bs => simpa [Ends] using .inl (hb b (by simp))

theorem ends_of_blanks {bs : List Char} (hb : Blanks bs) : Ends bs := by
  intro x hx
  exact .inl (hb x (List.mem_of_mem_head? hx))

/-- What ends a value does not go on with a number. -/
theorem Ends.ne (h : Ends rest) :
    ∀ x ∈ rest.head?, x.isDigit = false ∧ x ≠ '.' ∧ x ≠ 'e' ∧ x ≠ 'E' := by
  intro x hx
  have := h x hx
  simp only [isBlank, Bool.or_eq_true, decide_eq_true_eq, or_assoc] at this
  rcases this with rfl | rfl | rfl | rfl | rfl | rfl | rfl <;> decide

/-- The reader takes the text `cs` from the front and finds `a` in it, if a value ends there. Of
numbers no more can be said: they go on as long as there are digits. -/
def ReadsBefore (r : Reader α) (cs : List Char) (a : α) : Prop :=
  ∀ rest p, Ends rest → ∃ q, r ⟨cs ++ rest, p⟩ = .ok (a, ⟨rest, q⟩)

theorem Reads.before {r : Reader α} (h : Reads r cs a) : ReadsBefore r cs a :=
  fun rest p _ => h rest p

/-- What has been read may be put with other things. -/
theorem ReadsBefore.put {r : Reader α} (h : ReadsBefore r cs a) (put : α → σ) :
    ReadsBefore (fun c => do
      let (v, c) ← r c
      .ok (put v, c)) cs (put a) := by
  intro rest p hrest
  obtain ⟨q, hq⟩ := h rest p hrest
  exact ⟨q, by simp [hq, bind, Except.bind]⟩

/-! ### Strings -/

theorem hexValue?_lowHex {n : Nat} (h : n < 16) :
    hexValue? (lowHex n) = some n ∧ (lowHex n).utf8Size = 1 := by
  revert n
  decide

/-- The four digits of a small code unit. -/
theorem readHex_lowHex {n : Nat} (h : n < 256) :
    Reads readHex ['0', '0', lowHex (n / 16), lowHex (n % 16)] n := by
  intro rest p
  obtain ⟨high, highSize⟩ := hexValue?_lowHex (n := n / 16) (by omega)
  obtain ⟨low, lowSize⟩ := hexValue?_lowHex (n := n % 16) (by omega)
  have zero : hexValue? '0' = some 0 ∧ ('0' : Char).utf8Size = 1 := by decide
  refine ⟨p.afterAll ['0', '0', lowHex (n / 16), lowHex (n % 16)], ?_⟩
  have bytes : hasBytes 4 ('0' :: '0' :: lowHex (n / 16) :: lowHex (n % 16) :: rest) = true := by
    simp [hasBytes, zero, highSize, lowSize]
  simp only [readHex, List.cons_append, List.nil_append, bytes, if_true, zero.1, high, low]
  congr 3
  omega

/-- Every character is read back from its escape. -/
theorem readCharsWithin_escapeChar (fuel : Nat) (done : List Char) (x : Char) (cs : List Char)
    (p : Place) :
    ∃ q, readCharsWithin (fuel + 1) done ⟨escapeChar x ++ cs, p⟩ =
      readCharsWithin fuel (x :: done) ⟨cs, q⟩ := by
  unfold escapeChar
  split
  case h_8 hquote hslash _ _ _ _ _ =>
    split
    next hcontrol =>
      obtain ⟨q, hq⟩ := readHex_lowHex (n := x.toNat) (by omega) cs ((p.after '\\').after 'u')
      simp only [List.cons_append, List.nil_append] at hq
      have htrailing : isTrailing x.toNat = false := by simp [isTrailing]; omega
      have hleading : isLeading x.toNat = false := by simp [isLeading]; omega
      refine ⟨q, ?_⟩
      simp [readCharsWithin, readCodePoint, hq, bind, Except.bind, htrailing, hleading]
    next hplain =>
      refine ⟨p.after x, ?_⟩
      simp only [List.cons_append, List.nil_append]
      simp only [readCharsWithin]
      split <;> simp_all
  all_goals exact ⟨_, rfl⟩

/-- Every escape has a character at least, so the length of a text bounds the rounds of reading. -/
theorem length_le_escapes (xs : List Char) : xs.length ≤ (xs.flatMap escapeChar).length := by
  induction xs with
  | nil => simp
  | cons x xs ih =>
    have : 0 < (escapeChar x).length := by unfold escapeChar; split <;> (try split) <;> simp
    simp only [List.length_cons, List.flatMap_cons, List.length_append]
    omega

/-- Escaped characters are read back up to the closing quote. -/
theorem readCharsWithin_escapes {fuel : Nat} (xs done : List Char) (h : xs.length < fuel)
    (rest : List Char) (p : Place) :
    ∃ q, readCharsWithin fuel done ⟨xs.flatMap escapeChar ++ '"' :: rest, p⟩ =
      .ok (done.reverse ++ xs, ⟨rest, q⟩) := by
  induction xs generalizing fuel done p with
  | nil =>
    obtain ⟨fuel, rfl⟩ : ∃ n, fuel = n + 1 := ⟨fuel - 1, by simp at h; omega⟩
    exact ⟨p.after '"', by simp [readCharsWithin]⟩
  | cons x xs ih =>
    obtain ⟨fuel, rfl⟩ : ∃ n, fuel = n + 1 := ⟨fuel - 1, by simp at h; omega⟩
    obtain ⟨q, hq⟩ := readCharsWithin_escapeChar fuel done x (xs.flatMap escapeChar ++ '"' :: rest) p
    obtain ⟨q', hq'⟩ := ih (x :: done) (by simp at h; omega) q
    refine ⟨q', ?_⟩
    rw [List.flatMap_cons, List.append_assoc, hq, hq']
    simp

theorem stringText_eq (s : String) :
    stringText s = '"' :: (s.toList.flatMap escapeChar ++ ['"']) := rfl

/-- A string is read back behind its opening quote. -/
theorem reads_readString (s : String) : Reads readString (s.toList.flatMap escapeChar ++ ['"']) s := by
  intro rest p
  have hfuel : s.toList.length < (s.toList.flatMap escapeChar ++ '"' :: rest).length + 1 := by
    have := length_le_escapes s.toList
    rw [List.length_append]
    omega
  obtain ⟨q, hq⟩ := readCharsWithin_escapes s.toList [] hfuel rest p
  refine ⟨q, ?_⟩
  simp only [List.append_assoc, List.cons_append, List.nil_append, readString]
  rw [hq]
  simp [bind, Except.bind]

/-! ### Values -/

/-- A reader that goes by the first character of its value passes over blanks before it. -/
theorem reads_onValue {k : Char → Reader α} {bs : List Char} {x : Char} (hb : Blanks bs)
    (hx : isBlank x = false) (h : Reads (k x) (x :: cs) a) : Reads (onValue k) (bs ++ x :: cs) a := by
  intro rest p
  obtain ⟨q, hq⟩ := h rest (p.afterAll bs)
  refine ⟨q, ?_⟩
  simp only [onValue, List.append_assoc, List.cons_append, skipBlanks_append hb hx, peek?_cons]
  exact hq

/-- A string that passes its check is read back. -/
theorem reads_readTextAs (expected : String) {check : String → Except Fault α} {bs : List Char}
    {s : String} (hb : Blanks bs) (h : check s = .ok a) :
    Reads (readTextAs expected check) (bs ++ stringText s) a := by
  rw [stringText_eq]
  refine reads_onValue hb rfl fun rest p => ?_
  obtain ⟨q, hq⟩ := reads_readString s rest (p.after '"')
  refine ⟨q, ?_⟩
  simp only [List.cons_append, if_true, next_cons, hq, bind, Except.bind, h]

theorem reads_readText {bs : List Char} (hb : Blanks bs) (s : String) :
    Reads readText (bs ++ stringText s) s :=
  reads_readTextAs "a string" hb rfl

/-- A text or its absence is read back. -/
theorem reads_readOptional {bs : List Char} (hb : Blanks bs) (depth : Nat) (o : Option String) :
    Reads (readOptional readText) (bs ++ (Value.optionalText o).pretty depth) o := by
  intro rest p
  cases o with
  | none =>
    refine ⟨(p.afterAll bs).afterAll ['n', 'u', 'l', 'l'], ?_⟩
    simp only [Value.optionalText, Value.pretty, List.append_assoc, List.cons_append,
      List.nil_append, readOptional, skipBlanks_append hb (x := 'n') rfl, peek?_cons, if_true]
    rfl
  | some s =>
    obtain ⟨q, hq⟩ := reads_readText blanks_nil s rest (p.afterAll bs)
    refine ⟨q, ?_⟩
    rw [List.nil_append, stringText_eq, List.cons_append] at hq
    rw [Value.optionalText, Value.pretty, stringText_eq, List.append_assoc, List.cons_append]
    simp only [readOptional, skipBlanks_append hb (x := '"') rfl, peek?_cons]
    rw [if_neg (by decide), hq]
    rfl

/-! ### Numbers -/

/-- Only zero is written with a zero in front. -/
theorem head?_toDigits {n : Nat} (h : n ≠ 0) : (Nat.toDigits 10 n).head? ≠ some '0' := by
  induction n using Nat.strong_induction_on with
  | _ n ih =>
    rw [Nat.toDigits_eq_if (by decide)]
    split
    next hsmall =>
      have hdigit : ∀ k < 10, k ≠ 0 → [Nat.digitChar k].head? ≠ some '0' := by decide
      exact hdigit n hsmall h
    next hlarge =>
      rw [List.head?_append_of_ne_nil _ Nat.toDigits_ne_nil]
      exact ih (n / 10) (by omega) (by omega)

/-- Digits only make a number larger. -/
theorem le_ofDigitChars (ds : List Char) (n : Nat) : n ≤ Nat.ofDigitChars 10 ds n := by
  rw [Nat.ofDigitChars_eq_ofDigitChars_zero]
  have hpos : 1 ≤ 10 ^ ds.length := Nat.one_le_pow _ _ (by decide)
  nlinarith

/-- Digits are read up to a character that is none, as long as their number stays exact. -/
theorem integerDigits_append {ds : List Char} {n : Nat} (hd : ∀ x ∈ ds, x.isDigit = true)
    (hrest : ∀ x ∈ rest.head?, x.isDigit = false) (hn : Nat.ofDigitChars 10 ds n ≤ maxExact) :
    ∃ q, integerDigits (ds ++ rest) p n = ((Nat.ofDigitChars 10 ds n, true), ⟨rest, q⟩) := by
  induction ds generalizing n p with
  | nil =>
    refine ⟨p, ?_⟩
    cases rest with
    | nil => rfl
    | cons x rest => simp [integerDigits, hrest x rfl, Nat.ofDigitChars]
  | cons d ds ih =>
    rw [List.forall_mem_cons] at hd
    rw [Nat.ofDigitChars_cons, Nat.mul_comm] at hn ⊢
    have hfits : ¬ n * 10 + digitValue d > maxExact :=
      Nat.not_lt.2 ((le_ofDigitChars ds _).trans hn)
    obtain ⟨q, hq⟩ := ih (p := p.after d) hd.2 hn
    refine ⟨q, ?_⟩
    rw [List.cons_append, integerDigits, if_pos hd.1, if_neg hfits]
    exact hq

/-- A number without sign, point and exponent is a natural number. -/
theorem afterInteger_of_ends (h : Ends rest) (n : Nat) :
    afterInteger true n ⟨rest, p⟩ = .ok (.natural n, ⟨rest, p⟩) := by
  cases rest with
  | nil => rfl
  | cons x rest =>
    obtain ⟨-, hpoint, he, hE⟩ := h.ne x rfl
    simp only [afterInteger, peek?_cons, if_true]
    split <;> simp_all

/-- A number that fits 64 bits is read back from its digits. -/
theorem readUnsigned_toDigits {n : Nat} (hn : n ≤ maxExact) :
    ReadsBefore (readUnsigned true) (Nat.toDigits 10 n) (.natural n) := by
  intro rest p hrest
  have hdigit : ∀ x ∈ rest.head?, x.isDigit = false := fun x hx => (hrest.ne x hx).1
  by_cases hzero : n = 0
  · subst hzero
    refine ⟨p.after '0', ?_⟩
    rw [← afterInteger_of_ends hrest 0]
    cases rest with
    | nil => rfl
    | cons x rest => simp [readUnsigned, hdigit x rfl]
  · obtain ⟨x, ds, hds⟩ := List.exists_cons_of_ne_nil (Nat.toDigits_ne_nil (n := n) (b := 10))
    have hall : ∀ y ∈ x :: ds, y.isDigit = true := fun y hy =>
      Nat.isDigit_of_mem_toDigits (by decide) (by decide) (hds ▸ hy)
    rw [List.forall_mem_cons] at hall
    have hx : x ≠ '0' := by
      have hhead := head?_toDigits hzero
      rw [hds] at hhead
      exact fun heq => hhead (congrArg some heq)
    have hvalue : Nat.ofDigitChars 10 ds (digitValue x) = n := by
      have hdigits := Nat.ofDigitChars_ten_toDigits (n := n)
      rwa [hds, Nat.ofDigitChars_cons, Nat.mul_zero, Nat.zero_add] at hdigits
    obtain ⟨q, hq⟩ := integerDigits_append (p := p.after x) hall.2 hdigit (hvalue.trans_le hn)
    refine ⟨q, ?_⟩
    rw [hds, List.cons_append]
    simp only [readUnsigned, next_cons, if_neg hx, hall.1, if_true, hq, hvalue]
    exact afterInteger_of_ends hrest n

theorem not_isBlank_of_isDigit {x : Char} (h : x.isDigit = true) : isBlank x = false := by
  simp only [isBlank, Bool.or_eq_false_iff, decide_eq_false_iff_not]
  refine ⟨⟨⟨?_, ?_⟩, ?_⟩, ?_⟩ <;> rintro rfl <;> cases h

/-- A number that fits 64 bits is read back. -/
theorem reads_readNat64 {bs : List Char} (hb : Blanks bs) {n : Nat} (hn : n ≤ maxExact)
    (depth : Nat) : ReadsBefore readNat64 (bs ++ (Value.natural n).pretty depth) n := by
  intro rest p hrest
  obtain ⟨x, ds, hds⟩ := List.exists_cons_of_ne_nil (Nat.toDigits_ne_nil (n := n) (b := 10))
  have hx : x.isDigit = true :=
    Nat.isDigit_of_mem_toDigits (b := 10) (n := n) (by decide) (by decide) (by simp [hds])
  have hsign : x ≠ '-' := by
    rintro rfl
    cases hx
  obtain ⟨q, hq⟩ := readUnsigned_toDigits hn rest (p.afterAll bs) hrest
  refine ⟨q, ?_⟩
  rw [hds, List.cons_append] at hq
  rw [Value.pretty, hds, List.append_assoc, List.cons_append]
  simp only [readNat64, onValue, skipBlanks_append hb (not_isBlank_of_isDigit hx), peek?_cons, hx,
    or_true, if_true, readNumber, Option.some.injEq, if_neg hsign, hq, bind, Except.bind]

/-! ### Lists -/

/-- The first item of a list of texts, behind blanks. -/
theorem nextItem_text {bs : List Char} (hb : Blanks bs) :
    nextItem true ⟨bs ++ '"' :: cs, p⟩ = .ok (true, ⟨'"' :: cs, p.afterAll bs⟩) := by
  simp [nextItem, skipBlanks_append hb (x := '"') rfl]

/-- A later item of a list of texts, behind a comma and blanks. -/
theorem nextItem_later_text {bs : List Char} (hb : Blanks bs) :
    nextItem false ⟨',' :: (bs ++ '"' :: cs), p⟩ =
      .ok (true, ⟨'"' :: cs, (p.after ',').afterAll bs⟩) := by
  simp [nextItem, skipBlanks_cons (x := ',') rfl, skipBlanks_append hb (x := '"') rfl]

/-- The closing bracket of a list, behind blanks. -/
theorem nextItem_end {bs : List Char} (hb : Blanks bs) (first : Bool) :
    nextItem first ⟨bs ++ ']' :: cs, p⟩ = .ok (false, ⟨']' :: cs, p.afterAll bs⟩) := by
  simp [nextItem, skipBlanks_append hb (x := ']') rfl]

/-- One item. -/
theorem readItemsWithin_text {first : Bool} {c : Cursor} {s : String} (fuel : Nat)
    (done : List String) (hitem : nextItem first c = .ok (true, ⟨stringText s ++ rest, p⟩)) :
    ∃ q, readItemsWithin readText (fuel + 1) first done c =
      readItemsWithin readText fuel false (s :: done) ⟨rest, q⟩ := by
  obtain ⟨q, hq⟩ := reads_readText blanks_nil s rest p
  refine ⟨q, ?_⟩
  rw [List.nil_append] at hq
  simp only [readItemsWithin, hitem, bind, Except.bind, if_true, hq]

/-- The items behind the first, up to the closing bracket. -/
theorem readItemsWithin_texts {fuel : Nat} (depth : Nat) (done ss : List String)
    (hfuel : ss.length < fuel) (rest : List Char) (p : Place) :
    ∃ q, readItemsWithin readText fuel false done
        ⟨prettyItems depth (ss.map .text) ++ (newLine depth ++ ']' :: rest), p⟩ =
      .ok (done.reverse ++ ss, ⟨']' :: rest, q⟩) := by
  induction ss generalizing fuel done p with
  | nil =>
    obtain ⟨fuel, rfl⟩ : ∃ n, fuel = n + 1 := ⟨fuel - 1, by simp at hfuel; omega⟩
    refine ⟨p.afterAll (newLine depth), ?_⟩
    simp [prettyItems, readItemsWithin, nextItem_end (blanks_newLine depth), bind, Except.bind]
  | cons s ss ih =>
    obtain ⟨fuel, rfl⟩ : ∃ n, fuel = n + 1 := ⟨fuel - 1, by simp at hfuel; omega⟩
    have hitem : nextItem false
        ⟨prettyItems depth ((s :: ss).map .text) ++ (newLine depth ++ ']' :: rest), p⟩ =
        .ok (true, ⟨stringText s ++ (prettyItems depth (ss.map .text) ++
          (newLine depth ++ ']' :: rest)), (p.after ',').afterAll (newLine (depth + 1))⟩) := by
      simp only [List.map_cons, prettyItems, Value.pretty, stringText_eq, List.append_assoc,
        List.cons_append]
      exact nextItem_later_text (blanks_newLine (depth + 1))
    obtain ⟨q, hq⟩ := readItemsWithin_text fuel done hitem
    obtain ⟨q', hq'⟩ := ih (s :: done) (by simp at hfuel; omega) q
    exact ⟨q', by rw [hq, hq', List.reverse_cons, List.append_assoc, List.singleton_append]⟩

theorem length_le_prettyItems (depth : Nat) (vs : List Value) :
    vs.length ≤ (prettyItems depth vs).length := by
  induction vs with
  | nil => simp
  | cons v vs ih =>
    simp only [prettyItems, List.length_cons, List.length_append]
    omega

/-- A list of texts is read back. -/
theorem reads_readTexts {bs : List Char} (hb : Blanks bs) (depth : Nat) (ss : List String) :
    Reads (readList readText) (bs ++ (Value.list (ss.map .text)).pretty depth) ss := by
  have hend {rest : List Char} {p : Place} :
      endList ⟨']' :: rest, p⟩ = .ok ⟨rest, p.after ']'⟩ := by
    simp only [endList, skipBlanks_cons (x := ']') rfl, peek?_cons, next_cons]
  cases ss with
  | nil =>
    refine reads_onValue hb rfl fun rest p => ⟨(p.after '[').after ']', ?_⟩
    have hnone : nextItem true ⟨']' :: rest, p.after '['⟩ =
        .ok (false, ⟨']' :: rest, p.after '['⟩) := nextItem_end blanks_nil true
    simp [readItemsWithin, hnone, hend, bind, Except.bind]
  | cons s ss =>
    have htext : (Value.list ((s :: ss).map .text)).pretty depth =
        '[' :: (newLine (depth + 1) ++ (stringText s ++
          (prettyItems depth (ss.map .text) ++ (newLine depth ++ [']'])))) := by
      simp only [List.map_cons, Value.pretty, List.append_assoc, List.cons_append]
    rw [htext]
    refine reads_onValue hb rfl fun rest p => ?_
    obtain ⟨items, hitems⟩ : ∃ items, items = newLine (depth + 1) ++ (stringText s ++
      (prettyItems depth (ss.map .text) ++ (newLine depth ++ ']' :: rest))) := ⟨_, rfl⟩
    have hitem : nextItem true ⟨items, p.after '['⟩ =
        .ok (true, ⟨stringText s ++ (prettyItems depth (ss.map .text) ++
          (newLine depth ++ ']' :: rest)), (p.after '[').afterAll (newLine (depth + 1))⟩) := by
      simp only [hitems, stringText_eq, List.append_assoc, List.cons_append]
      exact nextItem_text (blanks_newLine (depth + 1))
    -- Every item has a character at least, so there are rounds enough to read them all.
    have hfuel : ss.length < items.length + 1 := by
      have := length_le_prettyItems depth (ss.map .text)
      simp only [List.length_map] at this
      simp only [hitems, List.length_append]
      omega
    obtain ⟨q, hq⟩ := readItemsWithin_text (items.length + 1) [] hitem
    obtain ⟨q', hq'⟩ := readItemsWithin_texts depth [s] ss hfuel rest q
    refine ⟨q'.after ']', ?_⟩
    simp only [List.append_assoc, List.cons_append, List.nil_append, if_true, next_cons, ← hitems,
      List.length_cons]
    rw [hq, hq']
    simp [bind, Except.bind, hend]

/-! ### Objects -/

/-- The first key of an object, behind blanks. -/
theorem nextKey_first {bs : List Char} (hb : Blanks bs) :
    nextKey true ⟨bs ++ '"' :: cs, p⟩ = .ok (true, ⟨'"' :: cs, p.afterAll bs⟩) := by
  simp [nextKey, skipBlanks_append hb (x := '"') rfl]

/-- A later key of an object, behind a comma and blanks. -/
theorem nextKey_later {bs : List Char} (hb : Blanks bs) :
    nextKey false ⟨',' :: (bs ++ '"' :: cs), p⟩ =
      .ok (true, ⟨'"' :: cs, (p.after ',').afterAll bs⟩) := by
  simp [nextKey, skipBlanks_cons (x := ',') rfl, skipBlanks_append hb (x := '"') rfl]

/-- The closing brace of an object, behind blanks. -/
theorem nextKey_end {bs : List Char} (hb : Blanks bs) (first : Bool) :
    nextKey first ⟨bs ++ '\x7d' :: cs, p⟩ = .ok (false, ⟨'\x7d' :: cs, p.afterAll bs⟩) := by
  simp [nextKey, skipBlanks_append hb (x := '\x7d') rfl]

namespace Shape

variable {s : Shape σ α} {depth fuel : Nat} {done done' : σ}

/-- The fields of a record take the members of an object one after the other: each key is the name
of a field that has not been read, and the field is read from the text of the value. -/
inductive Takes (s : Shape σ α) (depth : Nat) : σ → List (String × Value) → σ → Prop
  | nil (done : σ) : Takes s depth done [] done
  | cons {done next last : σ} {key : String} {v : Value} {ms : List (String × Value)}
      (field : Field σ) (named : s.field? key = some field) (new : field.given done = false)
      (reads : ReadsBefore (field.read done) (' ' :: v.pretty depth) next)
      (rest : Takes s depth next ms last) : Takes s depth done ((key, v) :: ms) last

/-- One member. -/
theorem readMembersWithin_member {first : Bool} {c : Cursor} {key : String} {v : Value}
    {field : Field σ}
    (hkey : nextKey first c = .ok (true, ⟨prettyMember depth (key, v) ++ rest, p⟩))
    (named : s.field? key = some field) (new : field.given done = false)
    (reads : ReadsBefore (field.read done) (' ' :: v.pretty (depth + 1)) done') (ends : Ends rest) :
    ∃ q, readMembersWithin s (fuel + 1) first done c =
      readMembersWithin s fuel false done' ⟨rest, q⟩ := by
  obtain ⟨q, hq⟩ := reads_readString key (':' :: ' ' :: v.pretty (depth + 1) ++ rest) (p.after '"')
  obtain ⟨q', hq'⟩ := reads rest (q.after ':') ends
  refine ⟨q', ?_⟩
  simp only [prettyMember, stringText, List.append_assoc, List.cons_append, List.nil_append]
    at hkey hq hq'
  simp only [readMembersWithin, hkey, bind, Except.bind, if_true, next_cons, hq, named, new,
    readColon, skipBlanks_cons (x := ':') rfl, peek?_cons, hq', Bool.false_eq_true, if_false]

/-- A member ends where the others of its object are written. -/
theorem ends_prettyMembers (ms : List (String × Value)) (rest : List Char) :
    Ends (prettyMembers depth ms ++ (newLine depth ++ '\x7d' :: rest)) := by
  cases ms with
  | nil =>
    rw [prettyMembers, List.nil_append]
    exact ends_append (blanks_newLine depth) (.inr (.inr rfl))
  | cons m ms =>
    rw [prettyMembers, ← List.nil_append (',' :: _)]
    simp only [List.append_assoc, List.cons_append]
    exact ends_append blanks_nil (.inl rfl)

/-- The members behind the first, up to and including the closing brace. -/
theorem readMembersWithin_members {ms : List (String × Value)} (h : Takes s (depth + 1) done ms done')
    (hfuel : ms.length < fuel) (rest : List Char) (p : Place) :
    ∃ q, readMembersWithin s fuel false done
        ⟨prettyMembers depth ms ++ (newLine depth ++ '\x7d' :: rest), p⟩ =
      .ok (done', ⟨rest, q⟩) := by
  induction h generalizing fuel p with
  | nil done =>
    obtain ⟨fuel, rfl⟩ : ∃ n, fuel = n + 1 := ⟨fuel - 1, by simp at hfuel; omega⟩
    refine ⟨(p.afterAll (newLine depth)).after '\x7d', ?_⟩
    simp [prettyMembers, readMembersWithin, nextKey_end (blanks_newLine depth), bind, Except.bind]
  | @cons done next last key v ms field named new reads _ ih =>
    obtain ⟨fuel, rfl⟩ : ∃ n, fuel = n + 1 := ⟨fuel - 1, by simp at hfuel; omega⟩
    have hkey : nextKey false
        ⟨prettyMembers depth ((key, v) :: ms) ++ (newLine depth ++ '\x7d' :: rest), p⟩ =
        .ok (true, ⟨prettyMember depth (key, v) ++
          (prettyMembers depth ms ++ (newLine depth ++ '\x7d' :: rest)),
          (p.after ',').afterAll (newLine (depth + 1))⟩) := by
      simp only [prettyMembers, prettyMember, stringText, List.append_assoc, List.cons_append]
      exact nextKey_later (blanks_newLine (depth + 1))
    obtain ⟨q, hq⟩ := readMembersWithin_member hkey named new reads (ends_prettyMembers ms rest)
    rw [hq]
    exact ih (by simp at hfuel; omega) q

theorem length_le_prettyMembers (depth : Nat) (ms : List (String × Value)) :
    ms.length ≤ (prettyMembers depth ms).length := by
  induction ms with
  | nil => simp
  | cons m ms ih =>
    simp only [prettyMembers, List.length_cons, List.length_append]
    omega

/-- **Written objects are read back** into the fields that take their members. -/
theorem reads_object {bs : List Char} (hb : Blanks bs) {ms : List (String × Value)}
    (h : Takes s (depth + 1) s.blank ms done) (ha : s.complete done = .ok a) :
    Reads s.read (bs ++ (Value.object ms).pretty depth) a := by
  cases h with
  | nil =>
    refine reads_onValue hb rfl fun rest p => ⟨(p.after '\x7b').after '\x7d', ?_⟩
    have hend : nextKey true ⟨'\x7d' :: rest, p.after '\x7b'⟩ =
        .ok (false, ⟨'\x7d' :: rest, p.after '\x7b'⟩) := nextKey_end blanks_nil true
    simp [readMembersWithin, hend, bind, Except.bind, finish, ha]
  | @cons _ next _ key v ms field named new reads later =>
    have htext : (Value.object ((key, v) :: ms)).pretty depth =
        '\x7b' :: (newLine (depth + 1) ++ (prettyMember depth (key, v) ++
          (prettyMembers depth ms ++ (newLine depth ++ ['\x7d'])))) := by
      simp only [Value.pretty, List.append_assoc, List.cons_append]
    rw [htext]
    refine reads_onValue hb rfl fun rest p => ?_
    obtain ⟨body, hbody⟩ : ∃ body, body = newLine (depth + 1) ++ (prettyMember depth (key, v) ++
      (prettyMembers depth ms ++ (newLine depth ++ '\x7d' :: rest))) := ⟨_, rfl⟩
    have hkey : nextKey true ⟨body, p.after '\x7b'⟩ =
        .ok (true, ⟨prettyMember depth (key, v) ++
          (prettyMembers depth ms ++ (newLine depth ++ '\x7d' :: rest)),
          (p.after '\x7b').afterAll (newLine (depth + 1))⟩) := by
      simp only [hbody, prettyMember, stringText, List.append_assoc, List.cons_append]
      exact nextKey_first (blanks_newLine (depth + 1))
    -- Every member has a character at least, so there are rounds enough to read them all.
    have hfuel : ms.length < body.length + 1 := by
      have := length_le_prettyMembers depth ms
      simp only [hbody, List.length_append]
      omega
    obtain ⟨q, hq⟩ := readMembersWithin_member hkey named new reads (ends_prettyMembers ms rest)
    obtain ⟨q', hq'⟩ := readMembersWithin_members later hfuel rest q
    refine ⟨q', ?_⟩
    simp only [List.append_assoc, List.cons_append, List.nil_append, if_true, next_cons, ← hbody,
      List.length_cons]
    rw [hq, hq']
    simp [bind, Except.bind, finish, ha]

end Shape

end PublisherConsole.Json
