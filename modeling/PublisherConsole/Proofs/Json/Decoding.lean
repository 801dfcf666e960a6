import PublisherConsole.Proofs.Json.Keeping
import PublisherConsole.Proofs.Json.Skipping

/-!
# What readers find in a tree

A reader is given by what it finds in the syntax tree of its value: `Agrees r f` says that on every
way to write a tree down, `r` finds what `f` finds in the tree, and nothing where `f` finds nothing.
So the readers for texts, optional values, maps and records with named fields do not depend on blanks,
and what a record reads out of the members of an object is a fold over them (`Shape.gather`).
-/

namespace PublisherConsole.Json

open Cursor

variable {α β σ : Type} {a : α} {cs rest mid : List Char} {p q : Place} {t : SyntaxTree}

/-! ### Results of reading -/

/-- A reading finds what there is to find and stops before `rest`, or it fails when there is nothing. -/
def Gives (x : Except Error (α × Cursor)) (o : Option α) (rest : List Char) : Prop :=
  ∃ q, x.toOption = o.map fun a => (a, ⟨rest, q⟩)

theorem gives_ok : Gives (.ok (a, ⟨rest, q⟩)) (some a) rest := ⟨q, rfl⟩

theorem gives_none {x : Except Error (α × Cursor)} (h : ∀ r, x ≠ .ok r) : Gives x none rest := by
  refine ⟨⟨0, 0⟩, ?_⟩
  cases x with
  | error e => rfl
  | ok r => exact absurd rfl (h r)

/-- What is read in two parts is found in two parts. -/
theorem Gives.bind {x : Except Error (α × Cursor)} {o : Option α}
    {next : α × Cursor → Except Error (β × Cursor)} {find : α → Option β} (hx : Gives x o mid)
    (hnext : ∀ a q, o = some a → Gives (next (a, ⟨mid, q⟩)) (find a) rest) :
    Gives (x >>= next) (o.bind find) rest := by
  obtain ⟨q, hq⟩ := hx
  cases x with
  | error e =>
    cases o with
    | none => exact gives_none fun r h => by cases h
    | some a => cases hq
  | ok r =>
    cases o with
    | none => cases hq
    | some a =>
      cases hq
      exact hnext a q rfl

/-! ### Strings -/

section Strings

variable {w x y z : Char} {n : Nat} {gs : List Glyph}

/-- A code unit outside the surrogates is a character. -/
theorem readCodePoint_single (h : hexUnit? w x y z = some n) (ht : ¬isTrailing n = true)
    (hl : ¬isLeading n = true) (rest : List Char) (p : Place) :
    ∃ q, readCodePoint ⟨w :: x :: y :: z :: rest, p⟩ = .ok (Char.ofNat n, ⟨rest, q⟩) := by
  obtain ⟨q, hq⟩ := readHex_unit h rest p
  exact ⟨q, by simp only [readCodePoint, hq, bind, Except.bind, if_neg ht, if_neg hl]⟩

/-- A leading surrogate and a trailing one are a character. -/
theorem readCodePoint_pair {w' x' y' z' : Char} {m : Nat} (h : hexUnit? w x y z = some n)
    (h' : hexUnit? w' x' y' z' = some m) (ht : ¬isTrailing n = true) (hl : isLeading n = true)
    (hm : isTrailing m = true) (rest : List Char) (p : Place) :
    ∃ q, readCodePoint ⟨w :: x :: y :: z :: '\\' :: 'u' :: w' :: x' :: y' :: z' :: rest, p⟩ =
      .ok (Char.ofNat ((n - 0xD800) * 0x400 + (m - 0xDC00) + 0x10000), ⟨rest, q⟩) := by
  obtain ⟨q, hq⟩ := readHex_unit h ('\\' :: 'u' :: w' :: x' :: y' :: z' :: rest) p
  obtain ⟨q', hq'⟩ := readHex_unit h' rest ((q.after '\\').after 'u')
  refine ⟨q', ?_⟩
  simp only [readCodePoint, hq, bind, Except.bind, if_neg ht, if_pos hl, readPairMark, if_true,
    next_cons, hq', if_pos hm]

/-- A trailing surrogate without a leading one is no character. -/
theorem readCodePoint_trailing (h : hexUnit? w x y z = some n) (ht : isTrailing n = true) :
    ∀ r, readCodePoint ⟨w :: x :: y :: z :: rest, p⟩ ≠ .ok r := by
  obtain ⟨q, hq⟩ := readHex_unit h rest p
  intro r hr
  simp only [readCodePoint, hq, bind, Except.bind, if_pos ht] at hr
  cases hr

/-- A leading surrogate with another code unit behind it is no character. -/
theorem readCodePoint_unpaired {w' x' y' z' : Char} {m : Nat} (h : hexUnit? w x y z = some n)
    (h' : hexUnit? w' x' y' z' = some m) (ht : ¬isTrailing n = true) (hl : isLeading n = true)
    (hm : ¬isTrailing m = true) :
    ∀ r, readCodePoint ⟨w :: x :: y :: z :: '\\' :: 'u' :: w' :: x' :: y' :: z' :: rest, p⟩ ≠ .ok r := by
  obtain ⟨q, hq⟩ := readHex_unit h ('\\' :: 'u' :: w' :: x' :: y' :: z' :: rest) p
  obtain ⟨q', hq'⟩ := readHex_unit h' rest ((q.after '\\').after 'u')
  intro r hr
  simp only [readCodePoint, hq, bind, Except.bind, if_neg ht, if_pos hl, readPairMark, if_true,
    next_cons, hq', if_neg hm] at hr
  cases hr

/-- A leading surrogate with no code unit behind it is no character. -/
theorem readCodePoint_alone (h : hexUnit? w x y z = some n) (ht : ¬isTrailing n = true)
    (hl : isLeading n = true) (hgs : ∀ w x y z m h gs', gs = .unit w x y z m h :: gs' → False) :
    ∀ r, readCodePoint ⟨w :: x :: y :: z :: (body gs ++ '"' :: rest), p⟩ ≠ .ok r := by
  obtain ⟨q, hq⟩ := readHex_unit h (body gs ++ '"' :: rest) p
  intro r hr
  simp only [readCodePoint, hq, bind, Except.bind, if_neg ht, if_pos hl] at hr
  rcases gs with - | ⟨⟨x, free⟩ | ⟨x, y, means⟩ | ⟨w, x, y, z, m, means⟩, gs⟩
  · simp [body, readPairMark] at hr
  · simp [body, Glyph.written, readPairMark, free.2.1] at hr
  · have hu : x ≠ 'u' := by rintro rfl; cases means
    simp [body, Glyph.written, readPairMark, hu] at hr
  · exact hgs w x y z m means gs rfl

theorem readCharsWithin_unit (fuel : Nat) (done : List Char) :
    readCharsWithin (fuel + 1) done ⟨'\\' :: 'u' :: cs, p⟩ =
      readCodePoint ⟨cs, (p.after '\\').after 'u'⟩ >>= fun r =>
        readCharsWithin fuel (r.1 :: done) r.2 := rfl

/-- Where the code unit in front is a character, it is read in one round. -/
theorem readCharsWithin_unit_ok {fuel : Nat} {done cs' : List Char}
    (h : readCodePoint ⟨cs, (p.after '\\').after 'u'⟩ = .ok (x, ⟨cs', q⟩)) :
    readCharsWithin (fuel + 1) done ⟨'\\' :: 'u' :: cs, p⟩ =
      readCharsWithin fuel (x :: done) ⟨cs', q⟩ := by
  rw [readCharsWithin_unit, h]
  rfl

/-- Where the code unit in front is no character, the string is not read. -/
theorem gives_unit_none {fuel : Nat} {done : List Char}
    (h : ∀ r, readCodePoint ⟨cs, (p.after '\\').after 'u'⟩ ≠ .ok r) :
    Gives (readCharsWithin (fuel + 1) done ⟨'\\' :: 'u' :: cs, p⟩) none rest := by
  rw [readCharsWithin_unit]
  refine gives_none fun r hr => ?_
  obtain ⟨x, hx, -⟩ := bind_eq_ok hr
  exact h x hx

/-- The characters of a string are read up to the closing quote. -/
theorem gives_readCharsWithin {fuel : Nat} (hfuel : gs.length < fuel) (done : List Char) (p : Place) :
    Gives (readCharsWithin fuel done ⟨body gs ++ '"' :: rest, p⟩)
      ((spell? gs).map (done.reverse ++ ·)) rest := by
  obtain ⟨fuel, rfl⟩ : ∃ n, fuel = n + 1 := ⟨fuel - 1, by omega⟩
  -- Along the recursion of `spell?`, which takes a surrogate pair in one step as the reader does.
  induction gs using spell?.induct generalizing fuel done p with
  | case1 => simpa [readCharsWithin, spell?] using gives_ok
  | case2 x free gs ih =>
    obtain ⟨fuel, rfl⟩ : ∃ n, fuel = n + 1 := ⟨fuel - 1, by simp at hfuel; omega⟩
    have hlater := ih (x :: done) (p.after x) fuel (by simpa using hfuel)
    obtain ⟨hquote, hslash, hcontrol⟩ := free
    have hround : readCharsWithin (fuel + 2) done ⟨x :: (body gs ++ '"' :: rest), p⟩ =
        readCharsWithin (fuel + 1) (x :: done) ⟨body gs ++ '"' :: rest, p.after x⟩ := by
      rw [readCharsWithin]
      simp only [if_neg (Nat.not_lt.mpr hcontrol), next_cons]
    simpa [spell?, Function.comp_def, hround] using hlater
  | case3 x y means gs ih =>
    obtain ⟨fuel, rfl⟩ : ∃ n, fuel = n + 1 := ⟨fuel - 1, by simp at hfuel; omega⟩
    have hlater := ih (y :: done) ((p.after '\\').after x) fuel (by simpa using hfuel)
    have hu : x ≠ 'u' := by rintro rfl; cases means
    have hround : readCharsWithin (fuel + 2) done ⟨'\\' :: x :: (body gs ++ '"' :: rest), p⟩ =
        readCharsWithin (fuel + 1) (y :: done) ⟨body gs ++ '"' :: rest, (p.after '\\').after x⟩ := by
      rw [readCharsWithin]
      simp only [next_cons, means]
    simpa [spell?, Function.comp_def, hround] using hlater
  | case4 w x y z n means gs ht =>
    have hnone : spell? (.unit w x y z n means :: gs) = none := by
      rw [spell?.eq_def]
      simp only [if_pos ht]
    simpa [hnone] using gives_unit_none (readCodePoint_trailing means ht)
  | case5 w x y z n means ht hl w' x' y' z' m means' gs hm ih =>
    obtain ⟨fuel, rfl⟩ : ∃ n, fuel = n + 1 := ⟨fuel - 1, by simp at hfuel; omega⟩
    obtain ⟨q, hq⟩ := readCodePoint_pair means means' ht hl hm
      (body gs ++ '"' :: rest) ((p.after '\\').after 'u')
    have hsome : spell? (.unit w x y z n means :: .unit w' x' y' z' m means' :: gs) = (spell? gs).map
        (Char.ofNat ((n - 0xD800) * 0x400 + (m - 0xDC00) + 0x10000) :: ·) := by
      simp only [spell?, if_neg ht, if_pos hl, if_pos hm]
    generalize Char.ofNat ((n - 0xD800) * 0x400 + (m - 0xDC00) + 0x10000) = c at hq hsome
    have hlater := ih (c :: done) q fuel (by simp at hfuel; omega)
    simpa [hsome, Function.comp_def, readCharsWithin_unit_ok hq] using hlater
  | case6 w x y z n means ht hl w' x' y' z' m means' gs hm =>
    have hnone : spell? (.unit w x y z n means :: .unit w' x' y' z' m means' :: gs) = none := by
      simp [spell?, ht, hl, hm]
    simpa [hnone] using gives_unit_none (readCodePoint_unpaired means means' ht hl hm)
  | case7 w x y z n means gs ht hl hgs =>
    have hnone : spell? (.unit w x y z n means :: gs) = none := by
      rw [spell?.eq_def]
      simp only [if_neg ht, if_pos hl]
    simpa [hnone] using gives_unit_none (readCodePoint_alone means ht hl hgs)
  | case8 w x y z n means gs ht hl ih =>
    obtain ⟨fuel, rfl⟩ : ∃ n, fuel = n + 1 := ⟨fuel - 1, by simp at hfuel; omega⟩
    obtain ⟨q, hq⟩ := readCodePoint_single means ht hl
      (body gs ++ '"' :: rest) ((p.after '\\').after 'u')
    have hlater := ih (Char.ofNat n :: done) q fuel (by simpa using hfuel)
    have hsome : spell? (.unit w x y z n means :: gs) = (spell? gs).map (Char.ofNat n :: ·) := by
      rw [spell?.eq_def]
      simp only [if_neg ht, if_neg hl]
    simpa [hsome, Function.comp_def, readCharsWithin_unit_ok hq] using hlater

/-- A string is read behind its opening quote. -/
theorem gives_readString :
    Gives (readString ⟨body gs ++ '"' :: rest, p⟩) (text? gs) rest := by
  have hfuel : gs.length < (body gs ++ '"' :: rest).length + 1 := by
    have := length_le_body gs
    rw [List.length_append]
    omega
  have htext : text? gs = ((spell? gs).map ([].reverse ++ ·)).bind fun cs => some (String.ofList cs) := by
    cases h : spell? gs <;> simp [text?, h]
  rw [htext]
  exact (gives_readCharsWithin hfuel [] p).bind fun cs q _ => gives_ok

end Strings

/-! ### Values -/

/-- The reader finds in a value what `f` finds in its tree, and stands behind the value then. -/
def Agrees (r : Reader α) (f : SyntaxTree → Option α) : Prop :=
  ∀ t cs bs rest p, Layout (.value t) cs → Blanks bs → Ends rest →
    Gives (r ⟨bs ++ (cs ++ rest), p⟩) (f t) rest

/-- A reader that goes by the first character passes over the blanks in front of the value. -/
theorem agrees_onValue {k : Char → Reader α} {f : SyntaxTree → Option α}
    (h : ∀ t x xs rest p, Layout (.value t) (x :: xs) → t.Opens x → Ends rest →
      Gives (k x ⟨x :: (xs ++ rest), p⟩) (f t) rest) : Agrees (onValue k) f := by
  intro t cs bs rest p hlayout hb he
  obtain ⟨x, xs, rfl, hx⟩ := hlayout.exists_opens
  have hrun : onValue k ⟨bs ++ (x :: xs ++ rest), p⟩ = k x ⟨x :: (xs ++ rest), p.afterAll bs⟩ := by
    simp only [onValue, List.cons_append, skipBlanks_append hb hx.isOpening.not_isBlank, peek?_cons]
  rw [hrun]
  exact h t x xs rest (p.afterAll bs) hlayout hx he

theorem gives_failWrongType {expected : String} {c : Cursor} :
    Gives (failWrongType expected c : Except Error (α × Cursor)) none rest :=
  gives_none fun _ => failWrongType_ne_ok expected

/-- The string that a tree is. -/
def textOf? : SyntaxTree → Option String
  | .text gs => text? gs
  | _ => none

theorem agrees_readText : Agrees readText textOf? := by
  unfold readText readTextAs
  refine agrees_onValue fun t x xs rest p hlayout hx _ => ?_
  by_cases hquote : x = '"'
  · subst hquote
    obtain ⟨gs, rfl⟩ := hx.text
    cases hlayout
    have hbind : text? gs = (text? gs).bind some := by simp
    simp only [textOf?, if_true, List.append_assoc, List.cons_append, List.nil_append, next_cons]
    rw [hbind]
    exact gives_readString.bind fun a q _ => gives_ok
  · have hnone : textOf? t = none := by
      unfold textOf?
      split
      next => exact absurd hx hquote
      next => rfl
    rw [if_neg hquote, hnone]
    exact gives_failWrongType

/-- Nothing from `null`, and otherwise what `f` finds. -/
def optionalOf? (f : SyntaxTree → Option α) : SyntaxTree → Option (Option α)
  | .null => some none
  | t => (f t).map some

theorem Agrees.readOptional {r : Reader α} {f : SyntaxTree → Option α} (h : Agrees r f) :
    Agrees (readOptional r) (optionalOf? f) := by
  intro t cs bs rest p hlayout hb he
  obtain ⟨x, xs, rfl, hx⟩ := hlayout.exists_opens
  have hvalue := h t (x :: xs) [] rest (p.afterAll bs) hlayout blanks_nil he
  simp only [List.nil_append, List.cons_append] at hvalue
  simp only [Json.readOptional, List.cons_append, skipBlanks_append hb hx.isOpening.not_isBlank,
    peek?_cons, Option.some.injEq]
  by_cases hn : x = 'n'
  · subst hn
    obtain rfl := hx.null
    cases hlayout
    obtain ⟨q, hq⟩ := readLetters_append ['u', 'l', 'l'] rest
      ((p.afterAll bs).after 'n')
    rw [if_pos rfl, next_cons, hq]
    exact gives_ok
  · have hsome : optionalOf? f t = (f t).bind fun a => some (some a) := by
      cases t with
      | null => exact absurd hx hn
      | _ => simp [optionalOf?, Option.map_eq_bind]
    rw [if_neg hn, hsome]
    exact hvalue.bind fun a q _ => gives_ok

/-! ### Maps -/

/-- A member of a map: its key, and what `f` finds in its value. -/
def memberOf? (f : SyntaxTree → Option α) (m : List Glyph × SyntaxTree) : Option (String × α) :=
  (text? m.1).bind fun key => (f m.2).map (key, ·)

/-- The members of a map, in the order in which they are written. -/
def membersOf? (f : SyntaxTree → Option α) : SyntaxTree → Option (List (String × α))
  | .object ms => ms.mapM (memberOf? f)
  | _ => none

/-- A later key of an object stands behind a comma, with blanks on both sides. -/
theorem nextKey_separated {bs bs' : List Char} (hb : Blanks bs) (hb' : Blanks bs') :
    nextKey false ⟨bs ++ ',' :: (bs' ++ '"' :: cs), p⟩ =
      .ok (true, ⟨'"' :: cs, ((p.afterAll bs).after ',').afterAll bs'⟩) := by
  simp [nextKey, skipBlanks_append hb (x := ',') rfl, skipBlanks_append hb' (x := '"') rfl]

theorem readColon_append {bs : List Char} (hb : Blanks bs) (rest : List Char) (p : Place) :
    ∃ q, readColon ⟨bs ++ ':' :: rest, p⟩ = .ok ⟨rest, q⟩ := by
  refine ⟨(p.afterAll bs).after ':', ?_⟩
  simp only [readColon, skipBlanks_append hb (x := ':') rfl, peek?_cons, next_cons]

/-- Every member has a character at least, so the length of a text bounds the rounds of reading. -/
theorem Layout.length_members {ms : Members} (h : Layout (.members ms) cs) :
    ms.length < cs.length := by
  induction ms generalizing cs with
  | nil => cases h; simp
  | cons m ms ih =>
    cases h with
    | member _ _ _ _ _ later =>
      have := ih later
      simp only [List.length_cons, List.length_append]
      omega

section Maps

variable {r : Reader α} {f : SyntaxTree → Option α} {fuel : Nat} {done : List (String × α)}
  {key : List Glyph} {bs bs' : List Char} {ms : Members}

/-- One member of a map, from the key on at which the reader stands. -/
theorem gives_readMembersWithin_member (h : Agrees r f) {first : Bool} {c : Cursor}
    (hkey : ∃ p, nextKey first c =
      .ok (true, ⟨quoted key ++ (bs ++ ':' :: (bs' ++ (cs ++ mid))), p⟩))
    (hb : Blanks bs) (hb' : Blanks bs') (hvalue : Layout (.value t) cs) (he : Ends mid)
    (hlater : ∀ m q, Gives (readMembersWithin r fuel false (m :: done) ⟨mid, q⟩)
      ((ms.mapM (memberOf? f)).map ((m :: done).reverse ++ ·)) rest) :
    Gives (readMembersWithin r (fuel + 1) first done c)
      ((((key, t) :: ms).mapM (memberOf? f)).map (done.reverse ++ ·)) rest := by
  obtain ⟨p, hp⟩ := hkey
  have hfound : (((key, t) :: ms).mapM (memberOf? f)).map (done.reverse ++ ·) =
      (text? key).bind fun name => (f t).bind fun a =>
        (ms.mapM (memberOf? f)).map (((name, a) :: done).reverse ++ ·) := by
    rw [List.mapM_cons]
    cases hname : text? key <;> cases ha : f t <;> cases hms : ms.mapM (memberOf? f) <;>
      simp [memberOf?, hname, ha]
  have hrun : readMembersWithin r (fuel + 1) first done c =
      readString ⟨body key ++ '"' :: (bs ++ ':' :: (bs' ++ (cs ++ mid))), p.after '"'⟩ >>=
        fun s => readColon s.2 >>= fun c => r c >>= fun v =>
          readMembersWithin r fuel false ((s.1, v.1) :: done) v.2 := by
    rw [readMembersWithin, hp]
    simp only [quoted, List.cons_append, List.append_assoc, List.nil_append]
    rfl
  rw [hrun, hfound]
  refine gives_readString.bind fun name q _ => ?_
  obtain ⟨q', hq'⟩ := readColon_append hb (bs' ++ (cs ++ mid)) q
  dsimp only
  rw [hq']
  exact (h t cs bs' mid q' hvalue hb' he).bind fun a q _ => hlater (name, a) q

/-- The members of a map behind the first one. -/
theorem gives_readMembersWithin (h : Agrees r f) (hlayout : Layout (.members ms) cs)
    (hfuel : ms.length < fuel) :
    Gives (readMembersWithin r fuel false done ⟨cs ++ rest, p⟩)
      ((ms.mapM (memberOf? f)).map (done.reverse ++ ·)) rest := by
  induction ms generalizing cs fuel done p with
  | nil =>
    obtain ⟨fuel, rfl⟩ : ∃ n, fuel = n + 1 := ⟨fuel - 1, by simp at hfuel; omega⟩
    cases hlayout with
    | endObject hb =>
      simpa [readMembersWithin, nextKey_end hb, bind, Except.bind] using gives_ok
  | cons m ms ih =>
    obtain ⟨fuel, rfl⟩ : ∃ n, fuel = n + 1 := ⟨fuel - 1, by simp at hfuel; omega⟩
    cases hlayout with
    | member hb hb₁ hb₂ hb₃ hvalue later =>
      refine gives_readMembersWithin_member h ?_ hb₂ hb₃ hvalue later.ends_members
        fun m q => ih later (by simpa using hfuel)
      simp only [quoted, List.cons_append, List.append_assoc]
      exact ⟨_, nextKey_separated hb hb₁⟩

/-- A map is read with its members in the order in which they are written. -/
theorem Agrees.readMembers (h : Agrees r f) (expected : String) :
    Agrees (readMembers expected r) (membersOf? f) := by
  unfold Json.readMembers
  refine agrees_onValue fun t x xs rest p hlayout hx _ => ?_
  by_cases hbrace : x = '\x7b'
  · subst hbrace
    obtain ⟨ms, rfl⟩ := hx.object
    rw [if_pos rfl]
    have hnil : membersOf? f (.object ms) = (ms.mapM (memberOf? f)).map ([].reverse ++ ·) := by
      simp [membersOf?]
    rw [hnil, next_cons]
    cases hlayout with
    | emptyObject hb =>
      simpa [readMembersWithin, nextKey_end hb, bind, Except.bind] using gives_ok
    | object hb hb₁ hb₂ first later =>
      have hlength := later.length_members
      refine gives_readMembersWithin_member h ?_ hb₁ hb₂ first later.ends_members
        fun m q => gives_readMembersWithin h later ?_
      · simp only [quoted, List.cons_append, List.append_assoc]
        exact ⟨_, nextKey_first hb⟩
      · simp only [List.length_cons, List.length_append]
        omega
  · have hnone : membersOf? f t = none := by
      unfold membersOf?
      split
      next => exact absurd hx hbrace
      next => rfl
    rw [if_neg hbrace, hnone]
    exact gives_failWrongType

end Maps

/-! ### Lists -/

/-- The first item of a list, behind blanks. -/
theorem nextItem_first {bs : List Char} {x : Char} (hb : Blanks bs) (hx : IsOpening x) :
    nextItem true ⟨bs ++ x :: cs, p⟩ = .ok (true, ⟨x :: cs, p.afterAll bs⟩) := by
  obtain ⟨hcomma, hbracket, -⟩ := hx.ne
  simp only [nextItem, skipBlanks_append hb hx.not_isBlank, peek?_cons]
  split <;> simp_all

/-- A later item of a list stands behind a comma, with blanks on both sides. -/
theorem nextItem_separated {bs bs' : List Char} {x : Char} (hb : Blanks bs) (hb' : Blanks bs')
    (hx : IsOpening x) :
    nextItem false ⟨bs ++ ',' :: (bs' ++ x :: cs), p⟩ =
      .ok (true, ⟨x :: cs, ((p.afterAll bs).after ',').afterAll bs'⟩) := by
  obtain ⟨hcomma, hbracket, -⟩ := hx.ne
  simp only [nextItem, skipBlanks_append hb (x := ',') rfl, peek?_cons, next_cons,
    skipBlanks_append hb' hx.not_isBlank]
  split <;> simp_all

/-! ### Records -/

namespace Shape

variable (s : Shape σ α) (put : String → SyntaxTree → Option (σ → σ))

/-- What a member of an object adds to the fields: nothing when no field has its key. -/
def step (done : σ) (m : List Glyph × SyntaxTree) : Option σ :=
  (text? m.1).bind fun key =>
    match s.field? key with
    | none => some done
    | some field => if field.given done then none else (put key m.2).map (· done)

/-- The fields that the members of an object give. -/
def gather (done : σ) (ms : Members) : Option σ := ms.foldlM (s.step put) done

/-- The fields that the items of a list give, in their declared order. -/
def listed : List (Field σ) → List SyntaxTree → σ → Option σ
  | [], [], done => some done
  | [], _ :: _, _ => none
  | field :: fields, [], done => if field.optional then listed fields [] done else none
  | field :: fields, t :: ts, done => (put field.name t).bind fun set => listed fields ts (set done)

/-- The record that a tree is. -/
def ofTree? : SyntaxTree → Option α
  | .object ms => (s.gather put s.blank ms).bind fun done => (s.complete done).toOption
  | .list ts => (listed put s.fields ts s.blank).bind fun done => (s.complete done).toOption
  | _ => none

/-- Every field is read as `put` says. -/
def Puts : Prop :=
  ∀ field ∈ s.fields, ∀ done, Agrees (field.read done) fun t => (put field.name t).map (· done)

variable {s put} {done : σ} {fuel : Nat} {key : List Glyph} {bs bs' : List Char} {ms : Members}

/-- One member of an object, from the key on at which the reader stands. -/
theorem gives_readMembersWithin_member (h : s.Puts put) {first : Bool} {c : Cursor}
    (hkey : ∃ p, nextKey first c =
      .ok (true, ⟨quoted key ++ (bs ++ ':' :: (bs' ++ (cs ++ mid))), p⟩))
    (hb : Blanks bs) (hb' : Blanks bs') (hvalue : Layout (.value t) cs) (he : Ends mid)
    (hlater : ∀ done q, Gives (s.readMembersWithin fuel false done ⟨mid, q⟩)
      (s.gather put done ms) rest) :
    Gives (s.readMembersWithin (fuel + 1) first done c) (s.gather put done ((key, t) :: ms)) rest := by
  obtain ⟨p, hp⟩ := hkey
  -- The reader takes the key first and lets it decide what becomes of the value.
  have hrun : s.readMembersWithin (fuel + 1) first done c =
      readString ⟨body key ++ '"' :: (bs ++ ':' :: (bs' ++ (cs ++ mid))), p.after '"'⟩ >>= fun r =>
        match s.field? r.1 with
        | none => readColon r.2 >>= fun c => Json.skipValue c >>= fun c =>
            s.readMembersWithin fuel false done c
        | some field =>
          if field.given done then .error ⟨.duplicateField field.name, placeInObject r.2⟩
          else readColon r.2 >>= fun c => field.read done c >>= fun v =>
            s.readMembersWithin fuel false v.1 v.2 := by
    rw [Shape.readMembersWithin, hp]
    simp only [quoted, List.cons_append, List.append_assoc, List.nil_append]
    rfl
  have hfound : s.gather put done ((key, t) :: ms) = (text? key).bind fun name =>
      match s.field? name with
      | none => s.gather put done ms
      | some field =>
        if field.given done then none
        else ((put name t).map (· done)).bind fun done => s.gather put done ms := by
    simp only [gather, List.foldlM_cons, step, Option.bind_eq_bind, Option.bind_assoc]
    refine congrArg _ (funext fun name => ?_)
    cases s.field? name with
    | none => rfl
    | some field => dsimp only; split <;> rfl
  rw [hrun, hfound]
  refine gives_readString.bind fun name q _ => ?_
  obtain ⟨q', hq'⟩ := readColon_append hb (bs' ++ (cs ++ mid)) q
  dsimp only
  rw [hq']
  cases hfield : s.field? name with
  | none =>
    obtain ⟨q'', hq''⟩ := hvalue.skipValue hb' he q'
    simp only [bind, Except.bind, hq'']
    exact hlater done q''
  | some field =>
    have hmem : field ∈ s.fields := List.mem_of_find?_eq_some hfield
    have hname : field.name = name := by simpa using List.find?_some hfield
    dsimp only
    split
    · exact gives_none fun r hr => by cases hr
    · rw [← hname]
      exact (h field hmem done t cs bs' mid q' hvalue hb' he).bind fun done q _ => hlater done q

/-- The members of an object behind the first one. -/
theorem gives_readMembersWithin (h : s.Puts put) (hlayout : Layout (.members ms) cs)
    (hfuel : ms.length < fuel) :
    Gives (s.readMembersWithin fuel false done ⟨cs ++ rest, p⟩) (s.gather put done ms) rest := by
  induction ms generalizing cs fuel done p with
  | nil =>
    obtain ⟨fuel, rfl⟩ : ∃ n, fuel = n + 1 := ⟨fuel - 1, by simp at hfuel; omega⟩
    cases hlayout with
    | endObject hb =>
      simpa [Shape.readMembersWithin, nextKey_end hb, bind, Except.bind, gather] using gives_ok
  | cons m ms ih =>
    obtain ⟨fuel, rfl⟩ : ∃ n, fuel = n + 1 := ⟨fuel - 1, by simp at hfuel; omega⟩
    cases hlayout with
    | member hb hb₁ hb₂ hb₃ hvalue later =>
      refine gives_readMembersWithin_member h ?_ hb₂ hb₃ hvalue later.ends_members
        fun done q => ih later (by simpa using hfuel)
      simp only [quoted, List.cons_append, List.append_assoc]
      exact ⟨_, nextKey_separated hb hb₁⟩

/-- A record is complete when `complete` says so. -/
theorem gives_finish : Gives (s.finish done ⟨rest, q⟩) (s.complete done).toOption rest := by
  unfold Shape.finish
  cases s.complete done with
  | ok a => exact gives_ok
  | error name => exact gives_none fun r hr => by cases hr

variable {fields : List (Field σ)} {ts : List SyntaxTree} {first : Bool} {position : Nat}

variable (s) in
/-- The items of a list, its closing bracket and the completed record. -/
def readItems (fields : List (Field σ)) (first : Bool) (position : Nat) (done : σ) : Reader α :=
  fun c => s.readListed fields first position done c >>= fun v => endList v.2 >>= fun c =>
    s.finish v.1 c

/-- A list may end before fields that are optional. -/
theorem gives_readItems_nil (hb : Blanks bs) :
    Gives (s.readItems fields first position done ⟨bs ++ ']' :: rest, p⟩)
      ((listed put fields [] done).bind fun done => (s.complete done).toOption) rest := by
  induction fields generalizing bs first position p with
  | nil =>
    have hend : endList ⟨bs ++ ']' :: rest, p⟩ = .ok ⟨rest, (p.afterAll bs).after ']'⟩ := by
      simp only [endList, skipBlanks_append hb (x := ']') rfl, peek?_cons, next_cons]
    simp only [readItems, readListed, bind, Except.bind, hend, listed, Option.bind_some]
    exact gives_finish
  | cons field fields ih =>
    have hnext : nextItem first ⟨bs ++ ']' :: rest, p⟩ = .ok (false, ⟨']' :: rest, p.afterAll bs⟩) := by
      simp only [nextItem, skipBlanks_append hb (x := ']') rfl, peek?_cons]
    by_cases hopt : field.optional = true
    · have hlater : Gives (s.readItems fields first (position + 1) done
          ⟨[] ++ ']' :: rest, p.afterAll bs⟩)
          ((listed put fields [] done).bind fun done => (s.complete done).toOption) rest :=
        ih blanks_nil
      simpa [readItems, readListed, hnext, bind, Except.bind, listed, hopt] using hlater
    · have hnone : listed put (field :: fields) [] done = none := by simp [listed, hopt]
      rw [hnone]
      refine gives_none fun r hr => ?_
      simp [readItems, readListed, hnext, bind, Except.bind, hopt] at hr

/-- An item of a list is the value of the next field. -/
theorem gives_readItems_item (h : s.Puts put) (hfields : ∀ x ∈ fields, x ∈ s.fields) {c : Cursor}
    (hnext : ∃ p, nextItem first c = .ok (true, ⟨cs ++ mid, p⟩))
    (hend : ∀ c', endList c ≠ .ok c') (hvalue : Layout (.value t) cs) (he : Ends mid)
    (hlater : ∀ fields done q, (∀ x ∈ fields, x ∈ s.fields) →
      Gives (s.readItems fields false (position + 1) done ⟨mid, q⟩)
        ((listed put fields ts done).bind fun done => (s.complete done).toOption) rest) :
    Gives (s.readItems fields first position done c)
      ((listed put fields (t :: ts) done).bind fun done => (s.complete done).toOption) rest := by
  obtain ⟨p, hp⟩ := hnext
  cases fields with
  | nil =>
    refine gives_none fun r hr => ?_
    obtain ⟨_, hlist, hr⟩ := bind_eq_ok hr
    cases hlist
    obtain ⟨c', hc', -⟩ := bind_eq_ok hr
    exact hend c' hc'
  | cons field fields =>
    have hlisted : s.readListed (field :: fields) first position done c =
        field.read done ⟨cs ++ mid, p⟩ >>= fun v =>
          s.readListed fields false (position + 1) v.1 v.2 := by
      rw [readListed, hp]
      rfl
    have hrun : s.readItems (field :: fields) first position done c =
        field.read done ⟨cs ++ mid, p⟩ >>= fun v =>
          s.readItems fields false (position + 1) v.1 v.2 := by
      simp only [readItems, hlisted, bind_assoc]
    have hfound : ((listed put (field :: fields) (t :: ts) done).bind fun done =>
        (s.complete done).toOption) = ((put field.name t).map (· done)).bind fun done =>
          (listed put fields ts done).bind fun done => (s.complete done).toOption := by
      cases hput : put field.name t <;> simp [listed, hput]
    rw [hrun, hfound]
    have hread := h field (hfields field (by simp)) done t cs [] mid p hvalue blanks_nil he
    exact hread.bind fun done q _ => hlater fields done q fun x hx => hfields x (by simp [hx])

/-- The items of a list behind the first one. -/
theorem gives_readItems (h : s.Puts put) (hfields : ∀ x ∈ fields, x ∈ s.fields)
    (hlayout : Layout (.items ts) cs) :
    Gives (s.readItems fields false position done ⟨cs ++ rest, p⟩)
      ((listed put fields ts done).bind fun done => (s.complete done).toOption) rest := by
  induction ts generalizing cs fields done position p with
  | nil =>
    cases hlayout with
    | endList hb => simpa using gives_readItems_nil hb
  | cons t ts ih =>
    cases hlayout with
    | item hb hb' hvalue later =>
      obtain ⟨x, xs, rfl, hx⟩ := hvalue.exists_opens
      simp only [List.append_assoc, List.cons_append]
      refine gives_readItems_item h hfields ⟨_, nextItem_separated hb hb' hx.isOpening⟩
        (fun c' => ?_) hvalue later.ends_items fun fields done q hfields => ih hfields later
      simp only [endList, skipBlanks_append hb (x := ',') rfl, peek?_cons]
      split <;> simp [Cursor.failNext]

/-- **A record is read as its tree says**, be it written as an object or as a list. -/
theorem agrees_read (h : s.Puts put) : Agrees s.read (s.ofTree? put) := by
  unfold Shape.read
  refine agrees_onValue fun t x xs rest p hlayout hx _ => ?_
  by_cases hbrace : x = '\x7b'
  · subst hbrace
    obtain ⟨ms, rfl⟩ := hx.object
    rw [if_pos rfl, next_cons, ofTree?]
    have hmembers : Gives (s.readMembersWithin (('\x7b' :: (xs ++ rest)).length + 1) true s.blank
        ⟨xs ++ rest, p.after '\x7b'⟩) (s.gather put s.blank ms) rest := by
      cases hlayout with
      | emptyObject hb =>
        simpa [Shape.readMembersWithin, nextKey_end hb, bind, Except.bind, gather] using gives_ok
      | object hb hb₁ hb₂ first later =>
        have hlength := later.length_members
        refine gives_readMembersWithin_member h ?_ hb₁ hb₂ first later.ends_members
          fun done q => gives_readMembersWithin h later ?_
        · simp only [quoted, List.cons_append, List.append_assoc]
          exact ⟨_, nextKey_first hb⟩
        · simp only [List.length_cons, List.length_append]
          omega
    exact hmembers.bind fun done q _ => gives_finish
  · rw [if_neg hbrace]
    by_cases hbracket : x = '['
    · subst hbracket
      obtain ⟨ts, rfl⟩ := hx.list
      rw [if_pos rfl, next_cons, ofTree?]
      cases hlayout with
      | emptyList hb =>
        simp only [List.append_assoc, List.cons_append, List.nil_append]
        exact gives_readItems_nil hb
      | list hb first later =>
        obtain ⟨y, ys, rfl, hy⟩ := first.exists_opens
        simp only [List.append_assoc, List.cons_append]
        refine gives_readItems_item h (fun _ hx => hx) ⟨_, nextItem_first hb hy.isOpening⟩
          (fun c' => ?_) first later.ends_items fun fields done q hfields =>
            gives_readItems h hfields later
        obtain ⟨hcomma, hclose, -⟩ := hy.isOpening.ne
        simp [endList, skipBlanks_append hb hy.isOpening.not_isBlank, Cursor.failNext]
    · have hnone : s.ofTree? put t = none := by
        unfold ofTree?
        split
        · exact absurd hx hbrace
        · exact absurd hx hbracket
        · rfl
      rw [if_neg hbracket, hnone]
      exact gives_failWrongType

end Shape

/-! ### Whole texts -/

/-- Blanks are passed over up to the end of the text. -/
theorem skipBlanks_blanks {bs : List Char} (hb : Blanks bs) :
    (⟨bs, p⟩ : Cursor).skipBlanks.peek? = none := by
  unfold skipBlanks
  dsimp only
  induction bs generalizing p with
  | nil => rfl
  | cons b bs ih =>
    rw [skipBlanksFrom, if_pos (hb b (by simp))]
    exact ih fun x hx => hb x (by simp [hx])

/-- **A whole text is read as its tree says.** -/
theorem Agrees.readWhole {r : Reader α} {f : SyntaxTree → Option α} (h : Agrees r f) {text : String}
    (hlays : t.Lays text) : (readWhole r text).toOption = f t := by
  obtain ⟨bs, cs, bs', hb, hlayout, hb', htext⟩ := hlays
  obtain ⟨q, hq⟩ := h t cs bs bs' ⟨1, 0⟩ hlayout hb (ends_of_blanks hb')
  rw [← htext] at hq
  change (r (Cursor.start text)).toOption = _ at hq
  unfold Json.readWhole
  cases hr : r (Cursor.start text) with
  | error e =>
    rw [hr] at hq
    cases hf : f t with
    | none => rfl
    | some a => simp [hf, Except.toOption] at hq
  | ok v =>
    rw [hr] at hq
    cases hf : f t with
    | none => simp [hf, Except.toOption] at hq
    | some a =>
      rw [hf] at hq
      obtain rfl : v = (a, ⟨bs', q⟩) := by simpa [Except.toOption] using hq
      simp only [bind, Except.bind, skipBlanks_blanks hb']
      rfl

end PublisherConsole.Json
