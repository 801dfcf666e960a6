import PublisherConsole.Proofs.Json.Reading

/-!
# Syntax trees of JSON texts

A `SyntaxTree` is a JSON text without the blanks between its tokens. Strings and numbers stand in it
as they are written: a string is a list of `Glyph`s, which spell its characters (`spell?`) unless half
of a surrogate pair stands alone among them. `Layout` says how a tree is written down, with any blanks
between its tokens, and `SyntaxTree.Lays` how it is written as a whole text.
-/

namespace PublisherConsole.Json

open Cursor

variable {cs rest : List Char}

/-! ### Strings -/

/-- The code unit of four hexadecimal digits. -/
def hexUnit? (w x y z : Char) : Option Nat :=
  match hexValue? w, hexValue? x, hexValue? y, hexValue? z with
  | some w, some x, some y, some z => some (((w * 16 + x) * 16 + y) * 16 + z)
  | _, _, _, _ => none

/-- A character of a string as it is written: itself, an escape of one letter, or a code unit. -/
inductive Glyph
  | plain (x : Char) (free : x ≠ '"' ∧ x ≠ '\\' ∧ 0x20 ≤ x.toNat)
  | escape (x y : Char) (means : escaped? x = some y)
  | unit (w x y z : Char) (n : Nat) (means : hexUnit? w x y z = some n)

/-- How a glyph is written. -/
@[simp] def Glyph.written : Glyph → List Char
  | .plain x _ => [x]
  | .escape x _ _ => ['\\', x]
  | .unit w x y z _ _ => ['\\', 'u', w, x, y, z]

/-- How a string is written between its quotes. -/
def body (gs : List Glyph) : List Char := gs.flatMap Glyph.written

@[simp] theorem body_nil : body [] = [] := rfl

@[simp] theorem body_cons (g : Glyph) (gs : List Glyph) : body (g :: gs) = g.written ++ body gs := rfl

/-- How a string is written. -/
def quoted (gs : List Glyph) : List Char := '"' :: (body gs ++ ['"'])

/-- A string that is written without escapes. -/
def unescaped (s : String) (h : ∀ x ∈ s.toList, x ≠ '"' ∧ x ≠ '\\' ∧ 0x20 ≤ x.toNat) : List Glyph :=
  s.toList.pmap Glyph.plain h

/-- The characters of a string; none when half of a surrogate pair stands alone. -/
def spell? : List Glyph → Option (List Char)
  | [] => some []
  | .plain x _ :: gs => (spell? gs).map (x :: ·)
  | .escape _ y _ :: gs => (spell? gs).map (y :: ·)
  | .unit _ _ _ _ n _ :: gs =>
    if isTrailing n then none
    else if isLeading n then
      match gs with
      | .unit _ _ _ _ m _ :: gs =>
        if isTrailing m then
          (spell? gs).map (Char.ofNat ((n - 0xD800) * 0x400 + (m - 0xDC00) + 0x10000) :: ·)
        else none
      | _ => none
    else (spell? gs).map (Char.ofNat n :: ·)

/-- The string that is written. -/
def text? (gs : List Glyph) : Option String := (spell? gs).map String.ofList

/-! ### Numbers -/

/-- At least one decimal digit. -/
def IsDigits (cs : List Char) : Prop := cs ≠ [] ∧ ∀ x ∈ cs, x.isDigit = true

/-- The whole part of a number has no needless zero in front. -/
def IsWhole (cs : List Char) : Prop := cs = ['0'] ∨ IsDigits cs ∧ cs.head? ≠ some '0'

/-- A point with digits behind it, or nothing. -/
def IsFraction (cs : List Char) : Prop := cs = [] ∨ ∃ ds, IsDigits ds ∧ cs = '.' :: ds

/-- An exponent, or nothing. -/
def IsExponent (cs : List Char) : Prop :=
  cs = [] ∨ ∃ e sign ds, (e = 'e' ∨ e = 'E') ∧ (sign = [] ∨ sign = ['+'] ∨ sign = ['-']) ∧
    IsDigits ds ∧ cs = e :: (sign ++ ds)

/-- A number as it is written. -/
def IsNumeral (cs : List Char) : Prop :=
  ∃ sign whole fraction exponent, (sign = [] ∨ sign = ['-']) ∧ IsWhole whole ∧ IsFraction fraction ∧
    IsExponent exponent ∧ cs = sign ++ (whole ++ (fraction ++ exponent))

/-! ### Trees -/

/-- A JSON text without the blanks between its tokens. -/
inductive SyntaxTree
  | null
  | boolean (b : Bool)
  | number (cs : List Char) (h : IsNumeral cs)
  | text (gs : List Glyph)
  | list (items : List SyntaxTree)
  | object (members : List (List Glyph × SyntaxTree))

/-- The members of an object: keys as they are written, and their values. -/
abbrev Members := List (List Glyph × SyntaxTree)

/-- What is written down: a value, or what follows an item of a list or a member of an object, up to
and including the closing bracket. -/
inductive Part
  | value (t : SyntaxTree)
  | items (ts : List SyntaxTree)
  | members (ms : Members)

/-- How a part is written, with any blanks between its tokens. -/
inductive Layout : Part → List Char → Prop
  | null : Layout (.value .null) ['n', 'u', 'l', 'l']
  | yes : Layout (.value (.boolean true)) ['t', 'r', 'u', 'e']
  | no : Layout (.value (.boolean false)) ['f', 'a', 'l', 's', 'e']
  | number (cs : List Char) (h : IsNumeral cs) : Layout (.value (.number cs h)) cs
  | text (gs : List Glyph) : Layout (.value (.text gs)) (quoted gs)
  | emptyList {bs : List Char} (hb : Blanks bs) : Layout (.value (.list [])) ('[' :: (bs ++ [']']))
  | list {bs cs rest : List Char} {t : SyntaxTree} {ts : List SyntaxTree} (hb : Blanks bs)
      (first : Layout (.value t) cs) (later : Layout (.items ts) rest) :
      Layout (.value (.list (t :: ts))) ('[' :: (bs ++ (cs ++ rest)))
  | emptyObject {bs : List Char} (hb : Blanks bs) :
      Layout (.value (.object [])) ('\x7b' :: (bs ++ ['\x7d']))
  | object {bs bs₁ bs₂ cs rest : List Char} {key : List Glyph} {t : SyntaxTree} {ms : Members}
      (hb : Blanks bs) (hb₁ : Blanks bs₁) (hb₂ : Blanks bs₂) (first : Layout (.value t) cs)
      (later : Layout (.members ms) rest) :
      Layout (.value (.object ((key, t) :: ms)))
        ('\x7b' :: (bs ++ (quoted key ++ (bs₁ ++ ':' :: (bs₂ ++ (cs ++ rest))))))
  | endList {bs : List Char} (hb : Blanks bs) : Layout (.items []) (bs ++ [']'])
  | item {bs bs' cs rest : List Char} {t : SyntaxTree} {ts : List SyntaxTree}
      (hb : Blanks bs) (hb' : Blanks bs') (next : Layout (.value t) cs) (later : Layout (.items ts) rest) :
      Layout (.items (t :: ts)) (bs ++ ',' :: (bs' ++ (cs ++ rest)))
  | endObject {bs : List Char} (hb : Blanks bs) : Layout (.members []) (bs ++ ['\x7d'])
  | member {bs bs₁ bs₂ bs₃ cs rest : List Char} {key : List Glyph} {t : SyntaxTree} {ms : Members}
      (hb : Blanks bs) (hb₁ : Blanks bs₁) (hb₂ : Blanks bs₂) (hb₃ : Blanks bs₃)
      (next : Layout (.value t) cs) (later : Layout (.members ms) rest) :
      Layout (.members ((key, t) :: ms))
        (bs ++ ',' :: (bs₁ ++ (quoted key ++ (bs₂ ++ ':' :: (bs₃ ++ (cs ++ rest))))))

/-- A tree is written as a whole text, with blanks around it. -/
def SyntaxTree.Lays (t : SyntaxTree) (text : String) : Prop :=
  ∃ bs cs bs', Blanks bs ∧ Layout (.value t) cs ∧ Blanks bs' ∧ text.toList = bs ++ (cs ++ bs')

/-! ### Where a part begins and ends -/

variable {t : SyntaxTree} {x : Char}

/-- The first character of a value tells its kind. -/
def SyntaxTree.Opens : SyntaxTree → Char → Prop
  | .null, x => x = 'n'
  | .boolean true, x => x = 't'
  | .boolean false, x => x = 'f'
  | .number _ _, x => x = '-' ∨ x.isDigit = true
  | .text _, x => x = '"'
  | .list _, x => x = '['
  | .object _, x => x = '\x7b'

/-- A character that may open a value. -/
def IsOpening (x : Char) : Prop :=
  x = 'n' ∨ x = 't' ∨ x = 'f' ∨ x = '-' ∨ x.isDigit = true ∨ x = '"' ∨ x = '[' ∨ x = '\x7b'

theorem SyntaxTree.Opens.isOpening (h : t.Opens x) : IsOpening x := by
  unfold Opens at h
  split at h <;> simp_all [IsOpening]
  tauto

theorem SyntaxTree.Opens.null (h : t.Opens 'n') : t = .null := by
  unfold Opens at h
  split at h <;> simp_all

theorem SyntaxTree.Opens.text (h : t.Opens '"') : ∃ gs, t = .text gs := by
  unfold Opens at h
  split at h <;> simp_all

theorem SyntaxTree.Opens.list (h : t.Opens '[') : ∃ ts, t = .list ts := by
  unfold Opens at h
  split at h <;> simp_all

theorem SyntaxTree.Opens.object (h : t.Opens '\x7b') : ∃ ms, t = .object ms := by
  unfold Opens at h
  split at h <;> simp_all

theorem IsOpening.not_isBlank (h : IsOpening x) : isBlank x = false := by
  rcases h with rfl | rfl | rfl | rfl | h | rfl | rfl | rfl
  case inr.inr.inr.inr.inl =>
    simp only [isBlank, Bool.or_eq_false_iff, decide_eq_false_iff_not]
    refine ⟨⟨⟨?_, ?_⟩, ?_⟩, ?_⟩ <;> rintro rfl <;> cases h
  all_goals rfl

/-- What opens a value neither separates nor closes. -/
theorem IsOpening.ne (h : IsOpening x) : x ≠ ',' ∧ x ≠ ']' ∧ x ≠ '\x7d' := by
  refine ⟨?_, ?_, ?_⟩ <;> rintro rfl <;> revert h <;> simp [IsOpening]

theorem opens_of_isNumeral (h : IsNumeral cs) :
    ∃ x xs, cs = x :: xs ∧ (x = '-' ∨ x.isDigit = true) := by
  obtain ⟨sign, whole, fraction, exponent, hsign, hwhole, -, -, rfl⟩ := h
  rcases hsign with rfl | rfl
  · rcases hwhole with rfl | ⟨⟨hne, hdigits⟩, -⟩
    · exact ⟨'0', _, rfl, .inr rfl⟩
    · obtain ⟨x, xs, rfl⟩ := List.exists_cons_of_ne_nil hne
      exact ⟨x, _, rfl, .inr (hdigits x (by simp))⟩
  · exact ⟨'-', _, rfl, .inl rfl⟩

/-- A value begins with the character of its kind. -/
theorem Layout.exists_opens (h : Layout (.value t) cs) : ∃ x xs, cs = x :: xs ∧ t.Opens x := by
  cases h with
  | number cs h => exact opens_of_isNumeral h
  | null => exact ⟨_, _, rfl, rfl⟩
  | yes => exact ⟨_, _, rfl, rfl⟩
  | no => exact ⟨_, _, rfl, rfl⟩
  | text => exact ⟨_, _, rfl, rfl⟩
  | emptyList => exact ⟨_, _, rfl, rfl⟩
  | list => exact ⟨_, _, rfl, rfl⟩
  | emptyObject => exact ⟨_, _, rfl, rfl⟩
  | object => exact ⟨_, _, rfl, rfl⟩

/-- An item ends where the rest of its list goes on. -/
theorem Layout.ends_items {ts : List SyntaxTree} (h : Layout (.items ts) cs) : Ends (cs ++ rest) := by
  cases h with
  | endList hb => simpa using ends_append hb (.inr (.inl rfl))
  | item hb => simpa using ends_append hb (.inl rfl)

/-- A member ends where the rest of its object goes on. -/
theorem Layout.ends_members {ms : Members} (h : Layout (.members ms) cs) : Ends (cs ++ rest) := by
  cases h with
  | endObject hb => simpa using ends_append hb (.inr (.inr rfl))
  | member hb => simpa using ends_append hb (.inl rfl)

end PublisherConsole.Json
