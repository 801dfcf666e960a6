import PublisherConsole.Proofs.Unicode.PlainText
import PublisherConsole.Proofs.Unicode.Tables
import PublisherConsole.Text.Truncate

/-!
# The width of a text that was cut

Whether a text is cut is decided by its width as a whole, but it is cut where its characters,
measured one by one, fill the room in front of the dots. The whole can be wider than its characters:
a control character has no cell on its own and takes one in a text, and an emoji of one cell takes
two in front of a variation selector. These cells are `Unicode.hiddenCells`.

* `Unicode.isCovered_widthBefore`: what one more character adds is covered by its own cells and the
  hidden ones, except that a pair of regional indicators may leave two cells to the next one;
* `Unicode.textWidth_le`: so a text is no wider than its characters and its hidden cells;
* `RespectsWidth`: what should come of a text that is cut.
-/

namespace PublisherConsole

namespace Unicode

open Text (total total_cons)

variable {c : Char} {cs : List Char} {f : Following} {next : Option Char}

/-! ### Hidden cells -/

/-- The cells that a character takes in a text beyond those that it has on its own: one if it is a
control character, unless it is a carriage return in front of a line feed, and the second one if it
is an emoji of one cell in front of an emoji variation selector. -/
def hiddenCellsAt (c : Char) (next : Option Char) : Nat :=
  if isControl c then
    if c = '\r' ∧ next = some '\n' then 0 else 1
  else if emoji.contains c ∧ next = some '\ufe0f' then 2 - charWidth c
  else 0

/-- The cells of a text that its characters do not have on their own. -/
def hiddenCells : List Char → Nat
  | [] => 0
  | c :: cs => hiddenCellsAt c cs.head? + hiddenCells cs

/-- There is no control character, and no emoji of one cell in front of a variation selector. -/
def HidesNoCells (cs : List Char) : Prop :=
  ∀ c behind, c :: behind <:+ cs → isControl c = false ∧
    (emoji.contains c = true → behind.head? = some '\ufe0f' → charWidth c = 2)

theorem HidesNoCells.of_prefix {part : List Char} (h : HidesNoCells cs) (hpart : part <+: cs) :
    HidesNoCells part := by
  obtain ⟨rest, rfl⟩ := hpart
  intro c behind hbehind
  obtain ⟨before, rfl⟩ := hbehind
  obtain ⟨hcontrol, hemoji⟩ := h c (behind ++ rest) ⟨before, by simp⟩
  refine ⟨hcontrol, fun hc hstyle => hemoji hc ?_⟩
  rw [List.head?_append, hstyle]
  rfl

theorem HidesNoCells.hiddenCells_eq_zero (h : HidesNoCells cs) : hiddenCells cs = 0 := by
  induction cs with
  | nil => rfl
  | cons c cs ih =>
    obtain ⟨hcontrol, hemoji⟩ := h c cs (List.suffix_refl _)
    have htail : HidesNoCells cs := fun d behind hd => h d behind (hd.trans (List.suffix_cons _ _))
    rw [hiddenCells, ih htail, hiddenCellsAt, hcontrol, if_neg (by simp)]
    split_ifs with hc
    · rw [hemoji hc.1 hc.2]
    · rfl

/-! ### One more character -/

/-- The cells that are owed to what follows: a pair of regional indicators that is joined to a
symbol takes no cells, until there is another one in front of it, which takes those of the pair. -/
def Following.owed : Following → Nat
  | .joinedRegionalPair => 2
  | _ => 0

/-- What follows is a line feed or an emoji variation selector only where the next character is. -/
structure Following.IsOf (f : Following) (next : Option Char) : Prop where
  feed : next = some '\n' → f = .lineFeed
  style : f = .emojiStyle → next = some '\ufe0f'

theorem charWidth_of_isControl (h : isControl c = false) : charWidth c = plainWidth c := by
  rw [charWidth, charWidth?, h]
  rfl

theorem plainWidth_pos (h : zeroWidth.contains c = false) : 0 < plainWidth c := by
  rw [plainWidth, h, if_neg Bool.false_ne_true]
  repeat' split
  all_goals decide

theorem owed_followingOf (c : Char) : (followingOf c).owed = 0 := by
  fun_cases followingOf c
  all_goals rfl

theorem owed_joined (f : Following) : f.joined.owed ≤ f.owed := by
  cases f <;> decide

theorem owed_styled (f : Following) : f.styled.owed = 0 := by
  cases f <;> rfl

theorem followingOf_eq_emojiStyle (h : followingOf c = .emojiStyle) : c = '\ufe0f' := by
  revert h
  fun_cases followingOf c
  case case9 hstyle => exact fun _ => Char.toNat_inj.1 hstyle
  all_goals
    intro h
    cases h

theorem joined_eq_emojiStyle (h : f.joined = .emojiStyle) : f = .emojiStyle := by
  cases f <;> first | rfl | cases h

/-- What a character among the first of the code adds, if it is no emoji. -/
theorem widthBefore_low (hlow : c.toNat ≤ 0xa0 ∧ ¬ emoji.contains c = true) (f : Following) :
    widthBefore c f =
      if c = '\n' then (1, .lineFeed) else if c = '\r' ∧ f = .lineFeed then (0, .plain)
      else (1, .plain) := by
  have hfeed : c.toNat = 0x0a ↔ c = '\n' := ⟨fun h => Char.toNat_inj.1 h, fun h => h ▸ rfl⟩
  have hreturn : c.toNat = 0x0d ↔ c = '\r' := ⟨fun h => Char.toNat_inj.1 h, fun h => h ▸ rfl⟩
  unfold widthBefore
  dsimp only
  rw [if_pos hlow]
  simp only [hfeed, hreturn]

theorem not_emoji_of_isControl (h : isControl c = true) : ¬ emoji.contains c = true := by
  intro hemoji
  rw [isControl_of_emoji hemoji] at h
  cases h

/-- What follows the character before is read off the character. -/
theorem isOf_widthBefore (c : Char) (f : Following) : (widthBefore c f).2.IsOf (some c) where
  feed h := by
    cases h
    rw [widthBefore_low ⟨by decide, not_emoji_of_isControl (by decide)⟩]
    rfl
  style := by
    fun_cases widthBefore c f
    case case4 hstyle => exact fun _ => congrArg some (Char.toNat_inj.1 hstyle)
    case case6 hchanged => exact fun h => absurd (h.trans (joined_eq_emojiStyle h).symm) hchanged.2
    case case7 htie =>
      rintro rfl
      cases htie.1
    all_goals first
      | exact fun h => congrArg some (followingOf_eq_emojiStyle h)
      | (intro h; cases h)

/-- What is added in front of what follows is covered by the cells of the character, its hidden
cells and what is owed. -/
def IsCovered (c : Char) (next : Option Char) (f : Following) (step : Int × Following) : Prop :=
  step.1 + step.2.owed ≤ ((charWidth c + hiddenCellsAt c next + f.owed : Nat) : Int)

theorem isCovered_of_le {f' : Following} {add : Int}
    (hadd : add ≤ ((charWidth c + hiddenCellsAt c next : Nat) : Int)) (howed : f'.owed ≤ f.owed) :
    IsCovered c next f (add, f') := by
  show add + (f'.owed : Int) ≤ _
  omega

/-- The first characters of the code take one cell, a hidden one if they are control characters. -/
theorem isCovered_low (hf : f.IsOf next) (hlow : c.toNat ≤ 0xa0 ∧ ¬ emoji.contains c = true) :
    IsCovered c next f (widthBefore c f) := by
  rw [widthBefore_low hlow]
  by_cases hreturn : c = '\r' ∧ next = some '\n'
  · rw [if_neg (by rw [hreturn.1]; decide), if_pos ⟨hreturn.1, hf.feed hreturn.2⟩]
    exact isCovered_of_le (Int.natCast_nonneg _) (Nat.zero_le _)
  have hone : 1 ≤ charWidth c + hiddenCellsAt c next := by
    cases hcontrol : isControl c with
    | true =>
      rw [hiddenCellsAt, hcontrol, if_pos rfl, if_neg hreturn]
      exact Nat.le_add_left 1 _
    | false =>
      have hwidth : 0 < plainWidth c := by
        by_cases hhigh : c.toNat < 0x7f
        · rw [plainWidth, if_pos hhigh]
          exact Nat.one_pos
        · simp only [isControl, Bool.or_eq_false_iff, Bool.and_eq_false_iff,
            decide_eq_false_iff_not] at hcontrol
          exact plainWidth_pos (zeroWidth_of_toNat (by omega))
      rw [charWidth_of_isControl hcontrol]
      omega
  have one : (1 : Int) ≤ ((charWidth c + hiddenCellsAt c next : Nat) : Int) := Int.ofNat_le.2 hone
  split
  · exact isCovered_of_le one (Nat.zero_le _)
  split
  · exact isCovered_of_le (Int.natCast_nonneg _) (Nat.zero_le _)
  · exact isCovered_of_le one (Nat.zero_le _)

/-- Other characters add no cells, or those that they have on their own, but for emoji sequences. -/
theorem isCovered_high (hf : f.IsOf next) (hlow : ¬ (c.toNat ≤ 0xa0 ∧ ¬ emoji.contains c = true)) :
    IsCovered c next f (widthBefore c f) := by
  have hcontrol : isControl c = false := by
    by_cases hemoji : emoji.contains c = true
    · exact isControl_of_emoji hemoji
    · simp only [isControl, Bool.or_eq_false_iff, Bool.and_eq_false_iff, decide_eq_false_iff_not]
      have : ¬ c.toNat ≤ 0xa0 := fun h => hlow ⟨h, hemoji⟩
      omega
  have hwidth : charWidth c = plainWidth c := charWidth_of_isControl hcontrol
  have alone {f : Following} : IsCovered c next f (plainWidth c, followingOf c) := by
    refine isCovered_of_le ?_ ((owed_followingOf c).trans_le (Nat.zero_le _))
    omega
  have nothing {f f' : Following} {add : Int} (hadd : add ≤ 0) (howed : f'.owed ≤ f.owed) :
      IsCovered c next f (add, f') := isCovered_of_le (hadd.trans (Int.natCast_nonneg _)) howed
  have one {f f' : Following} (hzero : zeroWidth.contains c = false) (howed : f'.owed = 0) :
      IsCovered c next f (1, f') := by
    have := plainWidth_pos hzero
    refine isCovered_of_le ?_ (howed.trans_le (Nat.zero_le _))
    omega
  have regional (h : isRegional c.toNat = true) : 0 < charWidth c :=
    hwidth ▸ plainWidth_pos (zeroWidth_of_isRegional h)
  fun_cases widthBefore c f
  case case1 h _ | case2 h _ _ | case3 h _ _ => exact absurd h hlow
  case case4 => exact nothing (le_refl _) ((owed_styled f).trans_le (Nat.zero_le _))
  case case5 => exact nothing (le_refl _) (Nat.zero_le _)
  case case6 => exact nothing (le_refl _) (owed_joined f)
  case case7 => exact nothing (le_refl _) (le_refl _)
  case case8 hemoji _ _ =>
    -- The second cell of the emoji is a hidden one.
    have hstyle := hf.style rfl
    refine isCovered_of_le ?_ (le_refl _)
    rw [hiddenCellsAt, hcontrol, if_neg Bool.false_ne_true, if_pos ⟨hemoji, hstyle⟩]
    omega
  case case14 hvariant _ _ => exact one (zeroWidth_of_textVariants hvariant) rfl
  case case27 h _ _ | case29 h _ _ =>
    exact one (zeroWidth_of_toNat (.inr (.inr (.inl h)))) rfl
  case case40 h _ _ | case42 h _ _ | case49 h _ _ =>
    exact one (zeroWidth_of_isRegional h) rfl
  case case44 h _ _ | case46 h _ _ =>
    have := regional h
    simp only [IsCovered, Following.owed]
    omega
  all_goals first
    | exact alone
    | exact nothing (by decide) (by decide)

theorem isCovered_widthBefore (hf : f.IsOf next) (c : Char) :
    IsCovered c next f (widthBefore c f) := by
  by_cases hlow : c.toNat ≤ 0xa0 ∧ ¬ emoji.contains c = true
  · exact isCovered_low hf hlow
  · exact isCovered_high hf hlow

/-! ### The whole text -/

theorem isOf_widthFold (cs : List Char) : (widthFold cs).2.IsOf cs.head? := by
  cases cs with
  | nil =>
    constructor <;>
    · intro h
      cases h
  | cons c cs => exact isOf_widthBefore c _

/-- From the last character to the first, the cells of a text and what it owes are covered. -/
theorem widthFold_le (cs : List Char) :
    (widthFold cs).1 + (widthFold cs).2.owed ≤
      ((total charWidth cs + hiddenCells cs : Nat) : Int) := by
  induction cs with
  | nil => exact le_refl _
  | cons c cs ih =>
    have step := isCovered_widthBefore (isOf_widthFold cs) c
    rw [IsCovered] at step
    rw [widthFold_cons, total_cons, hiddenCells]
    dsimp only
    omega

/-- **A text is no wider** than its characters one by one and its hidden cells. -/
theorem textWidth_le (cs : List Char) : textWidth cs ≤ total charWidth cs + hiddenCells cs := by
  have h := widthFold_le cs
  rw [textWidth]
  omega

/-- Three dots behind a text take three cells. -/
theorem widthFold_dots (cs : List Char) :
    widthFold (cs ++ ['.', '.', '.']) = ((widthFold cs).1 + 3, (widthFold cs).2) := by
  induction cs with
  | nil =>
    have hdot : IsPlain '.' := by decide
    rw [List.nil_append, widthFold_of_isLone (by simp [hdot.isLone])]
    simp [hdot.charWidth, widthFold]
  | cons c cs ih =>
    rw [List.cons_append, widthFold_cons, ih, widthFold_cons]
    simp only [Prod.mk.injEq, and_true]
    omega

end Unicode

namespace Text

open Unicode (charWidth textWidth hiddenCells HidesNoCells)

variable {text : String} {cs : List Char} {room width : Nat}

/-! ### Cutting -/

theorem prefix_takeCells (room : Nat) (cs : List Char) : takeCells room cs <+: cs := by
  induction cs generalizing room with
  | nil => exact List.prefix_refl _
  | cons c cs ih =>
    rw [takeCells]
    split
    · exact (List.prefix_cons_inj c).2 (ih _)
    · exact List.nil_prefix

theorem total_takeCells_le (room : Nat) (cs : List Char) :
    total charWidth (takeCells room cs) ≤ room := by
  induction cs generalizing room with
  | nil => exact Nat.zero_le _
  | cons c cs ih =>
    rw [takeCells]
    split
    · have := ih (room - charWidth c)
      rw [total_cons]
      omega
    · exact Nat.zero_le _

/-- Nothing is cut off where all characters fit one by one. -/
theorem takeCells_eq_self_iff : takeCells room cs = cs ↔ total charWidth cs ≤ room := by
  constructor
  · intro h
    rw [← h]
    exact total_takeCells_le room cs
  · intro h
    induction cs generalizing room with
    | nil => rfl
    | cons c cs ih =>
      rw [total_cons] at h
      rw [takeCells, if_pos (by omega), ih (by omega)]

/-- Behind three dots there is room for three cells less. -/
theorem textWidth_dots_le_iff (h : 3 ≤ width) :
    textWidth (cs ++ ['.', '.', '.']) ≤ width ↔ textWidth cs ≤ width - 3 := by
  rw [textWidth, textWidth, Unicode.widthFold_dots]
  dsimp only
  omega

/-- A text that is cut to a width fits, is left alone if it fits as it is, and otherwise loses some
characters at its end for three dots. -/
structure RespectsWidth (text : String) (width : Nat) (cut : String) : Prop where
  fits : textWidth cut.toList ≤ width
  whole : textWidth text.toList ≤ width → cut = text
  dotted : width < textWidth text.toList →
    ∃ kept, kept <+: text.toList ∧ kept ≠ text.toList ∧ cut = String.ofList kept ++ "..."

theorem truncate_of_le (h : textWidth text.toList ≤ width) : truncate text width = text :=
  if_pos h

theorem truncate_of_lt (h : width < textWidth text.toList) :
    truncate text width = String.ofList (takeCells (width - 3) text.toList) ++ "..." :=
  if_neg (Nat.not_le.2 h)

theorem toList_truncate_of_lt (h : width < textWidth text.toList) :
    (truncate text width).toList = takeCells (width - 3) text.toList ++ ['.', '.', '.'] := by
  rw [truncate_of_lt h, String.toList_append, String.toList_ofList]
  rfl

theorem respectsWidth_of_le (h : textWidth text.toList ≤ width) :
    RespectsWidth text width (truncate text width) := by
  rw [truncate_of_le h]
  exact ⟨h, fun _ => rfl, fun hlt => absurd h (Nat.not_le.2 hlt)⟩

/-- A text that does not fit is cut as it should be if and only if one of its characters is cut off
and the others fit in front of the dots. -/
theorem respectsWidth_iff_of_lt (hwidth : 3 ≤ width) (h : width < textWidth text.toList) :
    RespectsWidth text width (truncate text width) ↔
      width - 3 < total charWidth text.toList ∧
        textWidth (takeCells (width - 3) text.toList) ≤ width - 3 := by
  rw [← textWidth_dots_le_iff hwidth, ← toList_truncate_of_lt h, ← Nat.not_le,
    ← takeCells_eq_self_iff]
  constructor
  · intro hcut
    obtain ⟨kept, -, hne, hkept⟩ := hcut.dotted h
    rw [truncate_of_lt h] at hkept
    have hsame : takeCells (width - 3) text.toList = kept := by
      simpa using congrArg String.toList hkept
    exact ⟨hsame ▸ hne, hcut.fits⟩
  · rintro ⟨hne, hfits⟩
    exact ⟨hfits, fun hle => absurd hle (Nat.not_le.2 h),
      fun _ => ⟨_, prefix_takeCells _ _, hne, truncate_of_lt h⟩⟩

/-- **A text that was cut is too wide by its hidden cells at most.** It is as it should be if it was
not cut, or else if and only if one of its characters is cut off and the others fit in front of the
dots; and in particular if the text hides no cells. -/
theorem truncation_overshoots_by_hidden_cells (text : String) {width : Nat} (hwidth : 3 ≤ width) :
    let kept := takeCells (width - 3) text.toList
    textWidth (truncate text width).toList ≤ width + hiddenCells kept ∧
      (RespectsWidth text width (truncate text width) ↔ textWidth text.toList ≤ width ∨
        width - 3 < total charWidth text.toList ∧ textWidth kept ≤ width - 3) ∧
      (HidesNoCells text.toList → RespectsWidth text width (truncate text width)) := by
  intro kept
  have hkept : textWidth kept ≤ width - 3 + hiddenCells kept :=
    (Unicode.textWidth_le kept).trans (Nat.add_le_add_right (total_takeCells_le _ _) _)
  by_cases h : textWidth text.toList ≤ width
  · have hcut := respectsWidth_of_le h
    exact ⟨hcut.fits.trans (Nat.le_add_right _ _), iff_of_true hcut (.inl h), fun _ => hcut⟩
  have hlt := Nat.not_le.1 h
  have hcut := respectsWidth_iff_of_lt hwidth hlt
  refine ⟨?_, by rw [hcut, or_iff_right h], fun hnone => hcut.2 ⟨?_, ?_⟩⟩
  · rw [toList_truncate_of_lt hlt, textWidth_dots_le_iff (by omega)]
    exact hkept.trans (by omega)
  · have hwhole := Unicode.textWidth_le text.toList
    rw [hnone.hiddenCells_eq_zero] at hwhole
    omega
  · rwa [(hnone.of_prefix (prefix_takeCells _ _)).hiddenCells_eq_zero] at hkept

/-- Control characters take a cell each in a text, but none on their own. -/
theorem textWidth_replicate_control (n : Nat) :
    textWidth (List.replicate n '\x01') = n ∧ total charWidth (List.replicate n '\x01') = 0 := by
  have hstep : Unicode.widthBefore '\x01' .plain = (1, .plain) :=
    Unicode.widthBefore_of_lt (by decide) (by decide)
  have hcontrol : Unicode.isControl '\x01' = true := by decide
  have hnone : charWidth '\x01' = 0 := by
    rw [charWidth, Unicode.charWidth?, hcontrol]
    rfl
  have hfold : Unicode.widthFold (List.replicate n '\x01') = ((n : Int), .plain) ∧
      total charWidth (List.replicate n '\x01') = 0 := by
    induction n with
    | zero => exact ⟨rfl, rfl⟩
    | succ n ih =>
      rw [List.replicate_succ, Unicode.widthFold_cons, ih.1, hstep, total_cons, hnone, ih.2]
      simp
  refine ⟨?_, hfold.2⟩
  rw [textWidth, hfold.1]
  exact Int.toNat_natCast n

/-- Four control characters do not fit into three cells, but all are kept in front of the dots. -/
theorem control_characters_overshoot :
    let text := String.ofList (List.replicate 4 '\x01')
    3 ≤ 3 ∧ ¬ RespectsWidth text 3 (truncate text 3) := by
  intro text
  refine ⟨le_refl 3, ?_⟩
  obtain ⟨hwidth, hcells⟩ := textWidth_replicate_control 4
  rw [(truncation_overshoots_by_hidden_cells text (le_refl 3)).2.1, String.toList_ofList, hwidth,
    hcells]
  simp

end Text

end PublisherConsole
