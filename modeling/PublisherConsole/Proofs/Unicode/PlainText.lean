import Mathlib.Tactic
import PublisherConsole.Text.Total
import PublisherConsole.Unicode.Cluster
import PublisherConsole.Unicode.TextWidth

/-!
# Plain text

Between the control characters lie the space and the ninety-four printable characters that every
keyboard has. Text of these has no surprises: each character is a user-perceived character of its
own (`clusters_of_isPlain`) and takes one cell, whatever stands beside it (`textWidth_of_isPlain`).
No table is looked up in these proofs, so they hold however the tables are filled.
-/

namespace PublisherConsole.Unicode

variable {c : Char} {cs : List Char}

/-- The space and the printable characters of every keyboard. -/
def IsPlain (c : Char) : Prop := 0x20 ≤ c.toNat ∧ c.toNat < 0x7f

instance : DecidablePred IsPlain := fun c =>
  inferInstanceAs (Decidable (0x20 ≤ c.toNat ∧ c.toNat < 0x7f))

theorem IsPlain.isControl (h : IsPlain c) : isControl c = false := by
  have := h.1
  have := h.2
  simp only [Unicode.isControl, Bool.or_eq_false_iff, Bool.and_eq_false_iff, decide_eq_false_iff_not]
  omega

theorem IsPlain.clusterClass (h : IsPlain c) : clusterClass c = .other := if_pos h

theorem clustersFrom_of_isPlain (h : ∀ c ∈ cs, IsPlain c) (c : Char) :
    clustersFrom (.start .other) [c] cs = (c :: cs).map fun c => [c] := by
  induction cs generalizing c with
  | nil => rfl
  | cons d cs ih =>
    rw [List.forall_mem_cons] at h
    rw [clustersFrom, h.1.clusterClass]
    exact congrArg ([c] :: ·) (ih h.2 d)

/-- **The user-perceived characters of plain text are its characters.** -/
theorem clusters_of_isPlain (h : ∀ c ∈ cs, IsPlain c) : clusters cs = cs.map fun c => [c] := by
  cases cs with
  | nil => rfl
  | cons c cs =>
    rw [List.forall_mem_cons] at h
    rw [clusters, h.1.clusterClass]
    exact clustersFrom_of_isPlain h.2 c

/-- In front of what joins nothing the first characters of the code take one cell each, and none but a
line feed joins the character before it. -/
theorem widthBefore_plain (high : c.toNat < 0x7f) :
    widthBefore c .plain =
      if (c.toNat ≤ 0xa0 ∧ ¬ emoji.contains c = true) ∧ c.toNat = 0x0a then (1, .lineFeed)
      else (1, .plain) := by
  have alone : (((plainWidth c : Nat) : Int), followingOf c) = (1, .plain) := by
    rw [plainWidth, if_pos high, followingOf, if_pos (by omega)]
    rfl
  have notReturn : ¬ (c.toNat = 0x0d ∧ Following.plain = .lineFeed) := fun h =>
    Following.noConfusion h.2
  have notStyle : ¬ c.toNat = 0xfe0f := by omega
  have notText : ¬ c.toNat = 0xfe0e := by omega
  have notJoiner : ¬ (c.toNat = 0x200d ∧ Following.plain.joined ≠ .plain) := by omega
  have notTie : ¬ (Following.plain.isTie = true ∧ ligatureTransparent.contains c = true) :=
    fun h => Bool.noConfusion h.1
  unfold widthBefore
  dsimp only
  rw [if_neg notReturn, if_neg notStyle, if_neg notText, if_neg notJoiner, if_neg notTie]
  by_cases low : c.toNat ≤ 0xa0 ∧ ¬ emoji.contains c = true
  · rw [if_pos low]
    by_cases feed : c.toNat = 0x0a
    · rw [if_pos feed, if_pos ⟨low, feed⟩]
    · rw [if_neg feed, if_neg fun h => feed h.2]
  · rw [if_neg low, if_neg fun h => low h.1]
    exact alone

theorem widthBefore_of_lt (high : c.toNat < 0x7f) (notFeed : c.toNat ≠ 0x0a) :
    widthBefore c .plain = (1, .plain) := by
  rw [widthBefore_plain high, if_neg fun h => notFeed h.2]

theorem widthFold_cons (c : Char) (cs : List Char) :
    widthFold (c :: cs) = ((widthFold cs).1 + (widthBefore c (widthFold cs).2).1,
      (widthBefore c (widthFold cs).2).2) := rfl

/-- Alone, each of the first characters of the code takes one cell, control or not. -/
theorem textWidth_of_lt (high : c.toNat < 0x7f) : textWidth [c] = 1 := by
  have one : (widthBefore c .plain).1 = 1 := by
    rw [widthBefore_plain high]
    split <;> rfl
  rw [textWidth, widthFold_cons]
  show (0 + (widthBefore c .plain).1).toNat = 1
  rw [one]
  rfl

theorem IsPlain.widthBefore (h : IsPlain c) : widthBefore c .plain = (1, .plain) :=
  widthBefore_of_lt h.2 (by have := h.1; omega)

/-- A character that takes its own cells in front of one that joins nothing, and joins nothing
itself. -/
def IsLone (c : Char) : Prop := widthBefore c .plain = ((charWidth c : Int), .plain)

theorem widthFold_of_isLone (h : ∀ c ∈ cs, IsLone c) :
    widthFold cs = ((Text.total charWidth cs : Int), .plain) := by
  induction cs with
  | nil => rfl
  | cons c cs ih =>
    rw [List.forall_mem_cons] at h
    rw [widthFold_cons, ih h.2, h.1, Text.total_cons, Nat.cast_add, Int.add_comm]

/-- A text of characters that join nothing is as wide as these are one by one. -/
theorem textWidth_of_isLone (h : ∀ c ∈ cs, IsLone c) : textWidth cs = Text.total charWidth cs := by
  rw [textWidth, widthFold_of_isLone h]
  rfl

theorem IsPlain.charWidth (h : IsPlain c) : charWidth c = 1 := by
  rw [Unicode.charWidth, charWidth?, h.isControl, plainWidth, if_pos h.2]
  rfl

/-- Outside of the first characters of the code, one that joins nothing behind it is lone, unless it is
a joiner or a selector. -/
theorem isLone_of_lt (hlow : 0xa0 < c.toNat)
    (hjoins : c.toNat ≠ 0xfe0f ∧ c.toNat ≠ 0xfe0e) (hbehind : followingOf c = .plain) : IsLone c := by
  have hnot : ¬ (c.toNat ≤ 0xa0 ∧ ¬ emoji.contains c = true) := by omega
  have notJoiner : ¬ (c.toNat = 0x200d ∧ Following.plain.joined ≠ .plain) := fun h => h.2 rfl
  have notTie : ¬ (Following.plain.isTie = true ∧ ligatureTransparent.contains c = true) :=
    fun h => Bool.noConfusion h.1
  have hcontrol : isControl c = false := by
    simp only [isControl, Bool.or_eq_false_iff, Bool.and_eq_false_iff, decide_eq_false_iff_not]
    omega
  unfold IsLone widthBefore
  dsimp only
  rw [if_neg hnot, if_neg hjoins.1, if_neg hjoins.2, if_neg notJoiner, if_neg notTie, hbehind,
    charWidth, charWidth?, hcontrol]
  rfl

theorem IsPlain.isLone (h : IsPlain c) : IsLone c := by
  rw [IsLone, h.widthBefore, h.charWidth]
  rfl

/-- **Plain text takes a cell for each of its characters.** -/
theorem textWidth_of_isPlain (h : ∀ c ∈ cs, IsPlain c) : textWidth cs = cs.length := by
  rw [textWidth_of_isLone fun c hc => (h c hc).isLone]
  induction cs with
  | nil => rfl
  | cons c cs ih =>
    rw [List.forall_mem_cons] at h
    rw [Text.total_cons, h.1.charWidth, ih h.2, List.length_cons, Nat.add_comm]

end PublisherConsole.Unicode
