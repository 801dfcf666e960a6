import Mathlib.Order.ConditionallyCompleteLattice.Basic
import PublisherConsole.Proofs.Text.LeastRows

/-!
# The search finds the least costs

Words are divided into lines, one behind the other, and each line has a cost. The least cost of the
first `j` words (`leastCost`) is the least entry of a column: row `i` of it has the least cost of the
first `i` words and the cost of a last line of the words from `i` to `j`. Where the costs of lines
satisfy the quadrangle inequality (`Quadrangle`), these entries are totally monotone, and the search
finds the least one of every column.

What a step keeps is `MinimaSearch.Sound`. The entries of rows that are not settled are not known yet.
Columns up to the reach have the best of the settled rows but the last one. Rows in front of the
block are out of the question for the columns behind it, because the first row of the block is no
worse, or because what has been found for the column already is.
-/

namespace PublisherConsole.Text

variable {cost : Nat → Nat → Nat} {i j v : Nat}

/-! ### Least costs -/

/-- The first words can be divided into lines of this total cost. -/
inductive Divided (cost : Nat → Nat → Nat) : Nat → Nat → Prop
  | nil : Divided cost 0 0
  | line {i j v : Nat} (front : Divided cost i v) (h : i < j) : Divided cost j (v + cost i j)

/-- The least cost of lines of the first words. -/
noncomputable def leastCost (cost : Nat → Nat → Nat) (j : Nat) : Nat := sInf {v | Divided cost j v}

theorem leastCost_le (h : Divided cost j v) : leastCost cost j ≤ v := Nat.sInf_le h

/-- There are lines of the least cost. -/
theorem divided_leastCost (cost : Nat → Nat → Nat) (j : Nat) : Divided cost j (leastCost cost j) := by
  refine Nat.sInf_mem (s := {v | Divided cost j v}) ?_
  rcases Nat.eq_zero_or_pos j with rfl | hj
  · exact ⟨0, .nil⟩
  · exact ⟨_, .line .nil hj⟩

@[simp] theorem leastCost_zero (cost : Nat → Nat → Nat) : leastCost cost 0 = 0 :=
  Nat.le_zero.1 (leastCost_le .nil)

/-- The entry of a row in a column: the least cost with a last line from the row to the column. -/
noncomputable def lineEntry (cost : Nat → Nat → Nat) (i j : Nat) : Nat := leastCost cost i + cost i j

theorem leastCost_le_lineEntry (h : i < j) : leastCost cost j ≤ lineEntry cost i j :=
  leastCost_le (.line (divided_leastCost cost i) h)

/-- An entry that is no more than the others of its column is the least cost. -/
theorem leastCost_eq (hi : i < j) (h : ∀ r < j, lineEntry cost i j ≤ lineEntry cost r j) :
    leastCost cost j = lineEntry cost i j := by
  refine le_antisymm (leastCost_le_lineEntry hi) ?_
  have hlines := divided_leastCost cost j
  generalize leastCost cost j = least at hlines
  cases hlines with
  | nil => omega
  | line front hr => exact (h _ hr).trans (Nat.add_le_add_right (leastCost_le front) _)

/-- A line that covers another one by two ends costs no less, in comparison, than two that cross. -/
def Quadrangle (cost : Nat → Nat → Nat) (size : Nat) : Prop :=
  ∀ a b c d, a < b → b < c → c < d → d < size → cost a c + cost b d ≤ cost a d + cost b c

variable {size : Nat}

/-- A later row with a smaller entry has a smaller one in all columns behind. -/
theorem Quadrangle.lineEntry_lt {a b c d : Nat} (h : Quadrangle cost size) (hab : a < b) (hbc : b < c)
    (hcd : c ≤ d) (hd : d < size) (hless : lineEntry cost b c < lineEntry cost a c) :
    lineEntry cost b d < lineEntry cost a d := by
  rcases Nat.eq_or_lt_of_le hcd with rfl | hcd
  · exact hless
  · have := h a b c d hab hbc hcd hd
    unfold lineEntry at *
    omega

/-! ### The search -/

namespace MinimaSearch

variable {matrix : Array Minimum → Nat → Nat → Nat} {s : MinimaSearch}

/-- What the search has found out: the least costs of the settled columns, entries of settled rows
for other columns, and for those within its reach the least ones of all settled rows but the last.
The rows in front of the block are no better than its first row or than what has been found. -/
structure Sound (cost : Nat → Nat → Nat) (size : Nat) (s : MinimaSearch) : Prop where
  ahead : s.Ahead
  reach_lt : s.reach < size
  least : ∀ j ≤ s.settled, ∃ m, s.minima[j]? = some m ∧ m.value = leastCost cost j ∧
    (0 < j → m.row < j ∧ m.value = lineEntry cost m.row j)
  entry : ∀ j m, s.settled < j → s.minima[j]? = some m →
    m.row < s.settled ∧ m.value = lineEntry cost m.row j
  tentative : ∀ j, s.settled < j → j ≤ s.reach →
    ∃ m, s.minima[j]? = some m ∧ ∀ r < s.settled, m.value ≤ lineEntry cost r j
  front : ∀ j, s.settled < j → j < size → ∀ r < s.base,
    lineEntry cost s.base j ≤ lineEntry cost r j ∨
      ∃ m, s.minima[j]? = some m ∧ m.value ≤ lineEntry cost r j

/-- A matrix whose entries are made of the minima so far and the costs of lines. -/
def IsLineMatrix (cost : Nat → Nat → Nat) (matrix : Array Minimum → Nat → Nat → Nat) : Prop :=
  ∀ minima i j, matrix minima i j = (minima.getD i default).value + cost i j

/-- The entries of settled rows are known. -/
theorem Sound.matrix_eq (h : s.Sound cost size) (hmatrix : IsLineMatrix cost matrix)
    (hi : i ≤ s.settled) (j : Nat) : matrix s.minima i j = lineEntry cost i j := by
  obtain ⟨m, hm, hvalue, -⟩ := h.least i hi
  rw [hmatrix, Array.getD_eq_getD_getElem?, hm, Option.getD_some, hvalue, lineEntry]

/-- An entry of a new column that is no more than that of any row before is its least cost. -/
theorem least_of_le {m : Minimum} (hrow : m.row ≤ s.settled)
    (hvalue : m.value = lineEntry cost m.row (s.settled + 1))
    (hfront : ∀ r < s.settled, m.value ≤ lineEntry cost r (s.settled + 1))
    (hlast : m.value ≤ lineEntry cost s.settled (s.settled + 1)) :
    m.value = leastCost cost (s.settled + 1) ∧
      (0 < s.settled + 1 → m.row < s.settled + 1 ∧
        m.value = lineEntry cost m.row (s.settled + 1)) := by
  refine ⟨?_, fun _ => ⟨Nat.lt_succ_of_le hrow, hvalue⟩⟩
  rw [hvalue, leastCost_eq (Nat.lt_succ_of_le hrow)]
  intro r hr
  rw [← hvalue]
  rcases Nat.eq_or_lt_of_le (Nat.le_of_lt_succ hr) with rfl | hr
  · exact hlast
  · exact hfront r hr

/-- The diagonal has a smaller entry than all rows before it: it is the least one, and those rows
are out of the question for good. -/
theorem Sound.diagonal {m : Minimum} (h : s.Sound cost size) (hcost : Quadrangle cost size)
    (hreach : s.settled < s.reach) (hm : s.minima[s.settled + 1]? = some m)
    (hless : lineEntry cost s.settled (s.settled + 1) < m.value)
    (hahead : Ahead ⟨s.minima.set! (s.settled + 1) ⟨s.settled,
      lineEntry cost s.settled (s.settled + 1)⟩, s.settled + 1, s.settled, s.settled + 1⟩) :
    Sound cost size ⟨s.minima.set! (s.settled + 1) ⟨s.settled,
      lineEntry cost s.settled (s.settled + 1)⟩, s.settled + 1, s.settled, s.settled + 1⟩ := by
  have hsize := (Array.getElem?_eq_some_iff.1 hm).1
  have hreach' := h.reach_lt
  have hbeats : ∀ r < s.settled, lineEntry cost s.settled (s.settled + 1) <
      lineEntry cost r (s.settled + 1) := by
    intro r hr
    obtain ⟨m', hm', hle⟩ := h.tentative (s.settled + 1) (by omega) (by omega)
    obtain rfl := Option.some.inj (hm.symm.trans hm')
    exact hless.trans_le (hle r hr)
  have hother {j : Nat} (hj : j ≠ s.settled + 1) (m' : Minimum) :
      (s.minima.set! (s.settled + 1) m')[j]? = s.minima[j]? := by
    simp [Array.set!_eq_setIfInBounds, Array.getElem?_setIfInBounds_ne hj.symm]
  refine ⟨hahead, by simp only; omega, fun j hj => ?_, fun j m' hj hm' => ?_,
    fun j hj hj' => absurd hj' (Nat.not_le.2 hj), fun j hj hj' r hr => .inl ?_⟩
  · rcases Nat.eq_or_lt_of_le hj with rfl | hj
    · refine ⟨⟨s.settled, lineEntry cost s.settled (s.settled + 1)⟩, ?_,
        least_of_le le_rfl rfl (fun r hr => (hbeats r hr).le) le_rfl⟩
      simp [Array.set!_eq_setIfInBounds, hsize]
    · simp only [hother (Nat.ne_of_lt hj)]
      exact h.least j (Nat.le_of_lt_succ hj)
  · simp only [hother (Nat.ne_of_gt hj)] at hm'
    have := h.entry j m' (Nat.lt_of_succ_lt hj) hm'
    exact ⟨Nat.lt_succ_of_lt this.1, this.2⟩
  · exact (hcost.lineEntry_lt hr (Nat.lt_succ_self _) (le_of_lt hj) hj' (hbeats r hr)).le

/-- What has been found for the next column is its least cost, if the diagonal is no better. -/
theorem Sound.least_next {m : Minimum} (h : s.Sound cost size) (hreach : s.settled < s.reach)
    (hm : s.minima[s.settled + 1]? = some m)
    (hle : m.value ≤ lineEntry cost s.settled (s.settled + 1)) :
    ∀ j ≤ s.settled + 1, ∃ m, s.minima[j]? = some m ∧ m.value = leastCost cost j ∧
      (0 < j → m.row < j ∧ m.value = lineEntry cost m.row j) := by
  intro j hj
  rcases Nat.eq_or_lt_of_le hj with rfl | hj
  · obtain ⟨m', hm', hfront⟩ := h.tentative (s.settled + 1) (by omega) (by omega)
    obtain rfl := Option.some.inj (hm.symm.trans hm')
    obtain ⟨hrow, hvalue⟩ := h.entry (s.settled + 1) m (by omega) hm
    exact ⟨m, hm, least_of_le hrow.le hvalue hfront hle⟩
  · exact h.least j (Nat.le_of_lt_succ hj)

/-- The last settled row is no better at the end of the reach, so it is not within it either. -/
theorem Sound.keep {m last : Minimum} (h : s.Sound cost size) (hcost : Quadrangle cost size)
    (hreach : s.settled < s.reach) (hm : s.minima[s.settled + 1]? = some m)
    (hle : m.value ≤ lineEntry cost s.settled (s.settled + 1))
    (hlast : s.minima[s.reach]? = some last) (hworse : last.value ≤ lineEntry cost s.settled s.reach)
    (hahead : Ahead { s with settled := s.settled + 1 }) :
    Sound cost size { s with settled := s.settled + 1 } := by
  refine ⟨hahead, h.reach_lt, h.least_next hreach hm hle, fun j m' hj hm' => ?_,
    fun j hj hj' => ?_, fun j hj hj' => h.front j (Nat.lt_of_succ_lt hj) hj'⟩
  · have := h.entry j m' (Nat.lt_of_succ_lt hj) hm'
    exact ⟨Nat.lt_succ_of_lt this.1, this.2⟩
  · obtain ⟨m', hm', hfront⟩ := h.tentative j (Nat.lt_of_succ_lt hj) hj'
    refine ⟨m', hm', fun r hr => ?_⟩
    rcases Nat.eq_or_lt_of_le (Nat.le_of_lt_succ hr) with rfl | hr
    · obtain ⟨hrow, hvalue⟩ := h.entry s.reach last hreach hlast
      refine (hfront last.row hrow).trans (Nat.le_of_not_lt fun hless => ?_)
      have hless := hcost.lineEntry_lt hrow (Nat.lt_of_succ_lt hj) hj' h.reach_lt hless
      exact absurd (hvalue ▸ hworse) (Nat.not_le.2 hless)
    · exact hfront r hr

/-- The last settled row is better at the end of the reach, and so behind it: the rows before it are
out of the question there, and within the reach they have been looked at. -/
theorem Sound.restart {m last : Minimum} (h : s.Sound cost size) (hcost : Quadrangle cost size)
    (hreach : s.settled < s.reach) (hm : s.minima[s.settled + 1]? = some m)
    (hle : m.value ≤ lineEntry cost s.settled (s.settled + 1))
    (hlast : s.minima[s.reach]? = some last) (hbetter : lineEntry cost s.settled s.reach < last.value)
    (hahead : Ahead ⟨s.minima, s.settled + 1, s.settled, s.settled + 1⟩) :
    Sound cost size ⟨s.minima, s.settled + 1, s.settled, s.settled + 1⟩ := by
  have hreach' := h.reach_lt
  refine ⟨hahead, by simp only; omega, h.least_next hreach hm hle, fun j m' hj hm' => ?_,
    fun j hj hj' => absurd hj' (Nat.not_le.2 hj), fun j hj hj' r hr => ?_⟩
  · have := h.entry j m' (Nat.lt_of_succ_lt hj) hm'
    exact ⟨Nat.lt_succ_of_lt this.1, this.2⟩
  · rcases Nat.lt_or_ge s.reach j with hbehind | hwithin
    · obtain ⟨m', hm', hfront⟩ := h.tentative s.reach hreach le_rfl
      obtain rfl := Option.some.inj (hlast.symm.trans hm')
      exact .inl (hcost.lineEntry_lt hr hreach hbehind.le hj' (hbetter.trans_le (hfront r hr))).le
    · obtain ⟨m', hm', hfront⟩ := h.tentative j (Nat.lt_of_succ_lt hj) hwithin
      exact .inr ⟨m', hm', hfront r hr⟩

/-! ### A new block -/

/-- What an offer leaves for its column. -/
def offered (old : Option Minimum) (row value : Nat) : Minimum :=
  match old with
  | none => ⟨row, value⟩
  | some m => if value < m.value then ⟨row, value⟩ else m

theorem offered_value_le (old : Option Minimum) (row value : Nat) :
    (offered old row value).value ≤ value ∧ ∀ m ∈ old, (offered old row value).value ≤ m.value := by
  cases old with
  | none => simp [offered]
  | some m =>
    simp only [offered]
    split
    · simp; omega
    · simp; omega

theorem offered_eq (old : Option Minimum) (row value : Nat) :
    offered old row value = ⟨row, value⟩ ∨ offered old row value ∈ old := by
  cases old with
  | none => exact .inl rfl
  | some m =>
    simp only [offered]
    split
    · exact .inl rfl
    · exact .inr rfl

theorem getElem?_offer {minima : Array Minimum} {col : Nat} (hcol : col ≤ minima.size)
    (row value j : Nat) :
    (offer minima col row value)[j]? =
      if j = col then some (offered minima[col]? row value) else minima[j]? := by
  unfold offer offered
  cases hm : minima[col]? with
  | none =>
    obtain rfl : col = minima.size := le_antisymm hcol (Array.getElem?_eq_none_iff.1 hm)
    simp only [Array.getElem?_push]
  | some m =>
    have hsize := (Array.getElem?_eq_some_iff.1 hm).1
    simp only
    split
    · rw [Array.set!_eq_setIfInBounds, Array.getElem?_setIfInBounds]
      by_cases hj : j = col
      · simp [hj, hsize]
      · simp [hj, Ne.symm hj]
    · by_cases hj : j = col
      · rw [if_pos hj, hj, hm]
      · rw [if_neg hj]

/-- Offers for columns one behind the other. -/
theorem getElem?_offers (row value : Nat → Nat) (n : Nat) {minima : Array Minimum} {col : Nat}
    (hcol : col ≤ minima.size) (j : Nat) :
    ((List.range' col n).foldl (fun minima j => offer minima j (row j) (value j)) minima)[j]? =
      if col ≤ j ∧ j < col + n then some (offered minima[j]? (row j) (value j)) else minima[j]? := by
  induction n generalizing col minima with
  | zero =>
    rw [if_neg (by omega)]
    rfl
  | succ n ih =>
    have hsize : col + 1 ≤ (offer minima col (row col) (value col)).size := by
      by_contra hnot
      have hnone : (offer minima col (row col) (value col))[col]? = none :=
        Array.getElem?_eq_none (by omega)
      simp [getElem?_offer hcol] at hnone
    rw [List.range'_succ, List.foldl_cons, ih hsize, getElem?_offer hcol]
    by_cases hj : j = col
    · subst hj
      rw [if_neg (by omega), if_pos rfl, if_pos (by omega)]
    · rw [if_neg hj]
      by_cases hwithin : col + 1 ≤ j ∧ j < col + 1 + n
      · rw [if_pos hwithin, if_pos (by omega)]
      · rw [if_neg hwithin, if_neg (by omega)]

/-- What is kept for a column, once the least row of the block is offered, is the entry of a settled row,
and no settled row is better. -/
theorem Sound.kept_offered {row : Nat} (h : s.Sound cost size) (hj : s.settled < j) (hj' : j < size)
    (hleast : IsLeastRow (lineEntry cost) (List.range' s.base (s.settled + 1 - s.base)) j row) :
    (offered s.minima[j]? row (lineEntry cost row j)).row ≤ s.settled ∧
      (offered s.minima[j]? row (lineEntry cost row j)).value =
        lineEntry cost (offered s.minima[j]? row (lineEntry cost row j)).row j ∧
      ∀ r ≤ s.settled, (offered s.minima[j]? row (lineEntry cost row j)).value ≤
        lineEntry cost r j := by
  have hbase := h.ahead.base
  obtain ⟨hmem, hbeats⟩ := hleast
  obtain ⟨hvalue, hold⟩ := offered_value_le s.minima[j]? row (lineEntry cost row j)
  have hentry : (offered s.minima[j]? row (lineEntry cost row j)).row ≤ s.settled ∧
      (offered s.minima[j]? row (lineEntry cost row j)).value =
        lineEntry cost (offered s.minima[j]? row (lineEntry cost row j)).row j := by
    rcases offered_eq s.minima[j]? row (lineEntry cost row j) with hnew | hsame
    · rw [hnew]
      have := List.mem_range'_1.1 hmem
      exact ⟨by simp only; omega, rfl⟩
    · obtain ⟨hlt, hvalue⟩ := h.entry j _ hj (Option.mem_def.1 hsame)
      exact ⟨hlt.le, hvalue⟩
  refine ⟨hentry.1, hentry.2, fun r hr => ?_⟩
  rcases Nat.lt_or_ge r s.base with hr' | hr'
  · have hfirst : (offered s.minima[j]? row (lineEntry cost row j)).value ≤
        lineEntry cost s.base j :=
      hvalue.trans (hbeats s.base (List.mem_range'_1.2 (by omega))).le
    rcases h.front j hj hj' r hr' with hle | ⟨m, hm, hle⟩
    · exact hfirst.trans hle
    · exact (hold m hm).trans hle
  · exact hvalue.trans (hbeats r (List.mem_range'_1.2 (by omega))).le

/-- The columns of a new block get the best of all settled rows. -/
theorem Sound.block {n : Nat} {found : Array Nat} (h : s.Sound cost size)
    (hn : s.settled + n < size)
    (hreach : s.reach = s.settled)
    (hfound : ∀ j, s.settled < j → j ≤ s.settled + n →
      IsLeastRow (lineEntry cost) (List.range' s.base (s.settled + 1 - s.base)) j (found.getD j 0))
    (hahead : Ahead ⟨(List.range' (s.settled + 1) n).foldl (fun minima j =>
      offer minima j (found.getD j 0) (lineEntry cost (found.getD j 0) j)) s.minima,
      s.settled + 1, s.base, s.settled + n⟩) :
    Sound cost size ⟨(List.range' (s.settled + 1) n).foldl (fun minima j =>
      offer minima j (found.getD j 0) (lineEntry cost (found.getD j 0) j)) s.minima,
      s.settled + 1, s.base, s.settled + n⟩ := by
  have hbase := h.ahead.base
  have hsize : s.settled + 1 ≤ s.minima.size := hreach ▸ h.ahead.reach
  have hminima := getElem?_offers (fun j => found.getD j 0)
    (fun j => lineEntry cost (found.getD j 0) j) n hsize
  have hn' := hahead.settled
  dsimp only at hminima hn'
  generalize (List.range' (s.settled + 1) n).foldl _ s.minima = minima at hminima hahead ⊢
  have hkept (j : Nat) (hj : s.settled < j) (hj' : j ≤ s.settled + n) :
      ∃ m, minima[j]? = some m ∧ m.row ≤ s.settled ∧ m.value = lineEntry cost m.row j ∧
        ∀ r ≤ s.settled, m.value ≤ lineEntry cost r j :=
    ⟨_, (hminima j).trans (if_pos (by omega)), h.kept_offered hj (by omega) (hfound j hj hj')⟩
  have hother (j : Nat) (hj : j ≤ s.settled ∨ s.settled + n < j) : minima[j]? = s.minima[j]? :=
    (hminima j).trans (if_neg (by omega))
  refine ⟨hahead, hn, fun j hj => ?_, fun j m hj hm => ?_, fun j hj hj' => ?_,
    fun j hj hj' r hr => ?_⟩
  · rcases Nat.eq_or_lt_of_le hj with rfl | hj
    · obtain ⟨m, hm, hrow, hvalue, hle⟩ := hkept (s.settled + 1) (by omega) (by omega)
      exact ⟨m, hm, least_of_le hrow hvalue (fun r hr => hle r hr.le) (hle _ le_rfl)⟩
    · simp only [hother j (.inl (Nat.le_of_lt_succ hj))]
      exact h.least j (Nat.le_of_lt_succ hj)
  · rcases Nat.lt_or_ge (s.settled + n) j with hbehind | hwithin
    · have := h.entry j m (Nat.lt_of_succ_lt hj) (hother j (.inr hbehind) ▸ hm)
      exact ⟨Nat.lt_succ_of_lt this.1, this.2⟩
    · obtain ⟨m', hm', hrow, hvalue, -⟩ := hkept j (Nat.lt_of_succ_lt hj) hwithin
      obtain rfl := Option.some.inj (hm'.symm.trans hm)
      exact ⟨Nat.lt_succ_of_le hrow, hvalue⟩
  · obtain ⟨m, hm, -, -, hle⟩ := hkept j (Nat.lt_of_succ_lt hj) hj'
    exact ⟨m, hm, fun r hr => hle r (Nat.le_of_lt_succ hr)⟩
  · rcases Nat.lt_or_ge (s.settled + n) j with hbehind | hwithin
    · simp only [hother j (.inr hbehind)]
      exact h.front j (Nat.lt_of_succ_lt hj) hj' r hr
    · obtain ⟨m, hm, -, -, hle⟩ := hkept j (Nat.lt_of_succ_lt hj) hwithin
      exact .inr ⟨m, hm, hle r (by simp only at hr; omega)⟩

/-- The rounds of a block find the least rows of its columns. -/
theorem Sound.isLeastRow {n : Nat} (h : s.Sound cost size) (hmatrix : IsLineMatrix cost matrix)
    (hcost : Quadrangle cost size) (hn : s.settled + n < size) (hj : s.settled < j)
    (hj' : j ≤ s.settled + n) :
    IsLeastRow (lineEntry cost) (List.range' s.base (s.settled + 1 - s.base)) j
      ((blockMinima (matrix s.minima) ((List.range' (s.settled + 1) n).length + 1)
        (List.range' s.base (s.settled + 1 - s.base)) (List.range' (s.settled + 1) n)
        (Array.replicate (s.settled + n + 1) 0)).getD j 0) := by
  have hbase := h.ahead.base
  have hrows {r : Nat} (hr : r ∈ List.range' s.base (s.settled + 1 - s.base)) : r ≤ s.settled := by
    have := List.mem_range'_1.1 hr
    omega
  have hcols {c : Nat} (hc : c ∈ List.range' (s.settled + 1) n) :
      s.settled < c ∧ c ≤ s.settled + n := by
    have := List.mem_range'_1.1 hc
    omega
  have hne : List.range' s.base (s.settled + 1 - s.base) ≠ [] := by
    rw [ne_eq, List.range'_eq_nil_iff]
    omega
  have hmono : TotallyMonotone (matrix s.minima) (List.range' s.base (s.settled + 1 - s.base))
      (List.range' (s.settled + 1) n) := by
    intro a ha b hb hab c hc d hd hcd
    rw [h.matrix_eq hmatrix (hrows ha), h.matrix_eq hmatrix (hrows hb),
      h.matrix_eq hmatrix (hrows ha), h.matrix_eq hmatrix (hrows hb)]
    exact hcost.lineEntry_lt hab ((hrows hb).trans_lt (hcols hc).1) hcd ((hcols hd).2.trans_lt hn)
  have hsize : ∀ c ∈ List.range' (s.settled + 1) n,
      c < (Array.replicate (s.settled + n + 1) 0).size := by
    intro c hc
    rw [Array.size_replicate]
    exact Nat.lt_succ_of_le (hcols hc).2
  obtain ⟨hmem, hbeats⟩ := blockMinima_least ((List.range' (s.settled + 1) n).length + 1)
    (Nat.lt_succ_self _) hne List.pairwise_lt_range' List.pairwise_lt_range' hmono hsize j
    (List.mem_range'_1.2 (by omega))
  refine ⟨hmem, fun r hr => ?_⟩
  have := hbeats r hr
  rwa [Beats, h.matrix_eq hmatrix (hrows hmem), h.matrix_eq hmatrix (hrows hr)] at this

variable (matrix) in
/-- **Settling a column** keeps the search sound. -/
theorem Sound.step (h : s.Sound cost size) (hmatrix : IsLineMatrix cost matrix)
    (hcost : Quadrangle cost size) (hsize : s.settled + 1 < size) :
    (s.step matrix size).Sound cost size := by
  have hahead := (h.ahead.step matrix hsize).1
  have hbase := h.ahead.base
  unfold MinimaSearch.step at hahead ⊢
  dsimp only at hahead ⊢
  split
  next hnew =>
    rw [if_pos hnew] at hahead
    have hreach : s.reach = s.settled := le_antisymm (by omega) h.ahead.settled
    simp only [List.length_range'] at hahead ⊢
    obtain ⟨n, hn⟩ : ∃ n, min (s.settled + (s.settled + 1 - s.base)) (size - 1) = s.settled + n :=
      Nat.exists_eq_add_of_le (by omega)
    rw [hn, Nat.add_sub_cancel_left] at hahead ⊢
    have hfound {j : Nat} (hj : s.settled < j) (hj' : j ≤ s.settled + n) :=
      h.isLeastRow hmatrix hcost (by omega : s.settled + n < size) hj hj'
    rw [List.length_range'] at hfound
    generalize blockMinima _ _ _ _ _ = found at hahead hfound ⊢
    have hoffers : (List.range' (s.settled + 1) n).foldl (fun minima col =>
          offer minima col (found.getD col 0) (matrix s.minima (found.getD col 0) col)) s.minima =
        (List.range' (s.settled + 1) n).foldl (fun minima col =>
          offer minima col (found.getD col 0) (lineEntry cost (found.getD col 0) col)) s.minima := by
      refine List.foldl_ext _ _ _ fun minima col hcol => ?_
      have := List.mem_range'_1.1 hcol
      have := List.mem_range'_1.1 (hfound (by omega) (by omega) : IsLeastRow _ _ col _).1
      rw [h.matrix_eq hmatrix (by omega)]
    rw [hoffers] at hahead ⊢
    exact h.block (by omega) hreach (fun j => hfound) hahead
  next hold =>
    rw [if_neg hold] at hahead
    have hreach : s.settled < s.reach := by omega
    obtain ⟨m, hm, -⟩ := h.tentative (s.settled + 1) (by omega) (by omega)
    obtain ⟨last, hlast, -⟩ := h.tentative s.reach hreach le_rfl
    simp only [Nat.add_sub_cancel, h.matrix_eq hmatrix le_rfl, hm, hlast, Option.map_some,
      Option.getD_some] at hahead ⊢
    split
    next hless =>
      rw [if_pos hless] at hahead
      exact h.diagonal hcost hreach hm hless hahead
    next hle =>
      rw [if_neg hle] at hahead
      split
      next hworse =>
        rw [if_pos hworse] at hahead
        exact h.keep hcost hreach hm (Nat.le_of_not_lt hle) hlast hworse hahead
      next hbetter =>
        rw [if_neg hbetter] at hahead
        exact h.restart hcost hreach hm (Nat.le_of_not_lt hle) hlast (Nat.lt_of_not_le hbetter) hahead

variable (matrix) in
/-- Settling columns one after the other. -/
theorem Sound.run (n : Nat) (h : s.Sound cost size) (hmatrix : IsLineMatrix cost matrix)
    (hcost : Quadrangle cost size) (hsize : s.settled + n < size) :
    (run matrix size n s).Sound cost size ∧ (run matrix size n s).settled = s.settled + n := by
  induction n generalizing s with
  | zero => exact ⟨h, rfl⟩
  | succ n ih =>
    have hsettled := (h.ahead.step matrix (by omega : s.settled + 1 < size)).2
    obtain ⟨hsound, hrun⟩ := ih (h.step matrix hmatrix hcost (by omega)) (by omega)
    exact ⟨hsound, by rw [MinimaSearch.run, hrun]; omega⟩

/-- The search begins with the column that has no words. -/
theorem sound_start (cost : Nat → Nat → Nat) (hsize : 0 < size) :
    Sound cost size ⟨#[⟨0, 0⟩], 0, 0, 0⟩ := by
  refine ⟨ahead_start, hsize, fun j hj => ?_, fun j m hj hm => ?_, fun j hj hj' => ?_,
    fun j _ _ r hr => absurd hr (Nat.not_lt_zero r)⟩
  · obtain rfl := Nat.le_zero.1 hj
    exact ⟨⟨0, 0⟩, rfl, by simp, fun h => absurd h (Nat.lt_irrefl 0)⟩
  · have := (Array.getElem?_eq_some_iff.1 hm).1
    simp at this
    omega
  · exact absurd hj' (Nat.not_le.2 hj)

end MinimaSearch

/-- **The column minima are the least costs**, and each is that of a last line from its row. -/
theorem columnMinima_least {matrix : Array Minimum → Nat → Nat → Nat}
    (hmatrix : MinimaSearch.IsLineMatrix cost matrix) (hcost : Quadrangle cost size) (hj : j < size) :
    ∃ m, (columnMinima matrix size)[j]? = some m ∧ m.value = leastCost cost j ∧
      (0 < j → m.row < j ∧ m.value = lineEntry cost m.row j) := by
  obtain ⟨hsound, hsettled⟩ := (MinimaSearch.sound_start cost (by omega : 0 < size)).run matrix
    (size - 1) hmatrix hcost (by simp only; omega)
  exact hsound.least j (by simp only at hsettled; omega)

end PublisherConsole.Text
