import PublisherConsole.Proofs.Text.Fill
import PublisherConsole.Proofs.Text.LeastCost

/-!
# Filled lines are the cheapest ones

What a line costs depends on the cells it takes in a convex way, so the costs satisfy the quadrangle
inequality (`quadrangle_placeCost`) and the search finds the cheapest lines: no other way to divide
the words costs less (`total_bestLines_le`). In particular no line can be divided once more for less
(`placeCost_le_of_mem_bestLines`), which limits how far it sticks out (`overflow_le`).
-/

namespace PublisherConsole.Text

variable {ws : List Word} {width i j : Nat}

/-! ### What a line costs -/

/-- The cost of a line in one expression: subtraction stops at zero. -/
theorem costOfLine_eq (target used : Nat) (last single : Bool) :
    costOfLine target used last single =
      lineCost + (used - target) * overflowCost +
        if last then if single && used ≤ target && 4 * used < target then shortLastLineCost else 0
        else (target - used) * (target - used) := by
  unfold costOfLine
  split
  next hover =>
    have hgap : target - used = 0 := by omega
    have hnot : ¬ used ≤ target := by omega
    cases last <;> simp [hgap, hnot]
  next hfits =>
    have hover : used - target = 0 := by omega
    cases last <;> simp [hover, Nat.le_of_not_lt hfits]

/-- Of four numbers, the squares of the outer two are no less than those of the inner two. -/
theorem sq_add_sq_le {a b p q : Nat} (hqa : q ≤ a) (hqb : q ≤ b) (hap : a ≤ p)
    (hsum : a + b ≤ p + q) : a * a + b * b ≤ p * p + q * q := by
  nlinarith

/-- Costs are convex: of two lines that take more cells than a third one by different amounts, the
two cost no more than the third one and one that takes more by both amounts. The last line of a
text, when it has several words, may be that one and one of the two. -/
theorem costOfLine_add_le (target used p q : Nat) (last single : Bool) :
    costOfLine target (used + p) false false + costOfLine target (used + q) last false ≤
      costOfLine target (used + p + q) last false + costOfLine target used false single := by
  simp only [costOfLine_eq]
  cases last with
  | false =>
    have hsquares : (target - (used + p)) * (target - (used + p)) +
        (target - (used + q)) * (target - (used + q)) ≤
        (target - used) * (target - used) +
          (target - (used + p + q)) * (target - (used + p + q)) :=
      sq_add_sq_le (by omega) (by omega) (by omega) (by omega)
    have hover : (used + p - target) + (used + q - target) ≤
        (used + p + q - target) + (used - target) := by omega
    have := Nat.mul_le_mul_right overflowCost hover
    simp only [Nat.add_mul] at this
    simp only [Bool.false_eq_true, if_false]
    omega
  | true =>
    have hsquare : (target - (used + p)) * (target - (used + p)) ≤
        (target - used) * (target - used) := Nat.mul_le_mul (by omega) (by omega)
    have hover : (used + p - target) + (used + q - target) ≤
        (used + p + q - target) + (used - target) := by omega
    have := Nat.mul_le_mul_right overflowCost hover
    simp only [Nat.add_mul] at this
    simp only [Bool.false_eq_true, if_false, Bool.false_and, if_true]
    omega

/-! ### Cells of lines -/

/-- The cells of the first words with the blanks behind them. -/
def cellsBefore (ws : List Word) (i : Nat) : Nat := total (fun w => w.cells + w.blanks) (ws.take i)

theorem cellsBefore_succ {w : Word} (h : ws[i]? = some w) :
    cellsBefore ws (i + 1) = cellsBefore ws i + w.cells + w.blanks := by
  rw [cellsBefore, List.take_add_one, h, total_append, Nat.add_assoc]
  rfl

theorem cellsBefore_mono (ws : List Word) (h : i ≤ j) : cellsBefore ws i ≤ cellsBefore ws j := by
  obtain ⟨n, rfl⟩ := Nat.exists_eq_add_of_le h
  rw [cellsBefore, cellsBefore, List.take_add, total_append]
  exact Nat.le_add_right _ _

theorem prefixCells_spec (ws : List Word) :
    (prefixCells ws).size = ws.length + 1 ∧
      ∀ i ≤ ws.length, (prefixCells ws).getD i 0 = cellsBefore ws i := by
  induction ws using List.reverseRecOn with
  | nil => exact ⟨rfl, fun i hi => by obtain rfl := Nat.le_zero.1 hi; rfl⟩
  | append_singleton ws w ih =>
    obtain ⟨hsize, hget⟩ := ih
    have hpush : prefixCells (ws ++ [w]) = (prefixCells ws).push
        ((prefixCells ws).getD ((prefixCells ws).size - 1) 0 + w.cells + w.blanks) := by
      simp [prefixCells]
    rw [hpush, hsize, Nat.add_sub_cancel, hget _ le_rfl]
    refine ⟨by simp [hsize], fun i hi => ?_⟩
    rw [Array.getD_eq_getD_getElem?, Array.getElem?_push, hsize]
    split
    next hlast =>
      have hw : (ws ++ [w])[ws.length]? = some w := by simp
      rw [hlast, cellsBefore_succ hw, Option.getD_some, cellsBefore, cellsBefore,
        List.take_append_of_le_length le_rfl]
    next hlast =>
      have hlt : i ≤ ws.length := by
        rw [List.length_append, List.length_singleton] at hi
        omega
      rw [← Array.getD_eq_getD_getElem?, hget i hlt, cellsBefore, cellsBefore,
        List.take_append_of_le_length hlt]

theorem getD_prefixCells (h : i ≤ ws.length) : (prefixCells ws).getD i 0 = cellsBefore ws i :=
  (prefixCells_spec ws).2 i h

/-- The cells of a line without the blanks behind its last word, by the places of its words. -/
def usedCells (ws : List Word) (i j : Nat) : Nat :=
  (prefixCells ws).getD j 0 - (prefixCells ws).getD i 0 - (ws.toArray.getD (j - 1) default).blanks

/-- The cells of the first words without the blanks behind the last one of them. -/
def cellsTo (ws : List Word) (j : Nat) : Nat :=
  cellsBefore ws j - (ws.toArray.getD (j - 1) default).blanks

theorem cellsTo_succ {w : Word} (h : ws[j]? = some w) :
    cellsTo ws (j + 1) = cellsBefore ws j + w.cells := by
  have hword : ws.toArray.getD j default = w := by
    rw [Array.getD_eq_getD_getElem?, List.getElem?_toArray, h, Option.getD_some]
  rw [cellsTo, Nat.add_sub_cancel, hword, cellsBefore_succ h, Nat.add_sub_cancel]

theorem cellsTo_le (ws : List Word) (j : Nat) : cellsTo ws j ≤ cellsBefore ws j := Nat.sub_le _ _

theorem cellsBefore_le_cellsTo (hij : i < j) (hj : j ≤ ws.length) :
    cellsBefore ws i ≤ cellsTo ws j := by
  obtain ⟨j, rfl⟩ := Nat.exists_eq_add_one_of_ne_zero (Nat.ne_of_gt (Nat.zero_lt_of_lt hij))
  rw [cellsTo_succ (List.getElem?_eq_getElem hj)]
  exact (cellsBefore_mono ws (Nat.le_of_lt_succ hij)).trans (Nat.le_add_right _ _)

/-- A line takes the cells between its ends. -/
theorem cellsBefore_add_usedCells (hij : i < j) (hj : j ≤ ws.length) :
    cellsBefore ws i + usedCells ws i j = cellsTo ws j := by
  have hle := cellsBefore_le_cellsTo hij hj
  rw [usedCells, getD_prefixCells hj, getD_prefixCells (hij.le.trans hj)]
  unfold cellsTo at *
  omega

theorem usedCells_succ {w : Word} (h : ws[i]? = some w) : usedCells ws i (i + 1) = w.cells := by
  have := cellsBefore_add_usedCells (Nat.lt_succ_self i) (List.getElem?_eq_some_iff.1 h).1
  rw [cellsTo_succ h] at this
  exact Nat.add_left_cancel this

/-- Two lines that have a word in common take the cells of both ends, and those of the word once more. -/
theorem usedCells_add_usedCells {k : Nat} {w : Word} (hw : ws[k]? = some w) (hik : i ≤ k) (hkj : k < j)
    (hj : j ≤ ws.length) :
    usedCells ws i (k + 1) + usedCells ws k j = usedCells ws i j + w.cells := by
  have hik' : i < k + 1 := Nat.lt_succ_of_le hik
  have hline := cellsBefore_add_usedCells (Nat.lt_of_le_of_lt hik hkj) hj
  have hfront := cellsBefore_add_usedCells hik' (Nat.le_trans hkj hj)
  have hbehind := cellsBefore_add_usedCells hkj hj
  rw [cellsTo_succ hw] at hfront
  omega

/-- Dividing a line saves the blanks between its parts. -/
theorem usedCells_add_usedCells_le {k : Nat} (hik : i < k) (hkj : k < j) (hj : j ≤ ws.length) :
    usedCells ws i k + usedCells ws k j ≤ usedCells ws i j := by
  have hline := cellsBefore_add_usedCells (hik.trans hkj) hj
  have hfront := cellsBefore_add_usedCells hik (hkj.le.trans hj)
  have hbehind := cellsBefore_add_usedCells hkj hj
  have hblanks := cellsTo_le ws k
  omega

/-- What a line of words costs, by their places. -/
def placeCost (width : Nat) (ws : List Word) (i j : Nat) : Nat :=
  costOfLine (max width 1) (usedCells ws i j) (j ≥ ws.length) (i + 1 = j)

/-- **The costs of lines satisfy the quadrangle inequality.** -/
theorem quadrangle_placeCost (width : Nat) (ws : List Word) :
    Quadrangle (placeCost width ws) (ws.length + 1) := by
  intro a b c d hab hbc hcd hd
  have hac := cellsBefore_add_usedCells (hab.trans hbc) (by omega : c ≤ ws.length)
  have hbc' := cellsBefore_add_usedCells hbc (by omega : c ≤ ws.length)
  have had := cellsBefore_add_usedCells ((hab.trans hbc).trans hcd) (Nat.le_of_lt_succ hd)
  have hbd := cellsBefore_add_usedCells (hbc.trans hcd) (Nat.le_of_lt_succ hd)
  have hstarts := cellsBefore_mono ws hab.le
  have hends := (cellsTo_le ws c).trans (cellsBefore_le_cellsTo hcd (Nat.le_of_lt_succ hd))
  obtain ⟨p, hp⟩ := Nat.exists_eq_add_of_le hstarts
  obtain ⟨q, hq⟩ := Nat.exists_eq_add_of_le hends
  have hac : usedCells ws a c = usedCells ws b c + p := by omega
  have hbd : usedCells ws b d = usedCells ws b c + q := by omega
  have had : usedCells ws a d = usedCells ws b c + p + q := by omega
  have hlast : decide (c ≥ ws.length) = false := decide_eq_false (by omega)
  have hmore {i j : Nat} (h : i + 1 < j) : decide (i + 1 = j) = false := decide_eq_false (by omega)
  rw [placeCost, placeCost, placeCost, placeCost, hlast, hmore (by omega : a + 1 < c),
    hmore (by omega : b + 1 < d), hmore (by omega : a + 1 < d), hac, had, hbd]
  exact costOfLine_add_le _ _ _ _ _ _

/-! ### The lines -/

/-- Lines that are read off the minima have the least cost together, and end at places where the
least cost has a last line from the place where they begin. -/
theorem linesBack_least {cost : Nat → Nat → Nat} {minima : Array Minimum}
    (h : ∀ j ≤ ws.length, 0 < j → (minima.getD j default).row < j ∧
      leastCost cost j = lineEntry cost (minima.getD j default).row j) (fuel : Nat) {stop : Nat}
    (hfuel : stop < fuel) (hpos : 0 < stop) (hstop : stop ≤ ws.length) :
    total (fun place => cost place.1 place.2) (linesBack minima fuel stop) = leastCost cost stop ∧
      ∀ place ∈ linesBack minima fuel stop, place.1 < place.2 ∧ place.2 ≤ stop ∧
        leastCost cost place.2 = lineEntry cost place.1 place.2 := by
  induction fuel generalizing stop with
  | zero => omega
  | succ fuel ih =>
    obtain ⟨hrow, hleast⟩ := h stop hstop hpos
    simp only [linesBack]
    split
    next hzero =>
      refine ⟨?_, fun place hplace => ?_⟩
      · rw [total_cons, total_nil, hleast, lineEntry, hzero, leastCost_zero, Nat.zero_add,
          Nat.add_zero]
      · obtain rfl := List.mem_singleton.1 hplace
        exact ⟨hrow, le_rfl, hleast⟩
    next hnonzero =>
      obtain ⟨htotal, hlines⟩ := ih (hrow.trans_le (Nat.le_of_lt_succ hfuel))
        (Nat.pos_of_ne_zero hnonzero) (hrow.le.trans hstop)
      refine ⟨by rw [total_cons, htotal, hleast, lineEntry, Nat.add_comm], ?_⟩
      rw [List.forall_mem_cons]
      refine ⟨⟨hrow, le_rfl, hleast⟩, fun place hplace => ?_⟩
      obtain ⟨hlt, hle, hplace⟩ := hlines place hplace
      exact ⟨hlt, hle.trans hrow.le, hplace⟩

theorem bestLines_least (width : Nat) (hws : ws ≠ []) :
    total (fun place => placeCost width ws place.1 place.2) (bestLines width ws) =
        leastCost (placeCost width ws) ws.length ∧
      ∀ place ∈ bestLines width ws, place.1 < place.2 ∧ place.2 ≤ ws.length ∧
        leastCost (placeCost width ws) place.2 =
          lineEntry (placeCost width ws) place.1 place.2 := by
  simp only [bestLines]
  generalize hmatrix : (fun (minima : Array Minimum) (i j : Nat) =>
    (minima.getD i default).value + costOfLine (max width 1) _ _ _) = matrix
  have hline : MinimaSearch.IsLineMatrix (placeCost width ws) matrix :=
    fun minima i j => hmatrix ▸ rfl
  have hsize : 0 < ws.length := List.length_pos_iff.2 hws
  simp only [total_reverse, List.mem_reverse]
  refine linesBack_least (fun j hj hpos => ?_) _ (Nat.lt_succ_self _) hsize le_rfl
  obtain ⟨m, hm, hvalue, hrow⟩ := columnMinima_least hline (quadrangle_placeCost width ws)
    (Nat.lt_succ_of_le hj)
  have hget : (columnMinima matrix (ws.length + 1)).getD j default = m := by
    rw [Array.getD_eq_getD_getElem?, hm, Option.getD_some]
  obtain ⟨hlt, hentry⟩ := hrow hpos
  rw [List.size_toArray, hget]
  exact ⟨hlt, hvalue.symm.trans hentry⟩

/-- **No other way to divide the words costs less.** -/
theorem total_bestLines_le {v : Nat} (hws : ws ≠ []) (h : Divided (placeCost width ws) ws.length v) :
    total (fun place => placeCost width ws place.1 place.2) (bestLines width ws) ≤ v :=
  (bestLines_least width hws).1.trans_le (leastCost_le h)

/-- A line cannot be divided once more for less. -/
theorem placeCost_le_of_mem_bestLines (hws : ws ≠ []) (h : (i, j) ∈ bestLines width ws) {k : Nat}
    (hik : i < k) (hkj : k < j) :
    placeCost width ws i j ≤ placeCost width ws i k + placeCost width ws k j := by
  obtain ⟨-, -, hline⟩ := (bestLines_least width hws).2 (i, j) h
  have hfirst : leastCost (placeCost width ws) k ≤ lineEntry (placeCost width ws) i k :=
    leastCost_le_lineEntry hik
  have hsecond : leastCost (placeCost width ws) j ≤ lineEntry (placeCost width ws) k j :=
    leastCost_le_lineEntry hkj
  unfold lineEntry at *
  dsimp only at hline
  omega

/-! ### How far lines stick out -/

/-- A line that fits costs no more than its gap, or a short last line. -/
theorem costOfLine_le {target used : Nat} (h : used ≤ target) (last single : Bool) :
    costOfLine target used last single ≤ lineCost + max (target * target) shortLastLineCost := by
  have hsquare : (target - used) * (target - used) ≤ target * target :=
    Nat.mul_le_mul (Nat.sub_le _ _) (Nat.sub_le _ _)
  rw [costOfLine_eq, Nat.sub_eq_zero_of_le h]
  split
  · split <;> omega
  · omega

/-- A line that sticks out costs its overflow, whatever it is. -/
theorem costOfLine_of_lt {target used : Nat} (h : target < used) (last single : Bool) :
    costOfLine target used last single = lineCost + (used - target) * overflowCost := by
  rw [costOfLine, if_pos h]

/-- A line of words each of which fits has a place up to which it fits, if it does not as a whole. -/
theorem exists_place {target : Nat} (hij : i < j) (hfits : usedCells ws i (i + 1) ≤ target)
    (hover : target < usedCells ws i j) :
    ∃ k, i < k ∧ k < j ∧ usedCells ws i k ≤ target ∧ target < usedCells ws i (k + 1) := by
  induction j with
  | zero => omega
  | succ j ih =>
    by_cases hj : usedCells ws i j ≤ target
    · rcases Nat.eq_or_lt_of_le (Nat.le_of_lt_succ hij) with rfl | hlt
      · omega
      · exact ⟨j, hlt, Nat.lt_succ_self j, hj, hover⟩
    · rcases Nat.eq_or_lt_of_le (Nat.le_of_lt_succ hij) with rfl | hlt
      · omega
      · obtain ⟨k, hik, hkj, hk⟩ := ih hlt (Nat.lt_of_not_le hj)
        exact ⟨k, hik, Nat.lt_succ_of_lt hkj, hk⟩

/-- **How far a line of words sticks out** is limited by what it would cost to divide it, if each of
the words fits; to lines of up to 27 cells no line sticks out. -/
theorem overflow_le (hws : ws ≠ []) (hwords : ∀ w ∈ ws, w.cells ≤ max width 1)
    (h : (i, j) ∈ bestLines width ws) :
    overflowCost * (usedCells ws i j - max width 1) ≤ 2 * (lineCost + max width 1 * max width 1) ∧
      (width ≤ 27 → usedCells ws i j ≤ max width 1) := by
  obtain ⟨hij, hj, -⟩ := (bestLines_least width hws).2 (i, j) h
  dsimp only at hij hj
  by_cases hover : usedCells ws i j ≤ max width 1
  · rw [Nat.sub_eq_zero_of_le hover]
    exact ⟨by omega, fun _ => hover⟩
  have hover := Nat.lt_of_not_le hover
  have hsquare : width ≤ 27 → max width 1 * max width 1 ≤ 27 * 27 := fun hle =>
    Nat.mul_le_mul (by omega) (by omega)
  have htarget : 1 ≤ max width 1 := Nat.le_max_right _ _
  have hdivide {k : Nat} (hik : i < k) (hkj : k < j) := placeCost_le_of_mem_bestLines hws h hik hkj
  have hword : ws[i]? = some ws[i] := List.getElem?_eq_getElem (hij.trans_le hj)
  have hfirst : usedCells ws i (i + 1) ≤ max width 1 :=
    (usedCells_succ hword).trans_le (hwords _ (List.getElem_mem _))
  obtain ⟨k, hik, hkj, hfits, hsticks⟩ := exists_place hij hfirst hover
  -- The line is divided in front of the first word that does not fit.
  have hcut := hdivide hik hkj
  have hfront := costOfLine_le hfits (k ≥ ws.length) (i + 1 = k)
  have hline := costOfLine_of_lt hover (j ≥ ws.length) (i + 1 = j)
  unfold placeCost at hdivide hcut
  by_cases hrest : usedCells ws k j ≤ max width 1
  · have hbehind := costOfLine_le hrest (j ≥ ws.length) (k + 1 = j)
    generalize max width 1 = target at *
    unfold lineCost overflowCost shortLastLineCost at *
    omega
  · -- The rest sticks out as well, so it has more words, and the line is divided behind the first of
    -- them, too.
    have hrest := Nat.lt_of_not_le hrest
    have hword' : ws[k]? = some ws[k] := List.getElem?_eq_getElem (hkj.trans_le hj)
    have hsingle := (usedCells_succ hword').trans_le (hwords _ (List.getElem_mem _))
    have hkj' : k + 1 < j := by
      rcases Nat.eq_or_lt_of_le (Nat.succ_le_of_lt hkj) with heq | hlt
      · rw [← heq] at hrest
        exact absurd hsingle (Nat.not_le.2 hrest)
      · exact hlt
    have hik' : i < k + 1 := Nat.lt_succ_of_lt hik
    have hcut' := hdivide hik' hkj'
    have hbehind := costOfLine_of_lt hrest (j ≥ ws.length) (k + 1 = j)
    have hfront' := costOfLine_of_lt hsticks (k + 1 ≥ ws.length) (i + 1 = k + 1)
    have hshared := usedCells_add_usedCells hword' hik.le hkj hj
    have hparts := usedCells_add_usedCells_le hik' hkj' hj
    have hword' : ws[k].cells ≤ max width 1 := hwords _ (List.getElem_mem _)
    rw [hline, hfront'] at hcut'
    rw [hline, hbehind] at hcut
    by_cases hlast : usedCells ws (k + 1) j ≤ max width 1
    · have := costOfLine_le hlast (j ≥ ws.length) (k + 1 + 1 = j)
      generalize max width 1 = target at *
      unfold lineCost overflowCost shortLastLineCost at *
      omega
    · have hlast := Nat.lt_of_not_le hlast
      rw [costOfLine_of_lt hlast] at hcut'
      generalize max width 1 = target at *
      unfold lineCost overflowCost at *
      omega

end PublisherConsole.Text
