import Mathlib.Data.List.GetD
import PublisherConsole.Proofs.Text.ColumnMinima

/-!
# The rounds of a block find the least rows

Where a later row of a matrix that beats an earlier one in a column beats it in all columns behind
it (`TotallyMonotone`), the least row of a column never lies before that of a column in front of it.
The search makes use of this in two ways.

* A row that loses against its neighbours on both sides is not the least one of any column. Dropping
  such rows leaves the least row of every column (`reduceRows_spec`).
* The least row of a column lies between those of its neighbours, so all columns in even places are
  done in one pass over the rows (`fillEven_least`).

The main result is `blockMinima_least`. Of rows with equal entries the first one counts as the
least.
-/

namespace PublisherConsole.Text

variable {entry : Nat → Nat → Nat} {rows cols : List Nat} {col row a b c : Nat}

/-! ### The least row of a column -/

/-- A row is better than another one in a column, or it is the same: its entry is smaller, or it
comes first. -/
def Beats (entry : Nat → Nat → Nat) (col a b : Nat) : Prop :=
  entry a col < entry b col ∨ entry a col = entry b col ∧ a ≤ b

theorem Beats.refl (entry : Nat → Nat → Nat) (col a : Nat) : Beats entry col a a :=
  .inr ⟨rfl, le_rfl⟩

theorem Beats.trans (h : Beats entry col a b) (h' : Beats entry col b c) : Beats entry col a c := by
  unfold Beats at *
  omega

theorem Beats.total (entry : Nat → Nat → Nat) (col a b : Nat) :
    Beats entry col a b ∨ Beats entry col b a := by
  unfold Beats
  omega

theorem Beats.antisymm (h : Beats entry col a b) (h' : Beats entry col b a) : a = b := by
  unfold Beats at *
  omega

theorem Beats.le (h : Beats entry col a b) : entry a col ≤ entry b col := by
  unfold Beats at h
  omega

/-- The best row of a column. -/
def IsLeastRow (entry : Nat → Nat → Nat) (rows : List Nat) (col row : Nat) : Prop :=
  row ∈ rows ∧ ∀ r ∈ rows, Beats entry col row r

theorem exists_isLeastRow (entry : Nat → Nat → Nat) (col : Nat) (h : rows ≠ []) :
    ∃ row, IsLeastRow entry rows col row := by
  induction rows with
  | nil => exact absurd rfl h
  | cons a rows ih =>
    by_cases hrows : rows = []
    · exact ⟨a, by simp [hrows], by simpa [hrows] using Beats.refl entry col a⟩
    · obtain ⟨row, hmem, hbeats⟩ := ih hrows
      rcases Beats.total entry col a row with ha | ha
      · refine ⟨a, by simp, fun r hr => ?_⟩
        rcases List.mem_cons.1 hr with rfl | hr
        · exact Beats.refl entry col r
        · exact ha.trans (hbeats r hr)
      · refine ⟨row, by simp [hmem], fun r hr => ?_⟩
        rcases List.mem_cons.1 hr with rfl | hr
        · exact ha
        · exact hbeats r hr

/-! ### Totally monotone matrices -/

/-- A later row that is better than an earlier one in a column is better in all columns behind
it. -/
def TotallyMonotone (entry : Nat → Nat → Nat) (rows cols : List Nat) : Prop :=
  ∀ a ∈ rows, ∀ b ∈ rows, a < b → ∀ c ∈ cols, ∀ d ∈ cols, c ≤ d →
    entry b c < entry a c → entry b d < entry a d

theorem TotallyMonotone.mono {rows' cols' : List Nat} (h : TotallyMonotone entry rows cols)
    (hrows : ∀ r ∈ rows', r ∈ rows) (hcols : ∀ c ∈ cols', c ∈ cols) :
    TotallyMonotone entry rows' cols' :=
  fun a ha b hb hab c hc d hd => h a (hrows a ha) b (hrows b hb) hab c (hcols c hc) d (hcols d hd)

/-- An earlier row that is better in a column is better in all columns in front of it. -/
theorem TotallyMonotone.beats (h : TotallyMonotone entry rows cols) {d : Nat} (ha : a ∈ rows)
    (hb : b ∈ rows) (hab : a < b) (hc : c ∈ cols) (hd : d ∈ cols) (hcd : c ≤ d)
    (hbeats : Beats entry d a b) : Beats entry c a b := by
  by_contra hnot
  have hless : entry b c < entry a c := by
    unfold Beats at hnot
    omega
  have := h a ha b hb hab c hc d hd hcd hless
  have := hbeats.le
  omega

/-- The least rows of columns lie in the order of the columns. -/
theorem IsLeastRow.le {d : Nat} (hmono : TotallyMonotone entry rows cols)
    (ha : IsLeastRow entry rows c a) (hb : IsLeastRow entry rows d b) (hc : c ∈ cols) (hd : d ∈ cols)
    (hcd : c ≤ d) : a ≤ b := by
  by_contra hlt
  have hbeats := hmono.beats hb.1 ha.1 (Nat.lt_of_not_le hlt) hc hd hcd (hb.2 a ha.1)
  exact hlt (hbeats.antisymm (ha.2 b hb.1)).ge

/-! ### Dropping rows -/

/-- A stack of rows, the top first, each of which loses against the one below it in the column of
that one's number. -/
def Stacked (entry : Nat → Nat → Nat) (cols : List Nat) : List Nat → Prop
  | [] => True
  | top :: rest =>
    (∀ below ∈ rest.head?, below < top ∧
      entry below (cols.getD (rest.length - 1) 0) ≤ entry top (cols.getD (rest.length - 1) 0)) ∧
    Stacked entry cols rest

/-- The least rows of columns are the least of fewer rows if each row loses against one of these. -/
theorem IsLeastRow.of_beaten {kept : List Nat} (hkept : ∀ r ∈ kept, r ∈ rows)
    (hbeaten : ∀ r ∈ rows, ∃ k ∈ kept, Beats entry col k r) (h : IsLeastRow entry kept col row) :
    IsLeastRow entry rows col row := by
  refine ⟨hkept row h.1, fun r hr => ?_⟩
  obtain ⟨k, hk, hbeats⟩ := hbeaten r hr
  exact (h.2 k hk).trans hbeats

section Reduce

variable (hmono : TotallyMonotone entry rows cols) (hcols : cols.Pairwise (· < ·))
include hmono hcols

/-- A row that comes first and is no worse in a column is no worse in those of smaller numbers. -/
theorem TotallyMonotone.beats_getD {i j : Nat} (ha : a ∈ rows) (hb : b ∈ rows) (hab : a < b)
    (hj : j < cols.length) (hij : i ≤ j)
    (hle : entry a (cols.getD j 0) ≤ entry b (cols.getD j 0)) :
    Beats entry (cols.getD i 0) a b := by
  have hget {k : Nat} (hk : k < cols.length) : cols.getD k 0 ∈ cols := by
    rw [List.getD_eq_getElem _ _ hk]
    exact List.getElem_mem hk
  have hbeats : Beats entry (cols.getD j 0) a b := by
    unfold Beats
    omega
  refine hmono.beats ha hb hab (hget (by omega)) (hget hj) ?_ hbeats
  rcases Nat.eq_or_lt_of_le hij with rfl | hlt
  · exact le_rfl
  · rw [List.getD_eq_getElem _ _ (by omega), List.getD_eq_getElem _ _ hj]
    exact (List.pairwise_iff_getElem.1 hcols i j (by omega) hj hlt).le

/-- The rows that a new row drops from a stack lose against it or against one that stays; and the one
that is on top then is no worse in its column. -/
theorem dropLosers_spec {stack : List Nat} (hstack : Stacked entry cols stack)
    (hmem : ∀ r ∈ stack, r ∈ rows) (hrow : row ∈ rows) (hlt : ∀ r ∈ stack, r < row)
    (hsize : stack.length ≤ cols.length) :
    ∃ rest, dropLosers entry cols.toArray row stack stack.length = (rest, rest.length) ∧
      rest <:+ stack ∧
      (∀ top ∈ rest.head?, entry top (cols.getD (rest.length - 1) 0) ≤
        entry row (cols.getD (rest.length - 1) 0)) ∧
      ∀ i < cols.length, ∀ r ∈ stack, ∃ k ∈ row :: rest, Beats entry (cols.getD i 0) k r := by
  induction stack with
  | nil => exact ⟨[], rfl, List.suffix_rfl, by simp, by simp⟩
  | cons top stack ih =>
    simp only [List.forall_mem_cons] at hmem hlt
    rw [List.length_cons] at hsize
    have hcol : cols.toArray.getD (stack.length + 1 - 1) 0 = cols.getD stack.length 0 := by
      simp [Array.getD_eq_getD_getElem?, List.getD_eq_getElem?_getD]
    rw [dropLosers, List.length_cons, hcol, Nat.add_sub_cancel]
    split
    next hloses =>
      obtain ⟨rest, hdrop, hsuffix, htop, hbeaten⟩ := ih hstack.2 hmem.2 hlt.2 (by omega)
      refine ⟨rest, hdrop, hsuffix.trans (List.suffix_cons _ _), htop, fun i hi r hr => ?_⟩
      rcases List.mem_cons.1 hr with rfl | hr
      · -- The old top loses against the new row from its column on, and before it against the row
        -- that was below it.
        by_cases hbehind : stack.length ≤ i
        · refine ⟨row, by simp, .inl ?_⟩
          by_contra hnot
          have := hmono.beats_getD hcols hmem.1 hrow hlt.1 hi hbehind (Nat.le_of_not_lt hnot)
          have := this.le
          omega
        · obtain ⟨below, below', rfl⟩ := List.exists_cons_of_length_pos (by omega : 0 < stack.length)
          obtain ⟨hbelow, hle⟩ := hstack.1 below rfl
          rw [List.length_cons, Nat.add_sub_cancel] at hle
          obtain ⟨k, hk, hbeats⟩ := hbeaten i hi below (by simp)
          rw [List.length_cons] at hbehind hsize
          have := hmono.beats_getD hcols (hmem.2 below (by simp)) hmem.1 hbelow
            (by omega : below'.length < cols.length) (by omega : i ≤ below'.length) hle
          exact ⟨k, hk, hbeats.trans this⟩
      · exact hbeaten i hi r hr
    next hkeeps =>
      refine ⟨top :: stack, rfl, List.suffix_rfl, ?_, fun i _ r hr =>
        ⟨r, List.mem_cons_of_mem _ hr, .refl _ _ _⟩⟩
      simpa using hkeeps

end Reduce

theorem Stacked.of_suffix {stack rest : List Nat} (h : Stacked entry cols stack)
    (hsuffix : rest <:+ stack) : Stacked entry cols rest := by
  obtain ⟨front, rfl⟩ := hsuffix
  induction front with
  | nil => exact h
  | cons top front ih => exact ih h.2

/-- The rows of a stack come in descending order. -/
theorem Stacked.pairwise {stack : List Nat} (h : Stacked entry cols stack) :
    stack.Pairwise (· > ·) := by
  rw [← List.isChain_iff_pairwise]
  induction stack with
  | nil => exact .nil
  | cons top stack ih => exact List.isChain_cons.2 ⟨fun below hbelow => (h.1 below hbelow).1, ih h.2⟩

/-- What the rows so far have made of the stack: it has some of them, at most one for each column,
and in every column each row loses against one on it. -/
structure Reduced (entry : Nat → Nat → Nat) (cols rows stack : List Nat) : Prop where
  stacked : Stacked entry cols stack
  mem : ∀ r ∈ stack, r ∈ rows
  size : stack.length ≤ cols.length
  beaten : ∀ i < cols.length, ∀ r ∈ rows, ∃ k ∈ stack, Beats entry (cols.getD i 0) k r

/-- Put a row on the stack unless it loses in all columns. -/
def pushRow (entry : Nat → Nat → Nat) (cols : Array Nat) (acc : List Nat × Nat) (row : Nat) :
    List Nat × Nat :=
  let (stack, size) := dropLosers entry cols row acc.1 acc.2
  if size = cols.size then (stack, size) else (row :: stack, size + 1)

theorem reduceRows_eq (cols : Array Nat) :
    reduceRows entry cols rows = (rows.foldl (pushRow entry cols) ([], 0)).1.reverse := rfl

/-- One more row. -/
theorem Reduced.push {done stack : List Nat} (h : Reduced entry cols done stack)
    (hmono : TotallyMonotone entry (done ++ [row]) cols) (hcols : cols.Pairwise (· < ·))
    (hlt : ∀ r ∈ done, r < row) :
    ∃ stack', pushRow entry cols.toArray (stack, stack.length) row = (stack', stack'.length) ∧
      Reduced entry cols (done ++ [row]) stack' := by
  obtain ⟨rest, hdrop, hsuffix, htop, hbeaten⟩ := dropLosers_spec hmono hcols h.stacked
    (fun r hr => List.mem_append_left _ (h.mem r hr)) (by simp) (fun r hr => hlt r (h.mem r hr))
    h.size
  have hrest (r : Nat) (hr : r ∈ rest) : r ∈ done := h.mem r (hsuffix.subset hr)
  have hsize := hsuffix.length_le
  have hstack := h.size
  have hstacked := h.stacked.of_suffix hsuffix
  -- In every column, each of the rows so far loses against the new row or one that is left.
  have hlost (i : Nat) (hi : i < cols.length) (r : Nat) (hr : r ∈ done ++ [row]) :
      ∃ k ∈ row :: rest, Beats entry (cols.getD i 0) k r := by
    rcases List.mem_append.1 hr with hr | hr
    · obtain ⟨k, hk, hbeats⟩ := h.beaten i hi r hr
      obtain ⟨k', hk', hbeats'⟩ := hbeaten i hi k hk
      exact ⟨k', hk', hbeats'.trans hbeats⟩
    · obtain rfl := List.mem_singleton.1 hr
      exact ⟨r, by simp, .refl _ _ _⟩
  simp only [pushRow, hdrop, List.size_toArray]
  split
  next hfull =>
    refine ⟨rest, rfl, hstacked, fun r hr => List.mem_append_left _ (hrest r hr), by omega,
      fun i hi r hr => ?_⟩
    -- The stack is full, so the new row loses in all columns.
    obtain ⟨k, hk, hbeats⟩ := hlost i hi r hr
    rcases List.mem_cons.1 hk with rfl | hk
    · obtain ⟨top, rest', rfl⟩ := List.exists_cons_of_length_pos (by omega : 0 < rest.length)
      have htop' : top ∈ done := hrest top (by simp)
      have hworse := hmono.beats_getD hcols (List.mem_append_left _ htop') (by simp) (hlt top htop')
        (by omega : (top :: rest').length - 1 < cols.length) (by omega : i ≤ _) (htop top rfl)
      exact ⟨top, by simp, hworse.trans hbeats⟩
    · exact ⟨k, hk, hbeats⟩
  next hroom =>
    refine ⟨row :: rest, rfl, ⟨fun top hhead => ?_, hstacked⟩, fun r hr => ?_, ?_, hlost⟩
    · exact ⟨hlt top (hrest top (List.mem_of_mem_head? hhead)), htop top hhead⟩
    · rcases List.mem_cons.1 hr with rfl | hr
      · simp
      · exact List.mem_append_left _ (hrest r hr)
    · rw [List.length_cons]
      omega

/-- All of the rows. -/
theorem Reduced.pushAll {done stack : List Nat} (h : Reduced entry cols done stack)
    (hmono : TotallyMonotone entry (done ++ rows) cols) (hcols : cols.Pairwise (· < ·))
    (hrows : (done ++ rows).Pairwise (· < ·)) :
    ∃ stack', rows.foldl (pushRow entry cols.toArray) (stack, stack.length) =
        (stack', stack'.length) ∧
      Reduced entry cols (done ++ rows) stack' := by
  induction rows generalizing done stack with
  | nil => exact ⟨stack, rfl, by simpa using h⟩
  | cons row rows ih =>
    have hsplit : done ++ row :: rows = done ++ [row] ++ rows := by simp
    have hlt : ∀ r ∈ done, r < row := fun r hr =>
      (List.pairwise_append.1 hrows).2.2 r hr row (by simp)
    rw [hsplit] at hmono hrows ⊢
    obtain ⟨stack', hpush, hreduced⟩ :=
      h.push (hmono.mono (fun r hr => List.mem_append_left _ hr) fun _ hc => hc) hcols hlt
    rw [List.foldl_cons, hpush]
    exact ih hreduced hmono hrows

/-- **Reducing the rows** keeps their order and the least row of each column. -/
theorem reduceRows_spec (hmono : TotallyMonotone entry rows cols) (hcols : cols.Pairwise (· < ·))
    (hrows : rows.Pairwise (· < ·)) :
    (reduceRows entry cols.toArray rows).Pairwise (· < ·) ∧
      (∀ c ∈ cols, ∀ r ∈ rows, ∃ k ∈ reduceRows entry cols.toArray rows, Beats entry c k r) := by
  have hempty : Reduced entry cols [] [] := ⟨trivial, by simp, by simp, by simp⟩
  have hmono' : TotallyMonotone entry ([] ++ rows) cols := hmono
  obtain ⟨stack, hfold, hreduced⟩ := hempty.pushAll hmono' hcols hrows
  rw [List.length_nil] at hfold
  rw [reduceRows_eq, hfold]
  refine ⟨List.pairwise_reverse.2 hreduced.stacked.pairwise, fun c hc r hr => ?_⟩
  obtain ⟨i, hi, rfl⟩ := List.getElem_of_mem hc
  obtain ⟨k, hk, hbeats⟩ := hreduced.beaten i hi r (by simpa using hr)
  rw [List.getD_eq_getElem _ _ hi] at hbeats
  exact ⟨k, by simpa using hk, hbeats⟩

/-! ### One pass over the rows -/

/-- **Looking through rows** up to one that does not lie before the least row finds the least one. -/
theorem scanRows_spec {least last : Nat} {best : Nat × Nat} (hrows : rows.Pairwise (· < ·))
    (hlast : last ∈ rows) (hle : least ≤ last) (hbeats : ∀ r ∈ rows, Beats entry col least r)
    (hbest : best.1 = entry best.2 col) (hbest' : Beats entry col least best.2)
    (hleast : least ∈ rows ∨ best.2 = least) :
    (scanRows entry col last best rows).1 = least ∧
      (scanRows entry col last best rows).2 <:+ rows ∧
      ∀ r ∈ rows, last ≤ r → r ∈ (scanRows entry col last best rows).2 := by
  induction rows generalizing best with
  | nil => cases hlast
  | cons row rows ih =>
    obtain ⟨hrow, hrows⟩ := List.pairwise_cons.1 hrows
    rw [List.forall_mem_cons] at hbeats
    rw [scanRows]
    generalize hnew : (if entry row col < best.1 || (entry row col = best.1 && row < best.2) then
      (entry row col, row) else best) = new
    simp only [Bool.or_eq_true, Bool.and_eq_true, decide_eq_true_eq] at hnew
    -- One of the rows to come is the least one, or the best row so far is.
    have hnew' : new.1 = entry new.2 col ∧ Beats entry col least new.2 ∧
        (least ∈ rows ∨ new.2 = least) := by
      split at hnew
      next hbetter =>
        subst hnew
        refine ⟨rfl, hbeats.1, ?_⟩
        rcases hleast with hleast | rfl
        · exact (List.mem_cons.1 hleast).symm.imp_right Eq.symm
        · have := hbest'
          unfold Beats at *
          omega
      next hworse =>
        subst hnew
        refine ⟨hbest, hbest', ?_⟩
        rcases hleast with hleast | hleast
        · rcases List.mem_cons.1 hleast with rfl | hleast
          · right
            unfold Beats at *
            omega
          · exact .inl hleast
        · exact .inr hleast
    obtain ⟨hvalue, hbeaten, hfound⟩ := hnew'
    split
    next hstop =>
      subst hstop
      refine ⟨hfound.resolve_left fun hmem => ?_, List.suffix_rfl, fun r hr _ => hr⟩
      exact absurd (hrow least hmem) (Nat.not_lt.2 hle)
    next hmore =>
      have hlast' := (List.mem_cons.1 hlast).resolve_left (Ne.symm hmore)
      obtain ⟨hscan, hsuffix, hleft⟩ := ih hrows hlast' hbeats.2 hvalue hbeaten hfound
      refine ⟨hscan, hsuffix.trans (List.suffix_cons _ _), fun r hr hr' => ?_⟩
      refine hleft r ((List.mem_cons.1 hr).resolve_left ?_) hr'
      rintro rfl
      exact absurd (hrow last hlast') (Nat.not_lt.2 hr')

/-- Of the rows that are left, the first one is where looking through them begins. -/
theorem IsLeastRow.scanRows {all : List Nat} {least last : Nat}
    (hleast : IsLeastRow entry all col least) (hall : all.Pairwise (· < ·)) (hrows : rows <:+ all)
    (hmem : least ∈ rows) (hlast : last ∈ rows) (hle : least ≤ last) :
    (scanRows entry col last (entry (rows.headD 0) col, rows.headD 0) rows).1 = least ∧
      (scanRows entry col last (entry (rows.headD 0) col, rows.headD 0) rows).2 <:+ rows ∧
      ∀ r ∈ rows, last ≤ r →
        r ∈ (scanRows entry col last (entry (rows.headD 0) col, rows.headD 0) rows).2 := by
  refine scanRows_spec (hall.sublist hrows.sublist) hlast hle
    (fun r hr => hleast.2 r (hrows.subset hr)) rfl (hleast.2 _ (hrows.subset ?_)) (.inl hmem)
  obtain ⟨first, rest, rfl⟩ := List.exists_cons_of_ne_nil (List.ne_nil_of_mem hmem)
  simp

theorem getD_set! (minima : Array Nat) (col row i : Nat) :
    (minima.set! col row).getD i 0 =
      if i = col ∧ col < minima.size then row else minima.getD i 0 := by
  simp only [Array.getD_eq_getD_getElem?, Array.set!_eq_setIfInBounds,
    Array.getElem?_setIfInBounds]
  by_cases hi : i = col
  · subst hi
    by_cases hsize : i < minima.size <;> simp [hsize]
  · simp [hi, Ne.symm hi]

theorem oddPlaces_sublist (cols : List Nat) : (oddPlaces cols).Sublist cols := by
  induction cols using oddPlaces.induct with
  | case1 a b rest ih => exact (ih.cons_cons b).cons a
  | case2 cols => simp [oddPlaces]

theorem length_oddPlaces_lt (h : cols ≠ []) : (oddPlaces cols).length < cols.length := by
  match cols, h with
  | [_], _ => simp [oddPlaces]
  | _ :: _ :: rest, _ =>
    have := (oddPlaces_sublist rest).length_le
    simp only [oddPlaces, List.length_cons]
    omega

/-- The least rows of the columns in even places are found in one pass over the rows, which need not
have those in front of the first column's least one; the minima of other columns stay. -/
theorem fillEven_least {all : List Nat} {minima : Array Nat} (hall : all.Pairwise (· < ·))
    (hne : all ≠ []) (hrows : rows <:+ all) (hcols : cols.Pairwise (· < ·))
    (hmono : TotallyMonotone entry all cols) (hsize : ∀ c ∈ cols, c < minima.size)
    (hreach : ∀ c ∈ cols, ∀ r, IsLeastRow entry all c r → r ∈ rows)
    (hodd : ∀ c ∈ oddPlaces cols, IsLeastRow entry all c (minima.getD c 0)) :
    (∀ c ∈ cols, IsLeastRow entry all c ((fillEven entry cols rows minima).getD c 0)) ∧
      ∀ i, i ∉ cols → (fillEven entry cols rows minima).getD i 0 = minima.getD i 0 := by
  induction cols, rows, minima using fillEven.induct entry with
  | case1 rows minima => exact ⟨by simp, fun _ _ => rfl⟩
  | case2 col rows minima =>
    obtain ⟨least, hleast⟩ := exists_isLeastRow entry col hne
    have hmem := hreach col (by simp) least hleast
    obtain ⟨front, last, rfl⟩ :=
      (List.eq_nil_or_concat' rows).resolve_left (List.ne_nil_of_mem hmem)
    have hle : least ≤ last := by
      rcases List.mem_append.1 hmem with hmem | hmem
      · exact ((List.pairwise_append.1 (hall.sublist hrows.sublist)).2.2 least hmem last (by simp)).le
      · exact (List.mem_singleton.1 hmem).le
    obtain ⟨hfound, -, -⟩ := hleast.scanRows hall hrows hmem (by simp) hle
    have hfill : fillEven entry [col] (front ++ [last]) minima = minima.set! col least := by
      rw [fillEven, List.getLastD_concat, hfound]
    rw [hfill]
    refine ⟨by simpa [getD_set!, hsize col (by simp)] using hleast, fun i hi => ?_⟩
    rw [getD_set!, if_neg fun h => hi (by simp [h.1])]
  | case3 col next cols rows minima row best rest hbest ih =>
    obtain ⟨least, hleast⟩ := exists_isLeastRow entry col hne
    have hlast : IsLeastRow entry all next (minima.getD next 0) := hodd next (by simp [oddPlaces])
    have hsize' := hsize col (by simp)
    obtain ⟨hcol, hcols⟩ := List.pairwise_cons.1 hcols
    obtain ⟨hnext, hcols⟩ := List.pairwise_cons.1 hcols
    have hbest : scanRows entry col (minima.getD next 0) (entry (rows.headD 0) col, rows.headD 0)
        rows = (best, rest) := hbest
    obtain ⟨hfound, hsuffix, hleft⟩ := hleast.scanRows hall hrows
      (hreach col (by simp) least hleast) (hreach next (by simp) _ hlast)
      (hleast.le hmono hlast (by simp) (by simp) (hcol next (by simp)).le)
    rw [hbest] at hfound hsuffix hleft
    dsimp only at hfound hsuffix hleft
    subst hfound
    have hother (i : Nat) (hi : i ≠ col) : (minima.set! col best).getD i 0 = minima.getD i 0 := by
      rw [getD_set!, if_neg fun h => hi h.1]
    have hbehind {i : Nat} (hi : i ∈ cols) : i ≠ col := (hcol i (by simp [hi])).ne'
    obtain ⟨hminima, hsame⟩ := ih (hsuffix.trans hrows) hcols
      (hmono.mono (fun _ h => h) fun c hc => by simp [hc])
      (fun c hc => by simpa using hsize c (by simp [hc]))
      (fun c hc r hr => hleft r (hreach c (by simp [hc]) r hr)
        (hlast.le hmono hr (by simp) (by simp [hc]) (hnext c hc).le))
      (fun c hc => by
        rw [hother c (hbehind ((oddPlaces_sublist cols).subset hc))]
        exact hodd c (by simp [oddPlaces, hc]))
    have hfill : fillEven entry (col :: next :: cols) rows minima =
        fillEven entry cols rest (minima.set! col best) := by
      simp only [fillEven]
      rw [hbest]
    rw [hfill]
    refine ⟨fun c hc => ?_, fun i hi => ?_⟩
    · rcases List.mem_cons.1 hc with rfl | hc
      · rw [hsame c fun h => hbehind h rfl, getD_set!, if_pos ⟨rfl, hsize'⟩]
        exact hleast
      · rcases List.mem_cons.1 hc with rfl | hc
        · rw [hsame c fun h => (hnext c h).ne rfl, hother c (hcol c (by simp)).ne']
          exact hlast
        · exact hminima c hc
    · simp only [List.mem_cons, not_or] at hi
      rw [hsame i hi.2.2, hother i hi.1]

theorem size_fillEven (minima : Array Nat) :
    (fillEven entry cols rows minima).size = minima.size := by
  induction cols, rows, minima using fillEven.induct entry with
  | case1 => rfl
  | case2 => simp [fillEven]
  | case3 col next cols rows minima row best rest hbest ih =>
    simp only [fillEven]
    rw [hbest]
    simpa using ih

theorem size_blockMinima (fuel : Nat) (minima : Array Nat) :
    (blockMinima entry fuel rows cols minima).size = minima.size := by
  induction fuel generalizing rows cols with
  | zero => rfl
  | succ fuel ih =>
    rw [blockMinima]
    split
    · rfl
    · rw [size_fillEven, ih]

/-- **The minima of a block are its least rows.** -/
theorem blockMinima_least {minima : Array Nat} (fuel : Nat) (hfuel : cols.length < fuel)
    (hne : rows ≠ []) (hrows : rows.Pairwise (· < ·)) (hcols : cols.Pairwise (· < ·))
    (hmono : TotallyMonotone entry rows cols) (hsize : ∀ c ∈ cols, c < minima.size) :
    ∀ c ∈ cols, IsLeastRow entry rows c ((blockMinima entry fuel rows cols minima).getD c 0) := by
  induction fuel generalizing rows cols minima with
  | zero => omega
  | succ fuel ih =>
    rw [blockMinima]
    split
    next hempty => simp [List.isEmpty_iff.1 hempty]
    next hsome =>
      have hsome : cols ≠ [] := by simpa using hsome
      obtain ⟨hreduced, hbeaten⟩ := reduceRows_spec hmono hcols hrows
      have hkept : ∀ r ∈ reduceRows entry cols.toArray rows, r ∈ rows := fun _ => mem_reduceRows
      have hodd := oddPlaces_sublist cols
      have hne' : reduceRows entry cols.toArray rows ≠ [] := by
        obtain ⟨c, hc⟩ := List.exists_mem_of_ne_nil cols hsome
        obtain ⟨r, hr⟩ := List.exists_mem_of_ne_nil rows hne
        obtain ⟨k, hk, -⟩ := hbeaten c hc r hr
        exact List.ne_nil_of_mem hk
      have hmono' := hmono.mono hkept fun _ h => h
      have hminima := ih (Nat.lt_of_lt_of_le (length_oddPlaces_lt hsome) (Nat.le_of_lt_succ hfuel))
        hne' hreduced (hcols.sublist hodd) (hmono'.mono (fun _ h => h) hodd.subset)
        fun c hc => hsize c (hodd.subset hc)
      intro c hc
      refine IsLeastRow.of_beaten hkept (hbeaten c hc) ?_
      exact (fillEven_least hreduced hne' List.suffix_rfl hcols hmono'
        (by simpa [size_blockMinima] using hsize) (fun _ _ _ h => h.1) hminima).1 c hc

end PublisherConsole.Text
