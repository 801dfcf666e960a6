import Mathlib.Data.Prod.Lex
import Mathlib.Data.String.Basic
import PublisherConsole.Command.Perform
import PublisherConsole.Proofs.Storage.Catalogue
import PublisherConsole.Proofs.Storage.Store

/-!
# Listing and the order of directories

A store is listed in the order in which the file system enumerates its directory, up to the first
record that cannot be read, and the records are sorted afterwards. Another order of the same entries
is a `FileTree.IsReordering`: every path leads to the same entry, but directories are enumerated
differently.

* `FileStore.run_list_of_ok`: a listing is the first fault of `FileStore.outcomes`, which are read
  in the order of the directory, or else all of its records sorted;
* `FileStore.MayList` says which answers agree with the files, whatever their order;
  `FileStore.mayList_iff` that these are the answers that the orders have, and no others;
* `FileStore.IsSettled`: the files leave no choice between faults, or between records that have both
  their name and their identifier in common.
-/

namespace PublisherConsole

namespace Storage

/-! ### Outcomes in order -/

section Outcomes

variable {ε α β : Type} {e : ε} {as : List α}

/-- The results of all outcomes, unless there are faults among them: the first of those counts. -/
def inOrder : List (Except ε α) → Except ε (List α)
  | [] => .ok []
  | .error e :: _ => .error e
  | .ok a :: outcomes => (inOrder outcomes).map (a :: ·)

theorem inOrder_map_ok (as : List α) : inOrder (as.map (.ok : α → Except ε α)) = .ok as := by
  induction as with
  | nil => rfl
  | cons a as ih => rw [List.map_cons, inOrder, ih]; rfl

theorem perm_of_map_ok {bs : List α} (h : (as.map (.ok : α → Except ε α)).Perm (bs.map .ok)) :
    as.Perm bs :=
  (List.map_perm_map_iff fun _ _ => Except.ok.inj).1 h

/-- What comes in order are the results of all outcomes. -/
theorem eq_map_ok_of_inOrder {outcomes : List (Except ε α)} (h : inOrder outcomes = .ok as) :
    outcomes = as.map .ok := by
  induction outcomes generalizing as with
  | nil => cases h; rfl
  | cons outcome outcomes ih =>
    cases outcome with
    | error e => cases h
    | ok a =>
      rw [inOrder] at h
      cases hrest : inOrder outcomes with
      | error e => rw [hrest] at h; cases h
      | ok rest =>
        rw [hrest] at h
        cases h
        rw [ih hrest, List.map_cons]

/-- A fault that counts is one of the outcomes. -/
theorem mem_of_inOrder {outcomes : List (Except ε α)} (h : inOrder outcomes = .error e) :
    .error e ∈ outcomes := by
  induction outcomes with
  | nil => cases h
  | cons outcome outcomes ih =>
    cases outcome with
    | error e' =>
      cases h
      exact List.mem_cons_self
    | ok a =>
      rw [inOrder] at h
      cases hrest : inOrder outcomes with
      | error e' =>
        rw [hrest] at h
        cases h
        exact List.mem_cons_of_mem _ (ih hrest)
      | ok rest => rw [hrest] at h; cases h

/-- Whatever order is wanted of what a list contributes, some order of the list has it. -/
theorem exists_perm_filterMap {f : α → Option β} {l : List α} {ys : List β}
    (h : (l.filterMap f).Perm ys) : ∃ l', l.Perm l' ∧ l'.filterMap f = ys := by
  induction ys generalizing l with
  | nil => exact ⟨l, .refl l, h.eq_nil⟩
  | cons y ys ih =>
    obtain ⟨x, hx, hy⟩ := List.mem_filterMap.1 (h.mem_iff.2 List.mem_cons_self)
    obtain ⟨before, behind, rfl⟩ := List.append_of_mem hx
    have hmiddle : (before ++ x :: behind).Perm (x :: (before ++ behind)) := List.perm_middle
    have hrest : ((before ++ behind).filterMap f).Perm ys := by
      have hall := (hmiddle.filterMap f).symm.trans h
      rw [List.filterMap_cons, hy] at hall
      exact hall.cons_inv
    obtain ⟨l', hl', hys⟩ := ih hrest
    refine ⟨x :: l', hmiddle.trans (hl'.cons x), ?_⟩
    rw [List.filterMap_cons, hy, hys]

end Outcomes

end Storage

/-! ### What records are sorted by -/

namespace Record

/-- What records are sorted by: the name, and then the identifier. -/
def key (r : Record) : String ×ₗ String := toLex (r.name, r.id)

variable {a b : Record} {rs rs' : List Record}

theorem precedes_iff_key : a.precedes b = true ↔ a.key ≤ b.key := by
  rw [precedes_iff, IsListedBefore, key, key, Prod.Lex.toLex_le_toLex]

theorem key_eq_of_precedes (h : a.precedes b = true) (h' : b.precedes a = true) : a.key = b.key :=
  le_antisymm (precedes_iff_key.1 h) (precedes_iff_key.1 h')

/-- Sorting leaves records with the same key in their order. -/
theorem filter_mergeSort (rs : List Record) (k : String ×ₗ String) :
    (rs.mergeSort precedes).filter (·.key = k) = rs.filter (·.key = k) := by
  have hsorted : (rs.filter (·.key = k)).Pairwise fun a b => a.precedes b = true := by
    refine List.pairwise_of_forall_mem_list fun a ha b hb => precedes_iff_key.2 (le_of_eq ?_)
    simp only [List.mem_filter, decide_eq_true_eq] at ha hb
    exact ha.2.trans hb.2.symm
  have hsub := (List.sublist_mergeSort precedes_trans precedes_total hsorted
    List.filter_sublist).filter (·.key = k)
  simp only [List.filter_filter, Bool.and_self] at hsub
  exact (hsub.eq_of_length ((List.mergeSort_perm ..).filter _).length_eq.symm).symm

/-- Sorted lists of the same records have the same keys in the same places. -/
theorem map_key_eq (h : rs.Perm rs') (sorted : rs.Pairwise fun a b => a.precedes b = true)
    (sorted' : rs'.Pairwise fun a b => a.precedes b = true) : rs.map key = rs'.map key := by
  refine List.Perm.eq_of_pairwise (fun _ _ _ _ => le_antisymm) ?_ ?_ (h.map key)
  · exact List.pairwise_map.2 (sorted.imp precedes_iff_key.1)
  · exact List.pairwise_map.2 (sorted'.imp precedes_iff_key.1)

end Record

namespace Storage

/-! ### Another order of the same entries -/

namespace FileTree

variable {t t' : FileTree} {p q : Path}

/-- No path has two entries. -/
def IsConsistent (t : FileTree) : Prop := (t.entries.map Prod.fst).Nodup

/-- The other tree has the same entries, perhaps in another order. -/
def IsReordering (t t' : FileTree) : Prop := t.entries.Perm t'.entries

theorem lookup_eq_some_iff_mem {entries : List (Path × Entry)} {e : Entry}
    (h : (entries.map Prod.fst).Nodup) : entries.lookup p = some e ↔ (p, e) ∈ entries := by
  induction entries with
  | nil => simp
  | cons entry entries ih =>
    obtain ⟨q, old⟩ := entry
    rw [List.map_cons, List.nodup_cons] at h
    by_cases hq : p = q
    · subst hq
      have hnot : (p, e) ∉ entries := fun hmem => h.1 (List.mem_map.2 ⟨_, hmem, rfl⟩)
      simp [hnot, eq_comm]
    · have hne : (p == q) = false := by simpa using hq
      simp [List.lookup_cons, hne, hq, ih h.2]

/-- Every path leads to the same entry. -/
theorem IsReordering.find? (h : t.IsReordering t') (ht : t.IsConsistent) (p : Path) :
    t'.find? p = t.find? p := by
  by_cases hp : p = []
  · rw [hp, find?_nil, find?_nil]
  · have ht' : (t'.entries.map Prod.fst).Nodup := (h.map Prod.fst).nodup_iff.1 ht
    rw [find?_of_ne_nil hp, find?_of_ne_nil hp]
    refine Option.ext fun e => ?_
    rw [lookup_eq_some_iff_mem ht', lookup_eq_some_iff_mem ht, h.mem_iff]

theorem follow_eq_of_find? (h : ∀ p, t'.find? p = t.find? p) (p q : Path) :
    t'.follow q p = t.follow q p := by
  induction p generalizing q with
  | nil => rfl
  | cons name rest ih => simp only [follow, h, ih]

theorem resolve_eq_of_find? (h : ∀ p, t'.find? p = t.find? p) (p : Path) :
    t'.resolve p = t.resolve p := by
  simp only [resolve, follow_eq_of_find? h]

theorem entryAt?_eq_of_find? (h : ∀ p, t'.find? p = t.find? p) (p : Path) :
    t'.entryAt? p = t.entryAt? p := by
  simp only [entryAt?, resolve_eq_of_find? h, h]

theorem text_eq_of_find? (h : ∀ p, t'.find? p = t.find? p) (p : Path) : t'.text p = t.text p := by
  simp only [text, bytes, resolve_eq_of_find? h, h]

/-- A path leads to a directory that can be listed or it does not, and in all orders alike. -/
theorem list_cases (ht : t.IsConsistent) (p : Path) :
    (∃ fault, ∀ t', t.IsReordering t' → t'.list p = .error fault) ∨
      ∃ q, ∀ t', t.IsReordering t' → t'.list p = .ok (t'.namesBelow q) := by
  have same {t' : FileTree} (h : t.IsReordering t') :
      t'.resolve p = t.resolve p ∧ ∀ q, t'.find? q = t.find? q :=
    ⟨resolve_eq_of_find? (h.find? ht) p, h.find? ht⟩
  cases hp : t.resolve p with
  | error fault =>
    refine .inl ⟨fault, fun t' h => ?_⟩
    rw [FileTree.list, (same h).1, hp]
    rfl
  | ok q =>
    cases hq : t.find? q with
    | none =>
      refine .inl ⟨.noSuchFile, fun t' h => ?_⟩
      simp [FileTree.list, same h, hp, hq, bind, Except.bind]
    | some e =>
      cases e with
      | file content =>
        refine .inl ⟨.notDirectory, fun t' h => ?_⟩
        simp [FileTree.list, same h, hp, hq, bind, Except.bind]
      | directory =>
        refine .inr ⟨q, fun t' h => ?_⟩
        simp [FileTree.list, same h, hp, hq, bind, Except.bind]

/-- Whatever order is wanted of what the names in a directory contribute, some order of the entries
has it. -/
theorem exists_isReordering {β : Type} {f : String → Option β} {ys : List β}
    (h : ((t.namesBelow q).filterMap f).Perm ys) :
    ∃ t', t.IsReordering t' ∧ (t'.namesBelow q).filterMap f = ys := by
  simp only [namesBelow, List.filterMap_filterMap] at h ⊢
  obtain ⟨entries, hperm, hys⟩ := exists_perm_filterMap h
  exact ⟨⟨entries⟩, hperm, hys⟩

end FileTree

/-! ### Listings -/

namespace FileStore

variable {s : FileStore} {t t' : FileTree} {names : List String} {rs rs' : List Record}
  {fault : Fault} {answer : Except Fault (List Record)}

/-- What is read of the API in the directory of the given name; none if there is no record. -/
def recordAt? (s : FileStore) (t : FileTree) (name : String) : Option (Except Fault Record) :=
  if (t.run (Script.isFile (s.apis ++ [name, recordFile]))).1 then
    some (t.run (readRecordFile (s.apis ++ [name, recordFile]))).1
  else none

/-- What is read of all APIs, in the order in which their directories are enumerated. -/
def outcomes (s : FileStore) (t : FileTree) : List (Except Fault Record) :=
  match t.list s.apis with
  | .ok names => names.filterMap (s.recordAt? t)
  | .error _ => []

theorem outcomes_of_ok (h : t.list s.apis = .ok names) :
    s.outcomes t = names.filterMap (s.recordAt? t) := by
  rw [outcomes, h]

/-- The directories of the given names are read in their order. -/
theorem run_readAll_inOrder (names : List String) :
    t.run (s.readAll names) = (inOrder (names.filterMap (s.recordAt? t)), t) := by
  induction names with
  | nil => rfl
  | cons name names ih =>
    have hread : t.run (readRecordFile (s.apis ++ [name, recordFile])) =
        ((t.run (readRecordFile (s.apis ++ [name, recordFile]))).1, t) := by
      rw [run_readRecordFile]
    rw [readAll, FileTree.run_bind, List.filterMap_cons, recordAt?]
    by_cases hfile : (t.run (Script.isFile (s.apis ++ [name, recordFile]))).1 = true
    · rw [if_pos hfile, if_pos hfile]
      show t.run _ = _
      rw [FileTree.run_bind, hread]
      cases (t.run (readRecordFile (s.apis ++ [name, recordFile]))).1 with
      | error fault => rfl
      | ok r =>
        dsimp only
        rw [FileTree.run_bind, ih, inOrder]
        cases inOrder (names.filterMap (s.recordAt? t)) <;> rfl
    · rw [if_neg hfile, if_neg hfile]
      exact ih

theorem run_list_of_error {cause : SystemFault} (h : t.list s.apis = .error cause) :
    t.run s.list = (.error (.system cause), t) := by
  rw [FileStore.list, FileTree.run_bind, FileTree.run_list, h]
  rfl

/-- **A listing** is the first fault that is met, or else all records sorted. -/
theorem run_list_of_ok (h : t.list s.apis = .ok names) :
    t.run s.list = ((inOrder (s.outcomes t)).map (·.mergeSort Record.precedes), t) := by
  rw [FileStore.list, FileTree.run_bind, FileTree.run_list, h]
  dsimp only
  rw [FileTree.run_bind, run_readAll_inOrder, outcomes_of_ok h]
  cases inOrder (names.filterMap (s.recordAt? t)) <;> rfl

/-- The answers that agree with the files: the directory of all APIs cannot be listed, or one of the
records cannot be read, or all records are there, by name and then by identifier. -/
inductive MayList (s : FileStore) (t : FileTree) : Except Fault (List Record) → Prop
  | unlisted {cause : SystemFault} (closed : t.list s.apis = .error cause) :
      MayList s t (.error (.system cause))
  | unread {fault : Fault} (met : .error fault ∈ s.outcomes t) : MayList s t (.error fault)
  | listed {names : List String} {rs : List Record} (opened : t.list s.apis = .ok names)
      (all : (s.outcomes t).Perm (rs.map .ok))
      (sorted : rs.Pairwise fun a b => a.precedes b = true) : MayList s t (.ok rs)

/-- A listing agrees with the files. -/
theorem mayList_run (s : FileStore) (t : FileTree) : s.MayList t (t.run s.list).1 := by
  cases h : t.list s.apis with
  | error cause =>
    rw [run_list_of_error h]
    exact .unlisted h
  | ok names =>
    rw [run_list_of_ok h]
    cases hr : inOrder (s.outcomes t) with
    | error fault => exact .unread (mem_of_inOrder hr)
    | ok rs =>
      refine .listed h ?_ (List.pairwise_mergeSort Record.precedes_trans Record.precedes_total rs)
      rw [eq_map_ok_of_inOrder hr]
      exact ((List.mergeSort_perm ..).map _).symm

/-! ### In another order -/

theorem recordAt?_of_isReordering (h : t.IsReordering t') (ht : t.IsConsistent) :
    s.recordAt? t' = s.recordAt? t := by
  funext name
  simp only [recordAt?, FileTree.run_isFile, run_readRecordFile,
    FileTree.entryAt?_eq_of_find? (h.find? ht), FileTree.text_eq_of_find? (h.find? ht)]

/-- What agrees with the files does so in every order. -/
theorem MayList.of_isReordering (h : t.IsReordering t') (ht : t.IsConsistent)
    (hm : s.MayList t' answer) : s.MayList t answer := by
  rcases FileTree.list_cases ht s.apis with ⟨fault, hl⟩ | ⟨q, hl⟩
  · -- Nothing is listed in either order.
    have hnone : s.outcomes t' = [] := by rw [outcomes, hl t' h]
    cases hm with
    | unlisted closed =>
      cases (hl t' h).symm.trans closed
      exact .unlisted (hl t (.refl _))
    | unread met =>
      rw [hnone] at met
      cases met
    | listed opened => cases (hl t' h).symm.trans opened
  · have hperm : (s.outcomes t').Perm (s.outcomes t) := by
      rw [outcomes_of_ok (hl t (.refl _)), outcomes_of_ok (hl t' h), recordAt?_of_isReordering h ht]
      exact (h.symm.filterMap _).filterMap _
    cases hm with
    | unlisted closed => cases (hl t' h).symm.trans closed
    | unread met => exact .unread (hperm.mem_iff.1 met)
    | listed _ all sorted => exact .listed (hl t (.refl _)) (hperm.symm.trans all) sorted

/-- The outcomes can be met in any order. -/
theorem exists_outcomes_eq {ys : List (Except Fault Record)} (ht : t.IsConsistent)
    (opened : t.list s.apis = .ok names) (h : (s.outcomes t).Perm ys) :
    ∃ t', t.IsReordering t' ∧ (∃ names', t'.list s.apis = .ok names') ∧ s.outcomes t' = ys := by
  rcases FileTree.list_cases ht s.apis with ⟨fault, hl⟩ | ⟨q, hl⟩
  · cases (hl t (.refl _)).symm.trans opened
  · rw [outcomes_of_ok (hl t (.refl _))] at h
    obtain ⟨t', hreorder, hys⟩ := FileTree.exists_isReordering h
    refine ⟨t', hreorder, ⟨_, hl t' hreorder⟩, ?_⟩
    rw [outcomes_of_ok (hl t' hreorder), recordAt?_of_isReordering hreorder ht, hys]

/-- **The answers of all orders** are those that agree with the files. -/
theorem mayList_iff (ht : t.IsConsistent) :
    s.MayList t answer ↔ ∃ t', t.IsReordering t' ∧ (t'.run s.list).1 = answer := by
  constructor
  · intro hm
    cases hm with
    | unlisted closed => exact ⟨t, .refl _, by rw [run_list_of_error closed]⟩
    | @unread fault met =>
      obtain ⟨names, opened⟩ : ∃ names, t.list s.apis = .ok names := by
        cases hl : t.list s.apis with
        | error cause => simp [outcomes, hl] at met
        | ok names => exact ⟨names, rfl⟩
      obtain ⟨before, behind, hmet⟩ := List.append_of_mem met
      obtain ⟨t', h, ⟨names', opened'⟩, hfirst⟩ :=
        exists_outcomes_eq ht opened (hmet ▸ List.perm_middle)
      refine ⟨t', h, ?_⟩
      rw [run_list_of_ok opened', hfirst]
      rfl
    | @listed names rs opened all sorted =>
      obtain ⟨t', h, ⟨names', opened'⟩, hsorted⟩ := exists_outcomes_eq ht opened all
      refine ⟨t', h, ?_⟩
      rw [run_list_of_ok opened', hsorted, inOrder_map_ok]
      exact congrArg Except.ok (List.mergeSort_of_pairwise sorted)
  · rintro ⟨t', h, rfl⟩
    exact (mayList_run s t').of_isReordering h ht

/-- Only a directory that is listed has outcomes. -/
theorem exists_names {outcome : Except Fault Record} (h : outcome ∈ s.outcomes t) :
    ∃ names, t.list s.apis = .ok names := by
  cases hl : t.list s.apis with
  | error cause => simp [outcomes, hl] at h
  | ok names => exact ⟨names, rfl⟩

/-- Two answers to a listing that differ in the fault, if at all, or in records that have the same
name and the same identifier. -/
def Alike : Except Fault (List Record) → Except Fault (List Record) → Prop
  | .ok rs, .ok rs' => rs.Perm rs' ∧ rs.map Record.key = rs'.map Record.key
  | .error _, .error _ => True
  | _, _ => False

/-- Answers that agree with the files are alike. -/
theorem MayList.alike {answer' : Except Fault (List Record)} (hm : s.MayList t answer)
    (hm' : s.MayList t answer') : Alike answer answer' := by
  have not_listed {fault : Fault} {rs : List Record} (met : .error fault ∈ s.outcomes t)
      (all : (s.outcomes t).Perm (rs.map .ok)) : False := by
    simpa using all.mem_iff.1 met
  cases hm with
  | unlisted closed =>
    cases hm' with
    | unlisted | unread => trivial
    | listed opened => cases closed.symm.trans opened
  | unread met =>
    cases hm' with
    | unlisted | unread => trivial
    | listed _ all => exact not_listed met all
  | listed opened all sorted =>
    cases hm' with
    | unlisted closed => cases closed.symm.trans opened
    | unread met => exact not_listed met all
    | listed _ all' sorted' =>
      have hperm := perm_of_map_ok (all.symm.trans all')
      exact ⟨hperm, Record.map_key_eq hperm sorted sorted'⟩

/-! ### Ties -/

/-- The files leave no choice between different answers: all records that cannot be read have the
same fault, and if there are none, records with the same name and the same identifier are equal. -/
structure IsSettled (s : FileStore) (t : FileTree) : Prop where
  faults : ∀ fault fault', .error fault ∈ s.outcomes t → .error fault' ∈ s.outcomes t →
    fault = fault'
  ties : (∀ fault, .error fault ∉ s.outcomes t) →
    ∀ a b : Record, .ok a ∈ s.outcomes t → .ok b ∈ s.outcomes t → a.key = b.key → a = b

/-- Without faults, the outcomes are the records. -/
theorem exists_outcomes_eq_map (h : ∀ fault, .error fault ∉ s.outcomes t) :
    ∃ rs : List Record, s.outcomes t = rs.map .ok := by
  cases hr : inOrder (s.outcomes t) with
  | error fault => exact absurd (mem_of_inOrder hr) (h fault)
  | ok rs => exact ⟨rs, eq_map_ok_of_inOrder hr⟩

/-- Where the files leave no choice, there is one answer. -/
theorem IsSettled.unique {answer' : Except Fault (List Record)} (h : s.IsSettled t)
    (hm : s.MayList t answer) (hm' : s.MayList t answer') : answer = answer' := by
  have halike := hm.alike hm'
  cases hm with
  | unlisted closed =>
    cases hm' with
    | unlisted closed' => cases closed.symm.trans closed'; rfl
    | unread met =>
      obtain ⟨names, opened⟩ := exists_names met
      cases closed.symm.trans opened
    | listed => exact halike.elim
  | unread met =>
    cases hm' with
    | unlisted closed =>
      obtain ⟨names, opened⟩ := exists_names met
      cases closed.symm.trans opened
    | unread met' => rw [h.faults _ _ met met']
    | listed => exact halike.elim
  | @listed _ rs _ all sorted =>
    cases hm' with
    | unlisted | unread => exact halike.elim
    | @listed _ rs' _ _ sorted' =>
      have hmem {r : Record} : .ok r ∈ s.outcomes t ↔ r ∈ rs := by simp [all.mem_iff]
      have hfaults : ∀ fault, .error fault ∉ s.outcomes t := by simp [all.mem_iff]
      -- Records that precede each other have the same key, so they are equal.
      have hanti : ∀ a b, a ∈ rs → b ∈ rs' → a.precedes b = true → b.precedes a = true → a = b :=
        fun a b ha hb hab hba => h.ties hfaults a b (hmem.2 ha)
          (hmem.2 (halike.1.mem_iff.2 hb)) (Record.key_eq_of_precedes hab hba)
      rw [halike.1.eq_of_pairwise hanti sorted sorted']

/-- Any order of the records may be sorted. -/
theorem mayList_mergeSort (opened : t.list s.apis = .ok names) (h : s.outcomes t = rs.map .ok)
    (hperm : rs.Perm rs') : s.MayList t (.ok (rs'.mergeSort Record.precedes)) := by
  refine .listed opened ?_ (List.pairwise_mergeSort Record.precedes_trans Record.precedes_total rs')
  rw [h]
  exact (hperm.trans (List.mergeSort_perm ..).symm).map _

/-- **Where there is one answer, the files leave no choice.** -/
theorem isSettled_of_unique (h : ∀ x y, s.MayList t x → s.MayList t y → x = y) : s.IsSettled t where
  faults fault fault' met met' := by
    cases h _ _ (.unread met) (.unread met')
    rfl
  ties hfaults a b ha hb htie := by
    obtain ⟨names, opened⟩ := exists_names ha
    obtain ⟨rs, hrs⟩ := exists_outcomes_eq_map hfaults
    -- Either of the two may come first of all, and then it comes first among those with its key.
    have first : ∀ r : Record, .ok r ∈ s.outcomes t → ∃ rs' : List Record,
        s.MayList t (.ok rs') ∧ (rs'.filter (·.key = r.key)).head? = some r := by
      intro r hr
      have hmem : r ∈ rs := by simpa [hrs] using hr
      obtain ⟨before, behind, rfl⟩ := List.append_of_mem hmem
      refine ⟨_, mayList_mergeSort opened hrs List.perm_middle, ?_⟩
      rw [Record.filter_mergeSort, List.filter_cons_of_pos (by simp)]
      rfl
    obtain ⟨as, has, hfirst⟩ := first a ha
    obtain ⟨bs, hbs, hfirst'⟩ := first b hb
    cases h _ _ has hbs
    rw [htie, hfirst'] at hfirst
    exact (Option.some.inj hfirst).symm

/-! ### The default API -/

/-- The first API of a listing. -/
def firstOf : Except Fault (List Record) → Except Fault Record
  | .error fault => .error fault
  | .ok [] => .error (.apiNotFound "(none registered)")
  | .ok (r :: _) => .ok r

theorem run_list_tree : (t.run s.list).2 = t := by
  cases h : t.list s.apis with
  | error cause => rw [run_list_of_error h]
  | ok names => rw [run_list_of_ok h]

theorem run_firstRecord : t.run (Command.firstRecord s) = (firstOf (t.run s.list).1, t) := by
  have hrun : t.run s.list = ((t.run s.list).1, t) := Prod.ext rfl run_list_tree
  rw [Command.firstRecord, FileTree.run_bind, hrun]
  rcases (t.run s.list).1 with fault | ⟨_ | ⟨r, rs⟩⟩ <;> rfl

/-- Listings that are alike begin with records that have the same key. -/
theorem exists_firstOf {answer' : Except Fault (List Record)} {r : Record}
    (h : Alike answer answer') (hr : firstOf answer = .ok r) :
    ∃ r', firstOf answer' = .ok r' ∧ r'.key = r.key := by
  rcases answer with fault | ⟨_ | ⟨r, rs⟩⟩
  · cases hr
  · cases hr
  · cases hr
    rcases answer' with fault | ⟨_ | ⟨r', rs'⟩⟩
    · exact h.elim
    · cases h.2
    · exact ⟨r', rfl, (List.cons.inj h.2).1.symm⟩

/-- **Listing depends on the order of directories for ties and faults only.** The answers in all
orders are those that agree with the files, and any two of them are alike: both are faults, or both
hold the same records, with the same names and identifiers in the same places. There is only one
answer, and hence only one default API, exactly if the files are settled. The default API has the
same name and the same identifier in all orders. -/
theorem listing_is_settled_up_to_ties (s : FileStore) (t : FileTree) (ht : t.IsConsistent) :
    (∀ answer, s.MayList t answer ↔ ∃ t', t.IsReordering t' ∧ (t'.run s.list).1 = answer) ∧
      (∀ t', t.IsReordering t' → Alike (t.run s.list).1 (t'.run s.list).1) ∧
      ((∀ t', t.IsReordering t' → (t'.run s.list).1 = (t.run s.list).1) ↔ s.IsSettled t) ∧
      ∀ t', t.IsReordering t' →
        (s.IsSettled t → (t'.run (Command.firstRecord s)).1 = (t.run (Command.firstRecord s)).1) ∧
        ∀ r, (t.run (Command.firstRecord s)).1 = .ok r →
          ∃ r', (t'.run (Command.firstRecord s)).1 = .ok r' ∧ r'.key = r.key := by
  have answers {t' : FileTree} (h : t.IsReordering t') : s.MayList t (t'.run s.list).1 :=
    (mayList_iff ht).2 ⟨t', h, rfl⟩
  have same (hs : s.IsSettled t) {t' : FileTree} (h : t.IsReordering t') :
      (t'.run s.list).1 = (t.run s.list).1 := hs.unique (answers h) (mayList_run s t)
  have alike {t' : FileTree} (h : t.IsReordering t') :
      Alike (t.run s.list).1 (t'.run s.list).1 := (mayList_run s t).alike (answers h)
  refine ⟨fun _ => mayList_iff ht, fun t' => alike, ⟨fun h => ?_, fun hs t' => same hs⟩,
    fun t' h => ⟨fun hs => ?_, fun r hr => ?_⟩⟩
  · refine isSettled_of_unique fun x y hx hy => ?_
    obtain ⟨t₁, h₁, rfl⟩ := (mayList_iff ht).1 hx
    obtain ⟨t₂, h₂, rfl⟩ := (mayList_iff ht).1 hy
    rw [h t₁ h₁, h t₂ h₂]
  · rw [run_firstRecord, run_firstRecord, same hs h]
  · rw [run_firstRecord] at hr ⊢
    exact exists_firstOf (alike h) hr

/-! ### Two directories -/

/-- Two directories with a record each, enumerated in this order; every directory is given by its
name and the text of the record. -/
def pair (x y : String × String) : FileTree :=
  ⟨[(["apis"], .directory), (["apis", x.1], .directory), (["apis", y.1], .directory),
    (["apis", x.1, recordFile], .file x.2.toUTF8), (["apis", y.1, recordFile], .file y.2.toUTF8)]⟩

theorem isReordering_pair (x y : String × String) : (pair x y).IsReordering (pair y x) :=
  .cons _ ((List.Perm.swap ..).trans (.cons _ (.cons _ (.swap ..))))

theorem isConsistent_pair {x y : String × String} (h : x.1 ≠ y.1) : (pair x y).IsConsistent := by
  simp [FileTree.IsConsistent, pair, h]

/-- Both directories are met, in their order. -/
theorem run_list_pair {x y : String × String} (hx : IsPlain x.1 ∧ IsUsable x.1)
    (hy : IsPlain y.1 ∧ IsUsable y.1) (h : x.1 ≠ y.1) :
    (∃ names, (pair x y).list (FileStore.mk []).apis = .ok names) ∧
      (FileStore.mk []).outcomes (pair x y) =
        [(Record.ofText x.2).mapError .json, (Record.ofText y.2).mapError .json] := by
  have apis : (pair x y).resolve ["apis"] = .ok ["apis"] :=
    (FileTree.resolve_snoc_iff (p := []) (by constructor <;> decide)).2
      ⟨by constructor <;> decide, [], rfl, rfl, rfl⟩
  have place {name : String} (hn : IsPlain name ∧ IsUsable name)
      (hd : (pair x y).find? ["apis", name] = some .directory) :
      (pair x y).resolve ["apis", name, recordFile] = .ok ["apis", name, recordFile] := by
    have hname : (pair x y).resolve ["apis", name] = .ok ["apis", name] :=
      (FileTree.resolve_snoc_iff (p := ["apis"]) hn.1).2 ⟨hn.2, ["apis"], apis, rfl, rfl⟩
    exact (FileTree.resolve_snoc_iff (p := ["apis", name]) isPlain_recordFile).2
      ⟨isUsable_recordFile, _, hname, hd, rfl⟩
  have record {name : String} (text : String) (hn : IsPlain name ∧ IsUsable name)
      (hd : (pair x y).find? ["apis", name] = some .directory)
      (hf : (pair x y).find? ["apis", name, recordFile] = some (.file text.toUTF8)) :
      (FileStore.mk []).recordAt? (pair x y) name =
        some ((Record.ofText text).mapError .json) := by
    have hfile : (pair x y).entryAt? ["apis", name, recordFile] = some (.file text.toUTF8) := by
      rw [FileTree.entryAt?_of_resolve (place hn hd), hf]
    have htext : (pair x y).text ["apis", name, recordFile] = .ok text :=
      FileTree.text_eq_ok_iff.2 (FileTree.bytes_eq_ok_iff.2 ⟨_, place hn hd, hf⟩)
    simp only [recordAt?, FileStore.apis, List.nil_append, List.cons_append, FileTree.run_isFile,
      hfile, if_true, run_readRecordFile, htext]
    cases Record.ofText text <;> rfl
  have listed : (pair x y).list (FileStore.mk []).apis = .ok [x.1, y.1] := by
    show (pair x y).list ["apis"] = _
    rw [FileTree.list, apis]
    rfl
  have hne : (y.1 == x.1) = false := by simpa using Ne.symm h
  have hfirst := record x.2 hx (by simp [pair, FileTree.find?, List.lookup_cons])
    (by simp [pair, FileTree.find?, List.lookup_cons])
  have hsecond := record y.2 hy (by simp [pair, FileTree.find?, List.lookup_cons, hne])
    (by simp [pair, FileTree.find?, List.lookup_cons, hne])
  refine ⟨⟨_, listed⟩, ?_⟩
  rw [outcomes_of_ok listed, List.filterMap_cons, List.filterMap_cons, List.filterMap_nil, hfirst,
    hsecond]

/-- Directories can be called `a` and `b`. -/
theorem isPlain_isUsable_ab : (IsPlain "a" ∧ IsUsable "a") ∧ IsPlain "b" ∧ IsUsable "b" := by
  refine ⟨⟨?_, ?_⟩, ?_, ?_⟩ <;> constructor <;> decide

/-- A record as it was created. -/
def original : Record := .fresh "x" "N" ⟨⟨2020, 1, 1⟩, 0, 0, 0, 0⟩

/-- The record in a copy of its directory that was edited by hand. -/
def copy : Record := { original with lifecycle := "PUBLISHED" }

theorem run_list_copied {x y : String} (hx : IsPlain x ∧ IsUsable x) (hy : IsPlain y ∧ IsUsable y)
    (h : x ≠ y) {a b : Record} (ha : a = original ∨ a = copy) (hb : b = original ∨ b = copy) :
    ((pair (x, a.toText) (y, b.toText)).run (FileStore.mk []).list).1 = .ok [a, b] := by
  obtain ⟨⟨names, listed⟩, houtcomes⟩ :=
    run_list_pair (x := (x, a.toText)) (y := (y, b.toText)) hx hy h
  have valid {r : Record} (hr : r = original ∨ r = copy) : Record.ofText r.toText = .ok r := by
    refine Record.ofText_toText ?_
    rcases hr with rfl | rfl <;> decide
  have sorted : [a, b].Pairwise fun a b => a.precedes b = true := by
    rcases ha with rfl | rfl <;> rcases hb with rfl | rfl <;> decide
  rw [run_list_of_ok listed, houtcomes, valid ha, valid hb]
  show Except.ok ([a, b].mergeSort Record.precedes) = _
  rw [List.mergeSort_of_pairwise sorted]

/-- **The order of directories shows**, in two trees. Where two records cannot be read, a listing
complains of the one that is met first, and where a directory was copied, the default API is the one
that is met first. -/
theorem order_of_directories_shows :
    let unlike := pair ("a", "\x7b\x7d") ("b", "")
    let unlike' := pair ("b", "") ("a", "\x7b\x7d")
    let copied := pair ("a", original.toText) ("b", copy.toText)
    let copied' := pair ("b", copy.toText) ("a", original.toText)
    (unlike.IsConsistent ∧ unlike.IsReordering unlike' ∧
        (unlike.run (FileStore.mk []).list).1 = .error (.json ⟨.missingField "id", ⟨1, 2⟩⟩) ∧
        (unlike'.run (FileStore.mk []).list).1 = .error (.json ⟨.endOfValue, ⟨1, 0⟩⟩)) ∧
      copied.IsConsistent ∧ copied.IsReordering copied' ∧
        (copied.run (Command.firstRecord ⟨[]⟩)).1 = .ok original ∧
        (copied'.run (Command.firstRecord ⟨[]⟩)).1 = .ok copy := by
  obtain ⟨ha, hb⟩ := isPlain_isUsable_ab
  intro unlike unlike' copied copied'
  refine ⟨⟨isConsistent_pair (by decide), isReordering_pair _ _, ?_, ?_⟩,
    isConsistent_pair (by decide), isReordering_pair _ _, ?_, ?_⟩
  · obtain ⟨⟨names, listed⟩, houtcomes⟩ :=
      run_list_pair (x := ("a", "\x7b\x7d")) (y := ("b", "")) ha hb (by decide)
    rw [run_list_of_ok listed, houtcomes]
    rfl
  · obtain ⟨⟨names, listed⟩, houtcomes⟩ :=
      run_list_pair (x := ("b", "")) (y := ("a", "\x7b\x7d")) hb ha (by decide)
    rw [run_list_of_ok listed, houtcomes]
    rfl
  · rw [run_firstRecord, run_list_copied ha hb (by decide) (.inl rfl) (.inr rfl)]
    rfl
  · rw [run_firstRecord, run_list_copied hb ha (by decide) (.inr rfl) (.inl rfl)]
    rfl

/-- The copied directory leaves a choice, so there is an order with another answer. The name and the
identifier of the default API are the same in all orders. -/
theorem listing_is_settled_up_to_a_copy :
    let copied := pair ("a", original.toText) ("b", copy.toText)
    copied.IsConsistent ∧
      (∃ t', copied.IsReordering t' ∧
        (t'.run (FileStore.mk []).list).1 ≠ (copied.run (FileStore.mk []).list).1) ∧
      ∀ t', copied.IsReordering t' →
        ∃ r, (t'.run (Command.firstRecord ⟨[]⟩)).1 = .ok r ∧ r.key = original.key := by
  intro copied
  obtain ⟨ha, hb⟩ := isPlain_isUsable_ab
  have consistent : copied.IsConsistent := isConsistent_pair (by decide)
  obtain ⟨-, -, settled, default⟩ := listing_is_settled_up_to_ties ⟨[]⟩ copied consistent
  have hlist := run_list_copied ha hb (by decide) (.inl rfl) (.inr rfl)
  refine ⟨consistent, ?_, fun t' h => (default t' h).2 original ?_⟩
  · by_contra hsame
    push Not at hsame
    have hwrong := hsame _ (isReordering_pair _ _)
    rw [hlist, run_list_copied hb ha (by decide) (.inr rfl) (.inl rfl)] at hwrong
    have hcopy : copy = original := (List.cons.inj (Except.ok.inj hwrong)).1
    exact absurd hcopy (by decide)
  · rw [run_firstRecord, hlist]
    rfl

end FileStore

end Storage

end PublisherConsole
