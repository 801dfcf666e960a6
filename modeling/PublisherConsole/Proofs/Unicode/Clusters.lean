import PublisherConsole.Proofs.Unicode.PlainText
import PublisherConsole.Proofs.Unicode.Tables

/-!
# Dividing a text between its characters

The user-perceived characters of a text, put together, are the text (`flatten_clusters`). Whether one
of them ends is decided by what was read of it and by the next code point, so a text that is divided
between two of them falls into two texts with the same characters (`IsBoundary.clusters_eq`).
-/

namespace PublisherConsole.Unicode

variable {cs : List Char} {n : Nat}

theorem flatten_clustersFrom (s : ClusterState) (done cs : List Char) :
    (clustersFrom s done cs).flatten = done.reverse ++ cs := by
  induction cs generalizing s done with
  | nil => simp [clustersFrom]
  | cons c cs ih =>
    simp only [clustersFrom]
    split
    · simp [ih]
    · simp [ih]

/-- **The user-perceived characters of a text, put together, are the text.** -/
theorem flatten_clusters (cs : List Char) : (clusters cs).flatten = cs := by
  cases cs with
  | nil => rfl
  | cons c cs => simp [clusters, flatten_clustersFrom]

/-- Behind the end of a character the text is read as if nothing were in front of it. -/
theorem exists_of_clustersFrom {s : ClusterState} {done : List Char} {before after : List (List Char)}
    (h : clustersFrom s done cs = before ++ after) (some : before ≠ []) :
    ∃ front behind, cs = front ++ behind ∧ clustersFrom s done front = before ∧
      clusters behind = after := by
  induction cs generalizing s done before with
  | nil =>
    obtain ⟨first, before, rfl⟩ := List.exists_cons_of_ne_nil some
    simp only [clustersFrom, List.cons_append, List.cons.injEq, List.nil_eq,
      List.append_eq_nil_iff] at h
    obtain ⟨rfl, rfl, rfl⟩ := h
    exact ⟨[], [], rfl, rfl, rfl⟩
  | cons c cs ih =>
    simp only [clustersFrom] at h
    split at h
    next joins =>
      obtain ⟨front, behind, rfl, hfront, hbehind⟩ := ih h some
      exact ⟨c :: front, behind, rfl, by simp [clustersFrom, joins, hfront], hbehind⟩
    next ends =>
      obtain ⟨first, before, rfl⟩ := List.exists_cons_of_ne_nil some
      simp only [List.cons_append, List.cons.injEq] at h
      obtain ⟨rfl, htail⟩ := h
      cases before with
      | nil => exact ⟨[], c :: cs, rfl, rfl, htail⟩
      | cons next before =>
        obtain ⟨front, behind, rfl, hfront, hbehind⟩ := ih htail (List.cons_ne_nil _ _)
        exact ⟨c :: front, behind, rfl, by simp [clustersFrom, ends, hfront], hbehind⟩

/-- A place in a text between two user-perceived characters, or at one of its ends. -/
def IsBoundary (cs : List Char) (n : Nat) : Prop :=
  ∃ before after, clusters cs = before ++ after ∧ before.flatten = cs.take n

/-- **A text that is divided between two characters** has those of the two parts. -/
theorem IsBoundary.clusters_eq (h : IsBoundary cs n) :
    clusters cs = clusters (cs.take n) ++ clusters (cs.drop n) := by
  obtain ⟨before, after, hclusters, hfront⟩ := h
  have hparts : ∃ front behind, cs = front ++ behind ∧ clusters front = before ∧
      clusters behind = after := by
    cases before with
    | nil => exact ⟨[], cs, rfl, rfl, hclusters⟩
    | cons first before =>
      cases cs with
      | nil => cases hclusters
      | cons c cs =>
        obtain ⟨front, behind, rfl, hfront, hbehind⟩ :=
          exists_of_clustersFrom hclusters (List.cons_ne_nil _ _)
        exact ⟨c :: front, behind, rfl, hfront, hbehind⟩
  obtain ⟨front, behind, rfl, rfl, rfl⟩ := hparts
  rw [flatten_clusters] at hfront
  have hbehind : behind = (front ++ behind).drop n := by
    have hboth := List.take_append_drop n (front ++ behind)
    rw [← hfront] at hboth
    exact (List.append_cancel_left hboth).symm
  rw [← hfront, ← hbehind]
  exact hclusters

/-- A tab is no part of the character behind it. -/
theorem clusters_tab_cons (h : ∀ c ∈ cs, IsPlain c) :
    clusters ('\t' :: cs) = ['\t'] :: clusters cs := by
  cases cs with
  | nil => rfl
  | cons c cs =>
    have hclass : clusterClass c = .other := (h c (by simp)).clusterClass
    rw [clusters, clusters, clustersFrom, clusterClass_tab, hclass]
    rfl

/-- In front of plain text a tab takes a cell. -/
theorem textWidth_tab_cons (h : ∀ c ∈ cs, IsPlain c) : textWidth ('\t' :: cs) = cs.length + 1 := by
  have hlone : ∀ c ∈ cs, IsLone c := fun c hc => (h c hc).isLone
  have htab : widthBefore '\t' .plain = (1, .plain) := widthBefore_of_lt (by decide) (by decide)
  rw [textWidth, widthFold_cons, widthFold_of_isLone hlone, htab, ← textWidth_of_isLone hlone,
    textWidth_of_isPlain h]
  rfl

end PublisherConsole.Unicode
