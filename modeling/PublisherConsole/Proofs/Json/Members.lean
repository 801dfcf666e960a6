import PublisherConsole.Proofs.Json.Decoding

/-!
# The members of an object that a record is read from

A record whose fields do not touch each other (`Shape.Apart`) is read the same whatever the order of
its members is (`Shape.gather_perm`), and members that no field has the key of may stand anywhere among
them (`Shape.gather_unknown`).
-/

namespace PublisherConsole.Json

variable {α σ : Type}

namespace Shape

/-- Every field keeps to its own part of the record. -/
structure Apart (s : Shape σ α) (put : String → SyntaxTree → Option (σ → σ)) : Prop where
  /-- A field that has been read counts as given. -/
  marks : ∀ field ∈ s.fields, ∀ {t set}, put field.name t = some set → ∀ done,
    field.given (set done) = true
  /-- Reading one field gives no other one. -/
  keeps : ∀ field ∈ s.fields, ∀ other ∈ s.fields, field.name ≠ other.name →
    ∀ {t set}, put field.name t = some set → ∀ done, other.given (set done) = other.given done
  /-- Two fields may be read in either order. -/
  comm : ∀ field ∈ s.fields, ∀ other ∈ s.fields, field.name ≠ other.name →
    ∀ {t u set set'}, put field.name t = some set → put other.name u = some set' →
      ∀ done, set (set' done) = set' (set done)

variable {s : Shape σ α} {put : String → SyntaxTree → Option (σ → σ)} {done : σ}
  {key : List Glyph} {name : String} {t : SyntaxTree} {ms ms' before after : Members}

theorem field?_eq_some {field : Field σ} (h : s.field? name = some field) :
    field ∈ s.fields ∧ field.name = name :=
  ⟨List.mem_of_find?_eq_some h, by simpa using List.find?_some h⟩

/-- A member whose key is the name of no field changes nothing. -/
theorem step_unknown (hkey : text? key = some name) (hname : s.field? name = none) :
    s.step put done (key, t) = some done := by
  simp [step, hkey, hname]

/-- A member whose key is the name of a field is read into that field, once. -/
theorem step_known {field : Field σ} (hkey : text? key = some name)
    (hname : s.field? name = some field) :
    s.step put done (key, t) = if field.given done then none else (put name t).map (· done) := by
  simp [step, hkey, hname]

/-- Two members may be read in either order. -/
theorem Apart.step_comm (h : s.Apart put) (done : σ) (m n : List Glyph × SyntaxTree) :
    ((s.step put done m).bind fun done => s.step put done n) =
      (s.step put done n).bind fun done => s.step put done m := by
  obtain ⟨key, t⟩ := m
  obtain ⟨key', u⟩ := n
  cases hkey : text? key with
  | none => simp [step, hkey]
  | some name =>
  cases hkey' : text? key' with
  | none => simp [step, hkey']
  | some name' =>
  cases hname : s.field? name with
  | none => simp [step_unknown hkey hname]
  | some field =>
  cases hname' : s.field? name' with
  | none => simp [step_unknown hkey' hname']
  | some other =>
  simp only [step_known hkey hname, step_known hkey' hname']
  obtain ⟨hmem, rfl⟩ := field?_eq_some hname
  obtain ⟨hmem', rfl⟩ := field?_eq_some hname'
  by_cases hsame : field.name = other.name
  · obtain rfl : field = other := Option.some.inj (hname.symm.trans (hsame ▸ hname'))
    -- A field that is given twice is refused, whichever of the members comes first.
    cases hput : put field.name t with
    | none => cases hput' : put field.name u <;> split <;> simp
    | some set =>
    cases hput' : put field.name u with
    | none => split <;> simp
    | some set' =>
      have hmarks := h.marks field hmem hput done
      have hmarks' := h.marks field hmem hput' done
      split <;> simp [hmarks, hmarks']
  · have hkeep {v set} (hput : put field.name v = some set) :
        other.given (set done) = other.given done := h.keeps field hmem other hmem' hsame hput done
    have hkeep' {v set} (hput : put other.name v = some set) :
        field.given (set done) = field.given done :=
      h.keeps other hmem' field hmem (Ne.symm hsame) hput done
    cases hput : put field.name t with
    | none => cases hput' : put other.name u <;> simp
    | some set =>
    cases hput' : put other.name u with
    | none => simp
    | some set' =>
      have hcomm := h.comm field hmem other hmem' hsame hput hput' done
      by_cases hgiven : field.given done = true <;> by_cases hgiven' : other.given done = true <;>
        simp [hgiven, hgiven', hkeep hput, hkeep' hput', hcomm]

/-- **The order of the members does not matter.** -/
theorem gather_perm (h : s.Apart put) (hp : ms.Perm ms') :
    s.gather put done ms = s.gather put done ms' := by
  induction hp generalizing done with
  | nil => rfl
  | cons m _ ih =>
    simp only [gather, List.foldlM_cons]
    exact congrArg _ (funext fun _ => ih)
  | swap m n ms =>
    simp only [gather, List.foldlM_cons, Option.bind_eq_bind, ← Option.bind_assoc]
    rw [h.step_comm done n m]
  | trans _ _ ih ih' => rw [ih, ih']

/-- **Members that no field has the key of do not matter.** -/
theorem gather_unknown (hkey : text? key = some name) (hname : s.field? name = none) :
    s.gather put done (before ++ (key, t) :: after) = s.gather put done (before ++ after) := by
  have hstep (done : σ) : s.step put done (key, t) = some done := by simp [step, hkey, hname]
  simp only [gather, List.foldlM_append, List.foldlM_cons, hstep]
  rfl

/-- A member's value may be exchanged for one in which its field finds the same. -/
theorem gather_value {u : SyntaxTree} (hkey : text? key = some name) (hput : put name t = put name u) :
    s.gather put done (before ++ (key, t) :: after) =
      s.gather put done (before ++ (key, u) :: after) := by
  have hstep (done : σ) : s.step put done (key, t) = s.step put done (key, u) := by
    simp [step, hkey, hput]
  simp only [gather, List.foldlM_append, List.foldlM_cons, hstep]

end Shape

end PublisherConsole.Json
