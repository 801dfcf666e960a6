import PublisherConsole.Proofs.Outcome
import PublisherConsole.Json.Shape

/-!
# What reading keeps

What is read passes the checks of its readers, wherever it stands in the text: a string that is
converted has passed the conversion (`exists_of_readTextAs`), a number that is read into 64 bits
fits them (`le_of_readNat64`), and what every field of a shape keeps holds of the fields of a record
that has been read as a whole (`Shape.Keeps.exists_of_read`), be it written as an object, with its
members in any order and others between them, or as a list.
-/

namespace PublisherConsole.Json

variable {α σ : Type} {a : α} {c c' : Cursor}

/-! ### Readers -/

/-- A value of the wrong kind is never read. -/
theorem failWrongType_ne_ok (expected : String) : failWrongType expected c ≠ .ok a := by
  intro h
  unfold failWrongType at h
  split at h
  case h_7 =>
    split at h
    · obtain ⟨_, -, h⟩ := bind_eq_ok h
      cases h
    · cases h
  case h_5 | h_6 | h_8 => cases h
  all_goals
    obtain ⟨_, -, h⟩ := bind_eq_ok h
    cases h

/-- A reader that goes by the first character of its value reads it behind the blanks. -/
theorem exists_of_onValue {k : Char → Reader α} (h : onValue k c = .ok (a, c')) :
    ∃ x, k x c.skipBlanks = .ok (a, c') := by
  unfold onValue at h
  dsimp only at h
  split at h
  next x _ => exact ⟨x, h⟩
  next => cases h

/-- What is read from a string has passed its check. -/
theorem exists_of_readTextAs {expected : String} {check : String → Except Fault α}
    (h : readTextAs expected check c = .ok (a, c')) : ∃ s, check s = .ok a := by
  obtain ⟨x, h⟩ := exists_of_onValue h
  split at h
  · obtain ⟨⟨s, c₁⟩, -, h⟩ := bind_eq_ok h
    dsimp only at h
    split at h
    next b hb =>
      cases h
      exact ⟨s, hb⟩
    next => cases h
  · exact absurd h (failWrongType_ne_ok expected)

theorem exists_of_readWhole {r : Reader α} {text : String} (h : readWhole r text = .ok a) :
    ∃ c', r (Cursor.start text) = .ok (a, c') := by
  obtain ⟨⟨b, c₁⟩, hb, h⟩ := bind_eq_ok h
  dsimp only at h
  split at h
  · cases h
    exact ⟨c₁, hb⟩
  · cases h

/-! ### Numbers -/

section Numbers

variable {k significand : Nat} {positive : Bool}

/-- A number with a point or an exponent is no natural number. -/
theorem floatOfParts_ne {e : Int} :
    floatOfParts positive significand e c ≠ .ok (.natural k, c') := by
  unfold floatOfParts
  split <;> simp [Cursor.fail]

theorem readExponent_ne {e : Int} :
    readExponent positive significand e c ≠ .ok (.natural k, c') := by
  unfold readExponent
  dsimp only
  split
  · simp [Cursor.fail]
  · split
    · split
      · exact floatOfParts_ne
      · split <;> simp [Cursor.fail]
    · simp

theorem readFraction_ne {e : Int} :
    readFraction positive significand e c ≠ .ok (.natural k, c') := by
  unfold readFraction
  dsimp only
  split
  · simp [Cursor.fail]
  · split
    · unfold afterFraction
      split
      · exact readExponent_ne
      · exact readExponent_ne
      · exact floatOfParts_ne
    · simp [Cursor.failNext]

theorem afterLongInteger_ne {e : Nat} :
    afterLongInteger positive significand e c ≠ .ok (.natural k, c') := by
  unfold afterLongInteger
  split
  · exact readFraction_ne
  · exact readExponent_ne
  · exact readExponent_ne
  · exact floatOfParts_ne

theorem eq_of_afterInteger (h : afterInteger positive significand c = .ok (.natural k, c')) :
    k = significand := by
  unfold afterInteger at h
  split at h
  · exact absurd h readFraction_ne
  · exact absurd h readExponent_ne
  · exact absurd h readExponent_ne
  · split at h
    · cases h
      rfl
    · split at h <;> cases h

/-- The digits of an integer are only read as long as the number stays exact. -/
theorem integerDigits_le {n : Nat} (hn : n ≤ maxExact) (cs : List Char) (p : Place) :
    (integerDigits cs p n).1.1 ≤ maxExact := by
  induction cs generalizing n p with
  | nil => exact hn
  | cons x cs ih =>
    unfold integerDigits
    split
    · split
      · exact hn
      next hfits => exact ih (Nat.not_lt.1 hfits) _
    · exact hn

theorem digitValue_le {x : Char} (h : x.isDigit = true) : digitValue x ≤ maxExact := by
  have hx : x.toNat ≤ '9'.toNat := by
    simp only [Char.isDigit, Bool.and_eq_true, decide_eq_true_eq] at h
    exact h.2
  have h9 : '9'.toNat = 57 := rfl
  have h0 : '0'.toNat = 48 := rfl
  rw [digitValue, maxExact]
  omega

theorem le_of_readUnsigned (h : readUnsigned positive c = .ok (.natural k, c')) : k ≤ maxExact := by
  unfold readUnsigned at h
  dsimp only at h
  split at h
  · cases h
  next x cs _ =>
    split at h
    · have hzero : k = 0 := by
        split at h
        · split at h
          · cases h
          · exact eq_of_afterInteger h
        · exact eq_of_afterInteger h
      omega
    · split at h
      next hdigit =>
        have hle := integerDigits_le (digitValue_le hdigit) c.next.rest c.next.place
        split at h
        next n c₁ hn =>
          rw [hn] at hle
          exact eq_of_afterInteger h ▸ hle
        · exact absurd h afterLongInteger_ne
      · cases h

/-- **A number that is read into 64 bits fits them.** -/
theorem le_of_readNat64 (h : readNat64 c = .ok (k, c')) : k ≤ maxExact := by
  obtain ⟨x, h⟩ := exists_of_onValue h
  split at h
  · obtain ⟨⟨n, c₁⟩, hnumber, h⟩ := bind_eq_ok h
    dsimp only at h
    split at h
    next m =>
      cases h
      unfold readNumber at hnumber
      split at hnumber
      · exact le_of_readUnsigned hnumber
      · exact le_of_readUnsigned hnumber
    · cases h
    · cases h
  · exact absurd h (failWrongType_ne_ok "u64")

end Numbers

/-! ### Records -/

namespace Shape

variable {s : Shape σ α} {Q : σ → Prop} {done done' : σ}

/-- What the fields keep, whichever of them is read. -/
def Keeps (s : Shape σ α) (Q : σ → Prop) : Prop :=
  ∀ field ∈ s.fields, ∀ done done' c c', Q done → field.read done c = .ok (done', c') → Q done'

/-- The members of an object keep it. -/
theorem Keeps.readMembersWithin (hk : s.Keeps Q) {fuel : Nat} {first : Bool} (hq : Q done)
    (h : s.readMembersWithin fuel first done c = .ok (done', c')) : Q done' := by
  induction fuel generalizing first done c with
  | zero => cases h
  | succ fuel ih =>
    unfold Shape.readMembersWithin at h
    obtain ⟨⟨more, c₁⟩, -, h⟩ := bind_eq_ok h
    dsimp only at h
    split at h
    · obtain ⟨⟨key, c₂⟩, -, h⟩ := bind_eq_ok h
      dsimp only at h
      split at h
      -- A member that no field has the key of is passed over.
      next =>
        obtain ⟨c₃, -, h⟩ := bind_eq_ok h
        obtain ⟨c₄, -, h⟩ := bind_eq_ok h
        exact ih hq h
      next field hfield =>
        split at h
        · cases h
        · obtain ⟨c₃, -, h⟩ := bind_eq_ok h
          obtain ⟨⟨done₁, c₄⟩, hread, h⟩ := bind_eq_ok h
          have hmem : field ∈ s.fields := List.mem_of_find?_eq_some hfield
          exact ih (hk field hmem _ _ _ _ hq hread) h
    · cases h
      exact hq

/-- The values of a list keep it. -/
theorem Keeps.readListed (hk : s.Keeps Q) {fields : List (Field σ)} (hf : ∀ x ∈ fields, x ∈ s.fields)
    {first : Bool} {position : Nat} (hq : Q done)
    (h : s.readListed fields first position done c = .ok (done', c')) : Q done' := by
  induction fields generalizing first position done c with
  | nil =>
    cases h
    exact hq
  | cons field fields ih =>
    have hrest : ∀ x ∈ fields, x ∈ s.fields := fun x hx => hf x (by simp [hx])
    unfold Shape.readListed at h
    obtain ⟨⟨more, c₁⟩, -, h⟩ := bind_eq_ok h
    dsimp only at h
    split at h
    · obtain ⟨⟨done₁, c₂⟩, hread, h⟩ := bind_eq_ok h
      exact ih hrest (hk field (hf field (by simp)) _ _ _ _ hq hread) h
    · split at h
      · exact ih hrest hq h
      · cases h

/-- **What every field keeps holds of a record that is read.** -/
theorem Keeps.exists_of_read (hk : s.Keeps Q) (hblank : Q s.blank) (h : s.read c = .ok (a, c')) :
    ∃ done, Q done ∧ s.complete done = .ok a := by
  have hfinish : ∀ {done c}, Q done → s.finish done c = .ok (a, c') →
      ∃ done, Q done ∧ s.complete done = .ok a := by
    intro done c hq h
    unfold Shape.finish at h
    split at h
    next b hb =>
      cases h
      exact ⟨done, hq, hb⟩
    next => cases h
  obtain ⟨x, h⟩ := exists_of_onValue h
  split at h
  · obtain ⟨⟨done, c₁⟩, hmembers, h⟩ := bind_eq_ok h
    exact hfinish (hk.readMembersWithin hblank hmembers) h
  · split at h
    · obtain ⟨⟨done, c₁⟩, hlist, h⟩ := bind_eq_ok h
      obtain ⟨c₂, -, h⟩ := bind_eq_ok h
      exact hfinish (hk.readListed (fun _ hx => hx) hblank hlist) h
    · exact absurd h (failWrongType_ne_ok s.label)

end Shape

end PublisherConsole.Json
