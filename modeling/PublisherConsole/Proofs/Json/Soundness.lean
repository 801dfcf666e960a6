import PublisherConsole.Proofs.Json.Written

/-!
# What is read was written

A reader that succeeds has read a value of the grammar: `Traces r` says this of the reader `r`. It is
shown of the readers for texts, optional values, maps and records, and so a text that is read as a
whole is the text of a syntax tree (`Traces.exists_lays`).
-/

namespace PublisherConsole.Json

open Cursor

variable {α σ : Type} {c c' c₁ : Cursor} {bs : List Char} {fuel : Nat}

/-! ### Values that are read -/

/-- Where the reader succeeds it has read a value, with blanks before it. -/
def Traces (r : Reader α) : Prop := ∀ ⦃c a c'⦄, r c = .ok (a, c') → Written c c'

theorem traces_onValue {k : Char → Reader α}
    (h : ∀ ⦃x c a c'⦄, c.peek? = some x → k x c = .ok (a, c') → Written c c') :
    Traces (onValue k) := by
  intro c a c' hread
  unfold onValue at hread
  dsimp only at hread
  split at hread
  next x hx => exact Written.of_skipBlanks (h hx hread)
  · cases hread

theorem traces_readText : Traces readText := by
  unfold readText readTextAs
  refine traces_onValue fun x c a c' hpeek h => ?_
  split at h
  next hquote =>
    obtain ⟨⟨s, c₁⟩, hstring, h⟩ := bind_eq_ok h
    cases h
    obtain ⟨gs, hgs⟩ := exists_body_of_readString hstring
    exact written_of_body (hpeek.trans (congrArg some hquote)) hgs
  · exact absurd h (failWrongType_ne_ok _)

theorem Traces.readOptional {r : Reader α} (hr : Traces r) : Traces (readOptional r) := by
  intro c a c' h
  unfold Json.readOptional at h
  refine Written.of_skipBlanks ?_
  dsimp only at h
  split at h
  next hpeek =>
    obtain ⟨⟨⟨⟩, c₁⟩, hletters, h⟩ := bind_eq_ok h
    cases h
    exact written_of_letters .null hpeek hletters
  next =>
    obtain ⟨⟨b, c₁⟩, hvalue, h⟩ := bind_eq_ok h
    cases h
    exact hr hvalue

/-! ### Objects that are read -/

section Objects

variable {first more : Bool} {c₀ : Cursor}

/-- Before a key stands what leads to it, and before a closing brace blanks. -/
theorem exists_of_nextKey (h : nextKey first c = .ok (more, c')) :
    (more = true ∧ c'.peek? = some '"' ∧ ∃ lead, Leads first lead ∧ c.rest = lead ++ c'.rest) ∨
    (more = false ∧ c'.peek? = some '\x7d' ∧ ∃ bs, Blanks bs ∧ c.rest = bs ++ c'.rest) := by
  unfold nextKey at h
  extract_lets key c₁ at h
  -- A key is accepted where it stands.
  have hkey {c₂ : Cursor} (h : key c₂ = .ok (more, c')) :
      more = true ∧ c'.peek? = some '"' ∧ c₂ = c' := by
    unfold key at h
    split at h
    next hquote =>
      cases h
      exact ⟨rfl, hquote, rfl⟩
    all_goals cases h
  obtain ⟨bs, hb, hrest⟩ : ∃ bs, Blanks bs ∧ c.rest = bs ++ c₁.rest := exists_blanks c
  clear_value c₁
  have hfirst (hf : first = true) (h : key c₁ = .ok (more, c')) :
      more = true ∧ c'.peek? = some '"' ∧ ∃ lead, Leads first lead ∧ c.rest = lead ++ c'.rest := by
    obtain ⟨hmore, hquote, rfl⟩ := hkey h
    exact ⟨hmore, hquote, bs, hf ▸ leads_blanks hb, hrest⟩
  split at h
  next hclose =>
    cases h
    exact .inr ⟨rfl, hclose, bs, hb, hrest⟩
  next hcomma =>
    split at h
    next hf => exact .inl (hfirst hf h)
    next hf =>
      obtain ⟨hmore, hquote, rfl⟩ := hkey h
      obtain ⟨bs', hb', hrest'⟩ := exists_blanks c₁.next
      refine .inl ⟨hmore, hquote, (bs ++ [',']) ++ bs', ?_, ?_⟩
      · rw [Bool.eq_false_iff.mpr hf]
        exact (leads_comma hb).append hb'
      · rw [hrest, rest_of_peek? hcomma, hrest']
        simp
  next =>
    split at h
    next hf => exact .inl (hfirst hf h)
    · cases h
  next => cases h

theorem exists_of_readColon (h : readColon c = .ok c') :
    ∃ bs, Blanks bs ∧ c.rest = bs ++ ':' :: c'.rest := by
  unfold readColon at h
  dsimp only at h
  split at h
  next hcolon =>
    cases h
    exact exists_blanks_of_peek? hcolon
  all_goals cases h

/-- A closing brace ends an object behind its members. -/
theorem inObject_of_nextKey (h : nextKey first c = .ok (false, c')) : InObject first c c'.next := by
  obtain ⟨hmore, -⟩ | ⟨-, hclose, bs, hb, hrest⟩ := exists_of_nextKey h
  · cases hmore
  · exact .nil hb (by rw [hrest, rest_of_peek? hclose])

/-- A member of an object that is read in parts. -/
theorem inObject_of_member {c₂ c₃ c₄ : Cursor} {key : String}
    (hnext : nextKey first c = .ok (true, c₁)) (hkey : readString c₁.next = .ok (key, c₂))
    (hcolon : readColon c₂ = .ok c₃) (hvalue : Written c₃ c₄) (hlater : InObject false c₄ c') :
    InObject first c c' := by
  obtain ⟨-, hquote, lead, hlead, hrest⟩ | ⟨hmore, -⟩ := exists_of_nextKey hnext
  · obtain ⟨gs, hgs⟩ := exists_body_of_readString hkey
    obtain ⟨bs, hb, hrest'⟩ := exists_of_readColon hcolon
    have hmember : c.rest = lead ++ (quoted gs ++ (bs ++ ':' :: c₃.rest)) := by
      rw [hrest, rest_of_peek? hquote, hgs, hrest']
      simp [quoted]
    exact .cons hlead hb hmember hvalue hlater
  · cases hmore

theorem inObject_of_readMembersWithin {r : Reader α} (hr : Traces r)
    {done members : List (String × α)}
    (h : readMembersWithin r fuel first done c = .ok (members, c')) : InObject first c c' := by
  induction fuel generalizing first done c with
  | zero => cases h
  | succ fuel ih =>
    unfold readMembersWithin at h
    obtain ⟨⟨more, c₁⟩, hnext, h⟩ := bind_eq_ok h
    dsimp only at h
    split at h
    next hmore =>
      obtain ⟨⟨key, c₂⟩, hkey, h⟩ := bind_eq_ok h
      obtain ⟨c₃, hcolon, h⟩ := bind_eq_ok h
      obtain ⟨⟨a, c₄⟩, hvalue, h⟩ := bind_eq_ok h
      exact inObject_of_member (hmore ▸ hnext) hkey hcolon (hr hvalue) (ih h)
    next hmore =>
      cases h
      exact inObject_of_nextKey (Bool.eq_false_iff.mpr hmore ▸ hnext)

theorem Traces.readMembers {r : Reader α} (hr : Traces r) (expected : String) :
    Traces (readMembers expected r) := by
  unfold Json.readMembers
  refine traces_onValue fun x c a c' hpeek h => ?_
  split at h
  next hbrace =>
    exact (inObject_of_readMembersWithin hr h).written (hpeek.trans (congrArg some hbrace))
  · exact absurd h (failWrongType_ne_ok _)

end Objects

/-! ### Records that are read -/

section Lists

variable {first more : Bool}

/-- Before an item stands what leads to it, and before the end of a list blanks. -/
theorem exists_of_nextItem (h : nextItem first c = .ok (more, c')) :
    ∃ lead, c.rest = lead ++ c'.rest ∧ if more then Leads first lead else Blanks lead := by
  obtain ⟨bs, hb, hrest⟩ := exists_blanks c
  have hfirst (hf : first = true) : Leads first bs := hf ▸ leads_blanks hb
  unfold nextItem at h
  dsimp only at h
  split at h
  · cases h
  next =>
    cases h
    exact ⟨bs, hrest, hb⟩
  next hcomma =>
    split at h
    next hf =>
      cases h
      exact ⟨bs, hrest, hfirst hf⟩
    next hf =>
      obtain ⟨bs', hb', hrest'⟩ := exists_blanks c.skipBlanks.next
      split at h
      · cases h
      next =>
        cases h
        refine ⟨(bs ++ [',']) ++ bs', ?_, ?_⟩
        · rw [hrest, rest_of_peek? hcomma, hrest']
          simp
        · rw [Bool.eq_false_iff.mpr hf]
          exact (leads_comma hb).append hb'
      · cases h
  next =>
    split at h
    next hf =>
      cases h
      exact ⟨bs, hrest, hfirst hf⟩
    · cases h

theorem inList_of_endList (h : endList c = .ok c') : InList first c c' := by
  unfold endList at h
  dsimp only at h
  split at h
  next hclose =>
    obtain ⟨bs, hb, hrest⟩ := exists_blanks_of_peek? hclose
    cases h
    exact .nil hb hrest
  next => split at h <;> cases h
  all_goals cases h

/-- Blanks before the items of a list belong to it. -/
theorem InList.of_blanks (hb : Blanks bs) (hrest : c.rest = bs ++ c₁.rest)
    (h : InList first c₁ c') : InList first c c' := by
  obtain ⟨ts, cs, hrest', hlayout⟩ := h
  refine ⟨ts, bs ++ cs, by rw [hrest, hrest', List.append_assoc], ?_⟩
  cases first with
  | true =>
    cases hlayout with
    | emptyList hb' => exact List.append_assoc bs _ _ ▸ .emptyList (hb.append hb')
    | list hb' first later => exact List.append_assoc bs _ _ ▸ .list (hb.append hb') first later
  | false =>
    cases hlayout with
    | endList hb' => exact List.append_assoc bs _ _ ▸ .endList (hb.append hb')
    | item hb' hb'' next later =>
      exact List.append_assoc bs _ _ ▸ .item (hb.append hb') hb'' next later

end Lists

namespace Shape

variable {s : Shape σ α} {done done' : σ} {first : Bool}

/-- Every field is read from a value. -/
def Traces (s : Shape σ α) : Prop := ∀ field ∈ s.fields, ∀ done, Json.Traces (field.read done)

theorem inObject_of_readMembersWithin (hs : s.Traces)
    (h : s.readMembersWithin fuel first done c = .ok (done', c')) : InObject first c c' := by
  induction fuel generalizing first done c with
  | zero => cases h
  | succ fuel ih =>
    unfold Shape.readMembersWithin at h
    obtain ⟨⟨more, c₁⟩, hnext, h⟩ := bind_eq_ok h
    dsimp only at h
    split at h
    next hmore =>
      obtain ⟨⟨key, c₂⟩, hkey, h⟩ := bind_eq_ok h
      dsimp only at h
      split at h
      next =>
        obtain ⟨c₃, hcolon, h⟩ := bind_eq_ok h
        obtain ⟨c₄, hvalue, h⟩ := bind_eq_ok h
        exact inObject_of_member (hmore ▸ hnext) hkey hcolon (written_of_skipValue hvalue) (ih h)
      next field hfield =>
        split at h
        · cases h
        · obtain ⟨c₃, hcolon, h⟩ := bind_eq_ok h
          obtain ⟨⟨done₁, c₄⟩, hvalue, h⟩ := bind_eq_ok h
          have hmem : field ∈ s.fields := List.mem_of_find?_eq_some hfield
          exact inObject_of_member (hmore ▸ hnext) hkey hcolon (hs field hmem _ hvalue) (ih h)
    next hmore =>
      cases h
      exact inObject_of_nextKey (Bool.eq_false_iff.mpr hmore ▸ hnext)

theorem inList_of_readListed (hs : s.Traces) {fields : List (Field σ)}
    (hf : ∀ x ∈ fields, x ∈ s.fields) {position : Nat}
    (h : s.readListed fields first position done c = .ok (done', c₁)) (hend : endList c₁ = .ok c') :
    InList first c c' := by
  induction fields generalizing first position done c with
  | nil =>
    cases h
    exact inList_of_endList hend
  | cons field fields ih =>
    have hfields : ∀ x ∈ fields, x ∈ s.fields := fun x hx => hf x (by simp [hx])
    unfold Shape.readListed at h
    obtain ⟨⟨more, c₂⟩, hnext, h⟩ := bind_eq_ok h
    obtain ⟨lead, hrest, hlead⟩ := exists_of_nextItem hnext
    dsimp only at h
    split at h
    next hmore =>
      obtain ⟨⟨done₁, c₃⟩, hvalue, h⟩ := bind_eq_ok h
      rw [if_pos hmore] at hlead
      exact .cons hlead hrest (hs field (hf field (by simp)) _ hvalue) (ih hfields h)
    next hmore =>
      rw [if_neg hmore] at hlead
      split at h
      · exact .of_blanks hlead hrest (ih hfields h)
      · cases h

/-- **A record is read from a value**, be it written as an object or as a list. -/
theorem Traces.read (hs : s.Traces) : Json.Traces s.read := by
  have hfinish {done : σ} {c c' : Cursor} {a : α} (h : s.finish done c = .ok (a, c')) : c = c' := by
    unfold Shape.finish at h
    split at h
    · cases h
      rfl
    · cases h
  unfold Shape.read
  refine traces_onValue fun x c a c' hpeek h => ?_
  split at h
  next hbrace =>
    obtain ⟨⟨done, c₁⟩, hmembers, h⟩ := bind_eq_ok h
    obtain rfl := hfinish h
    exact (inObject_of_readMembersWithin hs hmembers).written (hpeek.trans (congrArg some hbrace))
  next =>
    split at h
    next hbracket =>
      obtain ⟨⟨done, c₁⟩, hlist, h⟩ := bind_eq_ok h
      obtain ⟨c₂, hend, h⟩ := bind_eq_ok h
      obtain rfl := hfinish h
      exact (inList_of_readListed hs (fun _ hx => hx) hlist hend).written
        (hpeek.trans (congrArg some hbracket))
    · exact absurd h (failWrongType_ne_ok _)

end Shape

/-! ### Whole texts -/

/-- **A text that is read as a whole is the text of a syntax tree.** -/
theorem Traces.exists_lays {r : Reader α} (hr : Traces r) {text : String} {a : α}
    (h : readWhole r text = .ok a) : ∃ root : SyntaxTree, root.Lays text := by
  obtain ⟨⟨b, c⟩, hread, h⟩ := bind_eq_ok h
  obtain ⟨bs, root, cs, hb, hlayout, hrest⟩ := hr hread
  obtain ⟨bs', hb', hrest'⟩ := exists_blanks c
  dsimp only at h
  split at h
  next hend =>
    have hnil : c.skipBlanks.rest = [] := List.head?_eq_none_iff.mp hend
    have htext : text.toList = bs ++ (cs ++ c.rest) := hrest
    exact ⟨root, bs, cs, bs', hb, hlayout, hb', by simpa [hrest', hnil] using htext⟩
  · cases h

end PublisherConsole.Json
