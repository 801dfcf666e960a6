import PublisherConsole.Definition.Document
import PublisherConsole.Proofs.Json.Members
import PublisherConsole.Proofs.Json.Soundness

/-!
# What is read of a definition

The syntax tree of a definition holds much that is not read. `Source.ofTree?` is what is read of it:
the version, the title, and the servers in the order in which they are declared. The reader finds
just this in every text that the tree is written as (`Source.ofText_of_lays`), and nothing in a text
that is written as no tree: it reads a definition exactly when one is declared
(`Source.ofText_eq_ok_iff_isDeclaredIn`).
-/

namespace PublisherConsole.Definition

open Json

variable {α β : Type}

/-- A value that is read and then put to use. -/
theorem agrees_map {r : Reader α} {f : SyntaxTree → Option α} (h : Agrees r f) (g : α → β) :
    Agrees (fun c => r c >>= fun v => .ok (g v.1, v.2)) fun t => (f t).map g := by
  intro t cs bs rest p hlayout hb he
  have hmap : (f t).map g = (f t).bind fun a => some (g a) := by simp [Option.map_eq_bind]
  dsimp only
  rw [hmap]
  exact (h t cs bs rest p hlayout hb he).bind fun a q _ => gives_ok

theorem traces_map {r : Reader α} (h : Traces r) (g : α → β) :
    Traces fun c => r c >>= fun v => .ok (g v.1, v.2) := by
  intro c b c' hread
  obtain ⟨⟨a, c₁⟩, hvalue, hread⟩ := bind_eq_ok hread
  cases hread
  exact h hvalue

/-! ### Servers -/

/-- Set the field of a server that has the given name. -/
def Declared.Fields.set (f : Declared.Fields) (v : Option String) : String → Declared.Fields
  | "url" => { f with url := some v }
  | "host" => { f with host := some v }
  | "pathname" => { f with pathname := some v }
  | "protocol" => { f with protocol := some v }
  | "protocolVersion" => { f with protocolVersion := some v }
  | "description" => { f with description := some v }
  | _ => f

/-- The fields of a server are texts that may be `null`. -/
def Declared.put (name : String) (t : SyntaxTree) : Option (Declared.Fields → Declared.Fields) :=
  (optionalOf? textOf? t).map fun v f => f.set v name

/-- The server that a tree declares. -/
def Declared.ofTree? : SyntaxTree → Option Declared := Declared.shape.ofTree? Declared.put

theorem Declared.puts : Declared.shape.Puts Declared.put := by
  intro field hfield done
  have hread := agrees_map agrees_readText.readOptional fun v => done.set v field.name
  simp only [Declared.put, Option.map_map, Function.comp_def]
  simp only [Declared.shape, List.mem_cons, List.not_mem_nil, or_false] at hfield
  rcases hfield with rfl | rfl | rfl | rfl | rfl | rfl <;> exact hread

theorem Declared.traces : Declared.shape.Traces := by
  intro field hfield done
  have hread := traces_map traces_readText.readOptional fun v => done.set v field.name
  simp only [Declared.shape, List.mem_cons, List.not_mem_nil, or_false] at hfield
  rcases hfield with rfl | rfl | rfl | rfl | rfl | rfl <;> exact hread

theorem Declared.apart : Declared.shape.Apart Declared.put where
  marks := by
    intro field hfield t set hput done
    obtain ⟨v, -, rfl⟩ := Option.map_eq_some_iff.mp hput
    simp only [Declared.shape, List.mem_cons, List.not_mem_nil, or_false] at hfield
    rcases hfield with rfl | rfl | rfl | rfl | rfl | rfl <;> rfl
  keeps := by
    intro field hfield other hother hne t set hput done
    obtain ⟨v, -, rfl⟩ := Option.map_eq_some_iff.mp hput
    simp only [Declared.shape, List.mem_cons, List.not_mem_nil, or_false] at hfield hother
    rcases hfield with rfl | rfl | rfl | rfl | rfl | rfl <;>
      rcases hother with rfl | rfl | rfl | rfl | rfl | rfl <;>
        first | rfl | exact absurd rfl hne
  comm := by
    intro field hfield other hother hne t u set set' hput hput' done
    obtain ⟨v, -, rfl⟩ := Option.map_eq_some_iff.mp hput
    obtain ⟨v', -, rfl⟩ := Option.map_eq_some_iff.mp hput'
    simp only [Declared.shape, List.mem_cons, List.not_mem_nil, or_false] at hfield hother
    rcases hfield with rfl | rfl | rfl | rfl | rfl | rfl <;>
      rcases hother with rfl | rfl | rfl | rfl | rfl | rfl <;>
        first | rfl | exact absurd rfl hne

/-! ### Information -/

/-- The title is a text that may be `null`; it is the only field. -/
def putTitle (_ : String) (t : SyntaxTree) : Option (Option (Option String) → Option (Option String)) :=
  (optionalOf? textOf? t).map fun v _ => some v

/-- The title in the information object that a tree is. -/
def titleOf? : SyntaxTree → Option (Option String) := infoShape.ofTree? putTitle

theorem puts_title : infoShape.Puts putTitle := by
  intro field hfield done
  have hread := agrees_map agrees_readText.readOptional some
  simp only [putTitle, Option.map_map, Function.comp_def]
  simp only [infoShape, List.mem_cons, List.not_mem_nil, or_false] at hfield
  subst hfield
  exact hread

theorem traces_title : infoShape.Traces := by
  intro field hfield done
  simp only [infoShape, List.mem_cons, List.not_mem_nil, or_false] at hfield
  subst hfield
  exact traces_map traces_readText.readOptional some

theorem apart_title : infoShape.Apart putTitle := by
  have honly : ∀ field ∈ infoShape.fields, ∀ other ∈ infoShape.fields, field.name = other.name := by
    simp [infoShape]
  refine ⟨?_, fun field hf other ho hne => absurd (honly field hf other ho) hne,
    fun field hf other ho hne => absurd (honly field hf other ho) hne⟩
  intro field hfield t set hput done
  obtain ⟨v, -, rfl⟩ := Option.map_eq_some_iff.mp hput
  simp only [infoShape, List.mem_cons, List.not_mem_nil, or_false] at hfield
  subst hfield
  rfl

/-! ### Definitions -/

/-- What the fields of a definition are read from. -/
def Source.put : String → SyntaxTree → Option (Source.Fields → Source.Fields)
  | "asyncapi", t => (textOf? t).map fun v f => { f with version := some v }
  | "info", t => (optionalOf? titleOf? t).map fun v f => { f with info := some v }
  | "servers", t => (membersOf? Declared.ofTree? t).map fun v f => { f with servers := some v }
  | _, _ => none

/-- The definition that a tree is. -/
def Source.ofTree? : SyntaxTree → Option Source := Source.shape.ofTree? Source.put

theorem Source.puts : Source.shape.Puts Source.put := by
  intro field hfield done
  simp only [Source.shape, List.mem_cons, List.not_mem_nil, or_false] at hfield
  rcases hfield with rfl | rfl | rfl
  · simp only [Source.put, Option.map_map, Function.comp_def]
    exact agrees_map agrees_readText fun v => { done with version := some v }
  · simp only [Source.put, Option.map_map, Function.comp_def]
    exact agrees_map (Shape.agrees_read puts_title).readOptional fun v => { done with info := some v }
  · simp only [Source.put, Option.map_map, Function.comp_def]
    exact agrees_map ((Shape.agrees_read Declared.puts).readMembers _)
      fun v => { done with servers := some v }

theorem Source.traces : Source.shape.Traces := by
  intro field hfield done
  simp only [Source.shape, List.mem_cons, List.not_mem_nil, or_false] at hfield
  rcases hfield with rfl | rfl | rfl
  · exact traces_map traces_readText fun v => { done with version := some v }
  · exact traces_map traces_title.read.readOptional fun v => { done with info := some v }
  · exact traces_map (Declared.traces.read.readMembers _) fun v => { done with servers := some v }

/-- Each of the three fields sets its own part of a definition. -/
theorem Source.put_cases {name : String} {t : SyntaxTree} {set : Source.Fields → Source.Fields}
    (h : Source.put name t = some set) :
    (name = "asyncapi" ∧ ∃ v, set = fun f => { f with version := some v }) ∨
    (name = "info" ∧ ∃ v, set = fun f => { f with info := some v }) ∨
    (name = "servers" ∧ ∃ v, set = fun f => { f with servers := some v }) := by
  unfold Source.put at h
  split at h
  · obtain ⟨v, -, rfl⟩ := Option.map_eq_some_iff.mp h
    exact .inl ⟨rfl, v, rfl⟩
  · obtain ⟨v, -, rfl⟩ := Option.map_eq_some_iff.mp h
    exact .inr (.inl ⟨rfl, v, rfl⟩)
  · obtain ⟨v, -, rfl⟩ := Option.map_eq_some_iff.mp h
    exact .inr (.inr ⟨rfl, v, rfl⟩)
  · cases h

theorem Source.apart : Source.shape.Apart Source.put where
  marks := by
    intro field hfield t set hput done
    simp only [Source.shape, List.mem_cons, List.not_mem_nil, or_false] at hfield
    rcases hfield with rfl | rfl | rfl <;>
      obtain ⟨hname, v, rfl⟩ | ⟨hname, v, rfl⟩ | ⟨hname, v, rfl⟩ := Source.put_cases hput <;>
        first | rfl | simp at hname
  keeps := by
    intro field hfield other hother hne t set hput done
    simp only [Source.shape, List.mem_cons, List.not_mem_nil, or_false] at hother
    obtain ⟨hname, v, rfl⟩ | ⟨hname, v, rfl⟩ | ⟨hname, v, rfl⟩ := Source.put_cases hput <;>
      rcases hother with rfl | rfl | rfl <;> first | rfl | exact absurd hname hne
  comm := by
    intro field _ other _ hne t u set set' hput hput' done
    obtain ⟨hname, v, rfl⟩ | ⟨hname, v, rfl⟩ | ⟨hname, v, rfl⟩ := Source.put_cases hput <;>
      obtain ⟨hname', v', rfl⟩ | ⟨hname', v', rfl⟩ | ⟨hname', v', rfl⟩ := Source.put_cases hput' <;>
        first | rfl | exact absurd (hname.trans hname'.symm) hne

/-- **What is read of a definition depends on its tree only.** -/
theorem Source.ofText_of_lays {root : SyntaxTree} {text : String} (h : root.Lays text) :
    (Source.ofText text).toOption = Source.ofTree? root :=
  (Shape.agrees_read Source.puts).readWhole h

theorem Source.ofText_eq_ok_iff {root : SyntaxTree} {text : String} {s : Source}
    (h : root.Lays text) : Source.ofText text = .ok s ↔ Source.ofTree? root = some s := by
  rw [← Source.ofText_of_lays h]
  cases Source.ofText text <;> simp [Except.toOption]

/-- The definition that a text declares. -/
def Source.IsDeclaredIn (s : Source) (text : String) : Prop :=
  ∃ root : SyntaxTree, root.Lays text ∧ Source.ofTree? root = some s

/-- **A definition is read exactly when the text declares it.** -/
theorem Source.ofText_eq_ok_iff_isDeclaredIn {s : Source} {text : String} :
    Source.ofText text = .ok s ↔ s.IsDeclaredIn text := by
  constructor
  · intro h
    obtain ⟨root, hlays⟩ := Source.traces.read.exists_lays h
    exact ⟨root, hlays, (Source.ofText_eq_ok_iff hlays).mp h⟩
  · rintro ⟨root, hlays, hs⟩
    exact (Source.ofText_eq_ok_iff hlays).mpr hs

end PublisherConsole.Definition
