import PublisherConsole.Proofs.Definition.Reading

/-!
# What is not read of a definition does not matter

Members that are not read may stand in the definition, in its information object and in its servers,
and the members of these objects may stand in any order. `Varies` is one such change of the syntax tree.
The definition that is read stays the same through all of them, and through all changes of the blanks
between the tokens (`Document.ofText_of_varies`).
-/

namespace PublisherConsole.Definition

open Json

variable {σ α : Type} {ms ms' : Members} {known : List String}

/-- The members of an object in another order, or with one more whose name is not among the known
ones. Its value is any value at all. -/
inductive Adjusts (known : List String) : Members → Members → Prop
  | order {ms ms' : Members} (order : ms.Perm ms') : Adjusts known ms ms'
  | add (before after : Members) {key : List Glyph} {name : String} (t : SyntaxTree)
      (hkey : text? key = some name) (unknown : name ∉ known) :
      Adjusts known (before ++ after) (before ++ (key, t) :: after)

/-- A record is read the same from adjusted members. -/
theorem Adjusts.ofTree?_eq (h : Adjusts known ms ms') {s : Shape σ α}
    {put : String → SyntaxTree → Option (σ → σ)} (hs : s.Apart put)
    (hknown : s.fields.map (·.name) = known) :
    s.ofTree? put (.object ms) = s.ofTree? put (.object ms') := by
  cases h with
  | order order => simp only [Shape.ofTree?, Shape.gather_perm hs order]
  | @add before after key name t hkey unknown =>
    have hname : s.field? name = none := by
      rw [Shape.field?, List.find?_eq_none]
      intro field hfield heq
      have : field.name = name := by simpa using heq
      exact unknown (hknown ▸ List.mem_map.mpr ⟨field, hfield, this⟩)
    simp only [Shape.ofTree?, Shape.gather_unknown hkey hname]

/-- The names of the members that are read of a definition. -/
def rootNames : List String := ["asyncapi", "info", "servers"]

/-- The names of the members that are read of the information object. -/
def infoNames : List String := ["title"]

/-- The names of the members that are read of a server. -/
def serverNames : List String :=
  ["url", "host", "pathname", "protocol", "protocolVersion", "description"]

/-- A definition in which the members of one object have been adjusted: those of the definition itself,
of its information object or of one of its servers. -/
inductive Varies : SyntaxTree → SyntaxTree → Prop
  | root {ms ms' : Members} (h : Adjusts rootNames ms ms') : Varies (.object ms) (.object ms')
  | info (before after : Members) {key : List Glyph} {ms ms' : Members}
      (hkey : text? key = some "info") (h : Adjusts infoNames ms ms') :
      Varies (.object (before ++ (key, .object ms) :: after))
        (.object (before ++ (key, .object ms') :: after))
  | server (before after earlier later : Members) {key name : List Glyph} {ms ms' : Members}
      (hkey : text? key = some "servers") (h : Adjusts serverNames ms ms') :
      Varies (.object (before ++ (key, .object (earlier ++ (name, .object ms) :: later)) :: after))
        (.object (before ++ (key, .object (earlier ++ (name, .object ms') :: later)) :: after))

/-- A member's value may be exchanged for one in which the definition finds the same. -/
theorem Source.ofTree?_value {before after : Members} {key : List Glyph} {name : String}
    {t u : SyntaxTree} (hkey : text? key = some name) (hput : Source.put name t = Source.put name u) :
    Source.ofTree? (.object (before ++ (key, t) :: after)) =
      Source.ofTree? (.object (before ++ (key, u) :: after)) := by
  simp only [Source.ofTree?, Shape.ofTree?, Shape.gather_value hkey hput]

/-- **One change keeps the definition.** -/
theorem Varies.ofTree?_eq {root root' : SyntaxTree} (h : Varies root root') :
    Source.ofTree? root = Source.ofTree? root' := by
  cases h with
  | root h => exact h.ofTree?_eq Source.apart rfl
  | info before after hkey h =>
    refine Source.ofTree?_value hkey ?_
    have htitle := h.ofTree?_eq apart_title rfl
    simp only [Source.put, optionalOf?, titleOf?, htitle]
  | @server before after earlier later key name ms ms' hkey h =>
    refine Source.ofTree?_value hkey ?_
    have hserver := h.ofTree?_eq Declared.apart rfl
    have hmember : memberOf? Declared.ofTree? (name, .object ms) =
        memberOf? Declared.ofTree? (name, .object ms') := by
      simp only [memberOf?, Declared.ofTree?, hserver]
    simp only [Source.put, membersOf?, List.mapM_append, List.mapM_cons, hmember]

/-- Any number of changes keep it. -/
theorem ofTree?_eq_of_varies {root root' : SyntaxTree} (h : Relation.ReflTransGen Varies root root') :
    Source.ofTree? root = Source.ofTree? root' := by
  induction h with
  | refl => rfl
  | tail _ last ih => exact ih.trans last.ofTree?_eq

theorem Document.ofText_eq_ok_iff {text : String} {d : Document} :
    Document.ofText text = .ok d ↔ ∃ s, Source.ofText text = .ok s ∧ s.resolve = .ok d := by
  unfold Document.ofText
  cases Source.ofText text <;> simp

/-- **What is not read does not matter.** A definition stays the same when members that are not read
are added and members are put in another order, any number of times and at the places that `Varies`
allows, and however the result is spaced. -/
theorem Document.ofText_of_varies {root root' : SyntaxTree} {text text' : String} {d : Document}
    (h : Relation.ReflTransGen Varies root root') (htext : root.Lays text)
    (htext' : root'.Lays text') (hd : Document.ofText text = .ok d) :
    Document.ofText text' = .ok d := by
  obtain ⟨s, hs, hresolve⟩ := Document.ofText_eq_ok_iff.mp hd
  have hroot : Source.ofTree? root = some s := (Source.ofText_eq_ok_iff htext).mp hs
  have hroot' : Source.ofTree? root' = some s := (ofTree?_eq_of_varies h).symm.trans hroot
  exact Document.ofText_eq_ok_iff.mpr ⟨s, (Source.ofText_eq_ok_iff htext').mpr hroot', hresolve⟩

/-! ### A definition that varies -/

/-- A version 2 definition with one server and other members around it. -/
private def definition (before server after : Members) : SyntaxTree :=
  .object (before ++
    (unescaped "servers" (by simp), .object [(unescaped "a" (by simp), .object server)]) :: after)

private def versionMember : List Glyph × SyntaxTree :=
  (unescaped "asyncapi" (by simp), .text (unescaped "2.6" (by simp)))

private def urlMember : List Glyph × SyntaxTree :=
  (unescaped "url" (by simp), .text (unescaped "u" (by simp)))

private def protocolMember : List Glyph × SyntaxTree :=
  (unescaped "protocol" (by simp), .text (unescaped "mqtt" (by simp)))

private def unreadMember : List Glyph × SyntaxTree :=
  (unescaped "ü" (by simp), .list [.null])

theorem Document.ofText_of_varies_reordered :
    Document.ofText ("\x7b\"ü\": [null], \"servers\":\x7b\"a\":\x7b\"protocol\":\"mqtt\",\"url\":\"u\"\x7d\x7d," ++
      "\"asyncapi\":\"2.6\"\x7d\n") = .ok ⟨"2.6", none, [("a", ⟨"mqtt", "u", none, none⟩)]⟩ := by
  have first : Varies (definition [versionMember] [urlMember, protocolMember] [])
      (definition [versionMember] [protocolMember, urlMember] []) :=
    .server [versionMember] [] [] [] rfl (.order (.swap _ _ _))
  have second : Varies (definition [versionMember] [protocolMember, urlMember] [])
      (definition [] [protocolMember, urlMember] [versionMember]) := .root (.order (.swap _ _ _))
  have third : Varies (definition [] [protocolMember, urlMember] [versionMember])
      (definition [unreadMember] [protocolMember, urlMember] [versionMember]) :=
    .root (.add [] _ _ rfl (by decide))
  have server (k v k' v' : List Glyph) :=
    (.object blanks_nil blanks_nil blanks_nil (.text v)
      (.member blanks_nil blanks_nil blanks_nil blanks_nil (.text v') (.endObject blanks_nil)) :
      Layout (.value (.object [(k, .text v), (k', .text v')])) _)
  have before : (definition [versionMember] [urlMember, protocolMember] []).Lays
      ("\x7b\"asyncapi\":\"2.6\",\"servers\":\x7b\"a\":" ++
        "\x7b\"url\":\"u\",\"protocol\":\"mqtt\"\x7d\x7d\x7d") := by
    refine ⟨[], _, [], blanks_nil, .object blanks_nil blanks_nil blanks_nil (.text _)
      (.member blanks_nil blanks_nil blanks_nil blanks_nil
        (.object blanks_nil blanks_nil blanks_nil (server _ _ _ _) (.endObject blanks_nil))
        (.endObject blanks_nil)), blanks_nil, ?_⟩
    rfl
  have after : (definition [unreadMember] [protocolMember, urlMember] [versionMember]).Lays
      ("\x7b\"ü\": [null], \"servers\":\x7b\"a\":\x7b\"protocol\":\"mqtt\",\"url\":\"u\"\x7d\x7d," ++
        "\"asyncapi\":\"2.6\"\x7d\n") := by
    refine ⟨[], _, ['\n'], blanks_nil, .object blanks_nil blanks_nil blanks_space
      (.list blanks_nil .null (.endList blanks_nil))
      (.member blanks_nil blanks_space blanks_nil blanks_nil
        (.object blanks_nil blanks_nil blanks_nil (server _ _ _ _) (.endObject blanks_nil))
        (.member blanks_nil blanks_nil blanks_nil blanks_nil (.text _) (.endObject blanks_nil))),
      blanks_newLine 0, ?_⟩
    rfl
  exact Document.ofText_of_varies (((Relation.ReflTransGen.single first).tail second).tail third)
    before after rfl

end PublisherConsole.Definition
