import Mathlib.Data.List.TakeWhile
import PublisherConsole.Proofs.Definition.Reading

/-!
# Which definitions are accepted, and what is made of them

* `Major.ofVersion?_eq_some_iff`: the supported versions are `2` and `3`, alone or with a point and more
  behind it (`Major.Supports`).
* `Declared.resolve_eq_ok_iff`, `Declared.resolve_eq_error_iff`: what becomes of a server
  (`Declared.Resolved`), and the field that is missed of an incomplete one (`Declared.Lacks`).
* `resolveAll_eq_ok_iff`, `resolveAll_eq_error_iff`: the servers in their order, up to the first one
  that is incomplete.
* `Source.resolve_eq_ok_iff`, `Source.resolve_eq_error_iff`: a definition, whose version is looked at
  before its servers.

The main statement, `Document.ofText_reads_exactly`, puts these together for every text.
-/

namespace PublisherConsole.Definition

open Json

/-! ### Versions -/

/-- The part of a version in front of its first point. -/
def Major.text : Major → String
  | .two => "2"
  | .three => "3"

/-- A version is the bare number, or the number with a point and anything behind it. -/
def Major.Supports (major : Major) (version : String) : Prop :=
  version = major.text ∨ ∃ minor, version = major.text ++ "." ++ minor

/-- A part without a point is in front of the first point when it is all of the version or a point
follows it. -/
theorem majorPart_eq_iff {version : String} (part : String) (h : '.' ∉ part.toList) :
    majorPart version = part.toList ↔ version = part ∨ ∃ minor, version = part ++ "." ++ minor := by
  have hpart (rest : List Char) : (part.toList ++ rest).takeWhile (· ≠ '.') =
      part.toList ++ rest.takeWhile (· ≠ '.') := by
    refine List.takeWhile_append_of_pos fun x hx => ?_
    simpa using fun hdot : x = '.' => h (hdot ▸ hx)
  unfold majorPart
  constructor
  · intro htake
    have hsplit := List.takeWhile_append_dropWhile (p := (· ≠ '.')) (l := version.toList)
    rw [htake] at hsplit
    have hhead := List.head?_dropWhile_not (· ≠ '.') version.toList
    generalize version.toList.dropWhile (· ≠ '.') = rest at hsplit hhead
    cases rest with
    | nil => exact .inl (String.toList_inj.mp (by simpa using hsplit.symm))
    | cons x xs =>
      obtain rfl : x = '.' := by simpa using hhead
      exact .inr ⟨String.ofList xs, String.toList_inj.mp (by simpa using hsplit.symm)⟩
  · rintro (rfl | ⟨minor, rfl⟩)
    · simpa using hpart []
    · simpa using hpart ('.' :: minor.toList)

/-- The supported versions. -/
theorem Major.ofVersion?_eq_some_iff {version : String} {major : Major} :
    Major.ofVersion? version = some major ↔ major.Supports version := by
  have htwo : majorPart version = ['2'] ↔ Major.two.Supports version :=
    majorPart_eq_iff Major.two.text (by decide)
  have hthree : majorPart version = ['3'] ↔ Major.three.Supports version :=
    majorPart_eq_iff Major.three.text (by decide)
  unfold Major.ofVersion?
  cases major with
  | two => rw [← htwo]; split_ifs <;> simp_all
  | three => rw [← hthree]; split_ifs <;> simp_all

/-! ### Addresses -/

/-- Any number of slashes. -/
def slashes (n : Nat) : String := String.ofList (List.replicate n '/')

/-- A host and a path with exactly one slash between them. -/
def IsJoined (host path url : String) : Prop :=
  ∃ (h p : String) (m n : Nat), h.toList.getLast? ≠ some '/' ∧ p.toList.head? ≠ some '/' ∧
    host = h ++ slashes m ∧ path = slashes n ++ p ∧ url = h ++ "/" ++ p

/-- The address that a server declares. -/
def Declared.IsAddress (d : Declared) : Major → String → Prop
  | .two, url => d.url = some url
  | .three, url => ∃ host, d.host = some host ∧
      ((d.pathname = none ∨ d.pathname = some "") ∧ url = host ∨
        ∃ path, d.pathname = some path ∧ path ≠ "" ∧ IsJoined host path url)

/-- Slashes in front are passed over up to a text that begins with none. -/
theorem dropWhile_slashes {xs : List Char} (n : Nat) (h : xs.head? ≠ some '/') :
    (List.replicate n '/' ++ xs).dropWhile (· = '/') = xs := by
  rw [List.dropWhile_append_of_pos (by simp)]
  cases xs with
  | nil => rfl
  | cons x xs =>
    have hx : x ≠ '/' := by simpa using h
    simp [hx]

/-- Every text is slashes in front of a text that begins with none. -/
theorem exists_slashes (xs : List Char) :
    ∃ n ys, xs = List.replicate n '/' ++ ys ∧ ys.head? ≠ some '/' := by
  refine ⟨(xs.takeWhile (· = '/')).length, xs.dropWhile (· = '/'), ?_, ?_⟩
  · have hall : xs.takeWhile (· = '/') = List.replicate (xs.takeWhile (· = '/')).length '/' :=
      List.eq_replicate_iff.mpr ⟨rfl, fun x hx => by simpa using List.mem_takeWhile_imp hx⟩
    rw [← hall, List.takeWhile_append_dropWhile]
  · intro hhead
    have := List.head?_dropWhile_not (· = '/') xs
    simp [hhead] at this

/-- Host and path are joined in one way only. -/
theorem isJoined_iff {host path url : String} :
    IsJoined host path url ↔ url = joinPath host path := by
  constructor
  · rintro ⟨h, p, m, n, hh, hp, rfl, rfl, rfl⟩
    have hreverse : h.toList.reverse.head? ≠ some '/' := by rwa [List.head?_reverse]
    apply String.toList_inj.mp
    simp [joinPath, slashes, dropWhile_slashes n hp, dropWhile_slashes m hreverse]
  · rintro rfl
    obtain ⟨m, h, hhost, hh⟩ := exists_slashes host.toList.reverse
    obtain ⟨n, p, hpath, hp⟩ := exists_slashes path.toList
    refine ⟨String.ofList h.reverse, String.ofList p, m, n, ?_, ?_, ?_, ?_, ?_⟩
    · simpa using hh
    · simpa using hp
    · apply String.toList_inj.mp
      simpa [slashes] using congrArg List.reverse hhost
    · apply String.toList_inj.mp
      simpa [slashes] using hpath
    · apply String.toList_inj.mp
      simp [joinPath, hhost, hpath, dropWhile_slashes _ hh, dropWhile_slashes _ hp]

/-- The address of a server with a host. -/
theorem isAddress_three_iff {d : Declared} {host url : String} (h : d.host = some host) :
    d.IsAddress .three url ↔ url = hostUrl host d.pathname := by
  simp only [Declared.IsAddress, h, Option.some.injEq, exists_eq_left', isJoined_iff]
  cases hpath : d.pathname with
  | none => simp [hostUrl]
  | some path => by_cases hempty : path = "" <;> simp [hostUrl, hempty]

/-! ### Servers -/

/-- What becomes of a server. -/
structure Declared.Resolved (d : Declared) (major : Major) (e : Endpoint) : Prop where
  protocol : d.protocol = some e.protocol
  address : d.IsAddress major e.url
  protocolVersion : e.protocolVersion = d.protocolVersion
  description : e.description = d.description

/-- The fields that a server needs. -/
def Declared.IsComplete (d : Declared) : Major → Prop
  | .two => d.protocol ≠ none ∧ d.url ≠ none
  | .three => d.protocol ≠ none ∧ d.host ≠ none

/-- The field that an incomplete server is blamed for: first the protocol, then the address. -/
inductive Declared.Lacks (d : Declared) : Major → String → Prop
  | protocol (major : Major) (h : d.protocol = none) : Lacks d major "protocol"
  | url (h : d.protocol ≠ none) (hurl : d.url = none) : Lacks d .two "url"
  | host (h : d.protocol ≠ none) (hhost : d.host = none) : Lacks d .three "host"

section Servers

variable {d : Declared} {major : Major} {name field : String} {e : Endpoint}

theorem Declared.resolve_of_lacks (h : d.Lacks major field) :
    d.resolve major name = .error (.missingField name field) := by
  cases h with
  | protocol _ h => simp [Declared.resolve, h]
  | url h hurl =>
    obtain ⟨protocol, hprotocol⟩ := Option.ne_none_iff_exists'.mp h
    simp [Declared.resolve, hprotocol, hurl]
  | host h hhost =>
    obtain ⟨protocol, hprotocol⟩ := Option.ne_none_iff_exists'.mp h
    simp [Declared.resolve, hprotocol, hhost]

theorem Declared.resolve_of_resolved (h : d.Resolved major e) : d.resolve major name = .ok e := by
  obtain ⟨protocol, url, version, description⟩ := e
  obtain ⟨hprotocol, haddress, hversion, hdescription⟩ := h
  dsimp only at hprotocol haddress hversion hdescription
  subst hversion hdescription
  cases major with
  | two =>
    have hurl : d.url = some url := haddress
    simp [Declared.resolve, hprotocol, hurl]
  | three =>
    obtain ⟨host, hhost, -⟩ := id haddress
    obtain rfl := (isAddress_three_iff hhost).mp haddress
    simp [Declared.resolve, hprotocol, hhost]

/-- A server is resolved, or a field is to blame. -/
theorem Declared.resolved_or_lacks (d : Declared) (major : Major) :
    (d.IsComplete major ∧ ∃ e, d.Resolved major e) ∨
      (¬d.IsComplete major ∧ ∃ field, d.Lacks major field) := by
  cases hprotocol : d.protocol with
  | none =>
    exact .inr ⟨by cases major <;> simp [Declared.IsComplete, hprotocol], _, .protocol major hprotocol⟩
  | some protocol =>
  have hsome : d.protocol ≠ none := by simp [hprotocol]
  cases major with
  | two =>
    cases hurl : d.url with
    | none => exact .inr ⟨by simp [Declared.IsComplete, hurl], _, .url hsome hurl⟩
    | some url =>
      exact .inl ⟨by simp [Declared.IsComplete, hprotocol, hurl],
        ⟨protocol, url, d.protocolVersion, d.description⟩, hprotocol, hurl, rfl, rfl⟩
  | three =>
    cases hhost : d.host with
    | none => exact .inr ⟨by simp [Declared.IsComplete, hhost], _, .host hsome hhost⟩
    | some host =>
      exact .inl ⟨by simp [Declared.IsComplete, hprotocol, hhost],
        ⟨protocol, hostUrl host d.pathname, d.protocolVersion, d.description⟩, hprotocol,
        (isAddress_three_iff hhost).mpr rfl, rfl, rfl⟩

theorem Declared.resolve_eq_ok_iff : d.resolve major name = .ok e ↔ d.Resolved major e := by
  refine ⟨fun h => ?_, Declared.resolve_of_resolved⟩
  obtain ⟨-, e', hresolved⟩ | ⟨-, field, hlacks⟩ := d.resolved_or_lacks major
  · rw [Declared.resolve_of_resolved hresolved] at h
    exact Except.ok.inj h ▸ hresolved
  · rw [Declared.resolve_of_lacks hlacks] at h
    cases h

theorem Declared.resolve_eq_error_iff {fault : Fault} :
    d.resolve major name = .error fault ↔
      ∃ field, d.Lacks major field ∧ fault = .missingField name field := by
  constructor
  · intro h
    obtain ⟨-, e, hresolved⟩ | ⟨-, field, hlacks⟩ := d.resolved_or_lacks major
    · rw [Declared.resolve_of_resolved hresolved] at h
      cases h
    · rw [Declared.resolve_of_lacks hlacks] at h
      exact ⟨field, hlacks, (Except.error.inj h).symm⟩
  · rintro ⟨field, hlacks, rfl⟩
    exact Declared.resolve_of_lacks hlacks

theorem Declared.isComplete_iff : d.IsComplete major ↔ ∃ e, d.Resolved major e := by
  obtain ⟨hcomplete, hresolved⟩ | ⟨hincomplete, field, hlacks⟩ := d.resolved_or_lacks major
  · exact iff_of_true hcomplete hresolved
  · refine iff_of_false hincomplete fun ⟨e, hresolved⟩ => ?_
    have hfails : d.resolve major "" = .error (.missingField "" field) :=
      Declared.resolve_of_lacks hlacks
    rw [Declared.resolve_of_resolved hresolved] at hfails
    cases hfails

end Servers

/-! ### Definitions -/

section Definitions

variable {major : Major} {servers : List (String × Declared)} {endpoints : List (String × Endpoint)}
  {fault : Fault}

/-- All servers are resolved, in their order and under their names. -/
theorem resolveAll_eq_ok_iff :
    resolveAll major servers = .ok endpoints ↔
      List.Forall₂ (fun s e => e.1 = s.1 ∧ s.2.Resolved major e.2) servers endpoints := by
  induction servers generalizing endpoints with
  | nil => simp [resolveAll, eq_comm]
  | cons s servers ih =>
    obtain ⟨name, d⟩ := s
    rw [List.forall₂_cons_left_iff]
    constructor
    · intro h
      unfold resolveAll at h
      split at h
      · cases h
      next e he =>
        split at h
        · cases h
        next later hlater =>
          cases h
          exact ⟨(name, e), later, ⟨rfl, Declared.resolve_eq_ok_iff.mp he⟩, ih.mp hlater, rfl⟩
    · rintro ⟨⟨name', e⟩, later, ⟨hname, he⟩, hlater, rfl⟩
      obtain rfl : name' = name := hname
      simp only [resolveAll, Declared.resolve_of_resolved he, ih.mpr hlater]

/-- The first incomplete server is blamed. -/
theorem resolveAll_eq_error_iff :
    resolveAll major servers = .error fault ↔
      ∃ before name d after field, servers = before ++ (name, d) :: after ∧
        (∀ s ∈ before, s.2.IsComplete major) ∧ d.Lacks major field ∧
        fault = .missingField name field := by
  constructor
  · intro h
    induction servers with
    | nil => cases h
    | cons s servers ih =>
      obtain ⟨name, d⟩ := s
      unfold resolveAll at h
      split at h
      next e he =>
        cases h
        obtain ⟨field, hlacks, rfl⟩ := Declared.resolve_eq_error_iff.mp he
        exact ⟨[], name, d, servers, field, rfl, by simp, hlacks, rfl⟩
      next e he =>
        split at h
        next fault' hlater =>
          cases h
          obtain ⟨before, name', d', after, field, rfl, hbefore, hlacks, hfault⟩ := ih hlater
          refine ⟨(name, d) :: before, name', d', after, field, rfl, ?_, hlacks, hfault⟩
          have hcomplete : d.IsComplete major :=
            Declared.isComplete_iff.mpr ⟨e, Declared.resolve_eq_ok_iff.mp he⟩
          simpa using ⟨hcomplete, fun a b hab => hbefore (a, b) hab⟩
        · cases h
  · rintro ⟨before, name, d, after, field, rfl, hbefore, hlacks, rfl⟩
    induction before with
    | nil => simp [resolveAll, Declared.resolve_of_lacks hlacks]
    | cons s before ih =>
      obtain ⟨e, he⟩ := Declared.isComplete_iff.mp (hbefore s (by simp))
      have hlater := ih fun s hs => hbefore s (by simp [hs])
      simp only [List.cons_append, resolveAll, Declared.resolve_of_resolved he, hlater]

/-- Either all servers are complete or one of them is blamed. -/
theorem exists_resolveAll_iff :
    (∃ endpoints, resolveAll major servers = .ok endpoints) ↔
      ∀ s ∈ servers, s.2.IsComplete major := by
  constructor
  · rintro ⟨endpoints, h⟩
    have hresolved := resolveAll_eq_ok_iff.mp h
    clear h
    induction hresolved with
    | nil => simp
    | @cons s e _ _ he _ ih =>
      have hcomplete : s.2.IsComplete major := Declared.isComplete_iff.mpr ⟨e.2, he.2⟩
      simpa only [List.forall_mem_cons] using ⟨hcomplete, ih⟩
  · intro hcomplete
    cases h : resolveAll major servers with
    | ok endpoints => exact ⟨endpoints, rfl⟩
    | error fault =>
      obtain ⟨before, name, d, after, field, rfl, -, hlacks, -⟩ := resolveAll_eq_error_iff.mp h
      obtain ⟨e, he⟩ := Declared.isComplete_iff.mp (hcomplete (name, d) (by simp))
      have hfails : d.resolve major name = .error (.missingField name field) :=
        Declared.resolve_of_lacks hlacks
      rw [Declared.resolve_of_resolved he] at hfails
      cases hfails

/-- What becomes of a definition with a supported version is what becomes of its servers. -/
theorem Source.resolve_of_supports {s : Source} (h : major.Supports s.version) :
    s.resolve = (resolveAll major s.servers).map fun servers => ⟨s.version, s.title, servers⟩ := by
  unfold Source.resolve
  rw [Major.ofVersion?_eq_some_iff.mpr h]
  cases h : resolveAll major s.servers <;> simp [h, Except.map]

theorem Source.resolve_of_unsupported {s : Source} (h : ∀ major : Major, ¬major.Supports s.version) :
    s.resolve = .error (.unsupportedVersion s.version) := by
  unfold Source.resolve
  cases hversion : Major.ofVersion? s.version with
  | none => rfl
  | some major => exact absurd (Major.ofVersion?_eq_some_iff.mp hversion) (h major)

/-- A version is supported once at most. -/
theorem Major.Supports.unique {major other : Major} {version : String} (h : major.Supports version)
    (ho : other.Supports version) : major = other :=
  Option.some.inj
    ((Major.ofVersion?_eq_some_iff.mpr h).symm.trans (Major.ofVersion?_eq_some_iff.mpr ho))

section Source

variable {s : Source} {d : Document}

/-- A supported definition with complete servers is accepted. -/
theorem Source.exists_resolve_iff :
    (∃ d, s.resolve = .ok d) ↔
      ∃ major : Major, major.Supports s.version ∧ ∀ x ∈ s.servers, x.2.IsComplete major := by
  by_cases hversion : ∃ major : Major, major.Supports s.version
  · obtain ⟨major, hmajor⟩ := hversion
    have hall : (∃ d, s.resolve = .ok d) ↔
        ∃ endpoints, resolveAll major s.servers = .ok endpoints := by
      rw [Source.resolve_of_supports hmajor]
      cases resolveAll major s.servers <;> simp [Except.map]
    rw [hall, exists_resolveAll_iff]
    refine ⟨fun h => ⟨major, hmajor, h⟩, ?_⟩
    rintro ⟨other, hother, hcomplete⟩
    exact hmajor.unique hother ▸ hcomplete
  · push Not at hversion
    rw [Source.resolve_of_unsupported hversion]
    refine iff_of_false (by rintro ⟨d, hd⟩; cases hd) ?_
    rintro ⟨major, hmajor, -⟩
    exact hversion major hmajor

/-- What is made of a definition that is accepted. -/
theorem Source.resolve_eq_ok_iff :
    s.resolve = .ok d ↔ d.version = s.version ∧ d.title = s.title ∧
      ∃ major : Major, major.Supports s.version ∧
        List.Forall₂ (fun x y => y.1 = x.1 ∧ x.2.Resolved major y.2) s.servers d.servers := by
  constructor
  · intro h
    obtain ⟨major, hmajor, hcomplete⟩ := Source.exists_resolve_iff.mp ⟨d, h⟩
    obtain ⟨endpoints, hall⟩ := exists_resolveAll_iff.mpr hcomplete
    rw [Source.resolve_of_supports hmajor, hall] at h
    cases h
    exact ⟨rfl, rfl, major, hmajor, resolveAll_eq_ok_iff.mp hall⟩
  · rintro ⟨hversion, htitle, major, hmajor, hservers⟩
    rw [Source.resolve_of_supports hmajor, resolveAll_eq_ok_iff.mpr hservers]
    obtain ⟨version, title, servers⟩ := d
    dsimp only at hversion htitle
    rw [hversion, htitle]
    rfl

/-- What is said about a definition that is not accepted: an unsupported version comes before the
servers, and among those the first incomplete one is blamed. -/
theorem Source.resolve_eq_error_iff :
    s.resolve = .error fault ↔
      (fault = .unsupportedVersion s.version ∧ ∀ major : Major, ¬major.Supports s.version) ∨
      ∃ (major : Major) (before : List (String × Declared)) (name : String) (d : Declared)
          (after : List (String × Declared)) (field : String),
        major.Supports s.version ∧ s.servers = before ++ (name, d) :: after ∧
        (∀ x ∈ before, x.2.IsComplete major) ∧ d.Lacks major field ∧
        fault = .missingField name field := by
  by_cases hversion : ∃ major : Major, major.Supports s.version
  · obtain ⟨major, hmajor⟩ := hversion
    have hall : s.resolve = .error fault ↔ resolveAll major s.servers = .error fault := by
      rw [Source.resolve_of_supports hmajor]
      cases resolveAll major s.servers <;> simp [Except.map]
    rw [hall, resolveAll_eq_error_iff]
    constructor
    · rintro ⟨before, name, d, after, field, hblame⟩
      exact .inr ⟨major, before, name, d, after, field, hmajor, hblame⟩
    · rintro (⟨-, hnone⟩ | ⟨other, before, name, d, after, field, hother, hblame⟩)
      · exact absurd hmajor (hnone major)
      · obtain rfl := hmajor.unique hother
        exact ⟨before, name, d, after, field, hblame⟩
  · push Not at hversion
    rw [Source.resolve_of_unsupported hversion]
    constructor
    · rintro h
      cases h
      exact .inl ⟨rfl, hversion⟩
    · rintro (⟨rfl, -⟩ | ⟨major, _, _, _, _, _, hmajor, -⟩)
      · rfl
      · exact absurd hmajor (hversion major)

end Source

end Definitions

/-! ### Texts -/

/-- **The definitions that are accepted, what is made of them, and what is said about the others.**

A text is refused as no JSON, or as JSON of another form, exactly when it declares no definition. The
definition that a text declares is accepted when its version is supported and its servers are
complete. -/
theorem Document.ofText_reads_exactly (text : String) :
    ((∃ e, Document.ofText text = .error (.json e)) ↔ ∀ s : Source, ¬s.IsDeclaredIn text) ∧
    ∀ s : Source, s.IsDeclaredIn text →
      ((∃ d, Document.ofText text = .ok d) ↔
        ∃ major : Major, major.Supports s.version ∧ ∀ x ∈ s.servers, x.2.IsComplete major) ∧
      (∀ d, Document.ofText text = .ok d ↔ d.version = s.version ∧ d.title = s.title ∧
        ∃ major : Major, major.Supports s.version ∧
          List.Forall₂ (fun x y => y.1 = x.1 ∧ x.2.Resolved major y.2) s.servers d.servers) ∧
      ∀ fault, Document.ofText text = .error fault ↔
        (fault = .unsupportedVersion s.version ∧ ∀ major : Major, ¬major.Supports s.version) ∨
        ∃ (major : Major) (before : List (String × Declared)) (name : String) (d : Declared)
            (after : List (String × Declared)) (field : String),
          major.Supports s.version ∧ s.servers = before ++ (name, d) :: after ∧
          (∀ x ∈ before, x.2.IsComplete major) ∧ d.Lacks major field ∧
          fault = .missingField name field := by
  have hresolve {s : Source} (hs : s.IsDeclaredIn text) : Document.ofText text = s.resolve := by
    simp [Document.ofText, Source.ofText_eq_ok_iff_isDeclaredIn.mpr hs]
  refine ⟨⟨?_, fun hnone => ?_⟩, fun s hs => ?_⟩
  · rintro ⟨e, he⟩ s hs
    rw [hresolve hs] at he
    obtain ⟨hfault, -⟩ | ⟨_, _, _, _, _, _, -, -, -, -, hfault⟩ := Source.resolve_eq_error_iff.mp he
    · cases hfault
    · cases hfault
  · cases htext : Source.ofText text with
    | error e => exact ⟨e, by simp [Document.ofText, htext]⟩
    | ok s => exact absurd (Source.ofText_eq_ok_iff_isDeclaredIn.mp htext) (hnone s)
  · rw [hresolve hs]
    exact ⟨Source.exists_resolve_iff, fun _ => Source.resolve_eq_ok_iff,
      fun _ => Source.resolve_eq_error_iff⟩

-- Of two incomplete servers the first one is blamed, and the protocol is missed before the address.
example : (match Document.ofText
      ("\x7b\"servers\": \x7b\"b\": \x7b\x7d, \"a\": \x7b\"url\": \"u\"\x7d\x7d, " ++
        "\"asyncapi\": \"2.6.0\"\x7d") with
    | .error fault => fault.message
    | .ok _ => "") = "Server 'b' is missing required field 'protocol'" := by
  decide

end PublisherConsole.Definition
