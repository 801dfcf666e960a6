import Mathlib.Tactic
import PublisherConsole.Definition.Directory

/-!
# What a directory has of a definition

A directory keeps the names of the servers apart from their endpoints, and a document is searched
from its end. `IsDirectoryOf` says in what way the two agree: the names are those that are declared,
each where it is declared first, and every name has the endpoint that is declared last.

Declaring one more server keeps the two parts of a directory in step (`InStep.insert`) and changes
the endpoint of its name alone (`get?_insert`). The main statement, by induction on the declarations,
is `ofDocument_isDirectoryOf`.
-/

namespace PublisherConsole.Definition

variable {name other : String} {endpoint : Endpoint} {servers : List (String × Endpoint)}

namespace Document

variable {doc : Document}

/-- The server of a name is the one that no later declaration of the name follows. -/
theorem server?_eq_some_iff :
    doc.server? name = some endpoint ↔
      ∃ before after, doc.servers = before ++ (name, endpoint) :: after ∧
        name ∉ after.map Prod.fst := by
  rw [server?, Option.map_eq_some_iff]
  constructor
  · rintro ⟨⟨_, _⟩, hfind, rfl⟩
    obtain ⟨hname, after, before, hrev, hlater⟩ := List.find?_eq_some_iff_append.1 hfind
    obtain rfl : _ = name := by simpa using hname
    refine ⟨before.reverse, after.reverse, ?_, ?_⟩
    · rw [← List.reverse_inj, hrev]
      simp
    · intro hmem
      obtain ⟨server, hmem, hname⟩ := List.mem_map.1 hmem
      simpa [hname] using hlater server (List.mem_reverse.1 hmem)
  · rintro ⟨before, after, hservers, hlater⟩
    refine ⟨(name, endpoint), ?_, rfl⟩
    refine List.find?_eq_some_iff_append.2 ⟨by simp, after.reverse, before.reverse, ?_, ?_⟩
    · simp [hservers]
    · rintro ⟨n, e⟩ hmem
      have : n ≠ name := by
        rintro rfl
        exact hlater (List.mem_map.2 ⟨_, List.mem_reverse.1 hmem, rfl⟩)
      simpa using this

end Document

namespace Directory

variable {d : Directory}

/-! ### One declaration -/

theorem lookup_replace :
    (replace name endpoint servers).lookup other =
      if other = name then some endpoint else servers.lookup other := by
  induction servers with
  | nil =>
    by_cases h : other = name
    · simp [replace, h]
    · have : (other == name) = false := by simpa using h
      simp [replace, List.lookup_cons, this, h]
  | cons server rest ih =>
    obtain ⟨n, e⟩ := server
    by_cases hn : n = name
    · subst hn
      by_cases h : other = n
      · simp [replace, h]
      · have : (other == n) = false := by simpa using h
        simp [replace, List.lookup_cons, this, h]
    · rw [replace, if_neg hn, List.lookup_cons, List.lookup_cons, ih]
      by_cases h : other = n
      · simp [h, hn]
      · have : (other == n) = false := by simpa using h
        simp [this]

/-- An endpoint is put where its name stands already, or else behind all others. -/
theorem map_fst_replace :
    (replace name endpoint servers).map Prod.fst =
      if name ∈ servers.map Prod.fst then servers.map Prod.fst
      else servers.map Prod.fst ++ [name] := by
  induction servers with
  | nil => rfl
  | cons server rest ih =>
    obtain ⟨n, e⟩ := server
    by_cases hn : n = name
    · simp [replace, hn]
    · rw [replace, if_neg hn, List.map_cons, ih]
      have : name ≠ n := fun h => hn h.symm
      by_cases h : name ∈ rest.map Prod.fst <;> simp_all

/-- A declaration gives its name the new endpoint, and leaves the others theirs. -/
@[simp] theorem get?_insert :
    (d.insert name endpoint).get? other = if other = name then some endpoint else d.get? other :=
  lookup_replace

theorem isSome_get?_iff : (d.get? name).isSome ↔ name ∈ d.endpoints.map Prod.fst := by
  rw [get?]
  induction d.endpoints with
  | nil => simp
  | cons server rest ih =>
    obtain ⟨n, e⟩ := server
    by_cases h : name = n
    · simp [h]
    · have : (name == n) = false := by simpa using h
      simp [List.lookup_cons, this, h, ih]

/-- The names are those that have an endpoint. -/
def InStep (d : Directory) : Prop := d.names = d.endpoints.map Prod.fst

theorem InStep.mem_names_iff (h : d.InStep) : name ∈ d.names ↔ (d.get? name).isSome := by
  rw [isSome_get?_iff, h]

theorem InStep.insert (h : d.InStep) : (d.insert name endpoint).InStep := by
  simp only [InStep, Directory.insert, isSome_get?_iff, map_fst_replace]
  rw [h]

theorem InStep.names_insert (h : d.InStep) :
    (d.insert name endpoint).names = if name ∈ d.names then d.names else d.names ++ [name] := by
  simp only [Directory.insert, ← h.mem_names_iff]

/-! ### All declarations -/

/-- The directory of a list of declarations. -/
def declare (servers : List (String × Endpoint)) : Directory :=
  servers.foldl (fun d (name, endpoint) => d.insert name endpoint) empty

theorem declare_concat :
    declare (servers ++ [(name, endpoint)]) = (declare servers).insert name endpoint := by
  rw [declare, List.foldl_append]
  rfl

theorem inStep_declare (servers : List (String × Endpoint)) : (declare servers).InStep := by
  induction servers using List.reverseRecOn with
  | nil => rfl
  | append_singleton servers server ih =>
    rw [declare_concat]
    exact ih.insert

/-- The last declaration of a name counts. -/
theorem get?_declare :
    (declare servers).get? name = (servers.reverse.find? (·.1 = name)).map (·.2) := by
  induction servers using List.reverseRecOn with
  | nil => rfl
  | append_singleton servers server ih =>
    obtain ⟨n, e⟩ := server
    rw [declare_concat, get?_insert, ih, List.reverse_append]
    by_cases h : name = n
    · simp [h]
    · have : n ≠ name := fun h' => h h'.symm
      simp [h, this]

theorem mem_names_declare : name ∈ (declare servers).names ↔ name ∈ servers.map Prod.fst := by
  rw [(inStep_declare servers).mem_names_iff, get?_declare, Option.isSome_map, List.find?_isSome]
  simp

/-- A name stands where it is declared first. -/
theorem ordered_names_declare :
    (declare servers).names.Pairwise fun a b =>
      (servers.map Prod.fst).idxOf a < (servers.map Prod.fst).idxOf b := by
  induction servers using List.reverseRecOn with
  | nil => exact .nil
  | append_singleton servers server ih =>
    obtain ⟨n, e⟩ := server
    -- The names that were there keep their places in the longer list of declarations.
    have place {a} (ha : a ∈ servers.map Prod.fst) :
        (servers.map Prod.fst ++ [n]).idxOf a = (servers.map Prod.fst).idxOf a :=
      List.idxOf_append_of_mem ha
    rw [declare_concat, (inStep_declare servers).names_insert, List.map_append, List.map_singleton]
    have old : (declare servers).names.Pairwise fun a b =>
        (servers.map Prod.fst ++ [n]).idxOf a < (servers.map Prod.fst ++ [n]).idxOf b := by
      refine ih.imp_of_mem fun ha hb h => ?_
      rwa [place (mem_names_declare.1 ha), place (mem_names_declare.1 hb)]
    split
    next => exact old
    next new =>
      refine List.pairwise_append.2 ⟨old, List.pairwise_singleton _ n, fun a ha b hb => ?_⟩
      obtain rfl : b = n := List.mem_singleton.1 hb
      rw [mem_names_declare] at ha new
      rw [place ha, List.idxOf_append_of_notMem new]
      exact Nat.lt_of_lt_of_le (List.idxOf_lt_length_of_mem ha) (Nat.le_add_right _ _)

/-! ### The servers in order -/

/-- No name is passed over when the servers are listed. -/
theorem InStep.map_fst_toList (h : d.InStep) : d.toList.map Prod.fst = d.names := by
  have {names : List String} (all : ∀ name ∈ names, (d.get? name).isSome) :
      (names.filterMap fun name => (d.get? name).map fun e => (name, e)).map Prod.fst = names := by
    induction names with
    | nil => rfl
    | cons name names ih =>
      obtain ⟨e, he⟩ := Option.isSome_iff_exists.1 (all name List.mem_cons_self)
      simp [he, ih fun n hn => all n (List.mem_cons_of_mem _ hn)]
  exact this fun name hname => h.mem_names_iff.1 hname

theorem get?_of_mem_toList (h : (name, endpoint) ∈ d.toList) : d.get? name = some endpoint := by
  obtain ⟨n, -, hget⟩ := List.mem_filterMap.1 h
  obtain ⟨e, he, heq⟩ := Option.map_eq_some_iff.1 hget
  cases heq
  exact he

/-- What a directory and a document have in common. -/
structure IsDirectoryOf (d : Directory) (doc : Document) : Prop where
  /-- The names are those that are declared, -/
  mem_names : ∀ name, name ∈ d.names ↔ name ∈ doc.serverNames
  /-- each of them once, -/
  nodup_names : d.names.Nodup
  /-- in the order of their first declarations. -/
  ordered : d.names.Pairwise fun a b => doc.serverNames.idxOf a < doc.serverNames.idxOf b
  /-- Looking a name up comes to the same in both, -/
  get?_eq : ∀ name, d.get? name = doc.server? name
  /-- namely to the last declaration of the name, -/
  last : ∀ name endpoint, d.get? name = some endpoint ↔
    ∃ before after, doc.servers = before ++ (name, endpoint) :: after ∧
      name ∉ after.map Prod.fst
  /-- and to nothing if there is none. -/
  undeclared : ∀ name, d.get? name = none ↔ name ∉ doc.serverNames
  /-- The names and the endpoints have the same keys, and no key twice. -/
  keys : ∀ name, name ∈ d.endpoints.map Prod.fst ↔ name ∈ d.names
  nodup_keys : (d.endpoints.map Prod.fst).Nodup
  /-- All names are listed in order, -/
  listed : d.toList.map Prod.fst = d.names
  /-- as many as there are servers, -/
  length_toList : d.toList.length = d.size
  /-- each with the endpoint that it has. -/
  own : ∀ name endpoint, (name, endpoint) ∈ d.toList → d.get? name = some endpoint
  /-- Only a document without servers has an empty directory. -/
  empty_iff : d.isEmpty = true ↔ doc.servers = []

/-- **The directory of a document is faithful to it**, whatever names it declares and however often:
they are in the order of their first declarations with the endpoints of their last ones. -/
theorem ofDocument_isDirectoryOf (doc : Document) : (ofDocument doc).IsDirectoryOf doc := by
  have declared : ofDocument doc = declare doc.servers := rfl
  have inStep := inStep_declare doc.servers
  have ordered := @ordered_names_declare doc.servers
  have nodup : (declare doc.servers).names.Nodup := ordered.imp fun h heq => by simp [heq] at h
  have get?_eq (name : String) : (declare doc.servers).get? name = doc.server? name := get?_declare
  rw [declared]
  exact
    { mem_names := fun _ => mem_names_declare
      nodup_names := nodup
      ordered := ordered
      get?_eq := get?_eq
      last := fun name endpoint => by rw [get?_eq, Document.server?_eq_some_iff]
      undeclared := fun name => by
        rw [← Option.not_isSome_iff_eq_none, ← inStep.mem_names_iff, mem_names_declare]
        rfl
      keys := fun name => by rw [inStep]
      nodup_keys := inStep ▸ nodup
      listed := inStep.map_fst_toList
      length_toList := by rw [← List.length_map (f := Prod.fst), inStep.map_fst_toList, size]
      own := fun _ _ => get?_of_mem_toList
      empty_iff := by
        rw [isEmpty, List.isEmpty_iff, List.eq_nil_iff_forall_not_mem]
        simp [mem_names_declare, List.eq_nil_iff_forall_not_mem] }

end Directory

end PublisherConsole.Definition
