import PublisherConsole.Proofs.Command.Workspace
import PublisherConsole.Proofs.Storage.Entering

/-!
# Registrations from the command line

A registration reads its files, writes the record, and writes the definition if there is one. It is
called in any directory here, not only in one that the program has made. `IsRegistrable` says what
has to be there for the record to be written, and `IsHindered` when the definition cannot follow.

`Registered` and `Unregistered` are the two ends that it should come to: everything is kept that was
given, or no record and no definition is made or changed. The main statement,
`add_registers_all_or_nothing_unless_hindered`, is that it comes to one of them, and to which, except
in a tree where a directory stands in the way of the definition alone. There the record stays behind
(`add_leaves_a_record_without_its_definition`).
-/

namespace PublisherConsole.Command

open Storage FileStore

variable {t t₁ t' : FileTree} {words : List String} {s : Surroundings} {r : Registration}
  {file text : Option String} {network : Definition.Network}

/-! ### Files -/

/-- The text of a file that may be named: there is none if it is not. -/
def Given (t : FileTree) (file text : Option String) : Prop :=
  match file with
  | none => text = none
  | some name => ∃ content, t.text (Path.ofText name) = .ok content ∧ text = some content

theorem run_readFile?_iff : t.run (readFile? file).run = (.ok text, t) ↔ Given t file text := by
  cases file with
  | none => simp [readFile?, Given, eq_comm]
  | some name =>
    rw [readFile?, map_eq_pure_bind]
    cases there : t.text (Path.ofText name) with
    | ok content =>
      rw [Work.run_bind_of_ok (run_readFile_of_text there), Work.run_pure]
      simp [Given, there, eq_comm]
    | error cause =>
      have unread : t.run (readFile name).run = (.error (.file name cause), t) := by
        rw [run_readFile, there]
        rfl
      rw [Work.run_bind_of_error unread]
      simp [Given, there]

/-- The text is a definition, if there is one. -/
def IsDefinition (text : Option String) : Prop :=
  ∀ x, text = some x → ∃ doc, Definition.Document.ofText x = .ok doc

theorem run_readDefinition?_iff :
    t.run (readDefinition? file).run = (.ok text, t) ↔ Given t file text ∧ IsDefinition text := by
  cases file with
  | none =>
    constructor
    · intro h
      obtain rfl : none = text := by simpa [readDefinition?] using h
      exact ⟨rfl, fun x hx => by cases hx⟩
    · rintro ⟨rfl, -⟩
      rfl
  | some name =>
    rw [readDefinition?, map_eq_pure_bind, readDefinition, bind_assoc]
    cases there : t.text (Path.ofText name) with
    | error cause =>
      have unread : t.run (readFile name).run = (.error (.file name cause), t) := by
        rw [run_readFile, there]
        rfl
      rw [Work.run_bind_of_error unread]
      simp [Given, there]
    | ok content =>
      rw [Work.run_bind_of_ok (run_readFile_of_text there), bind_assoc]
      cases hof : Definition.Document.ofText content with
      | error cause =>
        have unfit : t.run (Work.check (Fault.definition name) (.error cause) :
            Work Definition.Document).run = (.error (.definition name cause), t) := rfl
        rw [Work.run_bind_of_error unfit]
        refine iff_of_false (by simp) ?_
        rintro ⟨⟨x, hx, rfl⟩, fit⟩
        obtain ⟨doc, hdoc⟩ := fit x rfl
        obtain rfl : content = x := by simpa [there] using hx
        simp [hof] at hdoc
      | ok doc =>
        have fit : t.run (Work.check (Fault.definition name) (.ok doc)).run = (.ok doc, t) := rfl
        rw [Work.run_bind_of_ok fit]
        constructor
        · intro h
          obtain rfl : some content = text := by simpa using h
          exact ⟨⟨content, there, rfl⟩, fun x hx => ⟨doc, by cases hx; exact hof⟩⟩
        · rintro ⟨⟨x, hx, rfl⟩, -⟩
          obtain rfl : content = x := by simpa [there] using hx
          rfl

/-! ### The store -/

/-- The tree once the store is opened: its directory is there, and nothing else is new. -/
structure Opens (t t₁ : FileTree) : Prop where
  run : t.run openStore.run = (.ok store, t₁)
  home : t₁.find? home = some .directory
  apis : t₁.find? store.apis = some .directory
  grows : FileTree.Grows t t₁
  frame : ∀ x, x ≠ store.apis → t₁.find? x = t.find? x

theorem Opens.resolve (h : Opens t t₁) : t₁.resolve store.apis = .ok store.apis :=
  resolve_apis_iff.2 h.home

/-- The store is opened, or the working directory stays as it is. -/
theorem opens_or_fails (t : FileTree) :
    (∃ t₁, Opens t t₁) ∨ ∃ fault, t.run openStore.run = (.error fault, t) := by
  cases hhome : t.find? home with
  | none => exact .inr ⟨_, run_openStore_of_missing hhome⟩
  | some e =>
  have checked {outcome : Except SystemFault Unit} {t₁ : FileTree}
      (made : t.run (makeDirectories store.apis) = (outcome, t₁)) :
      t.run openStore.run =
        ((outcome.mapError fun e => .storage (.system e)).map fun _ => store, t₁) := by
    rw [openStore, Work.run_bind_of_ok (Work.run_lift _), FileTree.run_exists?,
      FileTree.entryAt?_of_resolve resolve_home, hhome]
    have prepared : t.run store.prepare = (outcome.mapError .system, t₁) := by
      rw [FileStore.prepare, FileTree.run_bind, made]
      cases outcome <;> rfl
    cases outcome with
    | ok _ => exact (Work.run_bind_of_ok (Work.run_attempt_of_ok prepared)).trans (Work.run_pure _)
    | error fault => exact Work.run_bind_of_error (Work.run_attempt_of_error prepared)
  cases e with
  | file content =>
    exact .inr ⟨_, checked
      (FileTree.run_makeDirectories_below_file resolve_home hhome isUsable_apis.noNul)⟩
  | directory =>
    have made := FileTree.run_makeDirectories_snoc isPlain_apis isUsable_apis resolve_home hhome
    have apis : home ++ ["apis"] = store.apis := rfl
    rw [apis] at made
    by_cases noFile : ∀ content, t.find? store.apis ≠ some (.file content)
    · refine .inl ⟨t.withDirectory store.apis, ?_, ?_, FileTree.find?_withDirectory_self noFile,
        FileTree.grows_withDirectory t _, fun x hx => FileTree.find?_withDirectory hx⟩
      · rw [checked made]
        split
        next content hfile => exact absurd hfile (noFile content)
        next => rfl
      · rw [FileTree.find?_withDirectory (by decide), hhome]
    · push Not at noFile
      obtain ⟨content, hfile⟩ := noFile
      rw [FileTree.withDirectory, hfile] at made
      exact .inr ⟨_, checked made⟩

theorem Opens.unique {t₂ : FileTree} (h : Opens t t₁) (h' : Opens t t₂) : t₁ = t₂ := by
  simpa [h.run] using h'.run

/-! ### Writing -/

/-- What has to be there for the record of a registration to be written. -/
structure IsRegistrable (t : FileTree) (s : Surroundings) (r : Registration) : Prop where
  overview : ∃ text, Given t r.overviewFile text
  definition : ∃ text, Given t r.definitionFile text ∧ IsDefinition text
  enter : CanEnter store store.apis t (r.id.getD s.freshId) s.stamp.tag

/-- There is a definition, and a directory is in its way. -/
def IsHindered (t : FileTree) (s : Surroundings) (r : Registration) : Prop :=
  r.definitionFile.isSome = true ∧ IsBlocked store.apis t (r.id.getD s.freshId) s.stamp.tag

/-- The record of a registration is read, with the text that was given. -/
def ReadsRecord (t : FileTree) (s : Surroundings) (r : Registration) (overview : Option String)
    (t' : FileTree) : Prop :=
  Given t r.overviewFile overview ∧ ∃ record,
    (t'.run (store.read (r.id.getD s.freshId))).1 = .ok record ∧ record.id = r.id.getD s.freshId ∧
      record.name = r.name ∧ record.description = r.description ∧ record.overview = overview ∧
        record.kind = if r.isProduct then .product else .api

/-- Everything that was given is registered. -/
structure Registered (t : FileTree) (s : Surroundings) (r : Registration)
    (network : Definition.Network) (t' : FileTree) : Prop where
  /-- The new record has the texts that were given. -/
  record : ∃ overview, ReadsRecord t s r overview t'
  /-- A definition is fetched as it stands in its file, and its servers are listed. -/
  definition : ∀ name, r.definitionFile = some name → ∃ text doc,
    t.text (Path.ofText name) = .ok text ∧
      (t'.run (store.fetch (r.id.getD s.freshId))).1 = .ok text ∧
        Definition.Document.ofText text = .ok doc ∧
          (t'.run ((Source.files store).fetchDirectory network (r.id.getD s.freshId))).1 =
            .ok (.ofDocument doc)

/-- No record and no definition is made or changed, and no file is left behind that was not there.
Only the directories of the store and of the API may be new, and a temporary file may be changed. -/
structure Unregistered (t : FileTree) (s : Surroundings) (r : Registration) (t' : FileTree) :
    Prop where
  unwritten : Unwritten t t'
  nothingAdded : NothingAdded t t'
  frame : ∀ x, x ≠ store.apis → x ≠ store.apis ++ [r.id.getD s.freshId] →
    x ≠ store.apis ++ [r.id.getD s.freshId] ++ [tempName recordFile s.stamp.tag] →
      t'.find? x = t.find? x

theorem unregistered_refl (t : FileTree) : Unregistered t s r t :=
  ⟨unwritten_refl t, fun _ h => h, fun _ _ _ _ => rfl⟩

/-- What is spared once the store is opened is as it was before. -/
theorem Opens.unregistered (h : Opens t t₁)
    (spared : IsSpared t₁ store.apis (r.id.getD s.freshId) s.stamp.tag t') :
    Unregistered t s r t' where
  unwritten x hx := (spared.unwritten x hx).trans (unwritten_of_grows h.grows x hx)
  nothingAdded x hx := nothingAdded_of_grows h.grows x (spared.nothingAdded x hx)
  frame x hapis hid htemp := (spared.frame x hid htemp).trans (h.frame x hapis)

/-- Fetching the servers is fetching the definition and reading it. -/
theorem run_fetchDirectory {id text : String} {doc : Definition.Document}
    (h : (t.run (store.fetch id)).1 = .ok text) (hof : Definition.Document.ofText text = .ok doc) :
    (t.run ((Source.files store).fetchDirectory network id)).1 = .ok (.ofDocument doc) := by
  rw [Source.fetchDirectory, FileTree.run_bind, Source.fetch, h, FileTree.run_pure,
    Definition.Directory.ofFetched, hof]

/-- What entering comes to once the files are read. -/
theorem run_enter_of_opens {overview definition : Option String} (network : Definition.Network)
    (opens : Opens t t₁) (sound : s.IsSound) (hoverview : Given t₁ r.overviewFile overview)
    (hdefinition : Given t₁ r.definitionFile definition) (fit : IsDefinition definition)
    (can : CanEnter store store.apis t₁ (r.id.getD s.freshId) s.stamp.tag) :
    (¬IsHindered t₁ s r ∧ ∃ output t', t₁.run (enter store (newRecord r s overview) definition
        s.stamp.tag).run = (.ok output, t') ∧ Registered t₁ s r network t') ∨
      IsHindered t₁ s r ∧ ∃ fault t', t₁.run (enter store (newRecord r s overview) definition
        s.stamp.tag).run = (.error fault, t') ∧ ReadsRecord t₁ s r overview t' := by
  have now : (newRecord r s overview).updatedAt.isValid = true := sound.now
  obtain ⟨entered', hrecord⟩ := CanEnter.isEntered (r := newRecord r s overview) can opens.resolve
    opens.apis
  have created := (run_create_cases (newRecord r s overview) opens.resolve opens.apis
    sound.tag).resolve_right fun refused => refused.1 can
  have reads {t' : FileTree} (there : IsEntered store store.apis t' (r.id.getD s.freshId))
      (hrecord : t'.find? (store.apis ++ [r.id.getD s.freshId] ++ [recordFile]) =
        some (.file (newRecord r s overview).toText.toUTF8)) : ReadsRecord t₁ s r overview t' :=
    ⟨hoverview, _, there.run_read now hrecord, rfl, rfl, rfl, rfl, rfl⟩
  rw [enter, Work.run_bind_of_ok (Work.run_attempt_of_ok created.2)]
  cases hfile : r.definitionFile with
  | none =>
    rw [hfile] at hdefinition
    obtain rfl : definition = none := hdefinition
    refine .inl ⟨fun hindered => ?_, _, _, rfl, ⟨overview, reads entered' hrecord⟩, ?_⟩
    · simp [IsHindered, hfile] at hindered
    · intro name hname
      simp [hfile] at hname
  | some name =>
    rw [hfile] at hdefinition
    obtain ⟨text, there, rfl⟩ := hdefinition
    obtain ⟨doc, hdoc⟩ := fit text rfl
    rcases run_importDefinition_cases text entered' sound.tag with
      ⟨clear, hrun⟩ | ⟨blocked, fault, t', hrun, entered', same⟩
    · obtain ⟨imported', same, fetched⟩ := entered'.imported clear text
      refine .inl ⟨fun hindered => clear (isBlocked_entered.2 hindered.2), _, _,
        (Work.run_bind_of_ok (Work.run_attempt_of_ok hrun)).trans (Work.run_pure _),
        ⟨overview, reads imported' (same.trans hrecord)⟩, fun other hother => ?_⟩
      obtain rfl : name = other := by simpa [hfile] using hother
      exact ⟨text, doc, there, fetched, hdoc, run_fetchDirectory fetched hdoc⟩
    · exact .inr ⟨⟨by rw [hfile]; rfl, isBlocked_entered.1 blocked⟩, _, _,
        Work.run_bind_of_error (Work.run_attempt_of_error hrun), reads entered' (same.trans hrecord)⟩

/-- What a registration comes to once the store is opened: it is refused and nothing is registered,
it succeeds, or it fails after the record is written. -/
theorem Opens.run_register (opens : Opens t t₁) (sound : s.IsSound) (r : Registration)
    (network : Definition.Network) :
    (IsRegistrable t₁ s r ∧ ¬IsHindered t₁ s r ∧
        ∃ output t', t.run (register r s).run = (.ok output, t') ∧ Registered t₁ s r network t') ∨
      (IsRegistrable t₁ s r ∧ IsHindered t₁ s r ∧ ∃ fault t' overview,
        t.run (register r s).run = (.error fault, t') ∧ ReadsRecord t₁ s r overview t') ∨
      (¬IsRegistrable t₁ s r ∧
        ∃ fault t', t.run (register r s).run = (.error fault, t') ∧ Unregistered t s r t') := by
  rw [register_eq, Work.run_bind_of_ok opens.run]
  rcases (reads_readFile? r.overviewFile).run t₁ with ⟨overview, hoverview⟩ | ⟨fault, unread⟩
  swap
  · refine .inr (.inr ⟨fun fit => ?_, fault, t₁, Work.run_bind_of_error unread,
      opens.unregistered (isSpared_refl t₁)⟩)
    obtain ⟨text, given⟩ := fit.overview
    simp [run_readFile?_iff.2 given] at unread
  rw [Work.run_bind_of_ok hoverview]
  rcases (reads_readDefinition? r.definitionFile).run t₁ with ⟨definition, hread⟩ | ⟨fault, unread⟩
  swap
  · refine .inr (.inr ⟨fun fit => ?_, fault, t₁, Work.run_bind_of_error unread,
      opens.unregistered (isSpared_refl t₁)⟩)
    obtain ⟨text, given⟩ := fit.definition
    simp [run_readDefinition?_iff.2 given] at unread
  rw [Work.run_bind_of_ok hread]
  have given := run_readFile?_iff.1 hoverview
  have reads := run_readDefinition?_iff.1 hread
  by_cases can : CanEnter store store.apis t₁ (r.id.getD s.freshId) s.stamp.tag
  · have fit : IsRegistrable t₁ s r := ⟨⟨_, given⟩, ⟨_, reads⟩, can⟩
    rcases run_enter_of_opens network opens sound given reads.1 reads.2 can with
      ⟨clear, done⟩ | ⟨hindered, fault, t', hrun, there⟩
    · exact .inl ⟨fit, clear, done⟩
    · exact .inr (.inl ⟨fit, hindered, fault, t', overview, hrun, there⟩)
  · obtain ⟨-, fault, t', hrun, spared⟩ := (run_create_cases (newRecord r s overview) opens.resolve
      opens.apis sound.tag).resolve_left fun entered => can entered.1
    exact .inr (.inr ⟨fun fit => can fit.enter, _, t',
      Work.run_bind_of_error (Work.run_attempt_of_error hrun), opens.unregistered spared⟩)

/-- What a run of `add` comes to in a directory. -/
structure AddsOnce (t : FileTree) (s : Surroundings) (r : Registration)
    (network : Definition.Network) (outcome : Outcome) (t' : FileTree) : Prop where
  /-- It succeeds exactly if the record can be written and the definition can follow. -/
  succeeds : outcome.code = 0 ↔ ∃ t₁, Opens t t₁ ∧ IsRegistrable t₁ s r ∧ ¬IsHindered t₁ s r
  /-- Then everything that was given is registered. -/
  registers : outcome.code = 0 → ∃ t₁, Opens t t₁ ∧ Registered t₁ s r network t'
  /-- If the record cannot be written, nothing is registered. -/
  refuses : (∀ t₁, Opens t t₁ → ¬IsRegistrable t₁ s r) → Unregistered t s r t'
  /-- If only the definition cannot, the record is there: the run fails, and the identifier, which
  was free, is taken. -/
  leaves : ∀ t₁, Opens t t₁ → IsRegistrable t₁ s r → IsHindered t₁ s r →
    outcome.code ≠ 0 ∧ ∃ overview, ReadsRecord t₁ s r overview t'

/-- **A registration is whole or nothing unless the definition alone is hindered.** In any directory
and with any arguments, `add` succeeds exactly if the record can be written and no directory stands
in the way of the definition. Everything that was given is read and fetched then. If the record cannot
be written, no record and no definition is made or changed. Between the two lies one case: the record
is written, the definition is not, and the run fails. -/
theorem add_registers_all_or_nothing_unless_hindered (t : FileTree) (network : Definition.Network)
    (understood : ofWords words = .ok (.add r)) (sound : s.IsSound) :
    ∃ outcome t', t.run (runWords words s network) = (.ended outcome, t') ∧
      AddsOnce t s r network outcome t' := by
  refine ⟨_, _, (run_runWords understood).trans (run_add r), ?_⟩
  have failed (fault : Fault) : (Outcome.ofResult (.error fault)).code ≠ 0 := Nat.one_ne_zero
  rcases opens_or_fails t with ⟨t₁, opens⟩ | ⟨fault, closed⟩
  swap
  · -- The store is not opened, so that nothing else is done.
    have none {t₂ : FileTree} (opens : Opens t t₂) : False := by simp [opens.run] at closed
    rw [register_eq, Work.run_bind_of_error closed]
    exact ⟨iff_of_false (failed fault) fun ⟨_, opens, _⟩ => none opens,
      fun h => absurd h (failed fault), fun _ => unregistered_refl t,
      fun _ opens => (none opens).elim⟩
  rcases opens.run_register sound r network with
    ⟨fit, clear, output, t', hrun, registered⟩ | ⟨fit, hindered, fault, t', overview, hrun, there⟩ |
      ⟨unfit, fault, t', hrun, spared⟩ <;> rw [hrun]
  · exact ⟨iff_of_true rfl ⟨t₁, opens, fit, clear⟩, fun _ => ⟨t₁, opens, registered⟩,
      fun unfit => absurd fit (unfit t₁ opens),
      fun t₂ opens' _ hindered => absurd (opens.unique opens' ▸ hindered) clear⟩
  · refine ⟨iff_of_false (failed fault) fun ⟨t₂, opens', _, clear⟩ => ?_,
      fun h => absurd h (failed fault), fun unfit => absurd fit (unfit t₁ opens),
      fun t₂ opens' _ _ => ⟨failed fault, overview, opens.unique opens' ▸ there⟩⟩
    exact clear (opens.unique opens' ▸ hindered)
  · refine ⟨iff_of_false (failed fault) fun ⟨t₂, opens', fit, _⟩ => ?_,
      fun h => absurd h (failed fault), fun _ => spared,
      fun t₂ opens' fit _ => absurd (opens.unique opens' ▸ fit) unfit⟩
    exact unfit (opens.unique opens' ▸ fit)

/-- A directory stands where the definition goes. The run fails, and the record, which was not there
before, is read. -/
theorem add_leaves_a_record_without_its_definition :
    let s : Surroundings := ⟨⟨⟨⟨2020, 1, 1⟩, 0, 0, 0, 0⟩, "1"⟩, "", none⟩
    let words := ["add", "a", "--name", "N", "--asyncapi", "d.json"]
    let t : FileTree := ⟨[(home, .directory), (store.apis, .directory),
      (store.apis ++ ["a"], .directory), (store.apis ++ ["a", definitionFile], .directory),
      (["d.json"], .file "\x7b\"asyncapi\":\"2.0.0\"\x7d".toUTF8)]⟩
    ∃ r outcome t', ofWords words = .ok (.add r) ∧ s.IsSound ∧
      t.run (runWords words s .none) = (.ended outcome, t') ∧ AddsOnce t s r .none outcome t' ∧
        outcome.code ≠ 0 ∧ t.entryAt? (store.recordPath "a") = none ∧
          ∃ record, (t'.run (store.read "a")).1 = .ok record ∧ record.name = "N" := by
  intro s words t
  have sound : s.IsSound := ⟨by decide, isUsableTag_of_digits (by decide) (by simp [s])⟩
  have understood : ofWords words = .ok (.add ⟨some "a", "N", none, none, some "d.json", false⟩) := by
    with_unfolding_all rfl
  obtain ⟨outcome, t', hrun, adds⟩ :=
    add_registers_all_or_nothing_unless_hindered t .none understood sound
  have hhome : t.find? home = some .directory := rfl
  have hapis : t.find? store.apis = some .directory := rfl
  have happis : t.resolve store.apis = .ok store.apis := resolve_apis_iff.2 hhome
  have opens : Opens t t :=
    ⟨run_openStore_of_directory happis hapis, hhome, hapis, .refl t, fun _ _ => rfl⟩
  have there : t.text (Path.ofText "d.json") = .ok "\x7b\"asyncapi\":\"2.0.0\"\x7d" := by
    have path : Path.ofText "d.json" = [] ++ ["d.json"] := ofText_of_noSlash (by decide) (by decide)
    refine FileTree.text_eq_ok_iff.2 (FileTree.bytes_eq_ok_iff.2 ⟨["d.json"], ?_, rfl⟩)
    rw [path, FileTree.resolve_snoc_iff (by constructor <;> decide)]
    exact ⟨by constructor <;> decide, [], by simp [FileTree.resolve_eq_ok_iff],
      FileTree.find?_nil _, rfl⟩
  have fit : IsDefinition (some "\x7b\"asyncapi\":\"2.0.0\"\x7d") := by
    intro x hx
    obtain rfl : _ = x := by simpa using hx
    have parses : (Definition.Document.ofText "\x7b\"asyncapi\":\"2.0.0\"\x7d").toOption.isSome =
        true := by decide +kernel
    cases hof : Definition.Document.ofText "\x7b\"asyncapi\":\"2.0.0\"\x7d" with
    | ok doc => exact ⟨doc, rfl⟩
    | error cause => simp [hof, Except.toOption] at parses
  have free : t.entryAt? (store.recordPath "a") = none := by
    have hd : t.resolve (store.directory "a") = .ok (store.apis ++ ["a"]) :=
      resolve_directory_of_isValidId (by decide) happis hapis
    rw [recordPath, FileTree.entryAt?_of_resolve ((FileTree.resolve_snoc_iff isPlain_recordFile).2
      ⟨isUsable_recordFile, _, hd, rfl, rfl⟩)]
    rfl
  have room : HasRoom store.apis t "a" "1" := by
    refine ⟨fun _ there => ?_, fun there => ?_, fun there => ?_⟩ <;> cases there
  have can : CanEnter store store.apis t "a" "1" := ⟨room, by decide, free⟩
  obtain ⟨failed, overview, -, record, reads, -, named, -⟩ := adds.leaves t opens
    ⟨⟨none, rfl⟩, ⟨_, ⟨_, there, rfl⟩, fit⟩, can⟩ ⟨rfl, .inr rfl⟩
  exact ⟨_, outcome, t', understood, sound, hrun, adds, failed, free, record, reads, named⟩

end PublisherConsole.Command
