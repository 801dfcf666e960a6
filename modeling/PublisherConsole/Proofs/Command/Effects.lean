import PublisherConsole.Proofs.Command.Work
import PublisherConsole.Proofs.Console.Restriction
import PublisherConsole.Proofs.Editing.Session
import PublisherConsole.Proofs.Storage.ConfigurationFile
import PublisherConsole.Proofs.Storage.Sequence

/-!
# What commands do to a store

A working directory has no store (`IsBare`) or one that keeps a catalogue (`Holds`). What the
commands that write do to it is said by one lemma each:

* setting up makes an empty store, and keeps one that is there (`run_prepare_of_isBare`,
  `run_setUp_of_prepare`);
* a registration adds one API if it is admissible, and does nothing otherwise (`run_register`);
* an edit replaces one text for a user who may (`run_replaceText_of_allowed`), and does nothing
  otherwise (`run_replaceText_of_denied`).

Whatever happens elsewhere (`IsElsewhere`) leaves the store as it is (`SameStore`).
-/

namespace PublisherConsole.Command

open Storage FileStore

variable {t t' : FileTree} {c : Catalogue} {s : Surroundings} {id file content : String}
  {field : TextField} {configuration : Configuration} {record : Record} {item : Item}

/-- The time is an instant of the calendar, and files can be written with the tag. -/
structure Surroundings.IsSound (s : Surroundings) : Prop where
  now : s.stamp.now.isValid = true
  tag : IsUsableTag s.stamp.tag

/-! ### Changes elsewhere -/

/-- A place that is neither the working directory itself nor in its store. -/
structure IsElsewhere (p : Path) : Prop where
  ne_nil : p ≠ []
  ne_home : p ≠ home
  notInStore : ¬store.apis <+: p

theorem isElsewhere_configurationPath : IsElsewhere configurationPath := by
  constructor <;> decide

/-- The two trees have the same store. -/
structure SameStore (t t' : FileTree) : Prop where
  home : t'.find? home = t.find? home
  apis : ∀ p, t'.find? (store.apis ++ p) = t.find? (store.apis ++ p)
  names : t'.namesBelow store.apis = t.namesBelow store.apis

theorem IsElsewhere.sameStore_insert {p : Path} (h : IsElsewhere p) (t : FileTree) (e : Entry) :
    SameStore t (t.insert p e) where
  home := by rw [FileTree.find?_insert h.ne_nil, if_neg h.ne_home.symm]
  apis q := by
    rw [FileTree.find?_insert h.ne_nil, if_neg]
    rintro rfl
    exact h.notInStore (List.prefix_append _ _)
  names := FileTree.namesBelow_insert_of_ne fun hp => h.notInStore (hp ▸ p.dropLast_prefix)

theorem IsElsewhere.sameStore_erase {p : Path} (h : IsElsewhere p) (t : FileTree) :
    SameStore t (t.erase p) where
  home := by rw [FileTree.find?_erase h.ne_nil, if_neg h.ne_home.symm]
  apis q := by
    rw [FileTree.find?_erase h.ne_nil, if_neg]
    rintro rfl
    exact h.notInStore (List.prefix_append _ _)
  names := FileTree.namesBelow_erase_of_ne fun hp => h.notInStore (hp ▸ p.dropLast_prefix)

theorem SameStore.trans {t'' : FileTree} (h : SameStore t t') (h' : SameStore t' t'') :
    SameStore t t'' :=
  ⟨h'.home.trans h.home, fun p => (h'.apis p).trans (h.apis p), h'.names.trans h.names⟩

/-- A store that keeps a catalogue goes on keeping it. -/
theorem SameStore.holds (same : SameStore t t') (h : Holds store store.apis t c) :
    Holds store store.apis t' c where
  apis := by
    rw [resolve_apis_iff, same.home, ← resolve_apis_iff]
    exact h.apis
  entries p := by rw [same.apis, h.entries]
  names := by
    rw [same.names]
    exact h.names
  items := h.items

/-! ### Setting up -/

/-- Nothing of the working directory is there. -/
structure IsBare (t : FileTree) : Prop where
  home : t.find? home = none
  apis : ∀ p, t.find? (store.apis ++ p) = none

theorem SameStore.isBare (same : SameStore t t') (h : IsBare t) : IsBare t' :=
  ⟨same.home.trans h.home, fun p => (same.apis p).trans (h.apis p)⟩

/-- Making the directories of the store starts an empty one. -/
theorem run_prepare_of_isBare (h : IsBare t) :
    ∃ t', t.run store.prepare = (.ok (), t') ∧ Holds store store.apis t' ∅ := by
  have fresh : t.find? store.apis = none := by simpa using h.apis []
  have made : t.run (makeDirectories store.apis) =
      (.ok (), (t.insert home .directory).insert store.apis .directory) :=
    FileTree.run_makeDirectories_snoc_of_missing isPlain_apis isUsable_apis resolve_home h.home
      fresh
  have hfind : ∀ p, ((t.insert home .directory).insert store.apis .directory).find? p =
      if p = store.apis then some .directory
      else if p = home then some .directory else t.find? p := fun p => by
    rw [FileTree.find?_insert (by decide), FileTree.find?_insert (by decide)]
  refine ⟨(t.insert home .directory).insert store.apis .directory, ?_,
    holds_empty (resolve_apis_iff.2 ?_) ?_ fun p hp => ?_⟩
  · rw [FileStore.prepare, FileTree.run_bind, made]
    rfl
  · rw [hfind, if_neg (by decide), if_pos rfl]
  · rw [hfind, if_pos rfl]
  · rw [hfind, if_neg (by simpa using hp), if_neg, h.apis]
    intro heq
    have := congrArg List.length heq
    simp [FileStore.apis, store, Command.home] at this

theorem isPlain_config : IsPlain "config.json" := by constructor <;> decide

theorem isUsable_config : IsUsable "config.json" := by constructor <;> decide

theorem resolve_configurationPath (h : t.find? home = some .directory) :
    t.resolve configurationPath = .ok configurationPath :=
  (FileTree.resolve_snoc_iff isPlain_config).2 ⟨isUsable_config, home, resolve_home, h, rfl⟩

/-- Without its file, the configuration is the default one. -/
theorem configured_erase (h : t.find? home = some .directory) :
    Configured (t.erase configurationPath) .default := by
  refine .byDefault ?_
  have same := isElsewhere_configurationPath.sameStore_erase t
  rw [FileTree.entryAt?_of_resolve (resolve_configurationPath (same.home.trans h)),
    FileTree.find?_erase isElsewhere_configurationPath.ne_nil, if_pos rfl]

/-- Where no configuration is, one can be written. -/
theorem run_save_of_missing (h : t.find? home = some .directory)
    (missing : t.entryAt? configurationPath = none) (configuration : Configuration) :
    ∃ t', t.run (configuration.save configurationPath) = (.ok (), t') ∧ SameStore t t' := by
  have place := resolve_configurationPath h
  rw [FileTree.entryAt?_of_resolve place] at missing
  have above : t.run (makeDirectories configurationPath.dropLast) = (.ok (), t) :=
    FileTree.run_makeDirectories_of_directory resolve_home h
  have saved := Configuration.run_save_eq_ok_iff (c := configuration).2
    ⟨t, configurationPath, above, place, by simp [missing], rfl⟩
  exact ⟨_, saved, (isElsewhere_configurationPath.sameStore_insert t _).trans
    (isElsewhere_configurationPath.sameStore_insert _ _)⟩

/-- Once the directories are made, setting up succeeds and keeps the store. -/
theorem run_setUp_of_prepare {t₁ : FileTree} (prepared : t.run store.prepare = (.ok (), t₁))
    (h : Holds store store.apis t₁ c) :
    ∃ output t', t.run setUp.run = (.ok output, t') ∧ Holds store store.apis t' c := by
  rw [setUp, Work.run_bind_of_ok (Work.run_attempt_of_ok prepared),
    Work.run_bind_of_ok (Work.run_lift _), FileTree.run_exists?]
  cases hconfig : t₁.entryAt? configurationPath with
  | some e => exact ⟨_, t₁, rfl, h⟩
  | none =>
    obtain ⟨t', hrun, same⟩ := run_save_of_missing (resolve_apis_iff.1 h.apis) hconfig .default
    exact ⟨_, t', (Work.run_bind_of_ok (Work.run_attempt_of_ok hrun)).trans (Work.run_pure _),
      same.holds h⟩

/-! ### Adding -/

/-- The definition in a file that may have been named. -/
def readDefinition? : Option String → Work (Option String)
  | none => pure none
  | some name => some <$> readDefinition name

/-- What is left of a registration once its files are read. -/
def enter (store : FileStore) (record : Record) (definition : Option String) (tag : String) :
    Work String := do
  Work.attempt .storage (store.create record tag)
  match definition with
  | none => pure ()
  | some text => Work.attempt .storage (store.importDefinition record.id text tag)
  return printLines ["Added " ++ record.name ++ " (" ++ record.id ++ ")"]

/-- A registration reads first and writes then. -/
theorem register_eq (r : Registration) (s : Surroundings) :
    register r s = (do
      let store ← openStore
      let overview ← readFile? r.overviewFile
      let definition ← readDefinition? r.definitionFile
      enter store (newRecord r s overview) definition s.stamp.tag) := by
  unfold register
  congr 1
  funext store
  congr 1
  funext overview
  cases r.definitionFile <;> rfl

theorem reads_readDefinition? (name : Option String) : (readDefinition? name).Reads := by
  cases name with
  | none => exact Work.reads_pure none
  | some name => exact (reads_readDefinition name).map some

/-- An API is entered with its definition under an identifier that is safe and free; otherwise
nothing happens. -/
theorem run_enter (h : Holds store store.apis t c) (sound : s.IsSound)
    (now : record.updatedAt.isValid = true) (definition : Option String) :
    (isValidId record.id = true ∧ record.id ∉ c ∧
        ∃ output t', t.run (enter store record definition s.stamp.tag).run = (.ok output, t') ∧
          Holds store store.apis t' (c.insert record.id ⟨record, definition⟩)) ∨
      ¬(isValidId record.id = true ∧ record.id ∉ c) ∧
        ∃ fault, t.run (enter store record definition s.stamp.tag).run = (.error fault, t) := by
  rcases h.run_create now sound.tag with ⟨hid, free, t₁, hcreate, holds⟩ | ⟨taken, fault, hcreate⟩
  · refine .inl ⟨hid, free, ?_⟩
    rw [enter, Work.run_bind_of_ok (Work.run_attempt_of_ok hcreate)]
    cases definition with
    | none => exact ⟨_, t₁, rfl, holds⟩
    | some text =>
      obtain ⟨t', himport, holds'⟩ :=
        holds.run_importDefinition text (AList.lookup_insert c) sound.tag
      rw [AList.insert_insert] at holds'
      exact ⟨_, t', (Work.run_bind_of_ok (Work.run_attempt_of_ok himport)).trans (Work.run_pure _),
        holds'⟩
  · refine .inr ⟨taken, .storage fault, ?_⟩
    rw [enter, Work.run_bind_of_error (Work.run_attempt_of_error hcreate)]

/-- What a registration needs: its files can be read, and its identifier is safe and free. -/
structure IsAdmissible (t : FileTree) (c : Catalogue) (s : Surroundings) (r : Registration) :
    Prop where
  overview : ∃ text, t.run (readFile? r.overviewFile).run = (.ok text, t)
  definition : ∃ text, t.run (readDefinition? r.definitionFile).run = (.ok text, t)
  safe : isValidId (r.id.getD s.freshId) = true
  free : r.id.getD s.freshId ∉ c

/-- **A registration adds one API if it is admissible**, and otherwise it does nothing. -/
theorem run_register (h : Holds store store.apis t c) (sound : s.IsSound) (r : Registration) :
    (IsAdmissible t c s r ∧ ∃ output t' item, t.run (register r s).run = (.ok output, t') ∧
        Holds store store.apis t' (c.insert (r.id.getD s.freshId) item)) ∨
      ¬IsAdmissible t c s r ∧ ∃ fault, t.run (register r s).run = (.error fault, t) := by
  rw [register_eq, Work.run_bind_of_ok (run_openStore_of_directory h.apis h.find?_place)]
  rcases (reads_readFile? r.overviewFile).run t with ⟨overview, hoverview⟩ | ⟨fault, hfault⟩
  · rw [Work.run_bind_of_ok hoverview]
    rcases (reads_readDefinition? r.definitionFile).run t with ⟨definition, hread⟩ | ⟨fault, hfault⟩
    · rw [Work.run_bind_of_ok hread]
      have now : (newRecord r s overview).updatedAt.isValid = true := sound.now
      rcases run_enter h sound now definition with
        ⟨safe, free, output, t', hrun, holds⟩ | ⟨taken, refused⟩
      · exact .inl ⟨⟨⟨_, hoverview⟩, ⟨_, hread⟩, safe, free⟩, output, t', _, hrun, holds⟩
      · exact .inr ⟨fun admissible => taken ⟨admissible.safe, admissible.free⟩, refused⟩
    · refine .inr ⟨fun admissible => ?_, fault, Work.run_bind_of_error hfault⟩
      obtain ⟨text, hread⟩ := admissible.definition
      simp [hfault] at hread
  · refine .inr ⟨fun admissible => ?_, fault, Work.run_bind_of_error hfault⟩
    obtain ⟨text, hread⟩ := admissible.overview
    simp [hfault] at hread

/-! ### Editing -/

/-- What editing comes to once the texts are at hand. -/
theorem run_replaceText_of_read (opened : t.run openStore.run = (.ok store, t))
    (loaded : t.run loadConfiguration.run = (.ok configuration, t))
    (there : t.text (Path.ofText file) = .ok content)
    (read : t.run (store.read id) = (.ok record, t)) :
    t.run (replaceText id field file s).run =
      match Access.toEdit configuration.user record with
      | .restricted => (.error (.refusal (.restricted field)), t)
      | .allowed =>
        let (outcome, t') := t.run (store.update id field content s.stamp)
        (match outcome with
          | .ok updated => .ok (printLines ["Updated " ++ field.name ++ " of " ++ updated.name])
          | .error cause => .error (.save (.failed field cause)), t') := by
  rw [replaceText, Work.run_bind_of_ok opened, Work.run_bind_of_ok loaded,
    Work.run_bind_of_ok (run_readFile_of_text there),
    Work.run_bind_of_ok (Work.run_attempt_of_ok read)]
  cases Access.toEdit configuration.user record with
  | restricted => rfl
  | allowed =>
    -- The session is new, so it opens and takes the draft; then its one write decides.
    let draft : Session := ⟨field, .editing content none, 2⟩
    have saved : draft.save (m := Script) (store.update id · · s.stamp) =
        draft.settle content <$> store.update id field content s.stamp :=
      Session.save_of_editing rfl
    have opened : (Session.new field).open? record .allowed =
        .ok ⟨field, .editing (record.content field) none, 1⟩ := rfl
    rw [opened, Work.run_bind_of_ok (Work.run_check _ _)]
    have drafted : Session.update? ⟨field, .editing (record.content field) none, 1⟩ content =
        .ok draft := rfl
    rw [drafted, Work.run_bind_of_ok (Work.run_check _ _), Work.run_bind_of_ok (Work.run_lift _),
      saved, FileTree.run_map]
    rcases t.run (store.update id field content s.stamp) with ⟨updated | cause, t'⟩ <;> rfl

/-- A text is replaced by a file that can be read, for an API that is there and a user who may. -/
theorem run_replaceText_of_allowed (field : TextField) (h : Holds store store.apis t c)
    (sound : s.IsSound) (loaded : t.run loadConfiguration.run = (.ok configuration, t))
    (there : t.text (Path.ofText file) = .ok content) (hl : c.lookup id = some item)
    (allowed : ¬configuration.user.IsBarredFrom item.record) :
    ∃ output t', t.run (replaceText id field file s).run = (.ok output, t') ∧
      Holds store store.apis t'
        (c.insert id { item with record := item.record.setContent field content s.stamp.now }) ∧
      ∀ p, p ≠ store.apis ++ [id, recordFile] → t'.find? p = t.find? p := by
  obtain ⟨hid, -, -⟩ := h.items id item hl
  obtain ⟨t', hrun, holds, frame⟩ := h.run_update field content hl sound.now sound.tag
  have access : Access.toEdit configuration.user item.record = .allowed := by
    cases ha : Access.toEdit configuration.user item.record with
    | allowed => rfl
    | restricted => exact absurd (Access.toEdit_eq_restricted_iff.1 ha) allowed
  refine ⟨printLines ["Updated " ++ field.name ++ " of " ++
    (item.record.setContent field content s.stamp.now).name], t', ?_, holds, frame⟩
  rw [run_replaceText_of_read (run_openStore_of_directory h.apis h.find?_place) loaded there
    (h.run_read_of_lookup hid hl), access, hrun]

/-- Nothing happens if the configuration or the file cannot be read, the API is missing, or the user
is barred. -/
theorem run_replaceText_of_denied (s : Surroundings) (field : TextField)
    (h : Holds store store.apis t c)
    (denied : ∀ configuration content item, t.run loadConfiguration.run = (.ok configuration, t) →
      t.text (Path.ofText file) = .ok content → c.lookup id = some item →
        configuration.user.IsBarredFrom item.record) :
    ∃ fault, t.run (replaceText id field file s).run = (.error fault, t) := by
  have opened := run_openStore_of_directory h.apis h.find?_place
  rcases reads_loadConfiguration.run t with ⟨configuration, loaded⟩ | ⟨fault, unloaded⟩
  · cases there : t.text (Path.ofText file) with
    | error cause =>
      refine ⟨.file file cause, ?_⟩
      have unread : t.run (readFile file).run = (.error (.file file cause), t) := by
        rw [run_readFile, there]
        rfl
      rw [replaceText, Work.run_bind_of_ok opened, Work.run_bind_of_ok loaded,
        Work.run_bind_of_error unread]
    | ok content =>
      rcases h.read_or_missing id with ⟨item, hl, hread⟩ | ⟨-, cause, hread⟩
      · refine ⟨.refusal (.restricted field), ?_⟩
        rw [run_replaceText_of_read opened loaded there hread,
          Access.toEdit_eq_restricted_iff.2 (denied _ _ _ loaded there hl)]
      · refine ⟨.storage cause, ?_⟩
        rw [replaceText, Work.run_bind_of_ok opened, Work.run_bind_of_ok loaded,
          Work.run_bind_of_ok (run_readFile_of_text there),
          Work.run_bind_of_error (Work.run_attempt_of_error hread)]
  · refine ⟨fault, ?_⟩
    rw [replaceText, Work.run_bind_of_ok opened, Work.run_bind_of_error unloaded]

end PublisherConsole.Command
