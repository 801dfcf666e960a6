import PublisherConsole.Proofs.Command.Workspace

/-!
# Edits from the command line

`EditsOnce` says what a run of `edit` comes to in a working directory: the file is taken over as one
text of one record, or nothing happens. The main statement is `edit_changes_one_text`.
-/

namespace PublisherConsole.Command

open Storage FileStore

variable {t t' : FileTree} {ids words : List String} {s : Surroundings} {c : Catalogue}
  {id file : String} {field : TextField}

/-- What a run of `edit` comes to: one text of one record is replaced, or nothing happens. -/
structure EditsOnce (t : FileTree) (ids : List String) (id : String) (field : TextField)
    (file : String) (user : User) (outcome : Outcome) (t' : FileTree) : Prop where
  /-- It succeeds exactly if the file is there and a text, the API was added, and the user is not
  barred from its record. -/
  succeeds : outcome.code = 0 ↔
    (∃ content, t.text (Path.ofText file) = .ok content) ∧ id ∈ ids ∧
      ∃ r, IsRegistered t id r ∧ ¬user.IsBarredFrom r
  /-- Then the record has the text of the file, and all else of it but the time is as before. -/
  replaces : outcome.code = 0 → ∃ content r r', t.text (Path.ofText file) = .ok content ∧
    IsRegistered t id r ∧ IsRegistered t' id r' ∧ r'.text? field = some content ∧
      (∀ other, other ≠ field → r'.text? other = r.text? other) ∧ r'.id = r.id ∧
        r'.name = r.name ∧ r'.kind = r.kind ∧ r'.lifecycle = r.lifecycle
  /-- No other file or directory changes. -/
  frame : ∀ p, p ≠ store.apis ++ [id, recordFile] → t'.find? p = t.find? p
  /-- Every other record is read as before. -/
  records : ∀ other, other ≠ id → (t'.run (store.read other)).1 = (t.run (store.read other)).1
  /-- Every definition is fetched as before. -/
  definitions : ∀ other, (t'.run (store.fetch other)).1 = (t.run (store.fetch other)).1
  /-- If it fails, nothing changes. -/
  fails : outcome.code ≠ 0 → t' = t

/-- A run that is denied fails, and leaves everything as it was. -/
theorem EditsOnce.of_failed {user : User} {fault : Fault}
    (denied : ¬((∃ content, t.text (Path.ofText file) = .ok content) ∧ id ∈ ids ∧
      ∃ r, IsRegistered t id r ∧ ¬user.IsBarredFrom r)) :
    EditsOnce t ids id field file user (.ofResult (.error fault)) t where
  succeeds := iff_of_false (by simp [code_ofResult_eq_zero_iff]) denied
  replaces h := by simp [code_ofResult_eq_zero_iff] at h
  frame _ _ := rfl
  records _ _ := rfl
  definitions _ := rfl
  fails _ := rfl

/-- A run that replaces a text does nothing else. -/
theorem EditsOnce.of_replaced {user : User} {content output : String} {item : Item}
    {now : Time.Instant} (holds : Holds store store.apis t c) (hids : ∀ x, x ∈ c ↔ x ∈ ids)
    (there : t.text (Path.ofText file) = .ok content) (hl : c.lookup id = some item)
    (allowed : ¬user.IsBarredFrom item.record)
    (holds' : Holds store store.apis t'
      (c.insert id { item with record := item.record.setContent field content now }))
    (frame : ∀ p, p ≠ store.apis ++ [id, recordFile] → t'.find? p = t.find? p) :
    EditsOnce t ids id field file user (.ofResult (.ok output)) t' where
  succeeds := by
    refine iff_of_true rfl ⟨⟨content, there⟩, (hids id).1 (AList.lookup_isSome.1 (by rw [hl]; rfl)),
      item.record, (isRegistered_iff_of_holds holds).2 ⟨item, hl, rfl⟩, allowed⟩
  replaces _ := by
    refine ⟨content, item.record, item.record.setContent field content now, there,
      (isRegistered_iff_of_holds holds).2 ⟨item, hl, rfl⟩,
      (isRegistered_iff_of_holds holds').2 ⟨_, AList.lookup_insert c, rfl⟩, ?_, fun other h => ?_,
      Record.id_setContent, ?_, ?_, ?_⟩
    · rw [Record.text?_setContent, if_pos rfl]
    · rw [Record.text?_setContent, if_neg h]
    all_goals cases field <;> rfl
  frame := frame
  records other h := holds.read_congr holds' (AList.lookup_insert_ne h)
  definitions other := by
    refine holds.fetch_congr holds' ?_
    by_cases h : other = id
    · rw [h, AList.lookup_insert, hl]
      rfl
    · rw [AList.lookup_insert_ne h]
  fails h := absurd rfl h

/-- **An edit from the command line replaces one text or does nothing.** In a working directory that
`init`, `add` and `edit` led to, with any configuration that can be read, it succeeds exactly for
texts in files, APIs that were added, and users who may edit them. The record has the text of the
file then, and everything else is as it was; if the edit fails, everything is. -/
theorem edit_changes_one_text {configuration : Configuration} (network : Definition.Network)
    (w : Workspace t ids) (sound : s.IsSound) (configured : Configured t configuration)
    (understood : ofWords words = .ok (.edit id field file)) :
    (∀ x, x ∈ ids ↔ ∃ r, IsRegistered t x r) ∧
      ∃ outcome t', t.run (runWords words s network) = (.ended outcome, t') ∧
        EditsOnce t ids id field file configuration.user outcome t' := by
  refine ⟨fun x => w.mem_iff_isRegistered, _, _, (run_runWords understood).trans run_edit, ?_⟩
  have loaded := run_loadConfiguration configured
  rcases w.standing with ⟨bare, rfl⟩ | ⟨c, holds, hids⟩
  · rw [bare.run_replaceText]
    exact .of_failed (by simp)
  · by_cases allowed : ∃ content item, t.text (Path.ofText file) = .ok content ∧
      c.lookup id = some item ∧ ¬configuration.user.IsBarredFrom item.record
    · obtain ⟨content, item, there, hl, allowed⟩ := allowed
      obtain ⟨output, t', hrun, holds', frame⟩ :=
        run_replaceText_of_allowed field holds sound loaded there hl allowed
      rw [hrun]
      exact .of_replaced holds hids there hl allowed holds' frame
    · obtain ⟨fault, hrun⟩ := run_replaceText_of_denied s field holds
        fun configuration' content item loaded' there hl => by
          obtain rfl : configuration = configuration' := by simpa [loaded] using loaded'
          by_contra free
          exact allowed ⟨content, item, there, hl, free⟩
      rw [hrun]
      refine .of_failed ?_
      rintro ⟨⟨content, there⟩, -, r, registered, free⟩
      obtain ⟨item, hl, rfl⟩ := (isRegistered_iff_of_holds holds).1 registered
      exact allowed ⟨content, item, there, hl, free⟩

/-- The default user edits an API that was added. The configuration is taken away, so that there is
no other user. -/
theorem edit_changes_one_text_of_added_api :
    let s : Surroundings := ⟨⟨⟨⟨2020, 1, 1⟩, 0, 0, 0, 0⟩, "1"⟩, "", none⟩
    let words := ["edit", "a", "--type", "description", "--from-file", "notes.txt"]
    ∃ t outcome t', Workspace t ["a"] ∧ s.IsSound ∧ Configured t .default ∧
      ofWords words = .ok (.edit "a" .description "notes.txt") ∧
        t.run (runWords words s .none) = (.ended outcome, t') ∧ outcome.code = 0 ∧
          EditsOnce t ["a"] "a" .description "notes.txt" .default outcome t' := by
  intro s words
  have sound : s.IsSound := ⟨by decide, isUsableTag_of_digits (by decide) (by simp [s])⟩
  have understood : ofWords words = .ok (.edit "a" .description "notes.txt") := by
    with_unfolding_all rfl
  have adds : ofWords ["add", "a", "--name", "N"] =
      .ok (.add ⟨some "a", "N", none, none, none, false⟩) := by
    with_unfolding_all rfl
  obtain ⟨t, w, prepared⟩ := exists_workspace adds sound rfl rfl (by decide)
  obtain ⟨content, hcontent⟩ : ∃ content, content = "Hello".toUTF8 := ⟨_, rfl⟩
  have notes : IsElsewhere ["notes.txt"] := by constructor <;> decide
  have w' := (w.written notes (.file content)).removed isElsewhere_configurationPath
  have prepared' : (t.insert ["notes.txt"] (.file content)).find? home = some .directory := by
    rw [(notes.sameStore_insert t _).home, prepared]
  have configured := configured_erase prepared'
  have there : ((t.insert ["notes.txt"] (.file content)).erase configurationPath).text
      (Path.ofText "notes.txt") = .ok "Hello" := by
    have path : Path.ofText "notes.txt" = [] ++ ["notes.txt"] :=
      ofText_of_noSlash (by decide) (by decide)
    refine FileTree.text_eq_ok_iff.2 (FileTree.bytes_eq_ok_iff.2 ⟨["notes.txt"], ?_, ?_⟩)
    · rw [path, FileTree.resolve_snoc_iff (by constructor <;> decide)]
      exact ⟨by constructor <;> decide, [], by simp [FileTree.resolve_eq_ok_iff],
        FileTree.find?_nil _, rfl⟩
    · rw [FileTree.find?_erase isElsewhere_configurationPath.ne_nil, if_neg (by decide),
        FileTree.find?_insert notes.ne_nil, if_pos rfl, hcontent]
  obtain ⟨hids, outcome, t', hrun, edits⟩ :=
    edit_changes_one_text .none w' sound configured understood
  obtain ⟨r, registered⟩ := (hids "a").1 (by simp)
  have free : ¬User.default.IsBarredFrom r := by
    cases hk : r.kind <;> simp [User.IsBarredFrom, hk, User.default]
  exact ⟨_, outcome, t', w', sound, configured, understood, hrun,
    edits.succeeds.2 ⟨⟨_, there⟩, by simp, r, registered, free⟩, edits⟩

end PublisherConsole.Command
