import PublisherConsole.Proofs.Command.Effects

/-!
# Working directories

`Workspace t ids` says that `init`, `add` and `edit`, called in any order and with any arguments,
can lead to the tree `t`, and that `ids` are the identifiers that were added on the way. Between the
calls anything may happen outside the store; the configuration is outside.

One command keeps what there is of a store (`IsBare.step`, `Keeps.step`), and so do any number of
them (`Workspace.standing`). What is registered then are the APIs that were added
(`Workspace.mem_iff_isRegistered`).
-/

namespace PublisherConsole.Command

open Storage FileStore

/-- The commands that change a store. -/
inductive Writes : Command → Prop
  | init : Writes .init
  | add (r : Registration) : Writes (.add r)
  | edit (id : String) (field : TextField) (file : String) : Writes (.edit id field file)

/-- The identifier that a run registers, if it does. -/
def added (command : Command) (s : Surroundings) (outcome : Outcome) : List String :=
  match command with
  | .add r => if outcome.code = 0 then [r.id.getD s.freshId] else []
  | _ => []

/-- The working directories that commands lead to, with the identifiers of the APIs that were added.
Between the commands, anything may happen outside the store. -/
inductive Workspace : FileTree → List String → Prop
  | fresh {t : FileTree} (bare : ∀ p, t.find? (home ++ p) = none) : Workspace t []
  | written {t : FileTree} {ids : List String} {p : Path} (w : Workspace t ids)
      (h : IsElsewhere p) (e : Entry) : Workspace (t.insert p e) ids
  | removed {t : FileTree} {ids : List String} {p : Path} (w : Workspace t ids)
      (h : IsElsewhere p) : Workspace (t.erase p) ids
  | ran {t t' : FileTree} {ids words : List String} {command : Command} {s : Surroundings}
      {network : Definition.Network} {outcome : Outcome} (w : Workspace t ids)
      (understood : ofWords words = .ok command) (writes : Writes command) (sound : s.IsSound)
      (run : t.run (runWords words s network) = (.ended outcome, t')) :
      Workspace t' (ids ++ added command s outcome)

variable {t t' : FileTree} {ids words : List String} {s : Surroundings}
  {network : Definition.Network} {c : Catalogue} {id file : String} {field : TextField}

/-- A store keeps the APIs with the given identifiers. -/
def Keeps (t : FileTree) (ids : List String) : Prop :=
  ∃ c, Holds store store.apis t c ∧ ∀ id, id ∈ c ↔ id ∈ ids

/-! ### One command -/

/-- Words that are understood do what their command does. -/
theorem run_runWords {command : Command} (understood : ofWords words = .ok command) :
    t.run (runWords words s network) = t.run (command.perform s network) := by
  rw [runWords, understood]

theorem run_init : t.run (perform .init s network) =
    (.ended (.ofResult (t.run setUp.run).1), (t.run setUp.run).2) := by
  rw [perform, FileTree.run_bind]
  rfl

theorem run_add (r : Registration) : t.run (perform (.add r) s network) =
    (.ended (.ofResult (t.run (register r s).run).1), (t.run (register r s).run).2) := by
  rw [perform, FileTree.run_bind]
  rfl

theorem run_edit : t.run (perform (.edit id field file) s network) =
    (.ended (.ofResult (t.run (replaceText id field file s).run).1),
      (t.run (replaceText id field file s).run).2) := by
  rw [perform, FileTree.run_bind]
  rfl

theorem code_ofResult_eq_zero_iff {result : Except Fault String} :
    (Outcome.ofResult result).code = 0 ↔ ∃ output, result = .ok output := by
  cases result <;> simp [Outcome.ofResult, Outcome.success, Outcome.failure]

/-- Without a store there is nothing to add to and nothing to edit. -/
theorem IsBare.run_register (h : IsBare t) (r : Registration) :
    t.run (register r s).run = (.error .notPrepared, t) := by
  rw [register_eq, Work.run_bind_of_error (run_openStore_of_missing h.home)]

theorem IsBare.run_replaceText (h : IsBare t) :
    t.run (replaceText id field file s).run = (.error .notPrepared, t) := by
  rw [replaceText, Work.run_bind_of_error (run_openStore_of_missing h.home)]

/-- Before the store is set up, a command sets it up or leaves everything as it is. -/
theorem IsBare.step {command : Command} {outcome : Outcome} (h : IsBare t) (writes : Writes command)
    (run : t.run (command.perform s network) = (.ended outcome, t')) :
    added command s outcome = [] ∧ (IsBare t' ∨ Keeps t' []) := by
  cases writes with
  | init =>
    obtain ⟨t₁, prepared, holds⟩ := run_prepare_of_isBare h
    obtain ⟨output, t₂, hrun, holds⟩ := run_setUp_of_prepare prepared holds
    rw [run_init, hrun] at run
    cases run
    exact ⟨rfl, .inr ⟨∅, holds, by simp⟩⟩
  | add r =>
    rw [run_add, h.run_register] at run
    cases run
    exact ⟨rfl, .inl h⟩
  | edit id field file =>
    rw [run_edit, h.run_replaceText] at run
    cases run
    exact ⟨rfl, .inl h⟩

/-- A command keeps the store, and adds the API that it says it adds. -/
theorem Keeps.step {command : Command} {outcome : Outcome} (h : Keeps t ids)
    (writes : Writes command) (sound : s.IsSound)
    (run : t.run (command.perform s network) = (.ended outcome, t')) :
    Keeps t' (ids ++ added command s outcome) := by
  obtain ⟨c, holds, hids⟩ := h
  cases writes with
  | init =>
    obtain ⟨output, t₂, hrun, holds⟩ :=
      run_setUp_of_prepare (run_prepare_of_directory holds.apis holds.find?_place) holds
    rw [run_init, hrun] at run
    cases run
    exact ⟨c, holds, by simpa [added] using hids⟩
  | add r =>
    rw [run_add] at run
    rcases run_register holds sound r with ⟨-, output, t₂, item, hrun, holds'⟩ | ⟨-, fault, hrun⟩
    · rw [hrun] at run
      cases run
      refine ⟨_, holds', fun x => ?_⟩
      simp [added, Outcome.ofResult, Outcome.success, AList.mem_insert, hids, or_comm]
    · rw [hrun] at run
      cases run
      exact ⟨c, holds, by simpa [added, Outcome.ofResult, Outcome.failure] using hids⟩
  | edit id field file =>
    rw [run_edit] at run
    -- What happens depends on the configuration, which may be anything here.
    by_cases allowed : ∃ configuration content item,
        t.run loadConfiguration.run = (.ok configuration, t) ∧
          t.text (Path.ofText file) = .ok content ∧ c.lookup id = some item ∧
            ¬configuration.user.IsBarredFrom item.record
    · obtain ⟨configuration, content, item, loaded, there, hl, allowed⟩ := allowed
      obtain ⟨output, t₂, hrun, holds', -⟩ :=
        run_replaceText_of_allowed field holds sound loaded there hl allowed
      rw [hrun] at run
      cases run
      refine ⟨_, holds', fun x => ?_⟩
      have hmem : id ∈ c := AList.lookup_isSome.1 (by rw [hl]; rfl)
      have none_added : ids ++ added (.edit id field file) s (.ofResult (.ok output)) = ids :=
        List.append_nil ids
      rw [AList.mem_insert, none_added, ← hids]
      exact or_iff_right_of_imp fun hx => hx ▸ hmem
    · obtain ⟨fault, hrun⟩ := run_replaceText_of_denied s field holds
        fun configuration content item loaded there hl => by
          by_contra free
          exact allowed ⟨configuration, content, item, loaded, there, hl, free⟩
      rw [hrun] at run
      cases run
      exact ⟨c, holds, by simpa [added] using hids⟩

/-- A working directory has no store yet, or one that keeps the APIs that were added. -/
theorem Workspace.standing (w : Workspace t ids) : IsBare t ∧ ids = [] ∨ Keeps t ids := by
  induction w with
  | fresh bare => exact .inl ⟨⟨by simpa using bare [], fun p => bare ("apis" :: p)⟩, rfl⟩
  | @written t ids p w h e ih =>
    have same := h.sameStore_insert t e
    rcases ih with ⟨bare, hids⟩ | ⟨c, holds, hids⟩
    · exact .inl ⟨same.isBare bare, hids⟩
    · exact .inr ⟨c, same.holds holds, hids⟩
  | @removed t ids p w h ih =>
    have same := h.sameStore_erase t
    rcases ih with ⟨bare, hids⟩ | ⟨c, holds, hids⟩
    · exact .inl ⟨same.isBare bare, hids⟩
    · exact .inr ⟨c, same.holds holds, hids⟩
  | ran w understood writes sound run ih =>
    rw [run_runWords understood] at run
    rcases ih with ⟨bare, hids⟩ | keeps
    · obtain ⟨hadded, bare' | keeps'⟩ := bare.step writes run
      · exact .inl ⟨bare', by rw [hids, hadded]; rfl⟩
      · exact .inr (by rwa [hids, hadded])
    · exact .inr (keeps.step writes sound run)

/-- After `init`, an API with a safe identifier can be added, here one without files. -/
theorem exists_workspace {r : Registration} (adds : ofWords words = .ok (.add r))
    (sound : s.IsSound) (overview : r.overviewFile = none) (definition : r.definitionFile = none)
    (safe : isValidId (r.id.getD s.freshId) = true) :
    ∃ t, Workspace t [r.id.getD s.freshId] ∧ t.find? home = some .directory := by
  have fresh : ∀ p, FileTree.empty.find? (home ++ p) = none := fun p => rfl
  obtain ⟨t₀, prepared, holds⟩ := run_prepare_of_isBare ⟨fresh [], fun p => fresh ("apis" :: p)⟩
  obtain ⟨output, t₁, hrun, holds⟩ := run_setUp_of_prepare prepared holds
  have init : FileTree.empty.run (runWords ["init"] s .none) = (.ended (.success output), t₁) := by
    rw [run_runWords rfl, run_init, hrun]
    rfl
  have w₁ : Workspace t₁ [] := (Workspace.fresh fresh).ran rfl .init sound init
  rcases run_register holds sound r with ⟨-, output, t₂, item, hrun, holds⟩ | ⟨refused, -⟩
  · have add : t₁.run (runWords words s .none) = (.ended (.success output), t₂) := by
      rw [run_runWords adds, run_add, hrun]
      rfl
    exact ⟨t₂, w₁.ran adds (.add r) sound add, resolve_apis_iff.1 holds.apis⟩
  · refine absurd ⟨⟨none, ?_⟩, ⟨none, ?_⟩, safe, AList.notMem_empty _⟩ refused
    · rw [overview]
      rfl
    · rw [definition]
      rfl

/-! ### Records -/

/-- The record that is registered under an identifier: the one in its file. -/
def IsRegistered (t : FileTree) (id : String) (r : Record) : Prop :=
  ∃ text : String, t.find? (store.apis ++ [id, recordFile]) = some (.file text.toUTF8) ∧
    Record.ofText text = .ok r

theorem IsBare.not_isRegistered {r : Record} (h : IsBare t) : ¬IsRegistered t id r := by
  rintro ⟨text, hfile, -⟩
  rw [h.apis] at hfile
  cases hfile

theorem isRegistered_iff_of_holds {r : Record} (h : Holds store store.apis t c) :
    IsRegistered t id r ↔ ∃ item, c.lookup id = some item ∧ item.record = r := by
  have hentry := h.entries [id, recordFile]
  constructor
  · rintro ⟨text, hfile, hr⟩
    rw [hentry] at hfile
    cases hl : c.lookup id with
    | none => simp [hl] at hfile
    | some item =>
      obtain ⟨-, -, hvalid⟩ := h.items id item hl
      obtain rfl : item.record.toText = text := by
        simpa [hl, String.toByteArray_inj] using hfile
      exact ⟨item, rfl, by simpa [Record.ofText_toText hvalid] using hr⟩
  · rintro ⟨item, hl, rfl⟩
    obtain ⟨-, -, hvalid⟩ := h.items id item hl
    exact ⟨item.record.toText, by simp [hentry, hl],
      Record.ofText_toText hvalid⟩

/-- What is registered are the APIs that were added. -/
theorem Workspace.mem_iff_isRegistered (w : Workspace t ids) :
    id ∈ ids ↔ ∃ r, IsRegistered t id r := by
  rcases w.standing with ⟨bare, rfl⟩ | ⟨c, holds, hids⟩
  · simp [bare.not_isRegistered]
  · simp only [← hids, isRegistered_iff_of_holds holds, ← AList.lookup_isSome,
      Option.isSome_iff_exists]
    constructor
    · rintro ⟨item, hl⟩
      exact ⟨_, item, hl, rfl⟩
    · rintro ⟨r, item, hl, -⟩
      exact ⟨item, hl⟩

end PublisherConsole.Command
