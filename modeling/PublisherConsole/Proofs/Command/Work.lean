import PublisherConsole.Command.Perform
import PublisherConsole.Proofs.Storage.Refinement

/-!
# What work does to a tree

Work is a script that may end with a fault, and what comes after the fault is left out. So a run of
work is followed step by step: `run_bind_of_ok` goes on behind a step that succeeds, and
`run_bind_of_error` ends with one that fails. Work that only reads (`Work.Reads`) leaves the tree
alone either way.

What each command begins with is here too: opening the store, the configuration (`Configured`), and
the files that are named on the command line.
-/

namespace PublisherConsole

open Storage

namespace Storage

variable {α β : Type}

theorem Script.andThen_done (w : Script α) : w.andThen .done = w := by
  induction w with
  | done a => rfl
  | step call next ih => exact congrArg (Script.step call) (funext ih)

theorem Script.andThen_assoc {γ : Type} (w : Script α) (k : α → Script β) (l : β → Script γ) :
    (w.andThen k).andThen l = w.andThen fun a => (k a).andThen l := by
  induction w with
  | done a => rfl
  | step call next ih => exact congrArg (Script.step call) (funext ih)

instance : LawfulMonad Script :=
  LawfulMonad.mk' Script Script.andThen_done (fun _ _ => rfl) Script.andThen_assoc

theorem FileTree.run_map {t : FileTree} (f : α → β) (w : Script α) :
    t.run (f <$> w) = (f (t.run w).1, (t.run w).2) := by
  rw [map_eq_pure_bind, run_bind, run_pure]

end Storage

namespace Command

namespace Work

variable {α β ε : Type} {t t' : FileTree} {w : Work α} {k : α → Work β} {a : α} {fault : Fault}

/-- Work goes on behind a step that succeeds. -/
theorem run_bind_of_ok (h : t.run w.run = (.ok a, t')) :
    t.run (w >>= k).run = t'.run (k a).run := by
  rw [ExceptT.run_bind, FileTree.run_bind, h]

/-- A fault ends the work. -/
theorem run_bind_of_error (h : t.run w.run = (.error fault, t')) :
    t.run (w >>= k).run = (.error fault, t') := by
  rw [ExceptT.run_bind, FileTree.run_bind, h]
  rfl

@[simp] theorem run_pure (a : α) : t.run (pure a : Work α).run = (.ok a, t) := rfl

@[simp] theorem run_lift (s : Script α) :
    t.run (ExceptT.lift s : Work α).run = (.ok (t.run s).1, (t.run s).2) := by
  rw [ExceptT.run_lift, FileTree.run_map]

@[simp] theorem run_attempt (toFault : ε → Fault) (s : Script (Except ε α)) :
    t.run (attempt toFault s).run = ((t.run s).1.mapError toFault, (t.run s).2) := by
  rw [attempt, ExceptT.run_mk, FileTree.run_bind]
  cases (t.run s).1 <;> rfl

/-- What succeeds is passed on. -/
theorem run_attempt_of_ok {toFault : ε → Fault} {s : Script (Except ε α)}
    (h : t.run s = (.ok a, t')) : t.run (attempt toFault s).run = (.ok a, t') := by
  rw [run_attempt, h]
  rfl

/-- What fails is passed on as a fault of the command. -/
theorem run_attempt_of_error {toFault : ε → Fault} {s : Script (Except ε α)} {cause : ε}
    (h : t.run s = (.error cause, t')) :
    t.run (attempt toFault s).run = (.error (toFault cause), t') := by
  rw [run_attempt, h]
  rfl

@[simp] theorem run_check (toFault : ε → Fault) (r : Except ε α) :
    t.run (check toFault r).run = (r.mapError toFault, t) := by
  cases r <;> rfl

/-! ### Reading -/

/-- Work that leaves every tree alone. -/
def Reads (w : Work α) : Prop := ∀ t : FileTree, (t.run w.run).2 = t

/-- Reading succeeds or fails on the tree that is there. -/
theorem Reads.run (h : w.Reads) (t : FileTree) :
    (∃ a, t.run w.run = (.ok a, t)) ∨ ∃ fault, t.run w.run = (.error fault, t) := by
  have ht := h t
  rcases hrun : t.run w.run with ⟨a | fault, t'⟩ <;> rw [hrun] at ht <;> cases ht
  · exact .inr ⟨_, rfl⟩
  · exact .inl ⟨_, rfl⟩

theorem reads_pure (a : α) : (pure a : Work α).Reads := fun _ => rfl

theorem reads_check (toFault : ε → Fault) (r : Except ε α) : (check toFault r).Reads := by
  intro t
  rw [run_check]

theorem Reads.bind (h : w.Reads) (hk : ∀ a, (k a).Reads) : (w >>= k).Reads := by
  intro t
  rcases h.run t with ⟨a, hrun⟩ | ⟨fault, hrun⟩
  · rw [run_bind_of_ok hrun]
    exact hk a t
  · rw [run_bind_of_error hrun]

theorem Reads.map (h : w.Reads) (f : α → β) : (f <$> w).Reads := by
  rw [map_eq_pure_bind]
  exact h.bind fun _ => reads_pure _

end Work

variable {t : FileTree}

/-! ### Files that are named -/

/-- A text without slashes is one name. -/
theorem ofText_of_noSlash {name : String} (h : name ≠ "") (noSlash : '/' ∉ name.toList) :
    Path.ofText name = [name] := by
  have hhead : name.toList.head? ≠ some '/' := fun hh => noSlash (List.mem_of_head? hh)
  have hlast : name.toList.getLast? ≠ some '/' := fun hl => noSlash (List.mem_of_getLast? hl)
  have hlist : name.toList ≠ [] := fun hl => h (String.toList_inj.1 hl)
  rw [Path.ofText, if_neg h, if_neg hhead, if_neg hlast, Path.names,
    List.splitOn_eq_singleton noSlash]
  simp [hlist]

theorem run_readFile (name : String) :
    t.run (readFile name).run = ((t.text (Path.ofText name)).mapError (.file name), t) := by
  rw [readFile, Work.run_attempt, FileTree.run_readText]

/-- A file that is a text is read. -/
theorem run_readFile_of_text {name content : String} (h : t.text (Path.ofText name) = .ok content) :
    t.run (readFile name).run = (.ok content, t) := by
  rw [run_readFile, h]
  rfl

theorem reads_readFile (name : String) : (readFile name).Reads := by
  intro t
  rw [run_readFile]

theorem reads_readFile? (name : Option String) : (readFile? name).Reads := by
  cases name with
  | none => exact Work.reads_pure none
  | some name => exact (reads_readFile name).map some

theorem reads_readDefinition (name : String) : (readDefinition name).Reads :=
  (reads_readFile name).bind fun text =>
    (Work.reads_check _ _).bind fun _ => Work.reads_pure text

/-! ### The configuration -/

/-- The configuration that a tree gives: that of the file, or the default one if there is none. -/
inductive Configured (t : FileTree) : Configuration → Prop
  | byDefault (absent : t.entryAt? configurationPath = none) : Configured t .default
  | byFile {text : String} {c : Configuration} (there : t.text configurationPath = .ok text)
      (reads : Configuration.ofText text = .ok c) : Configured t c

theorem run_loadConfiguration {c : Configuration} (h : Configured t c) :
    t.run loadConfiguration.run = (.ok c, t) := by
  rw [loadConfiguration, Work.run_attempt, Configuration.loadOrDefault, FileTree.run_bind,
    FileTree.run_exists?]
  cases h with
  | byDefault absent =>
    simp only [absent, Option.isSome_none, Bool.false_eq_true, if_false]
    rfl
  | byFile there reads =>
    obtain ⟨q, hq, hf⟩ := FileTree.bytes_eq_ok_iff.1 (FileTree.text_eq_ok_iff.1 there)
    simp only [FileTree.entryAt?_of_resolve hq, hf, Option.isSome_some, if_true,
      Configuration.load, FileTree.run_bind, FileTree.run_readText, there, reads]
    rfl

theorem reads_loadConfiguration : loadConfiguration.Reads := by
  intro t
  rw [loadConfiguration, Work.run_attempt, Configuration.loadOrDefault, FileTree.run_bind,
    FileTree.run_exists?]
  dsimp only
  split
  · rw [Configuration.load, FileTree.run_bind, FileTree.run_readText]
    dsimp only
    split
    · rfl
    · split <;> rfl
  · rfl

/-! ### The store -/

theorem isPlain_apidesk : IsPlain ".apidesk" := by constructor <;> decide

theorem isUsable_apidesk : IsUsable ".apidesk" := by constructor <;> decide

theorem isPlain_apis : IsPlain "apis" := by constructor <;> decide

theorem isUsable_apis : IsUsable "apis" := by constructor <;> decide

theorem resolve_home : t.resolve home = .ok home :=
  (FileTree.resolve_snoc_iff (p := []) isPlain_apidesk).2
    ⟨isUsable_apidesk, [], by simp [FileTree.resolve_eq_ok_iff], FileTree.find?_nil t, rfl⟩

/-- The directory of all APIs lies where its path says, once there is one above it. -/
theorem resolve_apis_iff :
    t.resolve store.apis = .ok store.apis ↔ t.find? home = some .directory := by
  rw [FileStore.apis, FileTree.resolve_snoc_iff isPlain_apis]
  constructor
  · rintro ⟨-, d, hd, hdir, -⟩
    obtain rfl : home = d := by simpa [store, resolve_home] using hd
    exact hdir
  · intro hdir
    exact ⟨isUsable_apis, home, resolve_home, hdir, rfl⟩

/-- Without the subdirectory there is no store to open. -/
theorem run_openStore_of_missing (h : t.find? home = none) :
    t.run openStore.run = (.error .notPrepared, t) := by
  rw [openStore, Work.run_bind_of_ok (Work.run_lift _), FileTree.run_exists?,
    FileTree.entryAt?_of_resolve resolve_home, h]
  rfl

/-- Where the directories are made, nothing happens. -/
theorem run_prepare_of_directory (h : t.resolve store.apis = .ok store.apis)
    (there : t.find? store.apis = some .directory) : t.run store.prepare = (.ok (), t) := by
  rw [FileStore.prepare, FileTree.run_bind, FileTree.run_makeDirectories_of_directory h there]
  rfl

/-- A store whose directories are made is opened. -/
theorem run_openStore_of_directory (h : t.resolve store.apis = .ok store.apis)
    (there : t.find? store.apis = some .directory) : t.run openStore.run = (.ok store, t) := by
  have hprepare : t.run (Work.attempt .storage store.prepare).run = (.ok (), t) :=
    Work.run_attempt_of_ok (run_prepare_of_directory h there)
  rw [openStore, Work.run_bind_of_ok (Work.run_lift _), FileTree.run_exists?,
    FileTree.entryAt?_of_resolve resolve_home, resolve_apis_iff.1 h]
  exact (Work.run_bind_of_ok hprepare).trans (Work.run_pure store)

end Command

end PublisherConsole
