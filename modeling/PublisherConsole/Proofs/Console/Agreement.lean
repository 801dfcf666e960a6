import PublisherConsole.Proofs.Console.Archive
import PublisherConsole.Proofs.Console.Saving

/-!
# The console agrees with its store

An `Office` is a desk whose saves are calls to an archive. What can happen there (`Office.Reach`) is
whatever can happen to the desk, and the answers of the archive, which come at any time while a save
runs.

The console has an old record as long as an answer is on its way. The invariant
(`Office.Agrees`) is therefore about the record that the console comes to have
(`Desk.comingRecord`): at every time it is the one in the archive, and has the texts that were saved
last. Without an open save it is the record of the console, which gives the main statement,
`record_agrees_with_store`.
-/

namespace PublisherConsole

/-- What the archive has answered to a call, once it has. The host knows running work by it. -/
abbrev Reply := Option (Except Storage.Fault Record)

/-- How the archive has answered work so far. -/
def Progress.reply : Progress Reply (Except Storage.Fault Record) → Reply
  | .waiting => none
  | .running reply => reply
  | .finished outcome => some outcome

namespace Record

variable {r : Record} {saved : List SaveRequest} {f : TextField}

/-- The record that a console has after a reply. -/
def after (r : Record) : Reply → Record
  | some (.ok new) => new
  | _ => r

/-- The text that was saved last, or the one of the record if none was. -/
def textAfter (r : Record) (saved : List SaveRequest) (f : TextField) : Option String :=
  ((saved.filter fun q => q.pending.field = f).getLast?.map (·.pending.content)).or (r.text? f)

@[simp] theorem textAfter_nil : r.textAfter [] f = r.text? f := rfl

theorem textAfter_concat (q : SaveRequest) :
    r.textAfter (saved ++ [q]) f =
      if f = q.pending.field then some q.pending.content else r.textAfter saved f := by
  unfold textAfter
  rw [List.filter_append]
  by_cases h : f = q.pending.field
  · subst h
    simp
  · simp [h, Ne.symm h]

end Record

/-- What an answer adds to the saves that were carried out. -/
def SaveRequest.logged (q : SaveRequest) : Except Storage.Fault Record → List SaveRequest
  | .ok _ => [q]
  | .error _ => []

/-! ### The record that comes -/

namespace App

variable {a b : App}

theorem Reaction.record_eq {saved : Option SaveRequest} (h : Reaction a b saved) :
    b.record = a.record := by
  cases h with
  | rests same => exact record_of_dialog same
  | opens _ _ _ record => exact record
  | types _ _ _ record => exact record
  | cancels _ _ record => exact record
  | saves _ _ _ record => exact record

/-- The outcome of the save that a dialog waits for brings in its record. -/
theorem Coherent.record_completeSave (h : a.Coherent) {q : SaveRequest}
    (hq : a.saveUnderWay? = some q) (outcome : Except Storage.Fault Record) :
    (a.completeSave q.pending.field outcome).record = a.record.after (some outcome) := by
  obtain ⟨opened, hp⟩ := h.of_saveUnderWay? hq
  cases outcome with
  | ok r => exact (opened.completeSave_ok hp r).2.1
  | error fault => exact (opened.completeSave_error hp fault).2.2.1

end App

/-- The record that the replies make of a record, one after the other. -/
def Tasks.recordAfter (tasks : List (SaveTask Reply)) (r : Record) : Record :=
  tasks.foldl (fun r task => r.after task.progress.reply) r

/-- Progress that makes no difference to the record. -/
theorem Tasks.recordAfter_modify (tasks : List (SaveTask Reply)) (i : Nat) (r : Record)
    (g : Progress Reply (Except Storage.Fault Record) →
      Progress Reply (Except Storage.Fault Record))
    (h : ∀ task, tasks[i]? = some task →
      ∀ r : Record, r.after (g task.progress).reply = r.after task.progress.reply) :
    recordAfter (tasks.modify i fun task => { task with progress := g task.progress }) r =
      recordAfter tasks r := by
  induction tasks generalizing i r with
  | nil => simp
  | cons task rest ih =>
    cases i with
    | zero =>
      simp only [List.modify_zero_cons, recordAfter, List.foldl_cons]
      rw [h task rfl r]
    | succ i =>
      simp only [List.modify_succ_cons, recordAfter, List.foldl_cons]
      exact ih i _ fun task' htask' => h task' htask'

namespace Desk

variable {d : Desk Reply}

/-- The record that the console has once it has taken the replies that are on their way. -/
def comingRecord (d : Desk Reply) : Record := Tasks.recordAfter d.tasks.saves d.app.record

/-- What the host may do. A save that it starts has no answer yet; a save that it ends has the
outcome that was answered, or it broke off before the call and has failed. -/
def Admits (d : Desk Reply) : Step Reply → Prop
  | .startSave _ reply => reply = none
  | .finishSave i outcome =>
    ∀ q reply, d.tasks.saves[i]? = some ⟨q, .running reply⟩ →
      some outcome = reply ∨ (reply = none ∧ ∃ fault, outcome = .error fault)
  | _ => True

/-- The answer to a save that runs. -/
def answer (d : Desk Reply) (i : Nat) (outcome : Except Storage.Fault Record) : Desk Reply :=
  { d with tasks := d.tasks.modifySave i fun _ => .running (some outcome) }

/-- A collection hands over nothing, or the one save, which has finished. -/
theorem Sound.collect_cases (h : d.Sound) :
    (d.collect.tasks.saves = d.tasks.saves ∧ d.collect.app.record = d.app.record) ∨
      ∃ q outcome, d.tasks.saves = [⟨q, .finished outcome⟩] ∧ d.collect.tasks.saves = [] ∧
        d.collect.app.record = d.app.record.after (some outcome) := by
  obtain ⟨hunder, -⟩ := collectLoads_keeps d.tasks.loads d.app
  have hcoherent := coherent_collectLoads h.coherent d.tasks.loads
  have hrecord := App.record_of_dialog (dialog_collectLoads d.tasks.loads d.app).1
  simp only [Desk.collect, Tasks.collect]
  generalize (Tasks.collectLoads d.tasks.loads d.app).2 = a at hunder hcoherent hrecord
  rcases h.cases with ⟨-, -, ht⟩ | ⟨q, -, -, ht⟩ | ⟨⟨q, progress⟩, hu, -, ht⟩
  · rw [ht]
    exact .inl ⟨rfl, hrecord⟩
  · rw [ht]
    exact .inl ⟨rfl, hrecord⟩
  · rw [ht]
    cases progress with
    | waiting => exact .inl ⟨rfl, hrecord⟩
    | running reply => exact .inl ⟨rfl, hrecord⟩
    | finished outcome =>
      refine .inr ⟨q, outcome, rfl, rfl, ?_⟩
      rw [← hrecord]
      exact hcoherent.record_completeSave (hunder.trans hu) outcome

/-- Only a collection changes the record of the console, to the one that comes. -/
theorem Sound.record_step (h : d.Sound) (s : Step Reply) :
    (d.step s).app.record = d.app.record ∨ (d.step s).app.record = d.comingRecord := by
  cases s with
  | event e => exact .inl (h.coherent.reaction e).record_eq
  | previewWidth width => exact .inl (App.resizePreview_keeps width).2.1
  | spawn => exact .inl rfl
  | collect =>
    rcases h.collect_cases with ⟨-, hr⟩ | ⟨q, outcome, ht, -, hr⟩
    · exact .inl hr
    · refine .inr (hr.trans ?_)
      simp only [comingRecord, ht]
      rfl
  | startLoad | startSave | finishLoad | breakLoad | finishSave => exact .inl rfl

/-- **Nothing that the host does changes the record that comes.** -/
theorem Sound.comingRecord_step (h : d.Sound) {s : Step Reply} (hs : d.Admits s) :
    (d.step s).comingRecord = d.comingRecord := by
  cases s with
  | event e =>
    have hr : (d.app.handle e).record = d.app.record := (h.coherent.reaction e).record_eq
    simp only [comingRecord, Desk.step, modifyApp, hr]
  | previewWidth width =>
    have hr := (App.resizePreview_keeps (a := d.app) width).2.1
    simp only [comingRecord, Desk.step, modifyApp, hr]
  | spawn =>
    -- A save that was just taken over has no reply.
    simp only [comingRecord, Desk.step, Desk.spawn, Tasks.spawn]
    cases d.app.pendingSave with
    | none => rfl
    | some q =>
      simp only [Tasks.recordAfter, List.foldl_append]
      rfl
  | collect =>
    rcases h.collect_cases with ⟨ht, hr⟩ | ⟨q, outcome, ht, hnone, hr⟩
    · simp only [comingRecord, Desk.step, ht, hr]
    · simp only [comingRecord, Desk.step, ht, hnone, hr]
      rfl
  | startSave i reply =>
    obtain rfl : reply = none := hs
    apply Tasks.recordAfter_modify
    intro task _ r
    cases task.progress <;> rfl
  | finishSave i outcome =>
    apply Tasks.recordAfter_modify
    rintro ⟨q, progress⟩ htask r
    cases progress with
    | running reply =>
      rcases hs q reply htask with houtcome | ⟨hnone, fault, houtcome⟩
      · subst houtcome
        rfl
      · subst hnone houtcome
        rfl
    | waiting => rfl
    | finished => rfl
  | startLoad | finishLoad | breakLoad => rfl

/-- A save that runs is the only one, and is meant for the record of the console. -/
theorem Sound.of_running (h : d.Sound) {i : Nat} {q : SaveRequest} {reply : Reply}
    (hi : d.tasks.saves[i]? = some ⟨q, .running reply⟩) :
    i = 0 ∧ d.tasks.saves = [⟨q, .running reply⟩] ∧ q.apiId = d.app.record.id := by
  rcases h.cases with ⟨-, -, ht⟩ | ⟨_, -, -, ht⟩ | ⟨task, hu, -, ht⟩
  · simp [ht] at hi
  · simp [ht] at hi
  · rw [ht] at hi
    cases i with
    | zero =>
      obtain rfl : task = ⟨q, .running reply⟩ := by simpa using hi
      exact ⟨rfl, ht, (App.saveUnderWay?_eq_some_iff.1 hu).2⟩
    | succ i => simp at hi

theorem Sound.answer (h : d.Sound) (i : Nat) (outcome : Except Storage.Fault Record) :
    (d.answer i outcome).Sound := by
  refine ⟨h.coherent, ?_⟩
  simpa only [Desk.answer, openSaves, Tasks.request_modifySave] using h.saves

/-- An answer brings in its record. -/
theorem Sound.comingRecord_answer (h : d.Sound) {i : Nat} {q : SaveRequest}
    (hi : d.tasks.saves[i]? = some ⟨q, .running none⟩) (outcome : Except Storage.Fault Record) :
    d.comingRecord = d.app.record ∧
      (d.answer i outcome).comingRecord = d.app.record.after (some outcome) := by
  obtain ⟨rfl, ht, -⟩ := h.of_running hi
  constructor
  · simp only [comingRecord, ht]
    rfl
  · simp only [comingRecord, Desk.answer, Tasks.modifySave, ht]
    rfl

/-- Without an open save the console has the record that comes. -/
theorem comingRecord_of_idle (h : d.openSaves = []) : d.comingRecord = d.app.record := by
  unfold openSaves at h
  obtain ⟨-, ht⟩ := List.append_eq_nil_iff.1 h
  rw [List.map_eq_nil_iff] at ht
  rw [comingRecord, ht]
  rfl

end Desk

/-! ### Runs -/

/-- A desk and the state of the archive that its saves are calls to. -/
structure Office (σ : Type) where
  desk : Desk Reply
  archive : σ

namespace Office

variable {σ : Type} {A : Archive σ} {start o : Office σ} {record : Record} {x : σ}
  {saved : List SaveRequest}

/-- The office of a console that was just started. -/
def new (record : Record) (user : User) (x : σ) : Office σ := ⟨.new record user, x⟩

/-- What can come of an office, with the saves that the archive carries out on the way. Nobody else
writes to the archive. -/
inductive Reach (A : Archive σ) (start : Office σ) : Office σ → List SaveRequest → Prop
  | refl : Reach A start start []
  /-- Something happens at the desk. -/
  | host {o : Office σ} {saved : List SaveRequest} (s : Step Reply) :
      Reach A start o saved → o.desk.Admits s → Reach A start ⟨o.desk.step s, o.archive⟩ saved
  /-- The archive answers a save that runs. -/
  | call {o : Office σ} {saved : List SaveRequest} {q : SaveRequest}
      {outcome : Except Storage.Fault Record} {y : σ} (i : Nat) :
      Reach A start o saved → o.desk.tasks.saves[i]? = some ⟨q, .running none⟩ →
      A.Updates o.archive q outcome y →
      Reach A start ⟨o.desk.answer i outcome, y⟩ (saved ++ q.logged outcome)

/-- Events may come at any time. -/
theorem Reach.events (h : Reach A start o saved) (es : List Event) :
    Reach A start ⟨o.desk.run (es.map .event), o.archive⟩ saved := by
  induction es generalizing o with
  | nil => exact h
  | cons e es ih => exact ih (h.host (.event e) trivial)

/-- The way of a queued save: it is taken over, started, answered, ended and handed over. -/
theorem Reach.save (h : Reach A start o saved) {q : SaveRequest}
    {outcome : Except Storage.Fault Record} {y : σ} (pending : o.desk.app.pendingSave = some q)
    (idle : o.desk.tasks.saves = []) (hu : A.Updates o.archive q outcome y) :
    Reach A start
      ⟨((o.desk.run [.spawn, .startSave 0 none]).answer 0 outcome).run
        [.finishSave 0 outcome, .collect], y⟩ (saved ++ q.logged outcome) := by
  have started := (h.host .spawn trivial).host (.startSave 0 none) rfl
  have running : ((o.desk.step .spawn).step (.startSave 0 none)).tasks.saves =
      [⟨q, .running none⟩] := by
    simp only [Desk.step, Desk.spawn, Tasks.spawn, Tasks.modifySave, pending, idle]
    rfl
  have answered := started.call 0 (by simp only [running]; rfl) hu
  refine (answered.host (.finishSave 0 outcome) ?_).host .collect trivial
  intro r reply hr
  simp only [Desk.answer, Tasks.modifySave, running] at hr
  cases hr
  exact .inl rfl

/-! ### The agreement -/

/-- The archive and the saves that it carried out agree with the record that comes. -/
structure Agrees (A : Archive σ) (record : Record) (x : σ) (o : Office σ)
    (saved : List SaveRequest) : Prop where
  sound : o.desk.Sound
  own : o.desk.app.record.id = record.id
  id : o.desk.comingRecord.id = record.id
  stored : A.record? o.archive record.id = some o.desk.comingRecord
  texts : ∀ f, o.desk.comingRecord.text? f = record.textAfter saved f
  /-- The other records in the archive are as they were. -/
  others : ∀ id, id ≠ record.id → A.record? o.archive id = A.record? x id

theorem agrees_new (kept : A.record? x record.id = some record) (user : User) :
    Agrees A record x (.new record user x) [] where
  sound := Desk.sound_new record user
  own := rfl
  id := rfl
  stored := kept
  texts _ := rfl
  others _ _ := rfl

theorem Agrees.host (h : Agrees A record x o saved) {s : Step Reply} (hs : o.desk.Admits s) :
    Agrees A record x ⟨o.desk.step s, o.archive⟩ saved := by
  have hcoming := h.sound.comingRecord_step hs
  refine
    { sound := h.sound.step s
      own := ?_
      id := by rw [hcoming, h.id]
      stored := by rw [hcoming, h.stored]
      texts := fun f => by rw [hcoming, h.texts]
      others := h.others }
  rcases h.sound.record_step s with hr | hr
  · rw [hr, h.own]
  · rw [hr, h.id]

/-- A faithful archive keeps the agreement with its answers. -/
theorem Agrees.call (faithful : A.IsFaithful) (h : Agrees A record x o saved) {i : Nat}
    {q : SaveRequest} {outcome : Except Storage.Fault Record} {y : σ}
    (hi : o.desk.tasks.saves[i]? = some ⟨q, .running none⟩)
    (hu : A.Updates o.archive q outcome y) :
    Agrees A record x ⟨o.desk.answer i outcome, y⟩ (saved ++ q.logged outcome) := by
  obtain ⟨-, -, hid⟩ := h.sound.of_running hi
  obtain ⟨hbefore, hafter⟩ := h.sound.comingRecord_answer hi outcome
  have hq : q.apiId = record.id := hid.trans h.own
  cases outcome with
  | error fault =>
    -- The record that comes is the old one, and so is the one in the archive.
    have hsame : (o.desk.answer i (.error fault)).comingRecord = o.desk.comingRecord := by
      rw [hafter, hbefore]
      rfl
    have hkeeps := faithful.failed hu
    exact
      { sound := h.sound.answer i _
        own := h.own
        id := by rw [hsame, h.id]
        stored := by rw [hkeeps, hsame, h.stored]
        texts := fun f => by rw [hsame, h.texts, SaveRequest.logged, List.append_nil]
        others := fun id hne => by rw [hkeeps, h.others id hne] }
  | ok r =>
    obtain ⟨⟨old, hold, hrid, htexts⟩, hkept⟩ := faithful.saved hu
    obtain rfl : o.desk.comingRecord = old := by
      rw [hq, h.stored] at hold
      exact Option.some.inj hold
    replace hafter : (o.desk.answer i (.ok r)).comingRecord = r := hafter
    exact
      { sound := h.sound.answer i _
        own := h.own
        id := by rw [hafter, hrid, h.id]
        stored := by rw [hkept, if_pos hq.symm, hafter]
        texts := fun f => by
          rw [hafter, htexts, SaveRequest.logged, Record.textAfter_concat, h.texts]
        others := fun id hne => by rw [hkept, if_neg (by rwa [hq]), h.others id hne] }

theorem Reach.agrees (faithful : A.IsFaithful) (kept : A.record? x record.id = some record)
    {user : User} (h : Reach A (.new record user x) o saved) : Agrees A record x o saved := by
  induction h with
  | refl => exact agrees_new kept user
  | host s _ hs ih => exact ih.host hs
  | call i _ hi hu ih => exact ih.call faithful hi hu

/-- **The console agrees with its store.** Let the console begin with the record that a faithful
archive has for it, and be the only one to write there. However keys, the wheel, ticks, widths of the
preview, the doings of the host and the answers of the archive follow each other, whichever saves
fail: whenever no save is open, the console has the record that is in the archive. Each of its texts
is the one that was saved last, or the first one if none was, and all other records in the archive
are as they were. -/
theorem record_agrees_with_store (faithful : A.IsFaithful)
    (kept : A.record? x record.id = some record) (user : User)
    (run : Reach A (.new record user x) o saved) (idle : o.desk.openSaves = []) :
    o.desk.app.record.id = record.id ∧
      A.record? o.archive record.id = some o.desk.app.record ∧
      (∀ f, o.desk.app.record.text? f = record.textAfter saved f) ∧
      ∀ id, id ≠ record.id → A.record? o.archive id = A.record? x id := by
  have h := run.agrees faithful kept
  have hcoming := Desk.comingRecord_of_idle idle
  refine ⟨h.own, ?_, fun f => ?_, h.others⟩
  · rw [h.stored, hcoming]
  · rw [← hcoming, h.texts]

/-- A record without texts. -/
def blankRecord : Record := .fresh "a" "N" ⟨⟨2020, 1, 1⟩, 0, 0, 0, 0⟩

/-- A backend that has the record, and fails the first update. -/
def moodyBackend : Simulation.Backend :=
  { records := [("a", blankRecord)], definitions := [], updateFaults := [some (.request "down")]
    fetchFaults := [], updateDelay := 0, fetchDelays := [], updateLog := [], fetchLog := [] }

/-- An overview that is written, saved in vain, written on, and saved. -/
theorem record_agrees_with_store_after_a_retry :
    ∃ (o : Office Simulation.Backend) (saved : List SaveRequest),
      Simulation.Backend.archive.record? moodyBackend blankRecord.id = some blankRecord ∧
      Reach Simulation.Backend.archive (.new blankRecord .default moodyBackend) o saved ∧
      o.desk.openSaves = [] ∧ saved = [⟨"a", ⟨.overview, "x!"⟩⟩] ∧
      o.desk.app.record.text? .overview = some "x!" ∧
      Simulation.Backend.archive.record? o.archive blankRecord.id = some o.desk.app.record := by
  have kept : Simulation.Backend.archive.record? moodyBackend blankRecord.id =
      some blankRecord := rfl
  have begun : Reach Simulation.Backend.archive (.new blankRecord .default moodyBackend) _ [] := .refl
  have refused :=
    (begun.events [.key { key := .char 'o' }, .key { key := .char 'x' },
      .key { key := .char 's', control := true }]).save
        rfl rfl ⟨⟨⟨2020, 1, 2⟩, 0, 0, 0, 0⟩, rfl⟩
  have stored :=
    (refused.events [.key { key := .char '!' }, .key { key := .char 's', control := true }]).save
      rfl rfl ⟨⟨⟨2020, 1, 3⟩, 0, 0, 0, 0⟩, rfl⟩
  obtain ⟨-, hstored, htexts, -⟩ :=
    record_agrees_with_store Simulation.Backend.isFaithful_archive kept .default stored
      (by decide +kernel)
  refine ⟨_, _, kept, stored, by decide +kernel, by decide +kernel, ?_, hstored⟩
  rw [htexts]
  decide +kernel

end Office

end PublisherConsole
