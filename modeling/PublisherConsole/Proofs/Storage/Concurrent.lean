import PublisherConsole.Proofs.Storage.Sequence

/-!
# Updates that overlap

Updates of callers that share a store take effect one after the other, in the order of the lock, and
at any time the files show the records after some of them, from the first one on.

* `Visits.exists_read`: what is read at once, between any two calls;
* `FileStore.Glance`: how far a reader has come that takes its time, and what it will have seen;
* `Linear`: what there is to say about the callers, the files and the readers at any time.

The main statement is `updates_are_linearizable`.
-/

namespace PublisherConsole.Storage

/-- Callers that update records, and readers of records. -/
abbrev Visits := Traffic (Except Fault Record) (Except Fault Record)

namespace Visits

variable {s : FileStore} {t : FileTree} {us : List Update} {x : Visits} {id : String} {k : Nat}

/-- Nobody has begun. -/
def start (s : FileStore) (t : FileTree) (us : List Update) (ids : List String) : Visits :=
  Traffic.start t (us.map (·.script s)) (ids.map s.read)

/-- What is read of an API after the first `k` updates that have taken the lock. -/
def after (s : FileStore) (t : FileTree) (us : List Update) (x : Visits) (k : Nat) (id : String) :
    Except Fault Record :=
  (t.run (s.read id)).1.map (Update.applyAll (x.begun us k) id)

@[simp] theorem after_zero : x.after s t us 0 id = (t.run (s.read id)).1 := by
  show (t.run (s.read id)).1.map (Update.applyAll [] id) = _
  cases (t.run (s.read id)).1 <;> rfl

/-- The scripts that have begun are those of the updates. -/
theorem begun_scripts : x.begun (us.map (·.script s)) k = (x.begun us k).map (·.script s) := by
  simp [Traffic.begun, List.map_filterMap]

theorem mem_of_mem_begun {u : Update} (hu : u ∈ x.begun us k) : u ∈ us := by
  obtain ⟨i, -, hi⟩ := List.mem_filterMap.1 hu
  exact List.mem_of_getElem? hi

/-- More updates that begin change nothing about the first ones. -/
theorem after_of_grown {y : Visits} (h : x.order <+: y.order) (hk : k ≤ x.order.length) :
    y.after s t us k id = x.after s t us k id := by
  rw [after, after, Traffic.begun_of_grown h hk]

/-- Nobody has worked out of turn, as nobody has begun. -/
theorem serial_start (ids : List String) : (start s t us ids).Serial t (us.map (·.script s)) := by
  refine Traffic.serial_start fun w hw => ?_
  obtain ⟨id, -, rfl⟩ := List.mem_map.1 hw
  exact FileStore.isReading_read

/-- Each text after some updates is that of the last one of them that changes it. -/
theorem text?_after {r : Record} (h : x.after s t us k id = .ok r) :
    ∃ q, (t.run (s.read id)).1 = .ok q ∧ ∀ field, r.text? field =
      (((x.begun us k).filter fun u => u.id = id ∧ u.field = field).getLast?.map (·.content)).or
        (q.text? field) := by
  rw [after] at h
  cases hread : (t.run (s.read id)).1 with
  | error fault =>
    rw [hread] at h
    cases h
  | ok q =>
    rw [hread] at h
    cases h
    exact ⟨q, rfl, fun field => Update.text?_applyAll _ field⟩

section Sound

variable (hus : ∀ u ∈ us, u.IsSound s t) (h : x.Serial t (us.map (·.script s)))

include hus

/-- What the files show once the first `k` updates have come to their end. -/
theorem read_runAll (k : Nat) (id : String) :
    ((t.runAll (x.begun (us.map (·.script s)) k)).run (s.read id)).1 = x.after s t us k id := by
  rw [begun_scripts, after]
  exact Update.reads_runAll (fun u hu => hus u (mem_of_mem_begun hu)) id

include h

/-- With the lock free, the files show the records after all updates that have begun. -/
theorem read_of_free (hfree : x.shared.holder = none) (id : String) :
    (x.shared.tree.run (s.read id)).1 = x.after s t us x.order.length id := by
  cases h.lock with
  | free _ tree => rw [tree, read_runAll hus]
  | taken holder => exact absurd (hfree.symm.trans holder) (by simp)

/-- **At any time** the files show the records after all updates that have begun, but perhaps the
last one. -/
theorem exists_read (id : String) :
    ∃ k ≤ x.order.length, x.order.length ≤ k + 1 ∧
      (x.shared.tree.run (s.read id)).1 = x.after s t us k id := by
  cases h.lock with
  | free holder => exact ⟨_, le_rfl, Nat.le_succ _, read_of_free hus h holder id⟩
  | @taken i before whole left holder last given caller run throughout =>
    have hlength : x.order.length = before.length + 1 := by simp [last]
    obtain ⟨u, hu, rfl⟩ : ∃ u, us[i]? = some u ∧ u.script s = whole := by simpa using given
    have hsound : u.IsSound s (t.runAll (x.begun (us.map (·.script s)) before.length)) := by
      rw [begun_scripts]
      exact (hus u (List.mem_of_getElem? hu)).runAll fun v hv => hus v (mem_of_mem_begun hv)
    rcases (throughout _ hsound.throughout).here with shows | shows
    · refine ⟨before.length, by omega, by omega, ?_⟩
      rw [shows.read, read_runAll hus]
    · refine ⟨x.order.length, le_rfl, Nat.le_succ _, ?_⟩
      rw [shows.read, ← FileTree.runAll_concat, ← Traffic.begun_of_last last given, read_runAll hus]

/-- An update that has come to its end has the record right after it. -/
theorem exists_result {i : Nat} {result : Except Fault Record}
    (hi : x.shared.callers[i]? = some (.finished result)) :
    ∃ k u r, x.order[k]? = some i ∧ us[i]? = some u ∧ result = .ok r ∧
      x.after s t us (k + 1) u.id = .ok r := by
  obtain ⟨k, w, hk, hw, rfl⟩ := h.finished i result hi
  obtain ⟨u, hu, rfl⟩ : ∃ u, us[i]? = some u ∧ u.script s = w := by simpa using hw
  have hsound := hus u (List.mem_of_getElem? hu)
  obtain ⟨q, hread, -⟩ := hsound.there
  have hresult := hsound.result fun v (hv : v ∈ x.begun us k) => hus v (mem_of_mem_begun hv)
  refine ⟨k, u, Update.applyAll (x.begun us (k + 1)) u.id q, hk, hu, ?_, ?_⟩
  · rw [begun_scripts, hresult, hread, Traffic.begun_succ hk hu]
    rfl
  · rw [after, hread]
    rfl

end Sound

end Visits

/-! ### Readers that take their time -/

namespace FileStore

variable {s : FileStore} {t : FileTree} {id : String} {seen : Except Fault Record → Prop}
  {w : Script (Except Fault Record)}

/-- A record is not found exactly where its file is not. -/
theorem entryAt?_eq_none_iff (hid : isValidId id = true) :
    t.entryAt? (s.recordPath id) = none ↔ (t.run (s.read id)).1 = .error (.apiNotFound id) := by
  refine ⟨run_read_of_entryAt?_none hid, fun h => ?_⟩
  by_contra there
  rw [run_read_of_entryAt? hid there, run_readRecordFile] at h
  cases ht : t.text (s.recordPath id) with
  | error fault => simp [ht] at h
  | ok text => cases hr : Record.ofText text <;> simp [ht, hr] at h

/-- The text of a record file is there with one call. -/
theorem advance_readRecordFile {p : Path} :
    (t.advance (readRecordFile p)).1 = .done (t.run (readRecordFile p)).1 := by
  rw [run_readRecordFile, readRecordFile, FileTree.advance_readText]
  cases t.text p with
  | error fault => rfl
  | ok text => cases hr : Record.ofText text <;> simp [hr] <;> rfl

/-- With the first call, a reader learns whether the file is there. -/
theorem advance_read (hid : isValidId id = true) :
    (t.advance (s.read id)).1 =
      if t.entryAt? (s.recordPath id) ≠ none then readRecordFile (s.recordPath id)
      else .done (.error (.apiNotFound id)) := by
  rw [FileStore.read, if_pos hid, FileTree.advance_exists?]
  simp only [Option.isSome_iff_ne_none]
  rfl

/-- How far a reader has come: it has not begun, it has found the file, or it has seen something. -/
inductive Glance (s : FileStore) (id : String) (there : Prop) (seen : Except Fault Record → Prop) :
    Script (Except Fault Record) → Prop
  | begins (valid : isValidId id = true) : Glance s id there seen (s.read id)
  | finds (valid : isValidId id = true) (found : there) :
      Glance s id there seen (readRecordFile (s.recordPath id))
  | ends {result : Except Fault Record} (h : seen result) : Glance s id there seen (.done result)

variable {there : Prop}

/-- A reader of an identifier that cannot be one is told so without a look. -/
theorem glance_read (hseen : seen (t.run (s.read id)).1) : s.Glance id there seen (s.read id) := by
  by_cases hid : isValidId id = true
  · exact .begins hid
  · rw [run_read_of_not_isValidId hid] at hseen
    rw [FileStore.read, if_neg hid]
    exact .ends hseen

/-- A reader that makes its next call finds what is there, or sees what can be read at once. -/
theorem Glance.advance (h : s.Glance id there seen w)
    (hthere : isValidId id = true → (t.entryAt? (s.recordPath id) ≠ none ↔ there))
    (hseen : seen (t.run (s.read id)).1) : s.Glance id there seen (t.advance w).1 := by
  cases h with
  | begins hid =>
    rw [advance_read hid]
    split
    next hfile => exact .finds hid ((hthere hid).1 hfile)
    next hfile =>
      rw [run_read_of_entryAt?_none hid (not_not.1 hfile)] at hseen
      exact .ends hseen
  | finds hid found =>
    rw [run_read_of_entryAt? hid ((hthere hid).2 found)] at hseen
    rw [advance_readRecordFile]
    exact .ends hseen
  | ends h => exact .ends h

/-- What a reader may see can only become more. -/
theorem Glance.mono {seen' : Except Fault Record → Prop} (h : s.Glance id there seen w)
    (hmore : ∀ result, seen result → seen' result) : s.Glance id there seen' w := by
  cases h with
  | begins hid => exact .begins hid
  | finds hid found => exact .finds hid found
  | ends h => exact .ends (hmore _ h)

/-- What a reader returns it has seen. -/
theorem Glance.of_done {result : Except Fault Record} (h : s.Glance id there seen (.done result)) :
    seen result := by
  generalize hw : Script.done result = w at h
  cases h with
  | begins hid =>
    rw [FileStore.read, if_pos hid] at hw
    cases hw
  | finds => cases hw
  | ends h => exact Script.done.inj hw ▸ h

end FileStore

namespace Visits

variable {s : FileStore} {t : FileTree} {us : List Update} {ids : List String} {x y : Visits}

/-- Every reader has seen the records after some of the updates that have begun, or is on the way. -/
def Watch (s : FileStore) (t : FileTree) (us : List Update) (ids : List String) (x : Visits) : Prop :=
  ∀ (j : Nat) w, x.readers[j]? = some w → ∃ id, ids[j]? = some id ∧
    s.Glance id (t.entryAt? (s.recordPath id) ≠ none)
      (fun result => ∃ k ≤ x.order.length, result = x.after s t us k id) w

theorem watch_start : Watch s t us ids (start s t us ids) := by
  intro j w hj
  have hj : (ids.map s.read)[j]? = some w := hj
  obtain ⟨id, hid, rfl⟩ : ∃ id, ids[j]? = some id ∧ s.read id = w := by simpa using hj
  exact ⟨id, hid, FileStore.glance_read ⟨0, Nat.zero_le _, after_zero.symm⟩⟩

/-- What has been seen stays true when more updates begin. -/
theorem seen_of_grown {id : String} (h : x.order <+: y.order) (result : Except Fault Record)
    (hseen : ∃ k ≤ x.order.length, result = x.after s t us k id) :
    ∃ k ≤ y.order.length, result = y.after s t us k id := by
  obtain ⟨k, hk, rfl⟩ := hseen
  exact ⟨k, hk.trans h.length_le, (after_of_grown h hk).symm⟩

theorem Watch.of_grown (hw : Watch s t us ids x) (h : x.order <+: y.order)
    (hreaders : y.readers = x.readers) : Watch s t us ids y := by
  intro j w hj
  obtain ⟨id, hid, hglance⟩ := hw j w (hreaders ▸ hj)
  exact ⟨id, hid, hglance.mono (seen_of_grown h)⟩

/-- No update makes a record or takes one away. -/
theorem record_there_iff (hus : ∀ u ∈ us, u.IsSound s t)
    (h : x.Serial t (us.map (·.script s))) {id : String} (hid : isValidId id = true) :
    x.shared.tree.entryAt? (s.recordPath id) ≠ none ↔ t.entryAt? (s.recordPath id) ≠ none := by
  obtain ⟨k, -, -, hk⟩ := exists_read hus h id
  rw [ne_eq, ne_eq, FileStore.entryAt?_eq_none_iff hid, FileStore.entryAt?_eq_none_iff hid, hk, after]
  cases (t.run (s.read id)).1 <;> simp [Except.map]

/-- A reader that looks is on its way, or sees the records after some of the updates. -/
theorem Watch.look (hw : Watch s t us ids x) (hus : ∀ u ∈ us, u.IsSound s t)
    (h : x.Serial t (us.map (·.script s))) (j : Nat) : Watch s t us ids (x.look j) := by
  unfold Traffic.look
  split
  next w hj =>
    intro j' w' hj'
    rcases Traffic.getElem?_set_cases hj' with ⟨rfl, rfl⟩ | ⟨-, hj'⟩
    · obtain ⟨id, hid, hglance⟩ := hw j' w hj
      obtain ⟨k, hk, -, hread⟩ := exists_read hus h id
      exact ⟨id, hid, hglance.advance (record_there_iff hus h) ⟨k, hk, hread⟩⟩
    · exact hw j' w' hj'
  next => exact hw

theorem Watch.step (hw : Watch s t us ids x) (hus : ∀ u ∈ us, u.IsSound s t)
    (h : x.Serial t (us.map (·.script s))) (m : Move) : Watch s t us ids (x.step m) := by
  cases m with
  | go i =>
    refine hw.of_grown (Traffic.order_prefix_step x (.go i)) ?_
    show (x.go i).readers = x.readers
    unfold Traffic.go
    split
    · split <;> rfl
    · rfl
  | giveUp i => exact hw.of_grown (List.prefix_refl _) rfl
  | look j => exact hw.look hus h j

theorem Watch.run (hw : Watch s t us ids x) (hus : ∀ u ∈ us, u.IsSound s t)
    (h : x.Serial t (us.map (·.script s))) (moves : List Move) : Watch s t us ids (x.run moves) := by
  induction moves generalizing x with
  | nil => exact hw
  | cons m moves ih => exact ih (hw.step hus h m) (h.step m)

end Visits

/-! ### Any interleaving -/

/-- What there is to say about the callers, the files and the readers, whatever has happened. -/
structure Linear (s : FileStore) (t : FileTree) (us : List Update) (ids : List String) (x : Visits) :
    Prop where
  /-- An update begins at most once. -/
  once : x.order.Nodup
  /-- The updates that have begun are those that have taken the lock. -/
  begun : ∀ i, i ∈ x.order ↔ (∃ w, x.shared.callers[i]? = some (.working w)) ∨
    ∃ result, x.shared.callers[i]? = some (.finished result)
  /-- Those that begin later come later. -/
  grows : ∀ moves, x.order <+: (x.run moves).order
  /-- A caller that has given up before its update began never begins it. -/
  quits : ∀ i ∈ x.gone, i ∉ x.order → ∀ moves, i ∉ (x.run moves).order
  /-- Every update that has begun comes to its end. -/
  ends : ∃ moves, (x.run moves).shared.holder = none ∧ (x.run moves).order = x.order
  /-- A caller that is still there can have its turn next. -/
  turns : ∀ i < us.length, i ∉ x.order → i ∉ x.gone →
    ∃ moves, (x.run moves).shared.holder = none ∧ (x.run moves).order = x.order ++ [i]
  /-- Once the last update has come to its end, each record is the first one with the updates of its
  API applied in that order. -/
  final : x.shared.holder = none →
    ∀ id, (x.shared.tree.run (s.read id)).1 = x.after s t us x.order.length id
  /-- An update that comes to its end succeeds, and returns the record right after it. -/
  results : ∀ i result, x.shared.callers[i]? = some (.finished result) →
    ∃ k u r, x.order[k]? = some i ∧ us[i]? = some u ∧ result = .ok r ∧
      x.after s t us (k + 1) u.id = .ok r
  /-- What is read at once is the record after all updates that have begun, but perhaps the last. -/
  reads : ∀ id, ∃ k ≤ x.order.length, x.order.length ≤ k + 1 ∧
    (x.shared.tree.run (s.read id)).1 = x.after s t us k id
  /-- A reader whose calls were mixed with those of the updates has the record after some of them. -/
  readers : ∀ (j : Nat) result, x.readers[j]? = some (.done result) →
    ∃ id, ids[j]? = some id ∧ ∃ k ≤ x.order.length, result = x.after s t us k id
  /-- In the record after some updates, each text is that of the last one of them that changes it. -/
  texts : ∀ k id r, x.after s t us k id = .ok r → ∃ q, (t.run (s.read id)).1 = .ok q ∧
    ∀ field, r.text? field =
      (((x.begun us k).filter fun u => u.id = id ∧ u.field = field).getLast?.map (·.content)).or
        (q.text? field)

variable {s : FileStore} {t : FileTree} {us : List Update} {ids : List String}

/-- **Updates that overlap are linearizable.** However the calls of updates and readers are mixed, and
whoever gives up at whatever time, the updates that have begun take effect one after the other in the
order of the lock. -/
theorem updates_are_linearizable (hus : ∀ u ∈ us, u.IsSound s t) (moves : List Move) :
    Linear s t us ids ((Visits.start s t us ids).run moves) := by
  have hserial : ((Visits.start s t us ids).run moves).Serial t (us.map (·.script s)) :=
    (Visits.serial_start ids).run moves
  have hwatch := Visits.watch_start.run hus (Visits.serial_start ids) moves
  exact
    { once := hserial.once
      begun := fun i => hserial.mem_order_iff
      grows := Traffic.order_prefix_run _
      quits := fun i hgone hnew => Traffic.not_mem_order_run hgone hnew
      ends := by
        obtain ⟨moves, hfree, horder, -⟩ := hserial.exists_free
        exact ⟨moves, hfree, horder⟩
      turns := fun i hi hnew hthere => by
        obtain ⟨moves, hfree, horder, -⟩ := hserial.exists_turn (by simpa using hi) hnew hthere
        exact ⟨moves, hfree, horder⟩
      final := Visits.read_of_free hus hserial
      results := fun i result hi => Visits.exists_result hus hserial hi
      reads := Visits.exists_read hus hserial
      readers := fun j result hj => by
        obtain ⟨id, hid, hglance⟩ := hwatch j _ hj
        exact ⟨id, hid, hglance.of_done⟩
      texts := fun k id r hr => Visits.text?_after hr }

/-- A store with one record. -/
def soleTree : FileTree :=
  ⟨[ (["apis"], .directory), (["apis", "a"], .directory)
   , (["apis", "a", "api.json"],
      .file (Record.fresh "a" "N" ⟨⟨2020, 1, 1⟩, 0, 0, 0, 0⟩).toText.toUTF8) ]⟩

/-- An update of each of its texts. -/
def soleUpdates : List Update :=
  [ ⟨"a", .description, "d", ⟨⟨⟨2024, 1, 1⟩, 0, 0, 0, 0⟩, "1"⟩⟩
  , ⟨"a", .overview, "o", ⟨⟨⟨2024, 1, 2⟩, 0, 0, 0, 0⟩, "2"⟩⟩ ]

/-- The first caller takes the lock and gives up. Its update comes to its end without it, the one of
the second caller follows, and the record has both texts. -/
theorem update_outlives_its_caller :
    (∀ u ∈ soleUpdates, u.IsSound ⟨[]⟩ soleTree) ∧
      ∃ moves x, x = (Visits.start ⟨[]⟩ soleTree soleUpdates ["a"]).run moves ∧
        Linear ⟨[]⟩ soleTree soleUpdates ["a"] x ∧
        x.gone = [0] ∧ x.order = [0, 1] ∧ x.shared.holder = none ∧
        ∃ r, (x.shared.tree.run (FileStore.read ⟨[]⟩ "a")).1 = .ok r ∧
          r.text? .description = some "d" ∧ r.text? .overview = some "o" := by
  have hplace : soleTree.resolve (FileStore.recordPath ⟨[]⟩ "a") = .ok ["apis", "a", "api.json"] :=
    FileTree.resolve_eq_ok_iff.2 ⟨by decide, rfl⟩
  have hread : (soleTree.run (FileStore.read ⟨[]⟩ "a")).1 =
      .ok (Record.fresh "a" "N" ⟨⟨2020, 1, 1⟩, 0, 0, 0, 0⟩) :=
    FileStore.read_of_written (by decide) (by decide) hplace rfl
  have hfree (tag : String) (temp : Path) (htemp : soleTree.resolve
      (tempPath (FileStore.recordPath ⟨[]⟩ "a") tag) = .ok temp) (hnone : soleTree.find? temp = none) :
      soleTree.entryAt? (tempPath (FileStore.recordPath ⟨[]⟩ "a") tag) ≠ some .directory := by
    simp [FileTree.entryAt?_of_resolve htemp, hnone]
  have hus : ∀ u ∈ soleUpdates, u.IsSound ⟨[]⟩ soleTree := by
    intro u hu
    obtain rfl | rfl : u = _ ∨ u = _ := by simpa [soleUpdates] using hu
    · exact ⟨⟨_, hread, rfl⟩, by decide, by constructor <;> decide,
        hfree "1" ["apis", "a", "api.json.1.tmp"]
          (FileTree.resolve_eq_ok_iff.2 ⟨by decide, rfl⟩) rfl⟩
    · exact ⟨⟨_, hread, rfl⟩, by decide, by constructor <;> decide,
        hfree "2" ["apis", "a", "api.json.2.tmp"]
          (FileTree.resolve_eq_ok_iff.2 ⟨by decide, rfl⟩) rfl⟩
  have hserial : ((Visits.start ⟨[]⟩ soleTree soleUpdates ["a"]).run [.go 0, .giveUp 0]).Serial
    soleTree (soleUpdates.map (·.script ⟨[]⟩)) := (Visits.serial_start ["a"]).run _
  obtain ⟨moves, hholder, horder, hgone⟩ :=
    hserial.exists_turn (i := 1) (by decide) (by decide) (by decide)
  have hlinear : Linear ⟨[]⟩ soleTree soleUpdates ["a"] _ :=
    updates_are_linearizable hus ([.go 0, .giveUp 0] ++ moves)
  rw [Traffic.run_append] at hlinear
  have hlast := hlinear.final hholder "a"
  rw [Visits.after, hread, Traffic.begun, horder] at hlast
  exact ⟨hus, _, _, (Traffic.run_append ..).symm, hlinear, hgone, horder, hholder, _, hlast, rfl, rfl⟩

end PublisherConsole.Storage
