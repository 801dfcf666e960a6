import PublisherConsole.Proofs.Storage.Replacement
import PublisherConsole.Storage.Shared

/-!
# One after the other under the lock

Callers that share a lock work one after the other, in the order in which they have taken it, however
their steps are mixed. A caller that gives up while it waits never begins; one that gives up later is
not missed, as its work goes on without it. Readers take no lock and look at the tree at any time.

* `Traffic` are the callers with their order, those who have given up, and the readers;
* `FileTree.Throughout`: what holds of a tree between the calls of a script;
* `Traffic.Serial`: the callers that have finished have the results, and the tree is the one, that
  working one after the other gives; a caller that holds the lock is on its way from there.

Every move keeps `Serial` (`Traffic.Serial.step`), and so does every run (`Traffic.Serial.run`).
-/

namespace PublisherConsole.Storage

/-! ### Scripts -/

namespace FileTree

variable {α β : Type} {P : FileTree → Prop} {t : FileTree}

/-- The tree that scripts leave, one after the other. -/
def runAll (t : FileTree) (work : List (Script α)) : FileTree :=
  work.foldl (fun t w => (t.run w).2) t

theorem runAll_concat (work : List (Script α)) (w : Script α) :
    t.runAll (work ++ [w]) = ((t.runAll work).run w).2 := by
  simp [runAll]

/-- Make the next call of a script, if there is one. -/
def advance (t : FileTree) : Script α → Script α × FileTree
  | .done a => (.done a, t)
  | .step call next => (next (t.answer call).1, (t.answer call).2)

/-- A script that asks for something goes on with what it is told. -/
theorem advance_exists? {p : Path} {k : Bool → Script α} :
    t.advance (Script.exists? p >>= k) = (k (t.entryAt? p).isSome, t) := rfl

theorem advance_readText {p : Path} {k : Except SystemFault String → Script α} :
    t.advance (Script.readText p >>= k) = (k (t.text p), t) := rfl

/-- Something holds of the tree before, between and after the calls of a script. -/
def Throughout (P : FileTree → Prop) : FileTree → Script α → Prop
  | t, .done _ => P t
  | t, .step call next => P t ∧ Throughout P (t.answer call).2 (next (t.answer call).1)

theorem Throughout.here {w : Script α} (h : Throughout P t w) : P t := by
  cases w with
  | done a => exact h
  | step call next => exact h.1

/-- What holds throughout two scripts holds throughout the one followed by the other. -/
theorem Throughout.bind {w : Script α} {k : α → Script β} (hw : Throughout P t w)
    (hk : Throughout P (t.run w).2 (k (t.run w).1)) : Throughout P t (w >>= k) := by
  induction w generalizing t with
  | done a => exact hk
  | step call next ih => exact ⟨hw.1, ih (t.answer call).1 hw.2 hk⟩

/-- A single call has a tree before it and one behind it. -/
theorem throughout_single {call : Call} {reply : call.Answer} {t' : FileTree} (before : P t)
    (answer : t.answer call = (reply, t')) (behind : P t') : Throughout P t (.step call .done) := by
  refine ⟨before, ?_⟩
  rw [answer]
  exact behind

end FileTree

/-- A script leaves every tree alone. -/
def Script.IsReading {α : Type} : Script α → Prop
  | .done _ => True
  | .step call next => (∀ t : FileTree, (t.answer call).2 = t) ∧ ∀ answer, (next answer).IsReading

theorem Script.IsReading.bind {α β : Type} {w : Script α} {k : α → Script β} (hw : w.IsReading)
    (hk : ∀ a, (k a).IsReading) : (w >>= k).IsReading := by
  induction w with
  | done a => exact hk a
  | step call next ih => exact ⟨hw.1, fun answer => ih answer (hw.2 answer)⟩

theorem Script.IsReading.advance {α : Type} {w : Script α} (hw : w.IsReading) (t : FileTree) :
    (t.advance w).2 = t ∧ (t.advance w).1.IsReading := by
  cases w with
  | done a => exact ⟨rfl, hw⟩
  | step call next => exact ⟨hw.1 t, hw.2 _⟩

theorem FileTree.throughout_of_isReading {α : Type} {P : FileTree → Prop} {t : FileTree}
    {w : Script α} (hw : w.IsReading) (ht : P t) : FileTree.Throughout P t w := by
  induction w with
  | done a => exact ht
  | step call next ih => exact ⟨ht, by rw [hw.1 t]; exact ih _ (hw.2 _)⟩

/-! ### Moves -/

/-- Callers of a store and readers of its files. -/
structure Traffic (α ρ : Type) where
  shared : Shared α
  /-- The callers that have given up. -/
  gone : List Nat
  /-- The callers that have taken the lock, the first one first. -/
  order : List Nat
  readers : List (Script ρ)

/-- What can happen next: a caller goes on, a caller gives up, or a reader looks at the files. -/
inductive Move
  | go (i : Nat)
  | giveUp (i : Nat)
  | look (j : Nat)
  deriving DecidableEq, Repr

namespace Traffic

variable {α ρ : Type}

/-- Nobody has begun. -/
def start (t : FileTree) (work : List (Script α)) (readers : List (Script ρ)) : Traffic α ρ :=
  ⟨.start t work, [], [], readers⟩

/-- Let a caller go on. One that waits takes the lock if it is free and the caller is still there. -/
def go (x : Traffic α ρ) (i : Nat) : Traffic α ρ :=
  match x.shared.callers[i]? with
  | some (.waiting _) =>
    if x.shared.holder = none ∧ i ∉ x.gone then
      { x with shared := x.shared.step i, order := x.order ++ [i] }
    else x
  | _ => { x with shared := x.shared.step i }

/-- Let a reader make its next call. -/
def look (x : Traffic α ρ) (j : Nat) : Traffic α ρ :=
  match x.readers[j]? with
  | some w =>
    let (left, tree) := x.shared.tree.advance w
    { x with shared := { x.shared with tree }, readers := x.readers.set j left }
  | none => x

/-- Make a move. -/
def step (x : Traffic α ρ) : Move → Traffic α ρ
  | .go i => x.go i
  | .giveUp i => { x with gone := i :: x.gone }
  | .look j => x.look j

/-- Make one move after the other. -/
def run (x : Traffic α ρ) (moves : List Move) : Traffic α ρ := moves.foldl step x

/-- The work of the first `k` callers that have taken the lock. -/
def begun {β : Type} (x : Traffic α ρ) (work : List β) (k : Nat) : List β :=
  (x.order.take k).filterMap (work[·]?)

variable {x : Traffic α ρ} {t : FileTree} {work : List (Script α)} {i : Nat}

/-! ### One after the other -/

/-- The lock is free, and the tree is the one that the work so far leaves; or a caller has it, and is
on the way from the tree that the work before it leaves. -/
inductive Lock (t : FileTree) (work : List (Script α)) (x : Traffic α ρ) : Prop
  | free (holder : x.shared.holder = none)
      (tree : x.shared.tree = t.runAll (x.begun work x.order.length))
  | taken {i : Nat} {before : List Nat} {whole left : Script α} (holder : x.shared.holder = some i)
      (last : x.order = before ++ [i]) (given : work[i]? = some whole)
      (caller : x.shared.callers[i]? = some (.working left))
      (run : x.shared.tree.run left = (t.runAll (x.begun work before.length)).run whole)
      (throughout : ∀ P, FileTree.Throughout P (t.runAll (x.begun work before.length)) whole →
        FileTree.Throughout P x.shared.tree left)

/-- Callers have worked one after the other. -/
structure Serial (t : FileTree) (work : List (Script α)) (x : Traffic α ρ) : Prop where
  count : x.shared.callers.length = work.length
  once : x.order.Nodup
  known : ∀ i ∈ x.order, i < x.shared.callers.length
  waiting : ∀ i w, x.shared.callers[i]? = some (.waiting w) → work[i]? = some w ∧ i ∉ x.order
  working : ∀ i w, x.shared.callers[i]? = some (.working w) → x.shared.holder = some i
  finished : ∀ i a, x.shared.callers[i]? = some (.finished a) →
    ∃ k w, x.order[k]? = some i ∧ work[i]? = some w ∧ a = ((t.runAll (x.begun work k)).run w).1
  lock : x.Lock t work
  reading : ∀ r ∈ x.readers, r.IsReading

theorem serial_start {readers : List (Script ρ)} (reading : ∀ r ∈ readers, r.IsReading) :
    (start t work readers).Serial t work where
  count := List.length_map ..
  once := List.nodup_nil
  known i hi := absurd hi (List.not_mem_nil)
  waiting i w hi := by
    have hi : (work.map Caller.waiting)[i]? = some (.waiting w) := hi
    simpa [start] using hi
  working i w hi := by
    have hi : (work.map Caller.waiting)[i]? = some (.working w) := hi
    simp at hi
  finished i a hi := by
    have hi : (work.map Caller.waiting)[i]? = some (.finished a) := hi
    simp at hi
  lock := .free rfl rfl
  reading := reading

/-- The work that has begun so far stays the same when more begins. -/
theorem begun_of_grown {β : Type} {work : List β} {y : Traffic α ρ} {k : Nat}
    (h : x.order <+: y.order) (hk : k ≤ x.order.length) : y.begun work k = x.begun work k := by
  obtain ⟨more, hmore⟩ := h
  simp only [begun, ← hmore, List.take_append_of_le_length hk]

theorem begun_succ {β : Type} {work : List β} {w : β} {k : Nat} (hk : x.order[k]? = some i)
    (hw : work[i]? = some w) : x.begun work (k + 1) = x.begun work k ++ [w] := by
  have hone : [i].filterMap (work[·]?) = [w] := by simp [hw]
  rw [begun, List.take_add_one, hk, List.filterMap_append, Option.toList_some, hone]
  rfl

theorem begun_of_last {β : Type} {work : List β} {w : β} {before : List Nat}
    (last : x.order = before ++ [i]) (hw : work[i]? = some w) :
    x.begun work x.order.length = x.begun work before.length ++ [w] := by
  have hlength : x.order.length = before.length + 1 := by simp [last]
  rw [hlength, begun_succ (by simp [last]) hw]

/-- An element of a list with one set. -/
theorem getElem?_set_cases {β : Type} {l : List β} {a b : β} {i j : Nat}
    (h : (l.set i a)[j]? = some b) : (j = i ∧ b = a) ∨ (j ≠ i ∧ l[j]? = some b) := by
  rw [List.getElem?_set] at h
  split at h
  next heq =>
    split at h
    next => exact .inl ⟨heq.symm, (Option.some.inj h).symm⟩
    next => cases h
  next hne => exact .inr ⟨Ne.symm hne, h⟩

/-- An element that is not the one that was set was there before. -/
theorem getElem?_of_set {β : Type} {l : List β} {a b : β} {i j : Nat}
    (h : (l.set i a)[j]? = some b) (hne : b ≠ a) : j ≠ i ∧ l[j]? = some b := by
  rcases getElem?_set_cases h with ⟨-, rfl⟩ | h
  · exact absurd rfl hne
  · exact h

/-- The lock goes to a caller that waits for it. -/
theorem Serial.take (h : x.Serial t work) {w : Script α}
    (hi : x.shared.callers[i]? = some (.waiting w)) (hfree : x.shared.holder = none) :
    ({ x with shared := x.shared.step i, order := x.order ++ [i] } : Traffic α ρ).Serial t work := by
  obtain ⟨hgiven, hnew⟩ := h.waiting i w hi
  have hlt : i < x.shared.callers.length := (List.getElem?_eq_some_iff.1 hi).1
  have hstep : x.shared.step i =
      { x.shared with holder := some i, callers := x.shared.callers.set i (.working w) } := by
    simp [Shared.step, hi, hfree]
  have hbegun {k : Nat} (hk : k ≤ x.order.length) (shared : Shared α) :
      ({ x with shared, order := x.order ++ [i] } : Traffic α ρ).begun work k = x.begun work k :=
    begun_of_grown (List.prefix_append ..) hk
  rw [hstep]
  exact
    { count := by simpa using h.count
      once := List.Nodup.append h.once (List.nodup_singleton i) (by simpa using hnew)
      known := fun j hj => by
        rcases List.mem_append.1 hj with hj | hj
        · simpa using h.known j hj
        · obtain rfl := List.mem_singleton.1 hj
          simpa using hlt
      waiting := fun j w' hj => by
        obtain ⟨hne, hj⟩ := getElem?_of_set hj (by simp)
        obtain ⟨hw', hnot⟩ := h.waiting j w' hj
        exact ⟨hw', by simpa [hnot] using hne⟩
      working := fun j w' hj => by
        rcases getElem?_set_cases hj with ⟨rfl, -⟩ | ⟨-, hj⟩
        · rfl
        · exact absurd (hfree.symm.trans (h.working j w' hj)) (by simp)
      finished := fun j a hj => by
        obtain ⟨k, w', hk, hw', ha⟩ := h.finished j a (getElem?_of_set hj (by simp)).2
        have hlt : k < x.order.length := (List.getElem?_eq_some_iff.1 hk).1
        exact ⟨k, w', by rw [List.getElem?_append_left hlt]; exact hk, hw',
          by rw [hbegun hlt.le]; exact ha⟩
      lock := by
        cases h.lock with
        | taken holder => exact absurd (hfree.symm.trans holder) (by simp)
        | free _ tree =>
          refine .taken rfl rfl hgiven (List.getElem?_set_self hlt) ?_ fun P hP => ?_
          · rw [hbegun le_rfl, ← tree]
          · rw [hbegun le_rfl, ← tree] at hP
            exact hP
      reading := h.reading }

/-- The caller that has the lock makes a call. -/
theorem Serial.call (h : x.Serial t work) {call : Call} {next : call.Answer → Script α}
    (hi : x.shared.callers[i]? = some (.working (.step call next))) :
    ({ x with shared := x.shared.step i } : Traffic α ρ).Serial t work := by
  have hlt : i < x.shared.callers.length := (List.getElem?_eq_some_iff.1 hi).1
  have hholder := h.working i _ hi
  have hstep : x.shared.step i =
      { x.shared with
        tree := (x.shared.tree.answer call).2
        callers := x.shared.callers.set i (.working (next (x.shared.tree.answer call).1)) } := by
    simp [Shared.step, hi]
  rw [hstep]
  exact
    { count := by simpa using h.count
      once := h.once
      known := fun j hj => by simpa using h.known j hj
      waiting := fun j w' hj => h.waiting j w' (getElem?_of_set hj (by simp)).2
      working := fun j w' hj => by
        rcases getElem?_set_cases hj with ⟨rfl, -⟩ | ⟨-, hj⟩
        · exact hholder
        · exact h.working j w' hj
      finished := fun j a hj => h.finished j a (getElem?_of_set hj (by simp)).2
      lock := by
        cases h.lock with
        | free holder => exact absurd (holder.symm.trans hholder) (by simp)
        | @taken i' before whole left holder last given caller run throughout =>
          obtain rfl : i = i' := by simpa [holder] using hholder.symm
          obtain rfl : left = .step call next := by simpa [hi] using caller.symm
          exact .taken holder last given (List.getElem?_set_self hlt) run
            fun P hP => (throughout P hP).2
      reading := h.reading }

/-- The caller that has the lock finishes, and gives it back. -/
theorem Serial.finish (h : x.Serial t work) {a : α}
    (hi : x.shared.callers[i]? = some (.working (.done a))) :
    ({ x with shared := x.shared.step i } : Traffic α ρ).Serial t work := by
  have hholder := h.working i _ hi
  have hstep : x.shared.step i =
      { x.shared with holder := none, callers := x.shared.callers.set i (.finished a) } := by
    simp [Shared.step, hi]
  cases h.lock with
  | free holder => exact absurd (holder.symm.trans hholder) (by simp)
  | @taken i' before whole left holder last given caller run throughout =>
    obtain rfl : i = i' := by simpa [holder] using hholder.symm
    obtain rfl : left = .done a := by simpa [hi] using caller.symm
    rw [FileTree.run_done] at run
    rw [hstep]
    exact
      { count := by simpa using h.count
        once := h.once
        known := fun j hj => by simpa using h.known j hj
        waiting := fun j w' hj => h.waiting j w' (getElem?_of_set hj (by simp)).2
        working := fun j w' hj => by
          obtain ⟨hne, hj⟩ := getElem?_of_set hj (by simp)
          exact absurd (hholder.symm.trans (h.working j w' hj)) (by simpa using hne.symm)
        finished := fun j b hj => by
          rcases getElem?_set_cases hj with ⟨rfl, hcaller⟩ | ⟨-, hj⟩
          · obtain rfl : b = a := by simpa using hcaller
            exact ⟨before.length, whole, by simp [last], given, congrArg Prod.fst run⟩
          · exact h.finished j b hj
        lock := by
          refine .free rfl ?_
          show x.shared.tree = t.runAll (x.begun work x.order.length)
          rw [begun_of_last last given, FileTree.runAll_concat]
          exact congrArg Prod.snd run
        reading := h.reading }

/-- A caller goes on. -/
theorem Serial.go (h : x.Serial t work) (i : Nat) : (x.go i).Serial t work := by
  unfold Traffic.go
  cases hi : x.shared.callers[i]? with
  | none => simpa [Shared.step, hi] using h
  | some caller =>
    cases caller with
    | waiting w =>
      dsimp only
      split
      next hfree => exact h.take hi hfree.1
      next => exact h
    | working w =>
      cases w with
      | done a => exact h.finish hi
      | step call next => exact h.call hi
    | finished a => simpa [Shared.step, hi] using h

/-- What the callers and the lock are concerned with is the same. -/
theorem Serial.congr {y : Traffic α ρ} (h : x.Serial t work) (hshared : y.shared = x.shared)
    (horder : y.order = x.order) (reading : ∀ r ∈ y.readers, r.IsReading) : y.Serial t work := by
  have hbegun (k : Nat) : y.begun work k = x.begun work k := by rw [begun, begun, horder]
  refine ⟨hshared ▸ h.count, horder ▸ h.once, hshared ▸ horder ▸ h.known,
    hshared ▸ horder ▸ h.waiting, hshared ▸ h.working, ?_, ?_, reading⟩
  · simpa only [hshared, horder, hbegun] using h.finished
  · cases h.lock with
    | free holder tree => exact .free (hshared ▸ holder) (by rw [hshared, horder, hbegun, tree])
    | taken holder last given caller run throughout =>
      refine .taken (hshared ▸ holder) (horder.trans last) given (hshared ▸ caller) ?_ fun P hP => ?_
      · rw [hshared, hbegun, run]
      · rw [hbegun] at hP
        exact hshared ▸ throughout P hP

/-- A reader that looks changes nothing. -/
theorem Serial.look (h : x.Serial t work) (j : Nat) : (x.look j).Serial t work := by
  unfold Traffic.look
  split
  next w hj =>
    obtain ⟨htree, hleft⟩ := (h.reading w (List.mem_of_getElem? hj)).advance x.shared.tree
    refine h.congr ?_ rfl fun r hr => ?_
    · dsimp only
      rw [htree]
    · rcases List.mem_or_eq_of_mem_set hr with hr | rfl
      · exact h.reading r hr
      · exact hleft
  next => exact h

/-- **Callers work one after the other.** Every move keeps them in the order in which they have taken
the lock. -/
theorem Serial.step (h : x.Serial t work) (m : Move) : (x.step m).Serial t work := by
  cases m with
  | go i => exact h.go i
  | giveUp i => exact h.congr rfl rfl h.reading
  | look j => exact h.look j

theorem Serial.run (h : x.Serial t work) (moves : List Move) : (x.run moves).Serial t work := by
  induction moves generalizing x with
  | nil => exact h
  | cons m moves ih => exact ih (h.step m)

/-! ### The order -/

/-- The order of the callers stands: who begins later comes later. -/
theorem order_prefix_step (x : Traffic α ρ) (m : Move) : x.order <+: (x.step m).order := by
  cases m with
  | go i =>
    show x.order <+: (x.go i).order
    unfold Traffic.go
    split
    · split
      · exact List.prefix_append ..
      · exact List.prefix_refl _
    · exact List.prefix_refl _
  | giveUp i => exact List.prefix_refl _
  | look j =>
    show x.order <+: (x.look j).order
    unfold Traffic.look
    split <;> exact List.prefix_refl _

theorem order_prefix_run (x : Traffic α ρ) (moves : List Move) : x.order <+: (x.run moves).order := by
  induction moves generalizing x with
  | nil => exact List.prefix_refl _
  | cons m moves ih => exact (order_prefix_step x m).trans (ih (x.step m))

/-- A caller that has given up before it has taken the lock never takes it. -/
theorem not_mem_order_step (hgone : i ∈ x.gone) (hnew : i ∉ x.order) (m : Move) :
    i ∈ (x.step m).gone ∧ i ∉ (x.step m).order := by
  cases m with
  | go j =>
    show i ∈ (x.go j).gone ∧ i ∉ (x.go j).order
    unfold Traffic.go
    split
    · split
      next hfree =>
        refine ⟨hgone, fun hi => ?_⟩
        rcases List.mem_append.1 hi with hi | hi
        · exact hnew hi
        · exact hfree.2 (List.mem_singleton.1 hi ▸ hgone)
      next => exact ⟨hgone, hnew⟩
    · exact ⟨hgone, hnew⟩
  | giveUp j => exact ⟨List.mem_cons_of_mem j hgone, hnew⟩
  | look j =>
    show i ∈ (x.look j).gone ∧ i ∉ (x.look j).order
    unfold Traffic.look
    split <;> exact ⟨hgone, hnew⟩

theorem not_mem_order_run (hgone : i ∈ x.gone) (hnew : i ∉ x.order) (moves : List Move) :
    i ∉ (x.run moves).order := by
  induction moves generalizing x with
  | nil => exact hnew
  | cons m moves ih =>
    obtain ⟨hgone, hnew⟩ := not_mem_order_step hgone hnew m
    exact ih hgone hnew

/-- The callers that have taken the lock are those that are at work or have finished. -/
theorem Serial.mem_order_iff (h : x.Serial t work) :
    i ∈ x.order ↔ (∃ w, x.shared.callers[i]? = some (.working w)) ∨
      ∃ a, x.shared.callers[i]? = some (.finished a) := by
  constructor
  · intro hi
    obtain ⟨caller, hcaller⟩ : ∃ caller, x.shared.callers[i]? = some caller :=
      ⟨_, List.getElem?_eq_getElem (h.known i hi)⟩
    cases caller with
    | waiting w => exact absurd hi (h.waiting i w hcaller).2
    | working w => exact .inl ⟨w, hcaller⟩
    | finished a => exact .inr ⟨a, hcaller⟩
  · rintro (⟨w, hw⟩ | ⟨a, ha⟩)
    · have hholder := h.working i w hw
      cases h.lock with
      | free holder => exact absurd (holder.symm.trans hholder) (by simp)
      | @taken i' before whole left holder last =>
        obtain rfl : i = i' := by simpa [holder] using hholder.symm
        simp [last]
    · obtain ⟨k, w, hk, -⟩ := h.finished i a ha
      exact List.mem_of_getElem? hk

/-! ### Going on -/

@[simp] theorem run_append (moves more : List Move) : x.run (moves ++ more) = (x.run moves).run more :=
  List.foldl_append ..

theorem go_of_working {left : Script α} (hi : x.shared.callers[i]? = some (.working left)) :
    x.go i = { x with shared := x.shared.step i } := by
  simp only [Traffic.go, hi]

/-- The work of a caller that has the lock comes to its end, whether or not it has given up. -/
theorem exists_run_of_working {left : Script α} (hi : x.shared.callers[i]? = some (.working left)) :
    ∃ moves, (x.run moves).shared.holder = none ∧ (x.run moves).order = x.order ∧
      (x.run moves).gone = x.gone := by
  induction left generalizing x with
  | done a =>
    have hrun : x.run [.go i] = { x with shared := x.shared.step i } := go_of_working hi
    exact ⟨[.go i], by simp [hrun, Shared.step, hi], by rw [hrun], by rw [hrun]⟩
  | step call next ih =>
    have hlt : i < x.shared.callers.length := (List.getElem?_eq_some_iff.1 hi).1
    have hgo := go_of_working hi
    have hcaller : (x.go i).shared.callers[i]? =
        some (.working (next (x.shared.tree.answer call).1)) := by
      simp [hgo, Shared.step, hi, List.getElem?_set_self hlt]
    obtain ⟨moves, hholder, horder, hgone⟩ := ih _ hcaller
    refine ⟨.go i :: moves, hholder, horder.trans ?_, hgone.trans ?_⟩
    · rw [hgo]
    · rw [hgo]

/-- **The lock comes free.** -/
theorem Serial.exists_free (h : x.Serial t work) :
    ∃ moves, (x.run moves).shared.holder = none ∧ (x.run moves).order = x.order ∧
      (x.run moves).gone = x.gone := by
  cases h.lock with
  | free holder => exact ⟨[], holder, rfl, rfl⟩
  | taken _ _ _ caller => exact exists_run_of_working caller

/-- A caller that is still there when the lock is free has its turn. -/
theorem Serial.exists_next (h : x.Serial t work) (hfree : x.shared.holder = none)
    (hi : i < work.length) (hnew : i ∉ x.order) (hthere : i ∉ x.gone) :
    ∃ moves, (x.run moves).shared.holder = none ∧ (x.run moves).order = x.order ++ [i] ∧
      (x.run moves).gone = x.gone := by
  obtain ⟨w, hw⟩ : ∃ w, x.shared.callers[i]? = some (.waiting w) := by
    obtain ⟨caller, hcaller⟩ : ∃ caller, x.shared.callers[i]? = some caller :=
      ⟨_, List.getElem?_eq_getElem (h.count ▸ hi)⟩
    cases caller with
    | waiting w => exact ⟨w, hcaller⟩
    | working w => exact absurd (h.mem_order_iff.2 (.inl ⟨w, hcaller⟩)) hnew
    | finished a => exact absurd (h.mem_order_iff.2 (.inr ⟨a, hcaller⟩)) hnew
  have hgo : x.step (.go i) = { x with shared := x.shared.step i, order := x.order ++ [i] } := by
    simp [Traffic.step, Traffic.go, hw, hfree, hthere]
  obtain ⟨moves, hholder, horder, hgone⟩ := (h.step (.go i)).exists_free
  refine ⟨.go i :: moves, hholder, horder.trans ?_, hgone.trans ?_⟩
  · rw [hgo]
  · rw [hgo]

/-- **Nobody waits forever.** A caller that is still there can have its turn next, once the work that
has begun is done. -/
theorem Serial.exists_turn (h : x.Serial t work) (hi : i < work.length) (hnew : i ∉ x.order)
    (hthere : i ∉ x.gone) :
    ∃ moves, (x.run moves).shared.holder = none ∧ (x.run moves).order = x.order ++ [i] ∧
      (x.run moves).gone = x.gone := by
  obtain ⟨moves, hholder, horder, hgone⟩ := h.exists_free
  obtain ⟨moves', hholder', horder', hgone'⟩ :=
    (h.run moves).exists_next hholder hi (horder ▸ hnew) (hgone ▸ hthere)
  refine ⟨moves ++ moves', ?_⟩
  rw [run_append]
  exact ⟨hholder', horder'.trans (by rw [horder]), hgone'.trans hgone⟩

end Traffic

end PublisherConsole.Storage
