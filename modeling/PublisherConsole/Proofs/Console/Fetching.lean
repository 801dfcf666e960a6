import PublisherConsole.Proofs.Console.Feed
import PublisherConsole.Proofs.Definition.Mounting
import PublisherConsole.Simulation.Rehearsal

/-!
# No fetch is lost, and no old one is shown

A fetch begins with a ticket: the list hands it out, the console queues it, the background takes it
over, starts the fetch and returns a result, and the list shows the result. On the way a younger
ticket may push it out of the queue or out of the background.

* `FetchLog` keeps what became of the tickets, and `Desk.fetches` is the log of a run;
* `FetchLog.Tracks`: how the log accounts for the fetch in the background, of which there is one at
  most;
* `Desk.Accounted`: tickets are handed out once, and what is taken over, started and returned
  follows in that order. Every step keeps this (`Desk.Accounted.step`);
* `Desk.Attended`: as long as the console is not left, the latest ticket is queued, or its fetch is
  in the background, or its result is on the screen. Every step keeps this as well, unless a fetch
  breaks off (`Desk.Attended.step`).

The main statement is `no_fetch_is_lost`, about everything that can happen at a desk.
-/

namespace PublisherConsole

open Definition (Ticket ServerList LoadFault Directory)

/-- What became of the fetches, the oldest first everywhere. -/
structure FetchLog where
  /-- The tickets that the list has handed out. -/
  issued : List Ticket
  /-- Those that the background has taken over. -/
  taken : List Ticket
  /-- Those whose fetch was started. -/
  started : List Ticket
  /-- The results, with their tickets. -/
  returned : List (Ticket × Except LoadFault Directory)

namespace Desk

variable {η : Type}

/-- The ticket that a step hands out: the one that its event asks for. -/
def requestedFetch? (d : Desk η) : Step η → Option Ticket
  | .event e => d.app.requestedBy? e
  | _ => none

/-- The ticket that a step takes over: the one that is queued. -/
def takenFetch? (d : Desk η) : Step η → Option Ticket
  | .spawn => d.app.pendingLoad
  | _ => none

/-- The ticket of the fetch that a step starts: one that waits. -/
def startedFetch? (d : Desk η) : Step η → Option Ticket
  | .startLoad i _ =>
    match d.tasks.loads[i]? with
    | some ⟨ticket, .waiting⟩ => some ticket
    | _ => none
  | _ => none

/-- The result with which a step ends a running fetch. -/
def returnedFetch? (d : Desk η) : Step η → Option (Ticket × Except LoadFault Directory)
  | .finishLoad i result =>
    match d.tasks.loads[i]? with
    | some ⟨ticket, .running _⟩ => some (ticket, result)
    | _ => none
  | _ => none

/-- The log after a step. -/
def note (p : FetchLog) (d : Desk η) (s : Step η) : FetchLog where
  issued := p.issued ++ (d.requestedFetch? s).toList
  taken := p.taken ++ (d.takenFetch? s).toList
  started := p.started ++ (d.startedFetch? s).toList
  returned := p.returned ++ (d.returnedFetch? s).toList

/-- The log after one step after the other. -/
def fetches (p : FetchLog) : Desk η → List (Step η) → FetchLog
  | _, [] => p
  | d, s :: steps => fetches (d.note p s) (d.step s) steps

end Desk

/-- The log of a console that was just started: the ticket of its first fetch. -/
def FetchLog.first (record : Record) : FetchLog := ⟨[(ServerList.mount record.id).2], [], [], []⟩

/-! ### The fetch in the background -/

/-- The log accounts for the fetches in the background: there is one at most, it waits and was not
started, or it runs and has not returned, or it has returned with the result that it holds. -/
inductive FetchLog.Tracks {η : Type} (p : FetchLog) : List (LoadTask η) → Prop
  | none : p.Tracks []
  | waiting {t : Ticket} (unstarted : (p.started ++ [t]).Sublist p.taken) :
      p.Tracks [⟨t, .waiting⟩]
  | running {t : Ticket} {handle : η}
      (unreturned : (p.returned.map (·.1) ++ [t]).Sublist p.started) :
      p.Tracks [⟨t, .running handle⟩]
  | finished {t : Ticket} {result : Except LoadFault Directory} (returned : (t, result) ∈ p.returned) :
      p.Tracks [⟨t, .finished result⟩]

/-- A ticket that is handed out is no concern of the fetches in the background. -/
theorem FetchLog.Tracks.issue {η : Type} {p : FetchLog} {loads : List (LoadTask η)}
    (h : p.Tracks loads) (tickets : List Ticket) :
    ({ p with issued := p.issued ++ tickets } : FetchLog).Tracks loads := by
  cases h with
  | none => exact .none
  | waiting unstarted => exact .waiting unstarted
  | running unreturned => exact .running unreturned
  | finished returned => exact .finished returned

namespace Desk

variable {η : Type} {d : Desk η} {p : FetchLog}

/-- The log accounts for all tickets of a desk. -/
structure Accounted (d : Desk η) (p : FetchLog) : Prop where
  numbered : ∀ t ∈ p.issued, t.generation ≤ d.app.servers.generation
  distinct : p.issued.Nodup
  taken : (p.taken ++ d.app.pendingLoad.toList).Sublist p.issued
  started : p.started.Sublist p.taken
  returned : (p.returned.map (·.1)).Sublist p.started
  loads : p.Tracks d.tasks.loads

theorem accounted_new (record : Record) (user : User) :
    (Desk.new record user : Desk η).Accounted (.first record) where
  numbered t ht := by
    obtain rfl : t = (ServerList.mount record.id).2 := List.mem_singleton.1 ht
    exact Nat.le_refl _
  distinct := List.nodup_singleton _
  taken := List.Sublist.refl _
  started := List.Sublist.refl _
  returned := List.Sublist.refl _
  loads := .none

/-- A ticket that is queued was not taken over before. -/
theorem Accounted.not_mem_taken (h : d.Accounted p) {t : Ticket} (ht : d.app.pendingLoad = some t) :
    t ∉ p.taken := by
  have hnodup := h.distinct.sublist h.taken
  rw [ht, Option.toList_some, List.nodup_append] at hnodup
  exact fun hmem => hnodup.2.2 t hmem t (by simp) rfl

/-- The log is the same, and so are the fields of the desk that it accounts for. -/
theorem Accounted.congr {d' : Desk η} (h : d.Accounted p) (hfeed : d'.app.feed = d.app.feed)
    (hloads : d'.tasks.loads = d.tasks.loads) : d'.Accounted p := by
  obtain ⟨hservers, hpending, -⟩ := App.feed_eq_iff.1 hfeed
  exact ⟨hservers ▸ h.numbered, h.distinct, hpending ▸ h.taken, h.started, h.returned,
    hloads ▸ h.loads⟩

/-- Steps that hand out, take over, start and return nothing leave the log as it is. -/
theorem note_of_none {s : Step η} (hr : d.requestedFetch? s = none) (ht : d.takenFetch? s = none)
    (hs : d.startedFetch? s = none) (hf : d.returnedFetch? s = none) : d.note p s = p := by
  simp [note, hr, ht, hs, hf]

/-- An event hands out a ticket that is new, or none. -/
theorem Accounted.event (h : d.Accounted p) (e : Event) :
    (d.step (.event e)).Accounted (d.note p (.event e)) := by
  have hnote : d.note p (.event e) =
      { p with issued := p.issued ++ (d.app.requestedBy? e).toList } := by
    simp [note, requestedFetch?, takenFetch?, startedFetch?, returnedFetch?]
  rw [hnote]
  generalize hticket : d.app.requestedBy? e = ticket
  have hreaction := hticket ▸ App.feedReaction d.app e
  cases hreaction with
  | rests same =>
    have hsame : (d.step (.event e)).Accounted p := h.congr same rfl
    simpa using hsame
  | leaves feed =>
    have hservers : (d.step (.event e)).app.servers = d.app.servers.unmount := congrArg (·.servers) feed
    have hpending : (d.step (.event e)).app.pendingLoad = d.app.pendingLoad :=
      congrArg (·.pendingLoad) feed
    refine ⟨fun t ht => ?_, ?_, ?_, h.started, h.returned, h.loads.issue _⟩
    · have := h.numbered t (by simpa using ht)
      rw [hservers]
      show t.generation ≤ d.app.servers.generation + 1
      omega
    · simpa using h.distinct
    · rw [hpending]
      simpa using h.taken
  | @asks servers ticket refreshed feed =>
    have hservers : (d.step (.event e)).app.servers = servers := congrArg (·.servers) feed
    have hpending : (d.step (.event e)).app.pendingLoad = some ticket :=
      congrArg (·.pendingLoad) feed
    obtain ⟨hgeneration, hnew⟩ : servers.generation = d.app.servers.generation + 1 ∧
        ticket.generation = d.app.servers.generation + 1 := by
      obtain ⟨-, hnext⟩ := ServerList.refresh?_eq_some_iff.1 refreshed
      cases hnext
      exact ⟨rfl, rfl⟩
    refine ⟨fun t ht => ?_, ?_, ?_, h.started, h.returned, h.loads.issue _⟩
    · rw [hservers, hgeneration]
      rcases List.mem_append.1 ht with ht | ht
      · exact Nat.le_succ_of_le (h.numbered t ht)
      · obtain rfl : t = ticket := by simpa using ht
        exact hnew.le
    -- The number of the new ticket is beyond all numbers before.
    · refine List.Nodup.append h.distinct (by simp) ?_
      rintro t ht ht'
      obtain rfl : t = ticket := by simpa using ht'
      have := h.numbered t ht
      omega
    · rw [hpending]
      exact ((List.sublist_append_left ..).trans h.taken).append (List.Sublist.refl _)

theorem loads_spawn {t : Ticket} (h : d.app.pendingLoad = some t) :
    (d.step .spawn).tasks.loads = [⟨t, .waiting⟩] := by
  simp [Desk.step, Desk.spawn, Tasks.spawn, h]

theorem loads_spawn_of_none (h : d.app.pendingLoad = none) :
    (d.step .spawn).tasks.loads = d.tasks.loads := by
  simp [Desk.step, Desk.spawn, Tasks.spawn, h]

theorem note_spawn :
    d.note p .spawn = { p with taken := p.taken ++ d.app.pendingLoad.toList } := by
  simp [note, requestedFetch?, takenFetch?, startedFetch?, returnedFetch?]

/-- The background takes over the ticket that is queued, in the place of the one that it had. -/
theorem Accounted.spawn (h : d.Accounted p) : (d.step .spawn).Accounted (d.note p .spawn) := by
  rw [note_spawn]
  have hstarted : p.started.Sublist (p.taken ++ d.app.pendingLoad.toList) :=
    h.started.trans (List.sublist_append_left ..)
  refine ⟨h.numbered, h.distinct, ?_, hstarted, h.returned, ?_⟩
  · simpa [Desk.step, Desk.spawn, Tasks.spawn] using h.taken
  · cases ht : d.app.pendingLoad with
    | none =>
      rw [loads_spawn_of_none ht]
      simpa using h.loads
    | some ticket =>
      rw [loads_spawn ht]
      exact .waiting (by simpa using h.started)

/-- A change that leaves the progress of a fetch as it is changes nothing. -/
theorem modifyLoad_of_same {tasks : Tasks η} {i : Nat}
    {change : Progress η (Except LoadFault Directory) → Progress η (Except LoadFault Directory)}
    (h : ∀ task, tasks.loads[i]? = some task → change task.progress = task.progress) :
    tasks.modifyLoad i change = tasks := by
  have hloads : (tasks.modifyLoad i change).loads = tasks.loads := by
    refine List.ext_getElem? fun j => ?_
    simp only [Tasks.modifyLoad, List.getElem?_modify]
    split
    next hij =>
      subst hij
      cases hi : tasks.loads[i]? with
      | none => rfl
      | some task => simp [h task hi]
    next => simp
  calc tasks.modifyLoad i change
      = { tasks with loads := (tasks.modifyLoad i change).loads } := rfl
    _ = tasks := by rw [hloads]

/-- A start of a fetch that does not wait changes nothing. -/
theorem step_startLoad_of_none {i : Nat} {handle : η}
    (h : d.startedFetch? (.startLoad i handle) = none) : d.step (.startLoad i handle) = d := by
  have same : d.tasks.modifyLoad i (.start handle) = d.tasks := by
    refine modifyLoad_of_same fun ⟨ticket, progress⟩ hi => ?_
    cases progress with
    | waiting => simp [startedFetch?, hi] at h
    | running | finished => rfl
  simp only [Desk.step, same]

/-- The end of a fetch that does not run changes nothing. -/
theorem step_finishLoad_of_none {i : Nat} {result : Except LoadFault Directory}
    (h : d.returnedFetch? (.finishLoad i result) = none) : d.step (.finishLoad i result) = d := by
  have same : d.tasks.modifyLoad i (.finish result) = d.tasks := by
    refine modifyLoad_of_same fun ⟨ticket, progress⟩ hi => ?_
    cases progress with
    | running => simp [returnedFetch?, hi] at h
    | waiting | finished => rfl
  simp only [Desk.step, same]

/-- A fetch that is started is the only one, and it was not started before. -/
theorem Accounted.of_startedFetch? (h : d.Accounted p) {i : Nat} {handle : η} {t : Ticket}
    (hs : d.startedFetch? (.startLoad i handle) = some t) :
    i = 0 ∧ d.tasks.loads = [⟨t, .waiting⟩] ∧ (p.started ++ [t]).Sublist p.taken := by
  have hloads := h.loads
  simp only [startedFetch?] at hs
  generalize d.tasks.loads = loads at hloads hs ⊢
  cases hloads with
  | waiting unstarted => cases i <;> simp_all
  | _ => cases i <;> simp_all

/-- A fetch that returns is the only one, and it did not return before. -/
theorem Accounted.of_returnedFetch? (h : d.Accounted p) {i : Nat}
    {result result' : Except LoadFault Directory} {t : Ticket}
    (hs : d.returnedFetch? (.finishLoad i result) = some (t, result')) :
    result' = result ∧ i = 0 ∧ (∃ handle, d.tasks.loads = [⟨t, .running handle⟩]) ∧
      (p.returned.map (·.1) ++ [t]).Sublist p.started := by
  have hloads := h.loads
  simp only [returnedFetch?] at hs
  generalize d.tasks.loads = loads at hloads hs ⊢
  cases hloads with
  | running unreturned => cases i <;> simp_all
  | _ => cases i <;> simp_all

/-- A fetch that waits is started. -/
theorem Accounted.startLoad (h : d.Accounted p) (i : Nat) (handle : η) :
    (d.step (.startLoad i handle)).Accounted (d.note p (.startLoad i handle)) := by
  cases hs : d.startedFetch? (.startLoad i handle) with
  | none => rw [note_of_none rfl rfl hs rfl, step_startLoad_of_none hs]; exact h
  | some t =>
    obtain ⟨rfl, hloads, unstarted⟩ := h.of_startedFetch? hs
    have hnote : d.note p (.startLoad 0 handle) = { p with started := p.started ++ [t] } := by
      simp [note, hs, requestedFetch?, takenFetch?, returnedFetch?]
    have hrunning : (d.step (.startLoad 0 handle)).tasks.loads = [⟨t, .running handle⟩] := by
      simp [Desk.step, Tasks.modifyLoad, hloads, Progress.start]
    rw [hnote]
    refine ⟨h.numbered, h.distinct, h.taken, unstarted, ?_, ?_⟩
    · exact h.returned.trans (List.sublist_append_left ..)
    · rw [hrunning]
      exact .running (h.returned.append (List.Sublist.refl _))

/-- A fetch that runs returns. -/
theorem Accounted.finishLoad (h : d.Accounted p) (i : Nat) (result : Except LoadFault Directory) :
    (d.step (.finishLoad i result)).Accounted (d.note p (.finishLoad i result)) := by
  cases hs : d.returnedFetch? (.finishLoad i result) with
  | none => rw [note_of_none rfl rfl rfl hs, step_finishLoad_of_none hs]; exact h
  | some pair =>
    obtain ⟨t, result'⟩ := pair
    obtain ⟨rfl, rfl, ⟨handle, hloads⟩, unreturned⟩ := h.of_returnedFetch? hs
    have hnote : d.note p (.finishLoad 0 result') =
        { p with returned := p.returned ++ [(t, result')] } := by
      simp [note, hs, requestedFetch?, takenFetch?, startedFetch?]
    have hfinished : (d.step (.finishLoad 0 result')).tasks.loads = [⟨t, .finished result'⟩] := by
      simp [Desk.step, Tasks.modifyLoad, hloads, Progress.finish]
    rw [hnote]
    refine ⟨h.numbered, h.distinct, h.taken, h.started, ?_, ?_⟩
    · simpa using unreturned
    · rw [hfinished]
      exact .finished (by simp)

/-- A fetch that breaks off leaves nothing to account for. -/
theorem Accounted.breakLoad (h : d.Accounted p) (i : Nat) : (d.step (.breakLoad i)).Accounted p := by
  refine ⟨h.numbered, h.distinct, h.taken, h.started, h.returned, ?_⟩
  have hloads := h.loads
  simp only [Desk.step, Tasks.dropLoad]
  generalize d.tasks.loads = loads at hloads
  cases i with
  | zero => cases hloads <;> exact .none
  | succ i =>
    -- There is no second fetch that could break off.
    have same : loads.eraseIdx (i + 1) = loads := by cases hloads <;> rfl
    rw [same]
    exact hloads

/-- Finished fetches are handed over: there is none, or it is the only one in the background. -/
theorem Accounted.collect_cases (h : d.Accounted p) :
    (d.collect.app.feed = d.app.feed ∧ d.collect.tasks.loads = d.tasks.loads ∧
        ∀ t result, d.tasks.loads ≠ [⟨t, .finished result⟩]) ∨
      ∃ t result, d.tasks.loads = [⟨t, .finished result⟩] ∧ (t, result) ∈ p.returned ∧
        d.collect.app.feed =
          ⟨d.app.servers.apply t result, d.app.pendingLoad, d.app.quitting⟩ ∧
        d.collect.tasks.loads = [] := by
  have hloads := h.loads
  simp only [Desk.collect, Tasks.collect, Tasks.feed_collectSaves]
  generalize d.tasks.loads = loads at hloads
  cases hloads with
  | none => exact .inl ⟨rfl, rfl, by simp⟩
  | waiting => exact .inl ⟨rfl, rfl, by simp⟩
  | running => exact .inl ⟨rfl, rfl, by simp⟩
  | @finished t result returned => exact .inr ⟨t, result, rfl, returned, rfl, rfl⟩

/-- What is handed over was accounted for before. -/
theorem Accounted.collect (h : d.Accounted p) : (d.step .collect).Accounted p := by
  rcases h.collect_cases with ⟨hfeed, hloads, -⟩ | ⟨t, result, -, -, hfeed, hloads⟩
  · exact h.congr hfeed hloads
  · have hservers : d.collect.app.servers = d.app.servers.apply t result := congrArg (·.servers) hfeed
    have hpending : d.collect.app.pendingLoad = d.app.pendingLoad := congrArg (·.pendingLoad) hfeed
    have hgeneration : (d.app.servers.apply t result).generation = d.app.servers.generation := by
      unfold ServerList.apply
      split <;> rfl
    refine ⟨fun t ht => ?_, h.distinct, ?_, h.started, h.returned, ?_⟩
    · show t.generation ≤ d.collect.app.servers.generation
      rw [hservers, hgeneration]
      exact h.numbered t ht
    · show (p.taken ++ d.collect.app.pendingLoad.toList).Sublist p.issued
      rw [hpending]
      exact h.taken
    · show p.Tracks d.collect.tasks.loads
      rw [hloads]
      exact .none

/-- **Whatever happens, the log accounts for all tickets.** -/
theorem Accounted.step (h : d.Accounted p) (s : Step η) : (d.step s).Accounted (d.note p s) := by
  have idle {s : Step η} (hs : d.requestedFetch? s = none ∧ d.takenFetch? s = none ∧
      d.startedFetch? s = none ∧ d.returnedFetch? s = none) (hstep : (d.step s).Accounted p) :
      (d.step s).Accounted (d.note p s) := by
    rw [note_of_none hs.1 hs.2.1 hs.2.2.1 hs.2.2.2]
    exact hstep
  cases s with
  | event e => exact h.event e
  | spawn => exact h.spawn
  | startLoad i handle => exact h.startLoad i handle
  | finishLoad i result => exact h.finishLoad i result
  | previewWidth width =>
    exact idle ⟨rfl, rfl, rfl, rfl⟩ (h.congr (App.feed_resizePreview width) rfl)
  | collect => exact idle ⟨rfl, rfl, rfl, rfl⟩ h.collect
  | breakLoad i => exact idle ⟨rfl, rfl, rfl, rfl⟩ (h.breakLoad i)
  | startSave | finishSave => exact idle ⟨rfl, rfl, rfl, rfl⟩ (h.congr rfl rfl)

theorem Accounted.run (h : d.Accounted p) (steps : List (Step η)) :
    (d.run steps).Accounted (d.fetches p steps) := by
  induction steps generalizing d p with
  | nil => exact h
  | cons s steps ih => exact ih (h.step s)

/-! ### The latest ticket -/

/-- Where a ticket is: in the queue or in the background, while the list is loading, or done, and
the list shows its result. -/
inductive Holds (d : Desk η) (p : FetchLog) (t : Ticket) : Prop
  | queued (pending : d.app.pendingLoad = some t) (loading : d.app.servers.listing = .loading)
  | underWay (pending : d.app.pendingLoad = none) (load : d.tasks.loads.map (·.ticket) = [t])
      (loading : d.app.servers.listing = .loading)
  | shown {result : Except LoadFault Directory} (pending : d.app.pendingLoad = none)
      (load : d.tasks.loads = []) (returned : (t, result) ∈ p.returned)
      (listing : d.app.servers.listing = ServerList.Listing.ofResult result)

/-- The list is mounted, and the latest ticket is not lost. -/
structure Attended (d : Desk η) (p : FetchLog) : Prop where
  mounted : d.app.servers.mounted = true
  latest : p.issued.getLast? = some ⟨d.app.servers.apiId, d.app.servers.generation⟩
  holds : d.Holds p ⟨d.app.servers.apiId, d.app.servers.generation⟩

theorem attended_new (record : Record) (user : User) :
    (Desk.new record user : Desk η).Attended (.first record) :=
  ⟨rfl, rfl, .queued rfl rfl⟩

/-- The fields that tell of the latest ticket are the same, and what was returned stays so. -/
theorem Attended.congr {d' : Desk η} {p' : FetchLog} (h : d.Attended p)
    (hfeed : d'.app.feed = d.app.feed)
    (hloads : d'.tasks.loads.map (·.ticket) = d.tasks.loads.map (·.ticket))
    (hissued : p'.issued = p.issued) (hreturned : ∀ x ∈ p.returned, x ∈ p'.returned) :
    d'.Attended p' := by
  obtain ⟨hservers, hpending, -⟩ := App.feed_eq_iff.1 hfeed
  refine ⟨hservers ▸ h.mounted, hissued ▸ hservers ▸ h.latest, ?_⟩
  rw [hservers]
  cases h.holds with
  | queued pending loading => exact .queued (hpending ▸ pending) (hservers ▸ loading)
  | underWay pending load loading =>
    exact .underWay (hpending ▸ pending) (hloads.trans load) (hservers ▸ loading)
  | shown pending load returned listing =>
    rw [load, List.map_nil, List.map_eq_nil_iff] at hloads
    exact .shown (hpending ▸ pending) hloads (hreturned _ returned) (hservers ▸ listing)

/-- A ticket that is handed out is queued, and it is the latest. -/
theorem Attended.event (h : d.Attended p) (e : Event)
    (hq : (d.step (.event e)).app.quitting = false) :
    (d.step (.event e)).Attended (d.note p (.event e)) := by
  have hissued : (d.note p (.event e)).issued = p.issued ++ (d.app.requestedBy? e).toList := rfl
  generalize hticket : d.app.requestedBy? e = ticket at hissued
  have hreaction := hticket ▸ App.feedReaction d.app e
  cases hreaction with
  | rests same =>
    exact h.congr same rfl (by simpa using hissued) fun x hx => by simpa [note, returnedFetch?] using hx
  | leaves feed =>
    have hquitting : (d.step (.event e)).app.quitting = true := congrArg Feed.quitting feed
    rw [hquitting] at hq
    cases hq
  | @asks servers ticket refreshed feed =>
    have hservers : (d.step (.event e)).app.servers = servers := congrArg (·.servers) feed
    have hpending : (d.step (.event e)).app.pendingLoad = some ticket :=
      congrArg (·.pendingLoad) feed
    obtain ⟨-, hnext⟩ := ServerList.refresh?_eq_some_iff.1 refreshed
    cases hnext
    refine ⟨by rw [hservers]; exact h.mounted, ?_, ?_⟩
    · rw [hissued, hservers]
      simp
    · rw [hservers]
      exact .queued hpending (congrArg (·.listing) hservers)

/-- A ticket in the queue goes to the background. -/
theorem Attended.spawn (h : d.Attended p) : (d.step .spawn).Attended (d.note p .spawn) := by
  rw [note_spawn]
  refine ⟨h.mounted, h.latest, ?_⟩
  cases h.holds with
  | queued pending loading => exact .underWay rfl (by rw [loads_spawn pending]; rfl) loading
  | underWay pending load loading =>
    exact .underWay rfl (by rw [loads_spawn_of_none pending]; exact load) loading
  | shown pending load returned listing =>
    exact .shown rfl (by rw [loads_spawn_of_none pending]; exact load) returned listing

/-- What was returned was taken over. -/
theorem Accounted.mem_taken (h : d.Accounted p) {t : Ticket} {result : Except LoadFault Directory}
    (ht : (t, result) ∈ p.returned) : t ∈ p.taken :=
  h.started.subset (h.returned.subset (List.mem_map_of_mem (f := (·.1)) ht))

/-- The result of the latest ticket is shown, and that of an older one is not. -/
theorem Attended.collect (h : d.Attended p) (ha : d.Accounted p) :
    (d.step .collect).Attended p := by
  rcases ha.collect_cases with ⟨hfeed, hloads, -⟩ | ⟨t, result, hd, returned, hfeed, hloads⟩
  · exact h.congr hfeed (congrArg _ hloads) rfl fun x hx => hx
  have hservers : (d.step .collect).app.servers = d.app.servers.apply t result :=
    congrArg (·.servers) hfeed
  have hpending : (d.step .collect).app.pendingLoad = d.app.pendingLoad :=
    congrArg (·.pendingLoad) hfeed
  cases h.holds with
  | queued pending loading =>
    -- The fetch is that of an older ticket, as the latest was not taken over.
    have hne : t ≠ ⟨d.app.servers.apiId, d.app.servers.generation⟩ := fun heq =>
      ha.not_mem_taken pending (heq ▸ ha.mem_taken returned)
    have same : (d.step .collect).app.servers = d.app.servers := by
      rw [hservers, ServerList.apply, if_neg]
      intro haccepts
      obtain ⟨-, hid, hgeneration⟩ := ServerList.accepts_iff.1 haccepts
      exact hne (by rw [← hid, ← hgeneration])
    refine ⟨same ▸ h.mounted, same ▸ h.latest, ?_⟩
    rw [same]
    exact .queued (hpending.trans pending) (same ▸ loading)
  | underWay pending load loading =>
    obtain rfl : t = ⟨d.app.servers.apiId, d.app.servers.generation⟩ := by simpa [hd] using load
    have happly : (d.step .collect).app.servers =
        { d.app.servers with listing := ServerList.Listing.ofResult result } := by
      rw [hservers, ServerList.apply, if_pos (ServerList.accepts_iff.2 ⟨h.mounted, rfl, rfl⟩)]
    refine ⟨by rw [happly]; exact h.mounted, by rw [happly]; exact h.latest, ?_⟩
    · rw [happly]
      exact .shown (hpending.trans pending) hloads returned (congrArg (·.listing) happly)
  | shown _ load =>
    rw [hd] at load
    cases load

/-- **As long as the console is not left, the latest ticket is not lost.** Only a fetch that breaks
off could lose it. -/
theorem Attended.step (h : d.Attended p) (ha : d.Accounted p) {s : Step η}
    (unbroken : ∀ i, s ≠ .breakLoad i) (hq : (d.step s).app.quitting = false) :
    (d.step s).Attended (d.note p s) := by
  have tickets (i : Nat) (change : Progress η (Except LoadFault Directory) →
      Progress η (Except LoadFault Directory)) :
      (d.tasks.modifyLoad i change).loads.map (·.ticket) = d.tasks.loads.map (·.ticket) := by
    refine List.ext_getElem (by simp [Tasks.modifyLoad]) fun j h₁ h₂ => ?_
    simp only [Tasks.modifyLoad, List.getElem_map, List.getElem_modify]
    split <;> rfl
  have issued (hs : d.requestedFetch? s = none) : (d.note p s).issued = p.issued := by
    simp [note, hs]
  have returned : ∀ x ∈ p.returned, x ∈ (d.note p s).returned := fun x hx =>
    List.mem_append_left _ hx
  cases s with
  | event e => exact h.event e hq
  | spawn => exact h.spawn
  | collect => exact (h.collect ha).congr rfl rfl (issued rfl) returned
  | previewWidth width =>
    exact h.congr (App.feed_resizePreview width) rfl (issued rfl) returned
  | startLoad i | finishLoad i => exact h.congr rfl (tickets i _) (issued rfl) returned
  | breakLoad i => exact absurd rfl (unbroken i)
  | startSave | finishSave => exact h.congr rfl rfl (issued rfl) returned

theorem Attended.run (h : d.Attended p) (ha : d.Accounted p) {steps : List (Step η)}
    (unbroken : ∀ i, .breakLoad i ∉ steps) (hq : (d.run steps).app.quitting = false) :
    (d.run steps).Attended (d.fetches p steps) := by
  induction steps generalizing d p with
  | nil => exact h
  | cons s steps ih =>
    have hstay : (d.step s).app.quitting = false := by
      by_contra hleft
      have hend := quitting_run_of_quitting (by simpa using hleft) steps
      exact absurd (hend.symm.trans hq) (by decide)
    have hs : ∀ i, s ≠ .breakLoad i := fun i hi => unbroken i (by simp [hi])
    exact ih (h.step ha hs hstay) (ha.step s) (fun i hi => unbroken i (by simp [hi])) hq

end Desk

/-! ### The result -/

/-- No fetch is lost, and no old one is shown. -/
structure Desk.OneFetch {η : Type} (d : Desk η) (p : FetchLog) : Prop where
  /-- One fetch at most is in the background. -/
  one : d.tasks.loads.length ≤ 1
  /-- No ticket is taken over twice, and no fetch is started twice. -/
  once : p.taken.Nodup ∧ p.started.Nodup
  /-- The latest ticket is in one place, the queue or the background, while the list is loading; or
  both are empty, and the list shows the one result that its fetch has returned. -/
  latest : ∃ t, p.issued.getLast? = some t ∧
    ((d.app.servers.listing = .loading ∧
        (d.app.pendingLoad.toList ++ d.tasks.loads.map (·.ticket)).count t = 1) ∨
      (d.app.pendingLoad = none ∧ d.tasks.loads = [] ∧ ∃ result,
        p.returned.filter (·.1 = t) = [(t, result)] ∧
          d.app.servers.listing = ServerList.Listing.ofResult result))

namespace Desk

variable {η : Type} {d : Desk η} {p : FetchLog}

/-- The fetches in the background were taken over. -/
theorem Accounted.ticket_mem_taken (h : d.Accounted p) {task : LoadTask η}
    (ht : task ∈ d.tasks.loads) : task.ticket ∈ p.taken := by
  have hloads := h.loads
  generalize d.tasks.loads = loads at hloads ht
  cases hloads with
  | none => cases ht
  | waiting unstarted =>
    obtain rfl := List.mem_singleton.1 ht
    exact unstarted.subset (by simp)
  | running unreturned =>
    obtain rfl := List.mem_singleton.1 ht
    exact h.started.subset (unreturned.subset (by simp))
  | finished returned =>
    obtain rfl := List.mem_singleton.1 ht
    exact h.mem_taken returned

/-- A queued ticket is not in the background as well. -/
theorem Accounted.count_queued (h : d.Accounted p) {t : Ticket} (ht : d.app.pendingLoad = some t) :
    (d.app.pendingLoad.toList ++ d.tasks.loads.map (·.ticket)).count t = 1 := by
  have habsent : t ∉ d.tasks.loads.map (·.ticket) := by
    intro hmem
    obtain ⟨task, htask, rfl⟩ := List.mem_map.1 hmem
    exact h.not_mem_taken ht (h.ticket_mem_taken htask)
  rw [ht, Option.toList_some, List.singleton_append, List.count_cons_self,
    List.count_eq_zero_of_not_mem habsent]

/-- A ticket has one result. -/
theorem Accounted.filter_returned (h : d.Accounted p) {t : Ticket}
    {result : Except LoadFault Directory} (ht : (t, result) ∈ p.returned) :
    p.returned.filter (·.1 = t) = [(t, result)] := by
  have hnodup : (p.returned.map (·.1)).Nodup :=
    h.distinct.sublist (h.returned.trans (h.started.trans
      ((List.sublist_append_left ..).trans h.taken)))
  obtain ⟨before, after, hsplit⟩ := List.append_of_mem ht
  rw [hsplit, List.map_append, List.map_cons, List.nodup_middle, ← List.map_append,
    List.nodup_cons] at hnodup
  have hothers : ∀ x ∈ before ++ after, x.1 ≠ t := fun x hx heq =>
    hnodup.1 (List.mem_map.2 ⟨x, hx, heq⟩)
  have hnone : (before ++ after).filter (·.1 = t) = [] :=
    List.filter_eq_nil_iff.2 fun x hx => by simpa using hothers x hx
  rw [List.filter_append, List.append_eq_nil_iff] at hnone
  simp [hsplit, hnone]

theorem Attended.oneFetch (h : d.Attended p) (ha : d.Accounted p) : d.OneFetch p where
  one := by
    have hloads := ha.loads
    generalize d.tasks.loads = loads at hloads
    cases hloads <;> simp
  once := by
    have htaken := ha.distinct.sublist ((List.sublist_append_left ..).trans ha.taken)
    exact ⟨htaken, htaken.sublist ha.started⟩
  latest := by
    refine ⟨_, h.latest, ?_⟩
    cases h.holds with
    | queued pending loading =>
      have hcount := ha.count_queued pending
      exact .inl ⟨loading, hcount⟩
    | underWay pending load loading => exact .inl ⟨loading, by simp [pending, load]⟩
    | shown pending load returned listing =>
      exact .inr ⟨pending, load, _, ha.filter_returned returned, listing⟩

/-- **No fetch is lost, and no old one is shown.** However keys, the wheel, ticks, widths of the
preview and the background's doings follow each other, as long as no fetch breaks off and the console
is not left. -/
theorem no_fetch_is_lost (record : Record) (user : User) (steps : List (Step η))
    (unbroken : ∀ i, .breakLoad i ∉ steps)
    (staying : ((Desk.new record user).run steps).app.quitting = false) :
    ((Desk.new record user).run steps).OneFetch
      ((Desk.new record user).fetches (.first record) steps) := by
  have ha : (Desk.new record user : Desk η).Accounted (.first record) := accounted_new record user
  have h : (Desk.new record user : Desk η).Attended (.first record) := attended_new record user
  exact (h.run ha unbroken staying).oneFetch (ha.run steps)

/-- The first fetch returns when the list has been refreshed, and the list shows the second one. -/
theorem refresh_outruns_fetch :
    let record : Record := .fresh "a" "N" ⟨⟨2020, 1, 1⟩, 0, 0, 0, 0⟩
    let steps : List (Step Unit) :=
      [.spawn, .startLoad 0 (), .event (.key { key := .char 'r' }), .finishLoad 0 (.ok .empty),
        .collect, .spawn, .startLoad 0 (), .finishLoad 0 (.error (.fetch (.request "down"))),
        .collect]
    let d := (Desk.new record .default).run steps
    d.OneFetch ((Desk.new record .default).fetches (.first record) steps) ∧
      d.app.servers.listing = .failed "Failed to fetch definition: Request failed: down" := by
  intro record steps d
  exact ⟨no_fetch_is_lost record .default steps (by simp [steps]) rfl, by decide +kernel⟩

end Desk

/-- In a rehearsal the backend is called for the fetches that are started. -/
theorem Simulation.Rehearsal.fetchLog_startLoad (r : Simulation.Rehearsal) (i : Nat)
    (timer : Simulation.Timer) :
    (r.startLoad i).backend.fetchLog =
      r.backend.fetchLog ++ (r.desk.startedFetch? (.startLoad i timer)).toList.map (·.apiId) := by
  unfold startLoad Desk.startedFetch?
  dsimp only
  split
  next ticket hi => simp [hi, step, Backend.startFetch]
  next hi =>
    split
    next ticket hw => exact absurd hw (hi _)
    next => simp

end PublisherConsole
