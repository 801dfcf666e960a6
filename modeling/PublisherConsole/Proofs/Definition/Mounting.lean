import Mathlib.Tactic
import PublisherConsole.Definition.ServerList

/-!
# Lists that are mounted one after the other

A mounted list may be replaced by another one, for the same API or for a different one, and what was
fetched for the old list may still come. A `Succession` is a list together with all tickets that it
and its predecessors have handed out, mounting by mounting.

* `Succession.Numbered`: the tickets of a mounting are numbered from one on, which every change keeps
  (`Succession.Numbered.run`);
* `Succession.Numbered.takes_iff`: so the list takes the tickets that have the API and the number of
  the latest one, whichever mounting they come from.

Within one mounting this is the latest ticket alone. The main statement,
`latest_ticket_alone_counts_iff`, says for which successions it is among all mountings: a ticket of an
earlier mounting for the same API counts as well, if that mounting had come to the same number.
-/

namespace PublisherConsole.Definition

namespace ServerList

/-- The result of a ticket is taken and shown, whatever it is. -/
def Takes (l : ServerList) (t : Ticket) : Prop :=
  l.accepts t = true ∧ ∀ result, l.apply t result = { l with listing := Listing.ofResult result }

/-- The result of a ticket is refused and changes nothing, whatever it is. -/
def Drops (l : ServerList) (t : Ticket) : Prop :=
  l.accepts t = false ∧ ∀ result, l.apply t result = l

theorem takes_iff {l : ServerList} {t : Ticket} : l.Takes t ↔ l.accepts t = true :=
  ⟨fun h => h.1, fun h => ⟨h, fun result => by rw [apply, if_pos h]⟩⟩

theorem drops_iff {l : ServerList} {t : Ticket} : l.Drops t ↔ ¬l.Takes t := by
  rw [takes_iff, Bool.not_eq_true]
  exact ⟨fun h => h.1, fun h => ⟨h, fun result => by rw [apply, if_neg (by simp [h])]⟩⟩

theorem accepts_iff {l : ServerList} {t : Ticket} :
    l.accepts t = true ↔
      l.mounted = true ∧ t.apiId = l.apiId ∧ t.generation = l.generation := by
  simp only [accepts, Bool.and_eq_true, decide_eq_true_eq]
  tauto

/-- A list that is mounted, and no other, hands out its next ticket. -/
theorem refresh?_eq_some_iff {l : ServerList} {next : ServerList × Ticket} :
    l.refresh? = some next ↔ l.mounted = true ∧ l.nextTicket = next := by
  simp [refresh?]

end ServerList

/-- What can be done about the list on the screen. -/
inductive Change
  | mount (apiId : String)
  | refresh
  | unmount
  deriving DecidableEq, Repr

/-- The time from the mounting of a list to the mounting of the next, with the tickets that were
handed out, the oldest first. -/
structure Mounting where
  apiId : String
  tickets : List Ticket
  deriving DecidableEq, Repr

/-- A list on the screen, its tickets, and those of the lists before it. -/
structure Succession where
  list : ServerList
  earlier : List Mounting
  latest : Mounting
  deriving DecidableEq, Repr

namespace Succession

/-- The first list. -/
def first (apiId : String) : Succession :=
  let (list, ticket) := ServerList.mount apiId
  ⟨list, [], ⟨apiId, [ticket]⟩⟩

/-- Change what is on the screen. A new list takes the place of the one before, mounted or not. -/
def change (p : Succession) : Change → Succession
  | .mount apiId =>
    let (list, ticket) := ServerList.mount apiId
    ⟨list, p.earlier ++ [p.latest], ⟨apiId, [ticket]⟩⟩
  | .refresh =>
    match p.list.refresh? with
    | none => p
    | some (list, ticket) =>
      { p with list, latest := { p.latest with tickets := p.latest.tickets ++ [ticket] } }
  | .unmount => { p with list := p.list.unmount }

/-- Make one change after the other. -/
def run (p : Succession) (changes : List Change) : Succession := changes.foldl change p

/-- All mountings, the first one first. -/
def mountings (p : Succession) : List Mounting := p.earlier ++ [p.latest]

/-- The ticket with a number, counted from zero, of the mounting with a number. -/
def ticket? (p : Succession) (m k : Nat) : Option Ticket := (p.mountings[m]?).bind (·.tickets[k]?)

/-- The ticket that was handed out last has these numbers. -/
def IsLatest (p : Succession) (m k : Nat) : Prop :=
  m + 1 = p.mountings.length ∧ k + 1 = p.latest.tickets.length

/-- While the list is mounted, the result of its latest ticket is taken; the results of all other
tickets ever handed out are dropped, and without a mounted list so is that one. -/
def LatestAloneCounts (p : Succession) : Prop :=
  ∀ m k ticket, p.ticket? m k = some ticket →
    (p.list.mounted = true ∧ p.IsLatest m k → p.list.Takes ticket) ∧
      (¬(p.list.mounted = true ∧ p.IsLatest m k) → p.list.Drops ticket)

/-! ### Numbers -/

/-- The tickets of every mounting are for its API and numbered from one on. The list has the API of
the latest mounting and, while it is mounted, the number of the latest ticket. -/
structure Numbered (p : Succession) : Prop where
  tickets : ∀ x ∈ p.mountings, ∀ (k : Nat) (t : Ticket), x.tickets[k]? = some t → t = ⟨x.apiId, k + 1⟩
  api : p.list.apiId = p.latest.apiId
  generation : p.list.mounted = true → p.list.generation = p.latest.tickets.length
  issued : p.latest.tickets ≠ []

variable {p : Succession}

/-- An element of a list with one more at its end. -/
theorem getElem?_concat_cases {α : Type} {l : List α} {a b : α} {i : Nat}
    (h : (l ++ [a])[i]? = some b) : (i < l.length ∧ l[i]? = some b) ∨ (i = l.length ∧ b = a) := by
  rcases Nat.lt_or_ge i l.length with hlt | hge
  · rw [List.getElem?_append_left hlt] at h
    exact .inl ⟨hlt, h⟩
  · obtain ⟨hi, rfl⟩ : i - l.length = 0 ∧ a = b := by
      simpa [List.getElem?_append_right hge, List.getElem?_singleton] using h
    exact .inr ⟨by omega, rfl⟩

theorem mem_mountings {x : Mounting} : x ∈ p.mountings ↔ x ∈ p.earlier ∨ x = p.latest := by
  simp [mountings]

theorem numbered_first (apiId : String) : (first apiId).Numbered where
  tickets x hx k t hk := by
    obtain rfl : x = ⟨apiId, [⟨apiId, 1⟩]⟩ := by
      rcases mem_mountings.1 hx with hx | hx
      · cases hx
      · exact hx
    rcases getElem?_concat_cases (l := []) hk with ⟨hlt, -⟩ | ⟨rfl, rfl⟩
    · cases hlt
    · rfl
  api := rfl
  generation _ := rfl
  issued := by simp [first]

/-- A new list begins to number its tickets again. -/
theorem Numbered.mount (h : p.Numbered) (apiId : String) : (p.change (.mount apiId)).Numbered where
  tickets x hx k t hk := by
    have hx : x ∈ p.mountings ∨ x = (first apiId).latest := by
      simpa [mem_mountings, change, first] using hx
    rcases hx with hx | hx
    · exact h.tickets x hx k t hk
    · exact (numbered_first apiId).tickets x (mem_mountings.2 (.inr hx)) k t hk
  api := rfl
  generation _ := rfl
  issued := by simp [change]

/-- Another fetch takes the next number. -/
theorem Numbered.refresh (h : p.Numbered) : (p.change .refresh).Numbered := by
  cases hm : p.list.mounted with
  | false => simpa [change, ServerList.refresh?, hm] using h
  | true =>
    have hg := h.generation hm
    have hchange : p.change .refresh =
        { p with
          list := { p.list with generation := p.list.generation + 1, listing := .loading }
          latest := { p.latest with
            tickets := p.latest.tickets ++ [⟨p.list.apiId, p.list.generation + 1⟩] } } := by
      simp [change, ServerList.refresh?, hm, ServerList.nextTicket]
    rw [hchange]
    refine ⟨fun x hx k t hk => ?_, h.api, fun _ => by simp [hg], by simp⟩
    rcases mem_mountings.1 hx with hx | rfl
    · exact h.tickets x (mem_mountings.2 (.inl hx)) k t hk
    · rcases getElem?_concat_cases hk with ⟨-, hold⟩ | ⟨rfl, rfl⟩
      · exact h.tickets p.latest (mem_mountings.2 (.inr rfl)) k t hold
      · rw [h.api, hg]

theorem Numbered.change (h : p.Numbered) (c : Change) : (p.change c).Numbered := by
  cases c with
  | mount apiId => exact h.mount apiId
  | refresh => exact h.refresh
  | unmount => exact ⟨h.tickets, h.api, nofun, h.issued⟩

theorem Numbered.run (h : p.Numbered) (changes : List Change) : (p.run changes).Numbered := by
  induction changes generalizing p with
  | nil => exact h
  | cons c changes ih => exact ih (h.change c)

/-- **Which tickets count.** Those of the API and with the number of the latest one. -/
theorem Numbered.takes_iff (h : p.Numbered) {m k : Nat} {x : Mounting} {t : Ticket}
    (hx : p.mountings[m]? = some x) (ht : x.tickets[k]? = some t) :
    p.list.Takes t ↔
      p.list.mounted = true ∧ x.apiId = p.latest.apiId ∧ k + 1 = p.latest.tickets.length := by
  obtain rfl := h.tickets x (List.mem_of_getElem? hx) k t ht
  rw [ServerList.takes_iff, ServerList.accepts_iff, h.api]
  constructor
  · rintro ⟨hm, hid, hg⟩
    exact ⟨hm, hid, hg.trans (h.generation hm)⟩
  · rintro ⟨hm, hid, hg⟩
    exact ⟨hm, hid, hg.trans (h.generation hm).symm⟩

/-! ### The latest ticket among all -/

/-- A mounting is the latest, or it is an earlier one. -/
theorem mountings_getElem?_cases {m : Nat} {x : Mounting} (hx : p.mountings[m]? = some x) :
    (m + 1 = p.mountings.length ∧ x = p.latest) ∨ (m + 1 ≠ p.mountings.length ∧ x ∈ p.earlier) := by
  have hlength : p.mountings.length = p.earlier.length + 1 := by simp [mountings]
  rcases getElem?_concat_cases hx with ⟨hlt, hold⟩ | ⟨rfl, rfl⟩
  · exact .inr ⟨by omega, List.mem_of_getElem? hold⟩
  · exact .inl ⟨hlength.symm, rfl⟩

/-- Earlier mountings for the same API that have come to fewer tickets do no harm. -/
theorem Numbered.latestAloneCounts (h : p.Numbered)
    (hfew : p.list.mounted = true → ∀ x ∈ p.earlier, x.apiId = p.latest.apiId →
      x.tickets.length < p.latest.tickets.length) : p.LatestAloneCounts := by
  intro m k t ht
  obtain ⟨x, hx, hk⟩ := Option.bind_eq_some_iff.1 ht
  have htakes := h.takes_iff hx hk
  rw [ServerList.drops_iff, htakes]
  rcases mountings_getElem?_cases hx with ⟨hm, rfl⟩ | ⟨hm, hearlier⟩
  · exact ⟨fun hl => ⟨hl.1, rfl, hl.2.2⟩, fun hl hw => hl ⟨hw.1, hm, hw.2.2⟩⟩
  · refine ⟨fun hl => absurd hl.2.1 hm, fun _ hw => ?_⟩
    -- The number of the latest ticket is beyond those of the earlier mounting.
    have hlt := hfew hw.1 x hearlier hw.2.1
    have hbound : k < x.tickets.length := (List.getElem?_eq_some_iff.1 hk).1
    omega

/-- An earlier mounting for the same API that has come to as many tickets has one that counts. -/
theorem Numbered.lt_of_latestAloneCounts (h : p.Numbered) (hl : p.LatestAloneCounts)
    (hm : p.list.mounted = true) {x : Mounting} (hx : x ∈ p.earlier)
    (hid : x.apiId = p.latest.apiId) : x.tickets.length < p.latest.tickets.length := by
  by_contra hge
  have hpos : 0 < p.latest.tickets.length := List.length_pos_iff.2 h.issued
  obtain ⟨m, hm', rfl⟩ := List.mem_iff_getElem.1 hx
  have hmount : p.mountings[m]? = some p.earlier[m] := by
    rw [mountings, List.getElem?_append_left hm', List.getElem?_eq_getElem]
  have hk : p.latest.tickets.length - 1 < p.earlier[m].tickets.length := by omega
  have ht := List.getElem?_eq_getElem hk
  have hlength : p.mountings.length = p.earlier.length + 1 := by simp [mountings]
  have htakes := (h.takes_iff hmount ht).2 ⟨hm, hid, by omega⟩
  refine ServerList.drops_iff.1 ((hl m _ _ (by rw [ticket?, hmount, Option.bind_some, ht])).2 ?_) htakes
  rintro ⟨-, hlast, -⟩
  omega

/-- **When the latest ticket alone counts.** Lists are mounted one after the other, refreshed and
unmounted in any order. The result of a ticket is taken exactly if a list is mounted, the ticket is
for the same API as the latest one, and it was handed out as the same one of its mounting; all other
results are dropped. So the latest ticket alone counts exactly as long as no earlier mounting for the
same API has come to as many tickets as the present one. -/
theorem latest_ticket_alone_counts_iff (apiId : String) (changes : List Change) :
    let p := (first apiId).run changes
    (∀ (m k : Nat) (x : Mounting) (t : Ticket),
      p.mountings[m]? = some x → x.tickets[k]? = some t →
      (p.list.Takes t ↔ p.list.mounted = true ∧ x.apiId = p.latest.apiId ∧
        k + 1 = p.latest.tickets.length) ∧ (p.list.Drops t ↔ ¬p.list.Takes t)) ∧
      (p.LatestAloneCounts ↔ (p.list.mounted = true → ∀ x ∈ p.earlier,
        x.apiId = p.latest.apiId → x.tickets.length < p.latest.tickets.length)) := by
  intro p
  have h : p.Numbered := (numbered_first apiId).run changes
  refine ⟨fun m k x t hx ht => ⟨h.takes_iff hx ht, ServerList.drops_iff⟩, fun hl hm x hx hid => ?_,
    h.latestAloneCounts⟩
  exact h.lt_of_latestAloneCounts hl hm hx hid

/-- Mounted again for the same API, a list takes the result of the ticket of its first mounting. -/
theorem old_ticket_counts_after_remount :
    let p := (first "a").run [.mount "a"]
    p.ticket? 0 0 = some ⟨"a", 1⟩ ∧ ¬p.IsLatest 0 0 ∧ p.list.Takes ⟨"a", 1⟩ ∧
      ¬p.LatestAloneCounts := by
  intro p
  obtain ⟨hcounts, halone⟩ := latest_ticket_alone_counts_iff "a" [.mount "a"]
  refine ⟨by decide, fun h => absurd h.1 (by decide), ?_, ?_⟩
  · exact ((hcounts 0 0 ⟨"a", [⟨"a", 1⟩]⟩ _ (by decide) (by decide)).1).2 (by decide)
  · rw [halone]
    exact fun h => absurd (h rfl ⟨"a", [⟨"a", 1⟩]⟩ (by decide) rfl) (by decide)

end Succession

end PublisherConsole.Definition
