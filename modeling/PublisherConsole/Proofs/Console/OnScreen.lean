import PublisherConsole.Proofs.Console.Coherence

/-!
# What is on the screen

The dialog holds its text three times: as the draft of a session, in the text area, and as the lines
of the preview, which are only rendered again when a revision has changed.

* `App.Coherent.session_draft?`: the draft of a session is the text of the text area if the dialog
  shows that session, and there is none otherwise;
* `Desk.draft_of_opening`: whatever opens a session, its draft is the text of the record;
* `App.Coherent.preview_eq`: the preview is the rendered draft, or empty without a dialog.

The main statements are `draft_is_on_screen` and `preview_is_never_stale`, about everything that can
happen at a desk.
-/

namespace PublisherConsole

namespace App

variable {a b : App} {f : TextField} {draft : String}

/-! ### Drafts -/

theorem session_draft?_of_editing (h : a.phase = .editing f draft) :
    (a.session f).draft? = some draft := by
  obtain ⟨-, lastError, hs⟩ := phase_eq_editing_iff.1 h
  simp [Session.draft?, hs]

theorem IsClosed.session_draft? (h : a.IsClosed) (g : TextField) :
    (a.session g).draft? = none := by
  simp [Session.draft?, h.stage]

/-- Only the session in the dialog has a draft. -/
theorem IsOpen.eq_of_draft? (h : a.IsOpen f) {g : TextField} (hg : (a.session g).draft? = some draft) :
    g = f := by
  rcases f.eq_or_eq_other g with hgf | hgf
  · exact hgf
  · rw [hgf, Session.draft?, h.other] at hg
    cases hg

/-- **The text area holds the draft.** -/
theorem Coherent.session_draft? (h : a.Coherent) (f : TextField) :
    (a.session f).draft? = if a.active = some f then some a.input.text else none := by
  rcases h with closed | ⟨g, opened⟩
  · rw [closed.session_draft?, closed.active]
    rfl
  · rcases f.eq_or_eq_other g with hg | hg
    · subst hg
      rw [opened.active, if_pos rfl, opened.draft]
    · subst hg
      have hne : some f.other ≠ some f := by simp
      have hf : f = f.other.other := by cases f <;> rfl
      have hclosed : (a.session f).stage = .closed := by
        rw [hf]
        exact opened.other
      rw [opened.active, if_neg hne, Session.draft?, hclosed]

/-- An event that gives a session a draft takes it from the record. -/
theorem Reaction.draft_of_opening {saved : Option SaveRequest} (h : Reaction a b saved)
    (before : (a.session f).draft? = none) (after : (b.session f).draft? = some draft) :
    draft = b.record.content f := by
  cases h with
  | rests same =>
    rw [session_of_dialog same, before] at after
    cases after
  | opens _ opened phase record =>
    obtain rfl := opened.eq_of_draft? after
    rw [session_draft?_of_editing phase] at after
    rw [record]
    exact (Option.some.inj after).symm
  | types hp opened =>
    obtain rfl := opened.eq_of_draft? after
    rw [session_draft?_of_editing hp] at before
    cases before
  | cancels _ closed =>
    rw [closed.session_draft?] at after
    cases after
  | saves hp opened =>
    obtain rfl := opened.eq_of_draft? after
    rw [session_draft?_of_editing hp] at before
    cases before

theorem session_resizePreview (width : Nat) (g : TextField) :
    (a.resizePreview width).session g = a.session g := by
  unfold resizePreview
  split
  · rfl
  · rw [session_refreshPreview]
    cases g <;> rfl

/-- The outcome of a save gives no session a draft. -/
theorem Coherent.session_draft?_completeSave (h : a.Coherent) (hf : (a.session f).draft? = none)
    (g : TextField) (outcome : Except Storage.Fault Record) :
    ((a.completeSave g outcome).session f).draft? = none := by
  rcases h.completeSave_cases g outcome with same | ⟨opened, draft, hp⟩
  · rw [same]
    exact hf
  · cases outcome with
    | ok r => exact (opened.completeSave_ok hp r).1.session_draft? f
    | error fault =>
      cases hd : ((a.completeSave g (.error fault)).session f).draft? with
      | none => rfl
      | some content =>
        obtain rfl := (opened.completeSave_error hp fault).1.eq_of_draft? hd
        rw [opened.draft] at hf
        cases hf

/-- The edit key for a text opens its dialog, unless help is shown or the user may not edit. -/
theorem IsClosed.active_press (h : a.IsClosed) (hh : a.helping = false) (ha : a.access = .allowed)
    {k : KeyPress} (hk : k.action = .edit f) : (a.press k).active = some f := by
  have ht : a.typing? k = none := by simp [typing?, h.view]
  have hopen := (Session.open?_eq_ok_iff (r := a.record)).2 ⟨ha, h.stage f, rfl⟩
  simp only [press, ht, hk, App.perform, hh, h.view, performOverview, App.openEditor, hopen,
    Bool.false_eq_true, if_false, active_refreshPreview]

/-! ### The preview -/

/-- The draft in the dialog. -/
def draft? (a : App) : Option String := a.activeSession?.bind (·.draft?)

theorem Coherent.draft?_eq (h : a.Coherent) :
    a.draft? = a.active.map fun _ => a.input.text := by
  unfold draft? activeSession?
  cases ha : a.active with
  | none => rfl
  | some f => simp [h.session_draft? f, ha]

/-- **The preview shows the draft.** -/
theorem Coherent.preview_eq (h : a.Coherent) :
    a.preview =
      (a.draft?.map fun draft => Markdown.render draft a.previewWidth Markdown.Styles.console).getD [] := by
  rw [h.draft?_eq]
  rcases h with closed | ⟨f, opened⟩
  · rw [closed.active, closed.preview]
    rfl
  · rw [opened.active, opened.preview]
    simp only [Option.map_some, Option.getD_some, Markdown.preview]

theorem previewWidth_refreshPreview : a.refreshPreview.previewWidth = a.previewWidth := by
  obtain ⟨lines, revision, h⟩ := a.exists_refreshPreview
  rw [h]

theorem previewWidth_resizePreview (width : Nat) : (a.resizePreview width).previewWidth = width := by
  unfold resizePreview
  split
  next h => exact h.symm
  next => rw [previewWidth_refreshPreview]

end App

/-! ### Runs -/

namespace Desk

variable {η : Type} {d : Desk η} {f : TextField} {draft : String}

/-- Handing over finished saves gives no session a draft. -/
theorem session_draft?_collectSaves {a : App} (h : a.Coherent) (hf : (a.session f).draft? = none)
    (tasks : List (SaveTask η)) : ((Tasks.collectSaves tasks a).2.session f).draft? = none := by
  induction tasks generalizing a with
  | nil => exact hf
  | cons task rest ih =>
    unfold Tasks.collectSaves
    split
    next outcome _ =>
      exact ih (h.completeSave _ outcome) (h.session_draft?_completeSave hf _ outcome)
    next => exact ih h hf

/-- **Whatever opens a session takes its draft from the record.** -/
theorem draft_of_opening (h : d.app.Coherent) (s : Step η)
    (before : (d.app.session f).draft? = none)
    (after : ((d.step s).app.session f).draft? = some draft) :
    draft = (d.step s).app.record.content f := by
  -- Only events open a session; after any other step there is still none.
  have never : ∀ a : App, a.session f = d.app.session f → (a.session f).draft? ≠ some draft := by
    intro a ha hd
    rw [ha, before] at hd
    cases hd
  cases s with
  | event e => exact (h.reaction e).draft_of_opening before after
  | previewWidth width => exact absurd after (never _ (App.session_resizePreview width f))
  | spawn => exact absurd after (never _ (by cases f <;> rfl))
  | collect =>
    have hloads := App.session_of_dialog (dialog_collectLoads d.tasks.loads d.app).1 f
    have hnone := session_draft?_collectSaves (coherent_collectLoads h d.tasks.loads)
      (by rw [hloads, before]) d.tasks.saves
    exact absurd (hnone.symm.trans after) (by simp)
  | startLoad | startSave | finishLoad | breakLoad | finishSave => exact absurd after (never _ rfl)

/-- The text area holds the draft that would be saved. -/
structure DraftOnScreen (d : Desk η) : Prop where
  /-- The session in the dialog has the text of the text area for its draft, and the other session
  has none; without a dialog neither has one. -/
  shown : ∀ f, (d.app.session f).draft? = if d.app.active = some f then some d.app.input.text else none
  /-- A session that opens begins with the text of the record, or with the empty text. -/
  opened : ∀ s f draft, (d.app.session f).draft? = none →
    ((d.step s).app.session f).draft? = some draft →
      draft = ((d.step s).app.record.text? f).getD ""
  /-- The edit keys open sessions for a user who may edit. -/
  opens : ∀ k f, d.app.active = none → d.app.helping = false → d.app.access = .allowed →
    k.action = .edit f → ((d.step (.event (.key k))).app.session f).draft?.isSome = true

/-- **What is on the screen is what will be saved.** However keys, the wheel, ticks, widths of the
preview and the ends of fetches and saves follow each other, with whatever results, the text area
holds the draft of the dialog; and whatever was typed before, a dialog opens with the text of the
record. -/
theorem draft_is_on_screen (record : Record) (user : User) (steps : List (Step η)) :
    ((Desk.new record user).run steps).DraftOnScreen := by
  have h := run_coherent (coherent_new record user : (Desk.new record user : Desk η).app.Coherent)
    steps
  generalize (Desk.new record user).run steps = d at h
  refine ⟨h.session_draft?, fun s f draft => draft_of_opening h s, ?_⟩
  intro k f hactive hhelping haccess hk
  have closed : d.app.IsClosed := by
    rcases h with closed | ⟨g, opened⟩
    · exact closed
    · rw [opened.active] at hactive
      cases hactive
  have hopen : (d.step (.event (.key k))).app.active = some f :=
    closed.active_press hhelping haccess hk
  have hafter := step_coherent h (.event (.key k))
  rw [hafter.session_draft? f, hopen, if_pos rfl]
  rfl

/-- **The preview is never stale.** However keys, the wheel, ticks, widths of the preview and the ends
of fetches and saves follow each other, with whatever results, the lines of the preview are those of
the draft in the dialog at the present width, and there are none without a dialog. -/
theorem preview_is_never_stale (record : Record) (user : User) (steps : List (Step η)) :
    let a := ((Desk.new record user).run steps).app
    a.draft?.isSome = a.active.isSome ∧
      a.preview = (a.draft?.map fun draft =>
        Markdown.render draft a.previewWidth Markdown.Styles.console).getD [] ∧
      ∀ width, (a.resizePreview width).previewWidth = width := by
  intro a
  have h : a.Coherent :=
    run_coherent (coherent_new record user : (Desk.new record user : Desk η).app.Coherent) steps
  refine ⟨?_, h.preview_eq, App.previewWidth_resizePreview⟩
  rw [h.draft?_eq, Option.isSome_map]

end Desk

end PublisherConsole
