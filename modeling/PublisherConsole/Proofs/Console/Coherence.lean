import PublisherConsole.Proofs.Console.Phase

/-!
# The console stays coherent

Each operation of the console is a `Reaction`, and so is every event (`App.Coherent.reaction`). What
comes from the background, the width of the preview and the ends of saves, keeps the console
coherent as well (`App.IsOpen.resizePreview`, `App.Coherent.completeSave`). The main statement is
`dialog_stays_coherent`: at a desk that was started in the usual way, whatever happens there, the
fields that tell of the dialog agree.
-/

namespace PublisherConsole

namespace App

variable {a b : App} {f : TextField}

/-! ### The preview -/

/-- An out-of-date preview is rendered. -/
theorem refreshPreview_of_stale (active : a.active = some f)
    (stale : a.previewRevision ≠ some (a.session f).revision) :
    a.refreshPreview =
      { a with
        preview := Markdown.preview ((a.session f).draft?.getD "") a.previewWidth
        previewRevision := some (a.session f).revision } := by
  simp only [refreshPreview, activeSession?, active, Option.map_some, if_neg stale]

@[simp] theorem session_refreshPreview (g : TextField) :
    a.refreshPreview.session g = a.session g := by
  obtain ⟨lines, revision, h⟩ := a.exists_refreshPreview
  rw [h]
  cases g <;> rfl

@[simp] theorem record_refreshPreview : a.refreshPreview.record = a.record := by
  obtain ⟨lines, revision, h⟩ := a.exists_refreshPreview
  rw [h]

@[simp] theorem pendingSave_refreshPreview : a.refreshPreview.pendingSave = a.pendingSave := by
  obtain ⟨lines, revision, h⟩ := a.exists_refreshPreview
  rw [h]

@[simp] theorem active_refreshPreview : a.refreshPreview.active = a.active := by
  obtain ⟨lines, revision, h⟩ := a.exists_refreshPreview
  rw [h]

@[simp] theorem phase_refreshPreview : a.refreshPreview.phase = a.phase := by
  simp [phase]

/-- A dialog whose preview is out of date is open once the preview is rendered. -/
theorem isOpen_refreshPreview (field : ∀ g, (a.session g).field = g) (view : a.view = .editor)
    (helping : a.helping = false) (active : a.active = some f)
    (draft : (a.session f).draft? = some a.input.text)
    (other : (a.session f.other).stage = .closed)
    (stale : a.previewRevision ≠ some (a.session f).revision) : a.refreshPreview.IsOpen f := by
  have hs := fun g => session_refreshPreview (a := a) g
  have he := refreshPreview_of_stale active stale
  refine
    { field := fun g => by rw [hs, field]
      view := by rw [he]; exact view
      helping := by rw [he]; exact helping
      active := by rw [he]; exact active
      draft := by rw [hs, draft, he]
      other := by rw [hs, other]
      preview := ?_
      revision := by rw [hs, he] }
  simp only [he, draft, Option.getD_some]

/-! ### Opening, typing, saving, leaving -/

@[simp] theorem phase_notify (message : String) : (a.notify message).phase = a.phase :=
  phase_of_dialog rfl

theorem IsClosed.isSaving (h : a.IsClosed) : a.isSaving = false := by
  simp [App.isSaving, activeSession?, h.active]

/-- Leaving a console without dialog does nothing to the dialog. -/
theorem IsClosed.quit (h : a.IsClosed) : a.quit.dialog = a.dialog ∧ a.quit.helping = a.helping := by
  simp [App.quit, h.isSaving, dialog]

/-- Opening a dialog takes the draft from the record, unless it is refused. -/
theorem IsClosed.openEditor (h : a.IsClosed) (hh : a.helping = false) (f : TextField) :
    Reaction a (a.openEditor f) none := by
  unfold App.openEditor
  split
  · exact .rests rfl (.inl rfl)
  next s hs =>
    obtain ⟨-, -, rfl⟩ := Session.open?_eq_ok_iff.1 hs
    rw [h.field f]
    generalize hs : (⟨f, .editing (a.record.content f) none, (a.session f).revision + 1⟩ :
      Session) = s
    generalize hb : ({ a.setSession f s with
      input := .ofText _, active := some f, view := .editor } : App) = b
    have hsession : b.session f = s := by subst hb; cases f <;> rfl
    have hother : b.session f.other = a.session f.other := by subst hb; cases f <;> rfl
    have hactive : b.active = some f := by subst hb; rfl
    have hrecord : b.record = a.record := by subst hb; cases f <;> rfl
    have hpending : b.pendingSave = a.pendingSave := by subst hb; cases f <;> rfl
    have opened : b.refreshPreview.IsOpen f := by
      refine isOpen_refreshPreview ?_ ?_ ?_ hactive ?_ ?_ ?_
      · exact TextField.forall_of (f := f) (by rw [hsession, ← hs]) (by rw [hother, h.field])
      · subst hb; rfl
      · subst hb; simpa using hh
      · rw [hsession, ← hs]; subst hb hs; simp [Session.draft?]
      · rw [hother, h.stage]
      · subst hb; simp [h.revision]
    refine .opens h opened ?_ (by simp [hrecord]) (by simp [hpending])
    rw [phase_refreshPreview, phase_eq_editing_iff, hsession, ← hs]
    exact ⟨hactive, none, rfl⟩

/-- The session of a text that is edited. -/
theorem IsOpen.stage_of_editing {draft : String} (h : a.IsOpen f)
    (hp : a.phase = .editing f draft) :
    ∃ lastError, (a.session f).stage = .editing a.input.text lastError := by
  obtain ⟨-, lastError, hs⟩ := phase_eq_editing_iff.1 hp
  have hd := h.draft
  simp only [Session.draft?, hs, Option.some.injEq] at hd
  exact ⟨lastError, hd ▸ hs⟩

/-- The text area becomes the draft that is edited. -/
theorem syncDraft_of_editing {draft : String} {lastError : Option String}
    (active : a.active = some f) (hs : (a.session f).stage = .editing draft lastError) :
    a.syncDraft =
      (a.setSession f
        { a.session f with
          stage := .editing a.input.text lastError
          revision := (a.session f).revision + 1 }).refreshPreview := by
  have hupdate := Session.update?_eq_ok_iff.2 ⟨draft, lastError, hs, Eq.refl
    { a.session f with
      stage := .editing a.input.text lastError, revision := (a.session f).revision + 1 }⟩
  simp only [App.syncDraft, active, hupdate]

/-- New text in the text area becomes the draft, and its preview is rendered. -/
theorem IsOpen.syncDraft {draft : String} (h : a.IsOpen f) (hp : a.phase = .editing f draft)
    (input : TextBuffer) : Reaction a ({ a with input := input } : App).syncDraft none := by
  obtain ⟨lastError, hs⟩ := h.stage_of_editing hp
  obtain ⟨s, hn⟩ : ∃ s : Session, s = { a.session f with
    stage := .editing input.text lastError, revision := (a.session f).revision + 1 } := ⟨_, rfl⟩
  obtain ⟨b, hb⟩ : ∃ b : App, b = { a with input := input } := ⟨_, rfl⟩
  have hsession : ∀ g, b.session g = a.session g := by subst hb; intro g; rfl
  have hactive : b.active = some f := by subst hb; exact h.active
  have hinput : b.input = input := by rw [hb]
  have hsync : b.syncDraft = (b.setSession f s).refreshPreview := by
    rw [syncDraft_of_editing hactive (hsession f ▸ hs), hsession, hinput, hn]
  rw [← hb, hsync]
  -- The session counts one revision more than the one that is shown, so the preview is out of date.
  have opened : (b.setSession f s).refreshPreview.IsOpen f := by
    refine isOpen_refreshPreview (field_setSession (fun g => ?_) ?_) ?_ ?_ ?_ ?_ ?_ ?_
    · rw [hsession, h.field]
    · rw [hn]; exact h.field f
    · subst hb; simpa using h.view
    · subst hb; simpa using h.helping
    · simpa using hactive
    · simp [hn, hinput, Session.draft?]
    · simp [hsession, h.other]
    · subst hb; simp [h.revision, hn]
  have hafter : (b.setSession f s).refreshPreview.phase = .editing f input.text := by
    rw [phase_refreshPreview, phase_eq_editing_iff]
    exact ⟨by simpa using hactive, lastError, by simp [hn]⟩
  refine .types hp opened hafter ?_ ?_
  · subst hb; simp
  · subst hb; simp

/-- A text area with the text that it had, and its cursor anywhere, changes no draft. -/
theorem IsOpen.moveCursor {draft : String} (h : a.IsOpen f) (hp : a.phase = .editing f draft)
    {input : TextBuffer} (hi : input.text = a.input.text) :
    Reaction a { a with input := input } none := by
  obtain ⟨lastError, hs⟩ := h.stage_of_editing hp
  have opened : ({ a with input := input } : App).IsOpen f :=
    { field := h.field
      view := h.view
      helping := h.helping
      active := h.active
      draft := h.draft.trans (congrArg some hi.symm)
      other := h.other
      preview := h.preview.trans (by rw [hi])
      revision := h.revision }
  exact .types hp opened (phase_eq_editing_iff.2 ⟨h.active, lastError, hs⟩) rfl rfl

/-- Typing changes the draft along with the text area. -/
theorem IsOpen.type {draft : String} (h : a.IsOpen f) (hp : a.phase = .editing f draft)
    (t : Typing) : Reaction a (a.type t) none := by
  unfold App.type
  dsimp only
  by_cases hc : t.isChange = true
  · rw [if_pos hc]
    exact h.syncDraft hp (t.apply a.input)
  · rw [if_neg hc]
    exact h.moveCursor hp (Typing.text_apply (by simpa using hc) a.input)

/-- The save key hands out the draft. -/
theorem IsOpen.saveActive {draft : String} (h : a.IsOpen f) (hp : a.phase = .editing f draft) :
    Reaction a a.saveActive (some ⟨a.record.id, f, draft⟩) := by
  obtain ⟨-, lastError, hs⟩ := phase_eq_editing_iff.1 hp
  have hbegin := Session.beginSave?_eq_ok_iff.2 ⟨draft, lastError, hs, rfl, rfl⟩
  have hsave : a.saveActive =
      { a.setSession f { a.session f with stage := .saving draft } with
        pendingSave := some ⟨a.record.id, f, draft⟩ } := by
    simp only [App.saveActive, h.active, hbegin, h.field]
  generalize hb : a.saveActive = b at hsave ⊢
  generalize hn : ({ a.session f with stage := .saving draft } : Session) = s at hsave
  have hsession : b.session f = s := by subst hsave; cases f <;> rfl
  have hother : b.session f.other = a.session f.other := by subst hsave; cases f <;> rfl
  have hactive : b.active = some f := by subst hsave; simpa using h.active
  have opened : b.IsOpen f :=
    { field := TextField.forall_of (f := f) (by rw [hsession, ← hn]; exact h.field f)
        (by rw [hother, h.field])
      view := by subst hsave; simpa using h.view
      helping := by subst hsave; simpa using h.helping
      active := hactive
      draft := by
        have hd := h.draft
        simp only [Session.draft?, hs] at hd
        rw [hsession, ← hn]
        subst hsave
        simpa [Session.draft?] using hd
      other := by rw [hother]; exact h.other
      preview := by subst hsave; simpa using h.preview
      revision := by rw [hsession, ← hn]; subst hsave; simpa using h.revision }
  refine .saves hp opened (phase_eq_saving_iff.2 ⟨hactive, ?_⟩) ?_ ?_
  · rw [hsession, ← hn]
  · subst hsave; simp
  · subst hsave; rfl

/-- Once both sessions have ended, leaving the dialog clears all that tells of it. -/
theorem isClosed_closeDialog (field : ∀ g, (a.session g).field = g)
    (stage : ∀ g, (a.session g).stage = .closed) : a.closeDialog.IsClosed := by
  have hs : ∀ g, a.closeDialog.session g = a.session g := fun g => by cases g <;> rfl
  exact
    { field := fun g => by rw [hs, field]
      view := rfl
      active := rfl
      stage := fun g => by rw [hs, stage]
      input := rfl
      preview := rfl
      revision := rfl }

/-- A draft that is edited can be dropped, which ends the dialog. -/
theorem IsOpen.cancelActive {draft : String} (h : a.IsOpen f) (hp : a.phase = .editing f draft) :
    ∃ b, a.cancelActive = (true, b) ∧ b.IsClosed ∧ b.record = a.record ∧
      b.pendingSave = a.pendingSave := by
  obtain ⟨-, lastError, hs⟩ := phase_eq_editing_iff.1 hp
  have hcancel := Session.cancel?_eq_some_iff.2 ⟨draft, lastError, hs, rfl⟩
  refine ⟨(a.setSession f { a.session f with stage := .closed }).closeDialog, ?_, ?_, ?_, ?_⟩
  · simp only [App.cancelActive, h.active, hcancel]
  · refine isClosed_closeDialog (field_setSession h.field (h.field f)) ?_
    exact TextField.forall_of (f := f) (by simp) (by simp [h.other])
  · simp [closeDialog]
  · simp [closeDialog]

/-- What the save key asks for. -/
theorem savedBy?_of_editing {k : KeyPress} {draft : String} (hp : a.phase = .editing f draft)
    (hk : k.action = .save) : a.savedBy? (.key k) = some ⟨a.record.id, f, draft⟩ := by
  simp [savedBy?, hk, hp]

theorem savedBy?_of_ne {k : KeyPress} (hk : k.action ≠ .save) : a.savedBy? (.key k) = none := by
  simp [savedBy?, hk]

/-- A key without the control key is not the save key. -/
theorem action_ne_save {k : KeyPress} (h : k.control = false) : k.action ≠ .save := by
  simp only [KeyPress.action, h, Bool.false_eq_true, if_false]
  unfold Key.action
  split <;> simp

/-! ### Commands -/

/-- A command on the overview opens a dialog or leaves the dialog as it is, closed. -/
theorem IsClosed.perform (h : a.IsClosed) (action : Action) :
    Reaction a (a.perform action) none := by
  unfold App.perform
  split
  · split <;> exact .rests rfl (.inr h)
  next hh =>
    simp only [h.view]
    cases action with
    | quit => exact .rests h.quit.1 (.inl h.quit.2)
    | back => exact .rests h.quit.1 (.inl h.quit.2)
    | help => exact .rests rfl (.inr h)
    | edit field => exact h.openEditor (by simpa using hh) field
    | refresh =>
      unfold performOverview refreshServers
      dsimp only
      split
      · exact .rests rfl (.inl rfl)
      · exact .rests rfl (.inl rfl)
    | up => exact .rests rfl (.inl rfl)
    | down => exact .rests rfl (.inl rfl)
    | save => exact .rests rfl (.inl rfl)
    | none => exact .rests rfl (.inl rfl)

/-- A command in the dialog saves the draft, drops it, or does nothing to it. -/
theorem IsOpen.perform_of_editing {draft : String} (h : a.IsOpen f)
    (hp : a.phase = .editing f draft) (action : Action) :
    Reaction a (a.perform action)
      (if action = .save then some ⟨a.record.id, f, draft⟩ else none) := by
  obtain ⟨b, hb, closed, record, pending⟩ := h.cancelActive hp
  simp only [App.perform, h.helping, h.view, Bool.false_eq_true, if_false]
  cases action with
  | save => exact h.saveActive hp
  | back => simpa [performEditor, hb] using Reaction.cancels hp closed record pending
  | quit =>
    simp only [performEditor, hb]
    refine .cancels hp (closed.of_dialog closed.quit.1) ?_ ?_
    · have := closed.quit.1
      simp only [dialog, Dialog.mk.injEq] at this
      simp [this, record]
    · have := closed.quit.1
      simp only [dialog, Dialog.mk.injEq] at this
      simp [this, pending]
  | _ => exact .rests rfl (.inl rfl)

/-- Nothing happens to a dialog that waits for its save. -/
theorem IsOpen.perform_of_saving {draft : String} (h : a.IsOpen f)
    (hp : a.phase = .saving f draft) (action : Action) :
    (a.perform action).dialog = a.dialog ∧ (a.perform action).helping = a.helping := by
  obtain ⟨-, hs⟩ := phase_eq_saving_iff.1 hp
  simp only [App.perform, h.helping, h.view, Bool.false_eq_true, if_false]
  have hcancel : a.cancelActive = (false, a.notify savingMessage) := by
    simp only [App.cancelActive, h.active, Session.cancel?, hs]
  cases action with
  | save => simp [performEditor, App.saveActive, h.active, Session.beginSave?, hs, h.helping]
  | back => rw [performEditor, hcancel]; exact ⟨rfl, h.helping⟩
  | quit => rw [performEditor, hcancel]; exact ⟨rfl, h.helping⟩
  | _ => exact ⟨rfl, h.helping⟩

/-! ### Events -/

/-- An event at a console without dialog. -/
theorem IsClosed.reaction (h : a.IsClosed) (e : Event) :
    Reaction a (a.handle e) (a.savedBy? e) := by
  cases e with
  | key k =>
    have hs : a.savedBy? (.key k) = none := by simp [savedBy?, h.phase]
    have ht : a.typing? k = none := by simp [typing?, h.view]
    rw [hs]
    simpa only [handle, press, ht] using h.perform k.action
  | wheelUp => exact h.perform .up
  | wheelDown => exact h.perform .down
  | tick => exact .rests rfl (.inl rfl)
  | pointer => exact .rests rfl (.inl rfl)
  | resize => exact .rests rfl (.inl rfl)

/-- An event while a draft is edited. -/
theorem IsOpen.reaction_of_editing {draft : String} (h : a.IsOpen f)
    (hp : a.phase = .editing f draft) (e : Event) :
    Reaction a (a.handle e) (a.savedBy? e) := by
  cases e with
  | key k =>
    simp only [handle, press]
    cases ht : a.typing? k with
    | some t =>
      have hk : k.control = false := by
        unfold typing? at ht
        split at ht
        next hc => simp only [Bool.and_eq_true, Bool.not_eq_true'] at hc; exact hc.2
        next => cases ht
      rw [savedBy?_of_ne (action_ne_save hk)]
      exact h.type hp t
    | none =>
      have hperform := h.perform_of_editing hp k.action
      by_cases hk : k.action = .save
      · rw [savedBy?_of_editing hp hk]
        simpa only [hk, if_true] using hperform
      · rw [savedBy?_of_ne hk]
        simpa only [hk, if_false] using hperform
  | wheelUp => exact h.perform_of_editing hp .up
  | wheelDown => exact h.perform_of_editing hp .down
  | tick => exact .rests rfl (.inl rfl)
  | pointer => exact .rests rfl (.inl rfl)
  | resize => exact .rests rfl (.inl rfl)

/-- No event does anything to a dialog that waits for its save. -/
theorem IsOpen.dialog_handle_of_saving {draft : String} (h : a.IsOpen f)
    (hp : a.phase = .saving f draft) (e : Event) :
    (a.handle e).dialog = a.dialog ∧ (a.handle e).helping = a.helping := by
  cases e with
  | key k =>
    have hs : a.isSaving = true := isSaving_iff.2 ⟨f, draft, hp⟩
    have ht : a.typing? k = none := by simp [typing?, hs]
    simp only [handle, press, ht]
    exact h.perform_of_saving hp k.action
  | wheelUp => exact h.perform_of_saving hp .up
  | wheelDown => exact h.perform_of_saving hp .down
  | tick => exact ⟨rfl, rfl⟩
  | pointer => exact ⟨rfl, rfl⟩
  | resize => exact ⟨rfl, rfl⟩

/-- **What an event does.** It does one of the listed things to the dialog, and it starts a save
exactly when it asks for one. -/
theorem Coherent.reaction (h : a.Coherent) (e : Event) :
    Reaction a (a.handle e) (a.savedBy? e) := by
  rcases h with closed | ⟨f, opened⟩
  · exact closed.reaction e
  · rcases opened.phase with hp | hp
    · exact opened.reaction_of_editing hp e
    · obtain ⟨same, helping⟩ := opened.dialog_handle_of_saving hp e
      have hs : a.savedBy? e = none := by cases e <;> simp [savedBy?, hp]
      rw [hs]
      exact .rests same (.inl helping)

/-! ### What comes from outside -/

/-- A new width has the preview of an open dialog rendered again. -/
theorem IsOpen.resizePreview (h : a.IsOpen f) (width : Nat) : (a.resizePreview width).IsOpen f := by
  unfold App.resizePreview
  split
  · exact h
  · generalize hb : ({ a with previewWidth := width, previewRevision := none } : App) = b
    have hs : ∀ g, b.session g = a.session g := by subst hb; intro g; cases g <;> rfl
    refine isOpen_refreshPreview (fun g => by rw [hs, h.field]) ?_ ?_ ?_ ?_ ?_ ?_
    · subst hb; exact h.view
    · subst hb; exact h.helping
    · subst hb; exact h.active
    · rw [hs]; subst hb; exact h.draft
    · rw [hs, h.other]
    · subst hb; simp

theorem IsClosed.resizePreview (h : a.IsClosed) (width : Nat) : (a.resizePreview width).IsClosed := by
  unfold App.resizePreview
  split
  · exact h
  · generalize hb : ({ a with previewWidth := width, previewRevision := none } : App) = b
    have hs : ∀ g, b.session g = a.session g := by subst hb; intro g; cases g <;> rfl
    have hactive : b.active = none := by subst hb; exact h.active
    have hb' : b.refreshPreview = b := by simp [refreshPreview, activeSession?, hactive]
    rw [hb']
    exact
      { field := fun g => by rw [hs, h.field]
        view := by subst hb; exact h.view
        active := hactive
        stage := fun g => by rw [hs, h.stage]
        input := by subst hb; exact h.input
        preview := by subst hb; exact h.preview
        revision := by subst hb; rfl }

/-- A width changes neither the phase nor the record nor what is queued. -/
theorem resizePreview_keeps (width : Nat) :
    (a.resizePreview width).phase = a.phase ∧ (a.resizePreview width).record = a.record ∧
      (a.resizePreview width).pendingSave = a.pendingSave := by
  unfold resizePreview
  split
  · exact ⟨rfl, rfl, rfl⟩
  · have hs : ∀ (r : Option Nat) (g : TextField),
        ({ a with previewWidth := width, previewRevision := r } : App).session g = a.session g :=
      fun r g => by cases g <;> rfl
    simp [phase, hs]

/-- The outcome of a save that no session waits for is dropped. -/
theorem completeSave_of_not_saving (h : ∀ draft, (a.session f).stage ≠ .saving draft)
    (outcome : Except Storage.Fault Record) : a.completeSave f outcome = a := by
  unfold completeSave
  cases outcome with
  | ok record =>
    dsimp only
    split
    · rfl
    next hs =>
      obtain ⟨draft, hd, -⟩ := Session.finishSave?_none_eq_ok_iff.1 hs
      exact absurd hd (h draft)
  | error fault =>
    dsimp only
    split
    · rfl
    next hs =>
      obtain ⟨draft, hd, -⟩ := Session.finishSave?_some_eq_ok_iff.1 hs
      exact absurd hd (h draft)

/-- A save that succeeds ends the dialog and brings in the record. -/
theorem IsOpen.completeSave_ok {draft : String} (h : a.IsOpen f) (hp : a.phase = .saving f draft)
    (r : Record) :
    (a.completeSave f (.ok r)).IsClosed ∧ (a.completeSave f (.ok r)).record = r ∧
      (a.completeSave f (.ok r)).pendingSave = a.pendingSave := by
  obtain ⟨-, hs⟩ := phase_eq_saving_iff.1 hp
  obtain ⟨s, hn⟩ : ∃ s, s = ({ a.session f with stage := .closed } : Session) := ⟨_, rfl⟩
  have hfield : s.field = f := by rw [hn]; exact h.field f
  have hfinish := Session.finishSave?_none_eq_ok_iff.2 ⟨draft, hs, hn⟩
  obtain ⟨b, hb⟩ : ∃ b, b = ({ a.setSession f s with record := r } : App) := ⟨_, rfl⟩
  have hsave : a.completeSave f (.ok r) = b.closeDialog.notify (f.label ++ " updated") := by
    simp only [App.completeSave, hfinish, ← hb]
    rw [if_pos (by simpa using h.active)]
  have hsession : ∀ g, b.session g = (a.setSession f s).session g := by
    subst hb
    intro g
    cases g <;> rfl
  have closed : b.closeDialog.IsClosed := by
    refine isClosed_closeDialog (fun g => ?_) ?_
    · rw [hsession]
      exact field_setSession h.field hfield g
    · exact TextField.forall_of (f := f) (by simp [hsession, hn]) (by simp [hsession, h.other])
  rw [hsave]
  refine ⟨closed.of_dialog rfl, ?_, ?_⟩
  · subst hb; rfl
  · subst hb; simp [closeDialog, notify]

/-- A save that fails goes back to the draft. -/
theorem IsOpen.completeSave_error {draft : String} (h : a.IsOpen f)
    (hp : a.phase = .saving f draft) (fault : Storage.Fault) :
    (a.completeSave f (.error fault)).IsOpen f ∧
      (a.completeSave f (.error fault)).phase = .editing f draft ∧
      (a.completeSave f (.error fault)).record = a.record ∧
      (a.completeSave f (.error fault)).pendingSave = a.pendingSave := by
  obtain ⟨-, hs⟩ := phase_eq_saving_iff.1 hp
  have hd := h.draft
  simp only [Session.draft?, hs, Option.some.injEq] at hd
  obtain ⟨s, hn⟩ : ∃ s, s = ({ a.session f with
    stage := .editing draft (some fault.message) } : Session) := ⟨_, rfl⟩
  have hfinish := Session.finishSave?_some_eq_ok_iff.2 ⟨draft, hs, hn⟩
  simp only [App.completeSave, hfinish]
  have opened : (a.setSession f s).IsOpen f :=
    { field := field_setSession h.field (by rw [hn]; exact h.field f)
      view := by simpa using h.view
      helping := by simpa using h.helping
      active := by simpa using h.active
      draft := by simp [hn, Session.draft?, hd]
      other := by simpa using h.other
      preview := by simpa using h.preview
      revision := by simp [hn, h.revision] }
  refine ⟨opened.of_dialog rfl rfl, ?_, by simp [notify], by simp [notify]⟩
  rw [phase_notify, phase_eq_editing_iff]
  exact ⟨by simpa using h.active, some fault.message, by simp [hn]⟩

/-- The outcome of a save is dropped, or it is the one that the dialog waits for. -/
theorem Coherent.completeSave_cases (h : a.Coherent) (g : TextField)
    (outcome : Except Storage.Fault Record) :
    a.completeSave g outcome = a ∨ a.IsOpen g ∧ ∃ draft, a.phase = .saving g draft := by
  by_cases hs : ∀ draft, (a.session g).stage ≠ .saving draft
  · exact .inl (completeSave_of_not_saving hs outcome)
  · push Not at hs
    obtain ⟨draft, hs⟩ := hs
    rcases h with closed | ⟨f, opened⟩
    · rw [closed.stage] at hs
      cases hs
    · rcases f.eq_or_eq_other g with rfl | rfl
      · exact .inr ⟨opened, draft, phase_eq_saving_iff.2 ⟨opened.active, hs⟩⟩
      · rw [opened.other] at hs
        cases hs

/-- The outcome of a save, whosesoever it is, keeps the console coherent. -/
theorem Coherent.completeSave (h : a.Coherent) (g : TextField)
    (outcome : Except Storage.Fault Record) : (a.completeSave g outcome).Coherent := by
  rcases h.completeSave_cases g outcome with same | ⟨opened, draft, hp⟩
  · rw [same]
    exact h
  · cases outcome with
    | ok r => exact .inl (opened.completeSave_ok hp r).1
    | error fault => exact .inr ⟨g, (opened.completeSave_error hp fault).1⟩

end App

/-! ### Runs -/

namespace Desk

variable {η : Type} {d : Desk η}

/-- Finished fetches do nothing to the dialog. -/
theorem dialog_collectLoads (tasks : List (LoadTask η)) (a : App) :
    (Tasks.collectLoads tasks a).2.dialog = a.dialog ∧
      (Tasks.collectLoads tasks a).2.helping = a.helping := by
  induction tasks generalizing a with
  | nil => exact ⟨rfl, rfl⟩
  | cons task rest ih =>
    unfold Tasks.collectLoads
    split
    next result _ => exact ih (a.deliverServers task.ticket result)
    next => exact ih a

theorem coherent_collectLoads {a : App} (h : a.Coherent) (tasks : List (LoadTask η)) :
    (Tasks.collectLoads tasks a).2.Coherent := by
  obtain ⟨same, helping⟩ := dialog_collectLoads tasks a
  rcases h with closed | ⟨f, opened⟩
  · exact .inl (closed.of_dialog same)
  · exact .inr ⟨f, opened.of_dialog same helping⟩

/-- Handing over finished saves keeps the console coherent. -/
theorem coherent_collectSaves {a : App} (h : a.Coherent) (tasks : List (SaveTask η)) :
    (Tasks.collectSaves tasks a).2.Coherent := by
  induction tasks generalizing a with
  | nil => exact h
  | cons task rest ih =>
    unfold Tasks.collectSaves
    split
    next outcome _ => exact ih (h.completeSave _ outcome)
    next => exact ih h

/-- Whatever happens to a desk, its console stays coherent. -/
theorem step_coherent (h : d.app.Coherent) (s : Step η) : (d.step s).app.Coherent := by
  cases s with
  | event e => exact (h.reaction e).coherent h
  | previewWidth width =>
    rcases h with closed | ⟨f, opened⟩
    · exact .inl (closed.resizePreview width)
    · exact .inr ⟨f, opened.resizePreview width⟩
  | spawn =>
    rcases h with closed | ⟨f, opened⟩
    · exact .inl ⟨closed.field, closed.view, closed.active, closed.stage, closed.input,
        closed.preview, closed.revision⟩
    · exact .inr ⟨f, opened.field, opened.view, opened.helping, opened.active, opened.draft,
        opened.other, opened.preview, opened.revision⟩
  | collect => exact coherent_collectSaves (coherent_collectLoads h d.tasks.loads) d.tasks.saves
  | startLoad | startSave | finishLoad | breakLoad | finishSave => exact h

theorem coherent_new (record : Record) (user : User) :
    (Desk.new record user : Desk η).app.Coherent := by
  refine .inl ⟨fun g => ?_, rfl, rfl, fun g => ?_, rfl, rfl, rfl⟩ <;> cases g <;> rfl

theorem run_coherent (h : d.app.Coherent) (steps : List (Step η)) :
    (d.run steps).app.Coherent := by
  induction steps generalizing d with
  | nil => exact h
  | cons s steps ih => exact ih (step_coherent h s)

end Desk

/-! ### One dialog at a time -/

/-- At most one dialog is open, and all fields that tell of it agree on which. -/
structure App.OneDialog (a : App) : Prop where
  /-- The sessions are not both open. -/
  one : ¬(a.description.isOpen = true ∧ a.overview.isOpen = true)
  /-- The screen shows the dialog exactly when there is a text in it. -/
  view : a.view = .editor ↔ ∃ f, a.active = some f
  /-- The session of that text has a draft, the other one is closed. -/
  shown : ∀ f, a.active = some f →
    ((a.session f).isEditing = true ∨ (a.session f).isSaving = true) ∧
      (a.session f.other).stage = .closed ∧ (a.session f.other).draft? = none
  /-- Without a dialog nothing is left of one. -/
  clear : a.active = none →
    a.description.stage = .closed ∧ a.overview.stage = .closed ∧
      a.input.text = "" ∧ a.input.cursor = 0 ∧ a.preview = []
  /-- The help is only shown over the overview. -/
  help : a.helping = true → a.view = .overview

theorem App.IsClosed.oneDialog {a : App} (h : a.IsClosed) : a.OneDialog where
  one := fun ⟨hd, _⟩ => by
    have := h.stage .description
    simp_all [App.session, Session.isOpen]
  view := by simp [h.view, h.active]
  shown := by simp [h.active]
  clear := fun _ => by
    refine ⟨h.stage .description, h.stage .overview, ?_, ?_, h.preview⟩ <;> rw [h.input] <;> rfl
  help := fun _ => h.view

theorem App.IsOpen.oneDialog {a : App} {f : TextField} (h : a.IsOpen f) : a.OneDialog where
  one := fun ⟨hd, ho⟩ => by
    have := h.other
    cases f <;> simp_all [TextField.other, App.session, Session.isOpen]
  view := by simp [h.view, h.active]
  shown := fun g hg => by
    obtain rfl : f = g := by simpa [h.active] using hg
    have hd := h.draft
    refine ⟨?_, h.other, by simp [Session.draft?, h.other]⟩
    cases hs : (a.session f).stage <;> simp_all [Session.draft?, Session.isEditing, Session.isSaving]
  clear := by simp [h.active]
  help := by simp [h.helping]

namespace Desk

/-- **One dialog at a time.** However keys, the wheel, ticks, widths of the preview and the ends of
fetches and saves follow each other, with whatever results, the fields of the console that tell of
the dialog agree. -/
theorem dialog_stays_coherent {η : Type} (record : Record) (user : User) (steps : List (Step η)) :
    ((Desk.new record user).run steps).app.OneDialog := by
  rcases run_coherent (coherent_new record user) steps with closed | ⟨f, opened⟩
  · exact closed.oneDialog
  · exact opened.oneDialog

end Desk

end PublisherConsole
