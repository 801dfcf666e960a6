import PublisherConsole.Proofs.Console.Coherence
import PublisherConsole.Proofs.Editing.Positions

/-!
# Typing in the dialog

A key is looked at twice: the dialog may type it, and what it leaves is a command. While a draft is
edited, no key but the escape key is left that is a command, unless the control key is held with it,
so typing only changes the text area, the draft and its preview (`App.HasTyped`). While a draft is
being saved, the dialog types nothing, and no command gets through to it.

* `Halves.pressed` says what each key does to the characters in front of the cursor and behind it, and
  `Key.edits` which keys count as edits;
* `Desk.isInside_run`: the cursor of the text area is always in its text, so that there are such halves;
* `App.IsOpen.hasTyped_press`: one key in a dialog with a draft;
* `App.HasTyped.trans`: what has been typed before, and what is typed after it, is typed together;
* `App.IsOpen.press_of_saving`: one key in a dialog that waits for its save.

The main statement is `typing_only_types_and_a_save_freezes`.
-/

namespace PublisherConsole

/-! ### What keys do to a text -/

/-- The halves of a text after a key: a character is written in front of the cursor, as are a line feed
for the enter key and two blanks for the tab key; the keys that delete drop the last character in front
of the cursor or the first one behind it, and those that move divide the text at another place. All
other keys do nothing. -/
def Halves.pressed (h : Halves) : Key → Halves
  | .char c => ⟨h.before ++ [c], h.after⟩
  | .enter => ⟨h.before ++ ['\n'], h.after⟩
  | .tab => ⟨h.before ++ [' ', ' '], h.after⟩
  | .backspace => ⟨h.before.dropLast, h.after⟩
  | .delete => ⟨h.before, h.after.tail⟩
  | .left => ⟨h.before.dropLast, h.before.getLast?.toList ++ h.after⟩
  | .right => ⟨h.before ++ h.after.head?.toList, h.after.tail⟩
  | .up => h.up
  | .down => h.down
  | .home => h.home
  | .lineEnd => h.lineEnd
  | _ => h

/-- Whether a key edits a text, be it that there is nothing to delete. -/
def Key.edits : Key → Bool
  | .char _ | .enter | .tab | .backspace | .delete => true
  | _ => false

/-- What is typed, as an edit. -/
def Typing.edit : Typing → Edit
  | .write cs => .insertText (String.ofList cs)
  | .backspace => .backspace
  | .delete => .delete
  | .left => .left
  | .right => .right
  | .up => .up
  | .down => .down
  | .home => .home
  | .lineEnd => .lineEnd

theorem Typing.apply_eq (t : Typing) (b : TextBuffer) : t.apply b = t.edit.apply b := by
  cases t <;> simp [Typing.apply, edit, Edit.apply]

/-- What is typed leaves the cursor in the text. -/
theorem Typing.isInside_apply {b : TextBuffer} (h : b.IsInside) (t : Typing) :
    (t.apply b).IsInside :=
  t.apply_eq b ▸ TextBuffer.isInside_apply h t.edit

/-- A key that is typed does to a text what it does to its halves. -/
theorem Halves.joined_pressed (h : Halves) {k : Key} {t : Typing} (ht : Typing.ofKey? k = some t) :
    (h.pressed k).joined = t.apply h.joined := by
  rw [Typing.apply_eq]
  obtain ⟨h', hturns, hjoined⟩ := TextBuffer.exists_turns h t.edit
  cases k with
  | char | enter | tab =>
    obtain rfl := Option.some.inj ht
    rw [hjoined, hturns, String.toList_ofList]
    rfl
  | backspace | delete | left | right =>
    obtain rfl := Option.some.inj ht
    rw [hjoined, hturns]
    rfl
  | up => obtain rfl := Option.some.inj ht; exact (TextBuffer.moveUp_joined h).symm
  | down => obtain rfl := Option.some.inj ht; exact (TextBuffer.moveDown_joined h).symm
  | home => obtain rfl := Option.some.inj ht; exact (TextBuffer.moveHome_joined h).symm
  | lineEnd => obtain rfl := Option.some.inj ht; exact (TextBuffer.moveEnd_joined h).symm
  | _ => cases ht

/-- A key that is not typed does nothing to a text. -/
theorem Halves.pressed_of_none (h : Halves) {k : Key} (hk : Typing.ofKey? k = none) :
    h.pressed k = h := by
  cases k with
  | escape | backTab | insert | pageUp | pageDown | function | null | other => rfl
  | _ => cases hk

theorem Key.edits_eq (k : Key) : k.edits = ((Typing.ofKey? k).map Typing.isChange).getD false := by
  cases k <;> rfl

/-- Of the keys that are not typed, only the escape key is a command. -/
theorem Key.action_eq_none {k : Key} (h : Typing.ofKey? k = none) (hk : k ≠ .escape) :
    k.action = .none := by
  cases k with
  | escape => exact absurd rfl hk
  | backTab | insert | pageUp | pageDown | function | null | other => rfl
  | _ => cases h

namespace KeyPress

variable {k : KeyPress}

/-- A key that is only typed: it is not the escape key, and the control key is not held. -/
def IsPlain (k : KeyPress) : Prop := k.control = false ∧ k.key ≠ .escape

theorem IsPlain.action_eq_none (h : k.IsPlain) (hk : Typing.ofKey? k.key = none) :
    k.action = .none := by
  rw [action, if_neg (by simp [h.1])]
  exact Key.action_eq_none hk h.2

end KeyPress

/-- Whether a command asks to leave the dialog. -/
def Action.leaves : Action → Bool
  | .back | .quit => true
  | _ => false

namespace App

variable {a b c : App} {f : TextField} {lastError : Option String}

@[simp] theorem input_refreshPreview : a.refreshPreview.input = a.input := by
  obtain ⟨lines, revision, h⟩ := a.exists_refreshPreview
  rw [h]

/-! ### The cursor

The text area begins with a text and the cursor behind it, or without a text. Everything but typing
keeps it or begins anew. -/

theorem input_resizePreview (width : Nat) : (a.resizePreview width).input = a.input := by
  unfold resizePreview
  split
  · rfl
  · rw [input_refreshPreview]

theorem input_syncDraft : a.syncDraft.input = a.input := by
  unfold syncDraft
  split
  · rfl
  · split
    · rfl
    · rw [input_refreshPreview, input_setSession]

theorem input_saveActive : a.saveActive.input = a.input := by
  unfold saveActive
  split
  · rfl
  · split
    · rfl
    · exact input_setSession _

theorem input_quit : a.quit.input = a.input := by
  unfold quit
  split <;> rfl

theorem input_refreshServers : a.refreshServers.input = a.input := by
  unfold refreshServers
  split <;> rfl

theorem isInside_closeDialog : a.closeDialog.input.IsInside := Nat.le_refl 0

theorem isInside_openEditor (h : a.input.IsInside) : (a.openEditor f).input.IsInside := by
  unfold openEditor
  split
  · exact h
  · rw [input_refreshPreview]
    exact Nat.le_refl _

theorem isInside_cancelActive (h : a.input.IsInside) : a.cancelActive.2.input.IsInside := by
  unfold cancelActive
  split
  · exact h
  · split
    · exact isInside_closeDialog
    · exact h

theorem isInside_completeSave (h : a.input.IsInside) (outcome : Except Storage.Fault Record) :
    (a.completeSave f outcome).input.IsInside := by
  have hset (s : Session) : (a.setSession f s).input.IsInside := by rwa [input_setSession]
  unfold completeSave
  cases outcome with
  | ok record =>
    dsimp only
    split
    · exact h
    next s _ =>
      split
      · exact isInside_closeDialog (a := { a.setSession f s with record := record })
      · exact hset s
  | error fault =>
    dsimp only
    split
    · exact h
    next s _ => exact hset s

theorem isInside_type (h : a.input.IsInside) (t : Typing) : (a.type t).input.IsInside := by
  have htyped := t.isInside_apply h
  unfold type
  dsimp only
  split
  · rwa [input_syncDraft]
  · exact htyped

theorem isInside_perform (h : a.input.IsInside) (action : Action) :
    (a.perform action).input.IsInside := by
  unfold perform
  split
  · split <;> exact h
  · cases a.view with
    | overview =>
      cases action with
      | quit | back => exact input_quit (a := a) ▸ h
      | edit => exact isInside_openEditor h
      | refresh => exact input_refreshServers (a := a) ▸ h
      | help | up | down | save | none => exact h
    | editor =>
      cases action with
      | save => exact input_saveActive (a := a) ▸ h
      | back => exact isInside_cancelActive h
      | quit =>
        have hcancel := isInside_cancelActive h
        simp only [performEditor]
        generalize a.cancelActive = cancelled at hcancel ⊢
        obtain ⟨dropped, b⟩ := cancelled
        cases dropped with
        | true => exact input_quit (a := b) ▸ hcancel
        | false => exact hcancel
      | help | edit | refresh | up | down | none => exact h

theorem isInside_handle (h : a.input.IsInside) (e : Event) : (a.handle e).input.IsInside := by
  cases e with
  | key k =>
    rw [handle, press]
    split
    · exact isInside_type h _
    · exact isInside_perform h _
  | wheelUp => exact isInside_perform h .up
  | wheelDown => exact isInside_perform h .down
  | pointer | tick | resize => exact h

/-! ### What is not typed into -/

/-- The console without its sessions, the text area and the preview of the draft. -/
def apartFromText (a : App) : App :=
  { a with
    description := .new .description, overview := .new .overview
    input := .empty, preview := [], previewRevision := none }

@[simp] theorem apartFromText_setSession (s : Session) :
    (a.setSession f s).apartFromText = a.apartFromText := by
  cases f <;> rfl

@[simp] theorem apartFromText_refreshPreview :
    a.refreshPreview.apartFromText = a.apartFromText := by
  obtain ⟨lines, revision, h⟩ := a.exists_refreshPreview
  rw [h]
  rfl

/-- The console with something else in the text area. -/
def withInput (a : App) (input : TextBuffer) : App := { a with input := input }

@[simp] theorem input_withInput (input : TextBuffer) : (a.withInput input).input = input := rfl

@[simp] theorem active_withInput (input : TextBuffer) : (a.withInput input).active = a.active := rfl

@[simp] theorem session_withInput (input : TextBuffer) (g : TextField) :
    (a.withInput input).session g = a.session g := rfl

@[simp] theorem apartFromText_withInput (input : TextBuffer) :
    (a.withInput input).apartFromText = a.apartFromText := rfl

theorem type_eq (t : Typing) :
    a.type t =
      if t.isChange then (a.withInput (t.apply a.input)).syncDraft
      else a.withInput (t.apply a.input) := rfl

/-! ### One key after the other -/

/-- What keys that were typed have made of a dialog: they went into the text area one after the
other, where they found the characters in front of the cursor and those behind it; the draft is the
text there, its revision counts the edits among them, and the message of a failed save stays.
Everything else is as it was: the other text, the screen, the help, the work that is queued, and
whether the console is being left. -/
structure HasTyped (a b : App) (f : TextField) (lastError : Option String) (keys : List Key) :
    Prop where
  input : b.input = (keys.foldl Halves.pressed a.input.halves).joined
  session : b.session f =
    { a.session f with
      stage := .editing b.input.text lastError
      revision := (a.session f).revision + keys.countP Key.edits }
  other : b.session f.other = a.session f.other
  rest : b.apartFromText = a.apartFromText

/-- Nothing is typed. -/
theorem HasTyped.refl (inside : a.input.IsInside)
    (hs : (a.session f).stage = .editing a.input.text lastError) :
    HasTyped a a f lastError [] where
  input := (TextBuffer.joined_halves inside).symm
  session := by rw [← hs]; rfl
  other := rfl
  rest := rfl

/-- Typing goes on. -/
theorem HasTyped.trans {first second : List Key} (h : HasTyped a b f lastError first)
    (h' : HasTyped b c f lastError second) : HasTyped a c f lastError (first ++ second) where
  input := by rw [h'.input, h.input, TextBuffer.halves_joined, List.foldl_append]
  session := by rw [h'.session, h.session, List.countP_append, ← Nat.add_assoc]
  other := h'.other.trans h.other
  rest := h'.rest.trans h.rest

theorem HasTyped.inside {keys : List Key} (h : HasTyped a b f lastError keys) :
    b.input.IsInside := by
  rw [h.input]
  exact TextBuffer.isInside_joined _

theorem HasTyped.stage {keys : List Key} (h : HasTyped a b f lastError keys) :
    (b.session f).stage = .editing b.input.text lastError := by
  rw [h.session]

theorem HasTyped.active {keys : List Key} (h : HasTyped a b f lastError keys) :
    b.active = a.active := by
  have hactive := congrArg App.active h.rest
  exact hactive

/-- A coherent console that shows a text has the dialog of that text open. -/
theorem Coherent.isOpen (h : a.Coherent) (active : a.active = some f) : a.IsOpen f := by
  rcases h with closed | ⟨g, opened⟩
  · rw [closed.active] at active
    cases active
  · obtain rfl : g = f := Option.some.inj (opened.active.symm.trans active)
    exact opened

/-- While a draft is edited, every key may be typed, unless the control key is held with it. -/
theorem IsOpen.typing?_of_editing {draft : String} (h : a.IsOpen f)
    (hp : a.phase = .editing f draft) {k : KeyPress} (hk : k.control = false) :
    a.typing? k = Typing.ofKey? k.key := by
  have hsaving : a.isSaving = false := by
    rw [← Bool.not_eq_true, isSaving_iff]
    rintro ⟨g, text, hg⟩
    rw [hp] at hg
    cases hg
  simp [typing?, h.view, h.helping, hsaving, hk]

/-- What is typed goes into the text area, and what edits the text also into the draft. -/
theorem IsOpen.hasTyped_type (h : a.IsOpen f) (inside : a.input.IsInside)
    (hs : (a.session f).stage = .editing a.input.text lastError) {k : Key} {t : Typing}
    (ht : Typing.ofKey? k = some t) : HasTyped a (a.type t) f lastError [k] := by
  have happly : t.apply a.input = (a.input.halves.pressed k).joined := by
    rw [Halves.joined_pressed _ ht, TextBuffer.joined_halves inside]
  have hchange : t.isChange = k.edits := by rw [Key.edits_eq, ht]; rfl
  rw [type_eq]
  cases hc : t.isChange with
  | true =>
    have hedits : k.edits = true := hchange.symm.trans hc
    rw [if_pos rfl, syncDraft_of_editing (a := a.withInput (t.apply a.input)) h.active hs]
    exact ⟨by simp [happly], by simp [hedits], by simp, by simp⟩
  | false =>
    have hedits : k.edits = false := hchange.symm.trans hc
    have htext : (t.apply a.input).text = a.input.text := Typing.text_apply hc a.input
    rw [if_neg (by simp)]
    exact ⟨happly, by simp [htext, ← hs, hedits], rfl, rfl⟩

/-- **One key in a dialog with a draft** is typed. -/
theorem IsOpen.hasTyped_press (h : a.IsOpen f) (inside : a.input.IsInside)
    (hs : (a.session f).stage = .editing a.input.text lastError) {k : KeyPress} (hk : k.IsPlain) :
    HasTyped a (a.press k) f lastError [k.key] := by
  have hp : a.phase = .editing f a.input.text := phase_eq_editing_iff.2 ⟨h.active, lastError, hs⟩
  have htyping := h.typing?_of_editing hp hk.1
  cases ht : Typing.ofKey? k.key with
  | some t =>
    have hpress : a.press k = a.type t := by rw [press, htyping, ht]
    rw [hpress]
    exact h.hasTyped_type inside hs ht
  | none =>
    -- Neither the dialog nor the console knows the key.
    have hpressed : a.input.halves.pressed k.key = a.input.halves := Halves.pressed_of_none _ ht
    have hedits : k.key.edits = false := by rw [Key.edits_eq, ht]; rfl
    have hpress : a.press k = a := by
      rw [press, htyping, ht]
      simp [hk.action_eq_none ht, perform, h.helping, h.view, performEditor]
    rw [hpress]
    refine ⟨?_, ?_, rfl, rfl⟩
    · rw [List.foldl_cons, List.foldl_nil, hpressed, TextBuffer.joined_halves inside]
    · rw [← hs]
      simp [hedits]

/-- **One key in a dialog that waits for its save** shows a message if it asks to leave the dialog,
and does nothing otherwise. -/
theorem IsOpen.press_of_saving {draft : String} (h : a.IsOpen f) (hp : a.phase = .saving f draft)
    (k : KeyPress) : a.press k = if k.action.leaves then a.notify savingMessage else a := by
  obtain ⟨-, hs⟩ := phase_eq_saving_iff.1 hp
  have htyping : a.typing? k = none := by simp [typing?, isSaving_iff.2 ⟨f, draft, hp⟩]
  have hcancel : a.cancelActive = (false, a.notify savingMessage) := by
    simp only [App.cancelActive, h.active, Session.cancel?, hs]
  have hsave : a.saveActive = a := by simp [App.saveActive, h.active, Session.beginSave?, hs]
  rw [press, htyping]
  simp only [perform, h.helping, h.view, Bool.false_eq_true, if_false]
  cases k.action <;> simp [performEditor, hcancel, hsave, Action.leaves]

end App

/-! ### Runs -/

namespace Desk

variable {η : Type} {d : Desk η} {f : TextField} {keys : List KeyPress}

/-! #### The cursor -/

theorem isInside_collectLoads {a : App} (h : a.input.IsInside) (tasks : List (LoadTask η)) :
    (Tasks.collectLoads tasks a).2.input.IsInside := by
  induction tasks generalizing a with
  | nil => exact h
  | cons task rest ih =>
    unfold Tasks.collectLoads
    split
    next result _ => exact ih (a := a.deliverServers task.ticket result) h
    next => exact ih h

theorem isInside_collectSaves {a : App} (h : a.input.IsInside) (tasks : List (SaveTask η)) :
    (Tasks.collectSaves tasks a).2.input.IsInside := by
  induction tasks generalizing a with
  | nil => exact h
  | cons task rest ih =>
    unfold Tasks.collectSaves
    split
    next outcome _ => exact ih (App.isInside_completeSave h outcome)
    next => exact ih h

theorem isInside_step (h : d.app.input.IsInside) (s : Step η) : (d.step s).app.input.IsInside := by
  cases s with
  | event e => exact App.isInside_handle h e
  | previewWidth width => exact App.input_resizePreview (a := d.app) width ▸ h
  | collect => exact isInside_collectSaves (isInside_collectLoads h d.tasks.loads) d.tasks.saves
  | spawn | startLoad | startSave | finishLoad | breakLoad | finishSave => exact h

/-- Whatever happens to a desk, the cursor of the text area is in its text. -/
theorem isInside_run (h : d.app.input.IsInside) (steps : List (Step η)) :
    (d.run steps).app.input.IsInside := by
  induction steps generalizing d with
  | nil => exact h
  | cons s steps ih => exact ih (isInside_step h s)

theorem isInside_new (record : Record) (user : User) :
    (Desk.new record user : Desk η).app.input.IsInside :=
  Nat.le_refl 0

/-! #### Keys -/

/-- Keys one after the other. -/
def press (d : Desk η) (keys : List KeyPress) : Desk η := d.run (keys.map fun k => .event (.key k))

theorem press_cons (k : KeyPress) :
    d.press (k :: keys) = (d.modifyApp (·.press k)).press keys := rfl

theorem press_coherent (h : d.app.Coherent) (keys : List KeyPress) : (d.press keys).app.Coherent :=
  run_coherent h _

theorem tasks_press (d : Desk η) (keys : List KeyPress) : (d.press keys).tasks = d.tasks := by
  induction keys generalizing d with
  | nil => rfl
  | cons k keys ih => rw [press_cons, ih]; rfl

/-- Keys in a dialog with a draft are typed one after the other. -/
theorem hasTyped_press {lastError : Option String} (h : d.app.Coherent)
    (inside : d.app.input.IsInside) (active : d.app.active = some f)
    (hs : (d.app.session f).stage = .editing d.app.input.text lastError)
    (hk : ∀ k ∈ keys, k.IsPlain) :
    d.app.HasTyped (d.press keys).app f lastError (keys.map KeyPress.key) := by
  induction keys generalizing d with
  | nil => exact .refl inside hs
  | cons k keys ih =>
    rw [List.forall_mem_cons] at hk
    have first := (h.isOpen active).hasTyped_press inside hs hk.1
    have coherent : (d.modifyApp (·.press k)).app.Coherent := press_coherent h [k]
    exact first.trans (ih coherent first.inside (first.active.trans active) first.stage hk.2)

/-- Keys in a dialog that waits for its save show a message, if any of them asks to leave it. -/
theorem press_of_saving {draft : String} (h : d.app.IsOpen f) (hp : d.app.phase = .saving f draft)
    (keys : List KeyPress) :
    d.press keys =
      if keys.any (·.action.leaves) then d.modifyApp (·.notify App.savingMessage) else d := by
  induction keys generalizing d with
  | nil => rfl
  | cons k keys ih =>
    rw [press_cons, modifyApp, h.press_of_saving hp, List.any_cons]
    cases k.action.leaves with
    | true =>
      -- A message that is shown already is shown again.
      have hp' : (d.app.notify App.savingMessage).phase = .saving f draft := by simpa using hp
      have again := ih (d := d.modifyApp (·.notify App.savingMessage)) (h.of_dialog rfl rfl) hp'
      rw [Bool.true_or, if_pos rfl]
      refine again.trans ?_
      split <;> rfl
    | false => rw [if_neg (by simp), ih h hp, Bool.false_or]

/-- **Typing in the dialog is only typing, and a save freezes it.** Let anything have happened at a
desk.

* If a draft is edited there, then all keys go into the text area and the draft, as long as none of
  them is the escape key and none is pressed with the control key. The dialog stays open and its
  preview shows the draft; nothing else changes, and no work is queued or taken over.
* If a draft is being saved, then no keys change anything. Only a message is shown if one of them
  asks to leave the dialog. -/
theorem typing_only_types_and_a_save_freezes (record : Record) (user : User) (steps : List (Step η))
    (keys : List KeyPress) :
    let d : Desk η := (new record user).run steps
    (∀ f draft lastError,
        d.app.active = some f → (d.app.session f).stage = .editing draft lastError →
        (∀ k ∈ keys, k.control = false ∧ k.key ≠ .escape) →
          (d.press keys).app.IsOpen f ∧
            d.app.HasTyped (d.press keys).app f lastError (keys.map KeyPress.key) ∧
            (d.press keys).tasks = d.tasks) ∧
      ∀ f draft,
        d.app.active = some f → (d.app.session f).stage = .saving draft →
          d.press keys =
            if keys.any (·.action.leaves) then d.modifyApp (·.notify App.savingMessage) else d := by
  intro d
  have coherent : d.app.Coherent := run_coherent (coherent_new record user) steps
  have inside : d.app.input.IsInside := isInside_run (isInside_new record user) steps
  clear_value d
  constructor
  · intro f draft lastError active hs hkeys
    have opened := coherent.isOpen active
    -- The draft that is edited is the text in the text area.
    obtain ⟨lastError', hs'⟩ :=
      opened.stage_of_editing (App.phase_eq_editing_iff.2 ⟨active, lastError, hs⟩)
    obtain ⟨-, rfl⟩ : draft = d.app.input.text ∧ lastError = lastError' := by
      simpa using hs.symm.trans hs'
    have typed := hasTyped_press coherent inside active hs' hkeys
    have active' : (d.press keys).app.active = some f := typed.active.trans active
    exact ⟨(press_coherent coherent keys).isOpen active', typed, tasks_press d keys⟩
  · intro f draft active hs
    exact press_of_saving (coherent.isOpen active) (App.phase_eq_saving_iff.2 ⟨active, hs⟩) keys

/-- Letters that are commands elsewhere, in the dialog of a text that is empty: they are typed, as are
the keys that delete and move. Once the draft is being saved, the same keys do not even leave the
dialog. -/
theorem letters_of_commands_are_typed :
    let record : Record := .fresh "a" "N" ⟨⟨2020, 1, 1⟩, 0, 0, 0, 0⟩
    let opening : List (Step Unit) := [.event (.key { key := .char 'o' })]
    let saving : List (Step Unit) :=
      opening ++ [.event (.key { key := .char 's', control := true })]
    let keys : List KeyPress :=
      [ { key := .char 'q' }, { key := .char 'd' }, { key := .char '?', shift := true }
      , { key := .left }, { key := .enter }, { key := .tab, alt := true }, { key := .pageUp }
      , { key := .home }, { key := .delete }, { key := .up }, { key := .lineEnd }
      , { key := .backspace }, { key := .down }, { key := .other }, { key := .char 'r' }
      , { key := .right }, { key := .backspace } ]
    (((new record .default).run opening).press keys).app.session .overview =
        ⟨.overview, .editing "q\n r" none, 10⟩ ∧
      (((new record .default).run opening).press keys).app.input = ⟨['q', '\n', ' ', 'r'], 4⟩ ∧
      ((new record .default).run saving).press keys =
        ((new record .default).run saving).modifyApp (·.notify App.savingMessage) := by
  intro record opening saving keys
  have typed := ((typing_only_types_and_a_save_freezes record .default opening keys).1 .overview ""
    none rfl (by decide +kernel) (by decide)).2.1
  have frozen := (typing_only_types_and_a_save_freezes record .default saving keys).2 .overview ""
    rfl (by decide +kernel)
  have input : (((new record .default).run opening).press keys).app.input =
      ⟨['q', '\n', ' ', 'r'], 4⟩ := by
    rw [typed.input]
    decide +kernel
  refine ⟨?_, input, frozen⟩
  rw [typed.session, input]
  decide +kernel

end Desk

end PublisherConsole
