import PublisherConsole.Proofs.Storage.Replacement

/-!
# Scripts under mishaps

Any call of a script can go wrong, and the script can be cut off between any two of its calls. A
`Turn` says how one call goes: it is served, it is refused and does nothing, or it is torn, which
makes or fills a file only in part. `FileTree.endure` runs a script through a list of turns and
stops with them.

What a script does whatever happens is reasoned about along the script. `Weathers safe P Q t w` says
that, if the turns are `safe` for the calls they meet, `P` holds of the tree before, between and
after the calls, and `Q` of the result. It goes along with sequencing (`Weathers.bind`) and holds of
every run (`Weathers.endure`).
-/

namespace PublisherConsole.Storage

/-- How a call goes. -/
inductive Turn
  | served
  | refused (fault : SystemFault)
  | torn (fault : SystemFault) (left : ByteArray)

/-- What a script is told of a call that failed. Questions are answered in the negative. -/
def Call.failure (fault : SystemFault) : (call : Call) → call.Answer
  | .exists? _ | .isFile _ | .isDirectory _ => false
  | .readText _ | .list _ => .error fault
  | .makeDirectory _ | .create _ | .touch _ | .write .. | .sync _ | .rename .. | .remove _ =>
    .error fault

namespace FileTree

/-- What a torn call leaves: a file that was to be made is there, and one that was to be filled
holds anything. Other calls do not come in parts. -/
def torn (t : FileTree) (left : ByteArray) : Call → FileTree
  | .create p => (t.changed (t.create p)).2
  | .write p _ => (t.changed (t.write p left)).2
  | _ => t

/-- Answer a call whose turn it is. -/
def attempt (t : FileTree) (call : Call) : Turn → call.Answer × FileTree
  | .served => t.answer call
  | .refused fault => (call.failure fault, t)
  | .torn fault left => (call.failure fault, t.torn left call)

/-- Run a script until it ends or is out of turns; in the latter case there is no result. -/
def endure {α : Type} : FileTree → Script α → List Turn → Option α × FileTree
  | t, .done a, _ => (some a, t)
  | t, .step _ _, [] => (none, t)
  | t, .step call next, turn :: turns =>
    let (reply, t') := t.attempt call turn
    t'.endure (next reply) turns

/-- Every turn of a run suits the call that it meets. -/
def Takes {α : Type} (safe : Call → Turn → Prop) : FileTree → Script α → List Turn → Prop
  | _, .done _, _ => True
  | _, .step _ _, [] => True
  | t, .step call next, turn :: turns =>
    safe call turn ∧ (t.attempt call turn).2.Takes safe (next (t.attempt call turn).1) turns

/-- Whatever happens to the calls of a script within what is safe, one thing holds of the tree all
along and another of the result. -/
def Weathers {α : Type} (safe : Call → Turn → Prop) (P : FileTree → Prop)
    (Q : α → FileTree → Prop) : FileTree → Script α → Prop
  | t, .done a => P t ∧ Q a t
  | t, .step call next =>
    P t ∧ ∀ turn, safe call turn →
      (t.attempt call turn).2.Weathers safe P Q (next (t.attempt call turn).1)

section Weathers

variable {α β : Type} {safe : Call → Turn → Prop} {P P' : FileTree → Prop}
  {Q Q' : α → FileTree → Prop} {R : β → FileTree → Prop} {t : FileTree}

theorem Weathers.mono {w : Script α} (h : t.Weathers safe P Q w) (hP : ∀ t, P t → P' t)
    (hQ : ∀ a t, Q a t → Q' a t) : t.Weathers safe P' Q' w := by
  induction w generalizing t with
  | done a => exact ⟨hP t h.1, hQ a t h.2⟩
  | step call next ih => exact ⟨hP t h.1, fun turn ht => ih _ (h.2 turn ht)⟩

theorem weathers_pure {a : α} (hP : P t) (hQ : Q a t) : t.Weathers safe P Q (pure a) := ⟨hP, hQ⟩

theorem Weathers.bind {w : Script α} {k : α → Script β} (hw : t.Weathers safe P Q w)
    (hk : ∀ a t, P t → Q a t → t.Weathers safe P R (k a)) : t.Weathers safe P R (w >>= k) := by
  induction w generalizing t with
  | done a => exact hk a t hw.1 hw.2
  | step call next ih => exact ⟨hw.1, fun turn ht => ih _ (hw.2 turn ht)⟩

/-- A single call, by its turns. -/
theorem weathers_call {call : Call} {Q : call.Answer → FileTree → Prop} (before : P t)
    (after : ∀ turn, safe call turn →
      P (t.attempt call turn).2 ∧ Q (t.attempt call turn).1 (t.attempt call turn).2) :
    t.Weathers safe P Q (.step call .done) :=
  ⟨before, after⟩

/-- What a script weathers holds of each of its runs, wherever the run is cut off. -/
theorem Weathers.endure {w : Script α} (h : t.Weathers safe P Q w) {turns : List Turn}
    (ht : t.Takes safe w turns) :
    P (t.endure w turns).2 ∧ ∀ a, (t.endure w turns).1 = some a → Q a (t.endure w turns).2 := by
  induction w generalizing t turns with
  | done a =>
    refine ⟨h.1, fun b hb => ?_⟩
    obtain rfl : a = b := by simpa [FileTree.endure] using hb
    exact h.2
  | step call next ih =>
    cases turns with
    | nil => exact ⟨h.1, fun b hb => by simp [FileTree.endure] at hb⟩
    | cons turn turns => exact ih _ (h.2 turn ht.1) ht.2

/-- Every run takes turns of some kind. -/
theorem takes_any (w : Script α) (turns : List Turn) : t.Takes (fun _ _ => True) w turns := by
  induction w generalizing t turns with
  | done a => trivial
  | step call next ih =>
    cases turns with
    | nil => trivial
    | cons turn turns => exact ⟨trivial, ih _ _⟩

end Weathers

/-! ### Looking at files -/

section Looking

variable {safe : Call → Turn → Prop} {P : FileTree → Prop} {t : FileTree} {p : Path}

theorem weathers_exists? (h : P t) :
    t.Weathers safe P (fun _ t' => t' = t) (Script.exists? p) :=
  weathers_call h fun turn _ => by cases turn <;> exact ⟨h, rfl⟩

theorem weathers_isFile (h : P t) :
    t.Weathers safe P (fun _ t' => t' = t) (Script.isFile p) :=
  weathers_call h fun turn _ => by cases turn <;> exact ⟨h, rfl⟩

theorem weathers_isDirectory (h : P t) :
    t.Weathers safe P (fun _ t' => t' = t) (Script.isDirectory p) :=
  weathers_call h fun turn _ => by cases turn <;> exact ⟨h, rfl⟩

theorem weathers_list (h : P t) :
    t.Weathers safe P (fun _ t' => t' = t) (Script.list p) :=
  weathers_call h fun turn _ => by cases turn <;> exact ⟨h, rfl⟩

/-- A text that is read is the one that is there. -/
theorem weathers_readText (h : P t) :
    t.Weathers safe P (fun outcome t' => t' = t ∧ ∀ text, outcome = .ok text → t.text p = .ok text)
      (Script.readText p) := by
  refine weathers_call h fun turn _ => ?_
  cases turn with
  | served => exact ⟨h, rfl, fun text => id⟩
  | refused fault => exact ⟨h, rfl, fun text htext => by cases htext⟩
  | torn fault left => exact ⟨h, rfl, fun text htext => by cases htext⟩

end Looking

/-! ### Making directories -/

section Directories

variable {safe : Call → Turn → Prop} {t₀ t : FileTree}

theorem weathers_makeDirectory {p : Path} (h : Grows t₀ t) :
    t.Weathers safe (Grows t₀) (fun _ => Grows t₀) (Script.makeDirectory p) := by
  refine weathers_call h fun turn _ => ?_
  cases turn with
  | served =>
    have hgrows := h.trans (grows_changed_makeDirectory t p)
    exact ⟨hgrows, hgrows⟩
  | refused fault => exact ⟨h, h⟩
  | torn fault left => exact ⟨h, h⟩

/-- Whatever happens while directories are made, nothing but directories is added. -/
theorem weathers_makeDirectoriesUp (names : List String) (h : Grows t₀ t) :
    t.Weathers safe (Grows t₀) (fun _ => Grows t₀) (makeDirectoriesUp names) := by
  -- The names come last first, so the induction goes up from the directory to those above it.
  induction names generalizing t with
  | nil => exact weathers_pure h h
  | cons name above ih =>
    have check : ∀ (fault : SystemFault) (there : Bool) (t : FileTree), Grows t₀ t →
        t.Weathers safe (Grows t₀) (fun _ => Grows t₀)
          (if there then pure (.ok ()) else pure (.error fault) :
            Script (Except SystemFault Unit)) := by
      intro fault there t h
      cases there <;> exact weathers_pure h h
    refine (weathers_makeDirectory h).bind fun made t _ h => ?_
    split
    · exact weathers_pure h h
    · refine (ih h).bind fun above t _ h => ?_
      split
      · exact weathers_pure h h
      · refine (weathers_makeDirectory h).bind fun made t _ h => ?_
        split
        · exact weathers_pure h h
        · exact (weathers_isDirectory h).bind fun there t h _ => check _ there t h
    · exact (weathers_isDirectory h).bind fun there t h _ => check _ there t h

theorem weathers_makeDirectories (p : Path) (h : Grows t₀ t) :
    t.Weathers safe (Grows t₀) (fun _ => Grows t₀) (makeDirectories p) :=
  weathers_makeDirectoriesUp p.reverse h

end Directories

end FileTree

end PublisherConsole.Storage
