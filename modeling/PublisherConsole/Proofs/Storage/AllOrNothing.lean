import PublisherConsole.Proofs.Storage.Mishap
import PublisherConsole.Proofs.Storage.Refinement

/-!
# Writes are all or nothing

A file is replaced by filling a temporary file beside it and moving that over it. Whatever goes wrong
on the way, and wherever the process stops:

* until the move, the tree is `Staged`: nothing differs but the temporary file;
* the move does everything at once: the tree is `Moved`, the target holds the new content and the
  temporary file is gone;
* a replacement that fails was never moved, and its temporary file is removed, if removals work
  (`weathers_replaceFile`).

For a store this means that every record and every definition is kept as it was, or is the target of
the request and completely new (`store_writes_all_or_nothing`). No assumption is made about the tree,
the request, or the temporary name.
-/

namespace PublisherConsole.Storage

namespace FileTree

variable {t t' t₁ : FileTree} {p q x temp target : Path} {content : ByteArray}
  {safe : Call → Turn → Prop}

/-- The content of the file at a place. -/
def fileAt? (t : FileTree) (x : Path) : Option ByteArray :=
  match t.find? x with
  | some (.file content) => some content
  | _ => none

theorem fileAt?_eq_some_iff : t.fileAt? x = some content ↔ t.find? x = some (.file content) := by
  unfold fileAt?
  split
  next old h => simp [h]
  next h => simpa using h content

theorem fileAt?_congr (h : t'.find? x = t.find? x) : t'.fileAt? x = t.fileAt? x := by
  rw [fileAt?, h, fileAt?]

/-- Trees with more directories have the same files. -/
theorem Grows.fileAt? (h : Grows t t') (x : Path) : t'.fileAt? x = t.fileAt? x := by
  cases hx : t.find? x with
  | some e => exact fileAt?_congr ((h.keeps x e hx).trans hx.symm)
  | none =>
    rcases h.new x hx with hx' | hx'
    · exact fileAt?_congr (hx'.trans hx.symm)
    · simp [FileTree.fileAt?, hx, hx']

/-! ### Before the move -/

/-- Two trees have the same directories, and differ at most where a path leads. -/
structure Staged (t : FileTree) (temp : Path) (t' : FileTree) : Prop where
  directories : ∀ x, t'.find? x = some .directory ↔ t.find? x = some .directory
  elsewhere : ∀ x, t.resolve temp ≠ .ok x → t'.find? x = t.find? x

namespace Staged

theorem refl (t : FileTree) (temp : Path) : Staged t temp t := ⟨fun _ => .rfl, fun _ _ => rfl⟩

theorem resolve_iff (h : Staged t temp t') : t'.resolve p = .ok q ↔ t.resolve p = .ok q :=
  ⟨resolve_mono fun x => (h.directories x).1, resolve_mono fun x => (h.directories x).2⟩

theorem insert_file (h : Staged t temp t') (hq : t'.resolve temp = .ok q)
    (hfree : t'.find? q ≠ some .directory) (content : ByteArray) :
    Staged t temp (t'.insert q (.file content)) := by
  have hkeeps := keepsDirectories_insert_file content hfree
  refine ⟨fun x => ⟨fun hx => (h.directories x).1 (hkeeps.2 x hx),
    fun hx => hkeeps.1 x ((h.directories x).2 hx)⟩, fun x hx => ?_⟩
  have hne : x ≠ q := by
    rintro rfl
    exact hx (h.resolve_iff.1 hq)
  rw [find?_insert (ne_nil_of_find? hfree), if_neg hne, h.elsewhere x hx]

theorem erase_file {old : ByteArray} (h : Staged t temp t') (hq : t'.resolve temp = .ok q)
    (hold : t'.find? q = some (.file old)) : Staged t temp (t'.erase q) := by
  have hn : q ≠ [] := ne_nil_of_find? (t := t') (by simp [hold])
  refine ⟨fun x => ?_, fun x hx => ?_⟩ <;> rw [find?_erase hn]
  · rw [← h.directories x]
    by_cases hx : x = q <;> simp [hx, hold]
  · have hne : x ≠ q := by
      rintro rfl
      exact hx (h.resolve_iff.1 hq)
    rw [if_neg hne, h.elsewhere x hx]

theorem changed_create (h : Staged t temp t') : Staged t temp (t'.changed (t'.create temp)).2 := by
  cases hc : t'.create temp with
  | error fault => exact h
  | ok t₂ =>
    obtain ⟨q, hq, hfree, rfl⟩ := create_eq_ok_iff.1 hc
    exact h.insert_file hq hfree .empty

theorem changed_write (h : Staged t temp t') (content : ByteArray) :
    Staged t temp (t'.changed (t'.write temp content)).2 := by
  cases hw : t'.write temp content with
  | error fault => exact h
  | ok t₂ =>
    obtain ⟨q, old, hq, hold, rfl⟩ := write_eq_ok_iff.1 hw
    exact h.insert_file hq (by simp [hold]) content

theorem changed_remove (h : Staged t temp t') : Staged t temp (t'.changed (t'.remove temp)).2 := by
  cases hr : t'.remove temp with
  | error fault => exact h
  | ok t₂ =>
    obtain ⟨q, old, hq, hold, rfl⟩ := remove_eq_ok_iff.1 hr
    exact h.erase_file hq hold

end Staged

/-- A file that was filled has the content. -/
theorem bytes_of_write (h : t.write p content = .ok t') : t'.bytes p = .ok content := by
  obtain ⟨q, old, hq, hold, rfl⟩ := write_eq_ok_iff.1 h
  have hfree : t.find? q ≠ some .directory := by simp [hold]
  refine bytes_eq_ok_iff.2 ⟨q, resolve_mono (keepsDirectories_insert_file content hfree).1 hq, ?_⟩
  rw [find?_insert (ne_nil_of_find? hfree), if_pos rfl]

/-- No file is left behind where a path leads. -/
def IsSwept (t : FileTree) (temp : Path) (t' : FileTree) : Prop :=
  ∀ x, t.resolve temp = .ok x → t'.fileAt? x = none

theorem isSwept_remove (h : Staged t temp t') :
    IsSwept t temp (t'.changed (t'.remove temp)).2 := by
  intro x hx
  have hx' := h.resolve_iff.2 hx
  cases hfind : t'.find? x with
  | none => simp [FileTree.remove, hx', hfind, bind, Except.bind, changed, fileAt?]
  | some entry =>
    cases entry with
    | directory => simp [FileTree.remove, hx', hfind, bind, Except.bind, changed, fileAt?]
    | file old =>
      have hn : x ≠ [] := ne_nil_of_find? (t := t') (by simp [hfind])
      rw [remove_eq_ok_iff.2 ⟨x, old, hx', hfind, rfl⟩]
      simp [changed, fileAt?, find?_erase hn]

/-! ### After the move -/

/-- A tree in which a file was moved to the target, from where the temporary path leads. -/
structure Moved (t : FileTree) (temp target : Path) (content : ByteArray) (t' : FileTree) :
    Prop where
  placed : ∃ source place, t.resolve temp = .ok source ∧ t'.resolve target = .ok place ∧
    ∀ x, t'.find? x =
      if x = place then some (.file content) else if x = source then none else t.find? x

theorem Staged.rename {t₂ : FileTree} (h : Staged t temp t') (hb : t'.bytes temp = .ok content)
    (hr : t'.rename temp target = .ok t₂) : Moved t temp target content t₂ := by
  obtain ⟨source, place, moved, hsource, hplace, hmoved, hover, rfl⟩ := rename_eq_ok_iff.1 hr
  obtain ⟨q, hq, hcontent⟩ := bytes_eq_ok_iff.1 hb
  obtain rfl : q = source := by simpa [hsource] using hq.symm
  obtain rfl : content = moved := by simpa [hmoved] using hcontent.symm
  have hn : q ≠ [] := ne_nil_of_find? (t := t') (by simp [hmoved])
  have hfind : ∀ x, ((t'.erase q).insert place (.file content)).find? x =
      if x = place then some (.file content) else if x = q then none else t'.find? x := by
    intro x
    rw [find?_insert (ne_nil_of_find? hover), find?_erase hn]
  refine ⟨q, place, h.resolve_iff.1 hsource, resolve_mono ?_ hplace, fun x => ?_⟩
  · intro x hx
    rw [hfind]
    split
    next hxp => exact absurd (hxp ▸ hx) hover
    next =>
      split
      next hxq => simp [hxq ▸ hx] at hmoved
      next => exact hx
  · rw [hfind]
    split
    · rfl
    · split
      · rfl
      next hxq =>
        refine h.elsewhere x fun hx => hxq ?_
        simpa [h.resolve_iff.1 hsource] using hx.symm

/-! ### Replacing a file -/

section Replacing

/-- A tree while a file is replaced: the temporary file is being filled, or it was moved. -/
def Underway (t : FileTree) (temp target : Path) (content : ByteArray) (t' : FileTree) : Prop :=
  Staged t temp t' ∨ Moved t temp target content t'

/-- What a replacement comes to: the file was moved, or all is as before but for the temporary
file. -/
def Settled (t : FileTree) (temp target : Path) (content : ByteArray)
    (outcome : Except SystemFault Unit) (t' : FileTree) : Prop :=
  match outcome with
  | .ok () => Moved t temp target content t'
  | .error _ => Staged t temp t'

theorem weathers_create (h : Staged t temp t') :
    t'.Weathers safe (Underway t temp target content) (fun _ => Staged t temp)
      (Script.create temp) := by
  refine weathers_call (.inl h) fun turn _ => ?_
  have hstaged : Staged t temp (t'.attempt (.create temp) turn).2 := by
    cases turn with
    | served => exact h.changed_create
    | refused fault => exact h
    | torn fault left => exact h.changed_create
  exact ⟨.inl hstaged, hstaged⟩

theorem weathers_write (h : Staged t temp t') :
    t'.Weathers safe (Underway t temp target content)
      (fun outcome t'' => Staged t temp t'' ∧ (outcome = .ok () → t''.bytes temp = .ok content))
      (Script.write temp content) := by
  refine weathers_call (.inl h) fun turn _ => ?_
  cases turn with
  | served =>
    cases hw : t'.write temp content with
    | ok t₂ =>
      have hstaged : Staged t temp t₂ := by simpa [changed, hw] using h.changed_write content
      simp only [attempt, answer, changed, hw]
      exact ⟨.inl hstaged, hstaged, fun _ => bytes_of_write hw⟩
    | error fault =>
      simp only [attempt, answer, changed, hw]
      exact ⟨.inl h, h, fun hok => by cases hok⟩
  | refused fault => exact ⟨.inl h, h, fun hok => by cases hok⟩
  | torn fault left =>
    have hstaged := h.changed_write left
    exact ⟨.inl hstaged, hstaged, fun hok => by cases hok⟩

theorem weathers_sync (h : Staged t temp t') :
    t'.Weathers safe (Underway t temp target content) (fun _ t'' => t'' = t')
      (Script.sync temp) :=
  weathers_call (.inl h) fun turn _ => by cases turn <;> exact ⟨.inl h, rfl⟩

theorem weathers_rename (h : Staged t temp t') (hb : t'.bytes temp = .ok content) :
    t'.Weathers safe (Underway t temp target content) (Settled t temp target content)
      (Script.rename temp target) := by
  refine weathers_call (.inl h) fun turn _ => ?_
  cases turn with
  | served =>
    cases hr : t'.rename temp target with
    | ok t₂ =>
      have hmoved := h.rename hb hr
      simp only [attempt, answer, changed, hr]
      exact ⟨.inr hmoved, hmoved⟩
    | error fault =>
      simp only [attempt, answer, changed, hr]
      exact ⟨.inl h, h⟩
  | refused fault => exact ⟨.inl h, h⟩
  | torn fault left => exact ⟨.inl h, h⟩

theorem weathers_fillAndMove (t : FileTree) (temp target : Path) (content : ByteArray) :
    t.Weathers safe (Underway t temp target content) (Settled t temp target content)
      (fillAndMove target temp content) := by
  refine (weathers_create (.refl t temp)).bind fun created t' _ h => ?_
  cases created with
  | error fault => exact weathers_pure (.inl h) h
  | ok _ =>
    refine (weathers_write h).bind fun written t' _ h => ?_
    cases written with
    | error fault => exact weathers_pure (.inl h.1) h.1
    | ok _ =>
      refine (weathers_sync h.1).bind fun synced t'' _ heq => ?_
      subst heq
      cases synced with
      | error fault => exact weathers_pure (.inl h.1) h.1
      | ok _ => exact weathers_rename h.1 (h.2 rfl)

theorem weathers_remove (h : Staged t temp t') :
    t'.Weathers safe (Underway t temp target content)
      (fun _ t'' => Staged t temp t'' ∧
        ((∀ turn, safe (.remove temp) turn → turn = .served) → IsSwept t temp t''))
      (Script.remove temp) := by
  refine weathers_call (.inl h) fun turn hsafe => ?_
  cases turn with
  | served =>
    have hstaged := h.changed_remove
    exact ⟨.inl hstaged, hstaged, fun _ => isSwept_remove h⟩
  | refused fault => exact ⟨.inl h, h, fun hserved => by cases hserved _ hsafe⟩
  | torn fault left => exact ⟨.inl h, h, fun hserved => by cases hserved _ hsafe⟩

/-- **Replacing a file, whatever happens.** All along the target is as before or completely new; if
the replacement fails it is as before, and then no temporary file is left if removals are served. -/
theorem weathers_replaceFile (t : FileTree) (target : Path) (tag : String) (content : ByteArray) :
    t.Weathers safe (Underway t (tempPath target tag) target content)
      (fun outcome t' => Settled t (tempPath target tag) target content outcome t' ∧
        ((∀ p turn, safe (.remove p) turn → turn = .served) →
          outcome = .ok () ∨ IsSwept t (tempPath target tag) t'))
      (replaceFile target tag content) := by
  rw [replaceFile, ← tempPath]
  refine (weathers_fillAndMove t _ target content).bind fun outcome t' hP h => ?_
  cases outcome with
  | ok _ => exact weathers_pure hP ⟨h, fun _ => .inl rfl⟩
  | error fault =>
    refine (weathers_remove h).bind fun _ t'' hP h => ?_
    exact weathers_pure hP ⟨h.1, fun hserved => .inr (h.2 (hserved _))⟩

end Replacing

end FileTree

/-! ### Records and definitions -/

/-- A place where a record or a definition is kept. -/
def IsKept (x : Path) : Prop :=
  x.getLast? = some recordFile ∨ x.getLast? = some definitionFile

/-- A file and what it is to hold. -/
structure Write where
  target : Path
  content : ByteArray

/-- The records and definitions are the same, and so are their contents. -/
def Unwritten (t t' : FileTree) : Prop := ∀ x, IsKept x → t'.fileAt? x = t.fileAt? x

/-- Every file was there before. -/
def NothingAdded (t t' : FileTree) : Prop := ∀ x, t'.fileAt? x ≠ none → t.fileAt? x ≠ none

/-- One file holds what was to be written, all of it. The other records and definitions are the
same, and no other file was added. -/
structure Written (t : FileTree) (w : Write) (t' : FileTree) : Prop where
  placed : ∃ place, t'.resolve w.target = .ok place ∧ t'.fileAt? place = some w.content ∧
    (∀ x, IsKept x → x ≠ place → t'.fileAt? x = t.fileAt? x) ∧
    ∀ x, t'.fileAt? x ≠ none → x = place ∨ t.fileAt? x ≠ none

/-- A tree while a request is served. -/
def Amid (t : FileTree) (w? : Option Write) (t' : FileTree) : Prop :=
  Unwritten t t' ∨ ∃ w, w? = some w ∧ Written t w t'

/-- Removals work, as far as turns are safe. -/
def Sweeping (safe : Call → Turn → Prop) : Prop :=
  ∀ p turn, safe (.remove p) turn → turn = .served

/-- What a request comes to: all is written that was to be written, or nothing. -/
def Concluded {α : Type} (safe : Call → Turn → Prop) (t : FileTree) (w? : Option Write) :
    Except Fault α → FileTree → Prop
  | .ok _, t' => match w? with
    | some w => Written t w t'
    | none => t' = t
  | .error _, t' => Unwritten t t' ∧ (Sweeping safe → NothingAdded t t')

section Files

variable {t t' t₁ : FileTree} {p temp x : Path} {name tag : String} {content : ByteArray}
  {safe : Call → Turn → Prop} {w? : Option Write}

theorem unwritten_refl (t : FileTree) : Unwritten t t := fun _ _ => rfl

theorem concluded_error {α : Type} {fault : Fault} :
    Concluded (α := α) safe t w? (.error fault) t :=
  ⟨unwritten_refl t, fun _ _ => id⟩

theorem unwritten_of_grows (h : FileTree.Grows t t') : Unwritten t t' := fun x _ => h.fileAt? x

theorem nothingAdded_of_grows (h : FileTree.Grows t t') : NothingAdded t t' :=
  fun x hx => by rwa [h.fileAt? x] at hx

/-- A temporary file is no record and no definition. -/
theorem not_isKept_of_temp (h : t.resolve (tempPath (p ++ [name]) tag) = .ok x) : ¬ IsKept x := by
  rw [tempPath_snoc, FileTree.resolve_snoc_iff (isPlain_tempName _ _)] at h
  obtain ⟨-, d, -, -, rfl⟩ := h
  simp [IsKept, tempName_ne_recordFile, tempName_ne_definitionFile]

theorem unwritten_of_staged (hg : FileTree.Grows t t₁)
    (h : FileTree.Staged t₁ (tempPath (p ++ [name]) tag) t') : Unwritten t t' := by
  intro x hx
  have hne : t₁.resolve (tempPath (p ++ [name]) tag) ≠ .ok x := fun hr => not_isKept_of_temp hr hx
  rw [FileTree.fileAt?_congr (h.elsewhere x hne), hg.fileAt? x]

theorem nothingAdded_of_isSwept (hg : FileTree.Grows t t₁) (h : FileTree.Staged t₁ temp t')
    (hswept : FileTree.IsSwept t₁ temp t') : NothingAdded t t' := by
  intro x hx
  have hne : t₁.resolve temp ≠ .ok x := fun hr => hx (hswept x hr)
  rwa [FileTree.fileAt?_congr (h.elsewhere x hne), hg.fileAt? x] at hx

theorem written_of_moved (hg : FileTree.Grows t t₁)
    (h : FileTree.Moved t₁ (tempPath (p ++ [name]) tag) (p ++ [name]) content t') :
    Written t ⟨p ++ [name], content⟩ t' := by
  obtain ⟨source, place, hsource, hplace, hfind⟩ := h.placed
  refine ⟨place, hplace, ?_, fun x hx hxp => ?_, fun x hx => ?_⟩
  · exact FileTree.fileAt?_eq_some_iff.2 (by rw [hfind, if_pos rfl])
  · have hxs : x ≠ source := by
      rintro rfl
      exact not_isKept_of_temp hsource hx
    have hsame : t'.find? x = t₁.find? x := by rw [hfind, if_neg hxp, if_neg hxs]
    rw [FileTree.fileAt?_congr hsame, hg.fileAt? x]
  · by_cases hxp : x = place
    · exact .inl hxp
    · by_cases hxs : x = source
      · have hgone : t'.find? x = none := by rw [hfind, if_neg hxp, if_pos hxs]
        exact absurd (by simp [FileTree.fileAt?, hgone]) hx
      · have hsame : t'.find? x = t₁.find? x := by rw [hfind, if_neg hxp, if_neg hxs]
        rw [FileTree.fileAt?_congr hsame, hg.fileAt? x] at hx
        exact .inr hx

theorem Written.whole {w : Write} (h : Written t w t') (hx : IsKept x) :
    t'.fileAt? x = t.fileAt? x ∨ t'.resolve w.target = .ok x ∧ t'.fileAt? x = some w.content := by
  obtain ⟨place, hplace, hcontent, hother, -⟩ := h.placed
  by_cases hxp : x = place
  · exact .inr ⟨hxp ▸ hplace, hxp ▸ hcontent⟩
  · exact .inl (hother x hx hxp)

theorem Written.bytes {w : Write} (h : Written t w t') :
    t'.bytes w.target = .ok w.content := by
  obtain ⟨place, hplace, hcontent, -, -⟩ := h.placed
  exact FileTree.bytes_eq_ok_iff.2 ⟨place, hplace, FileTree.fileAt?_eq_some_iff.1 hcontent⟩

/-- A file is replaced below directories that were just made. -/
theorem weathers_write_below (hg : FileTree.Grows t t₁) (p : Path) (name tag : String)
    (content : ByteArray) :
    t₁.Weathers safe (Amid t (some ⟨p ++ [name], content⟩))
      (fun outcome => Concluded safe t (some ⟨p ++ [name], content⟩) (outcome.mapError .system))
      (replaceFile (p ++ [name]) tag content) := by
  refine (FileTree.weathers_replaceFile t₁ (p ++ [name]) tag content).mono
    (fun t' h => ?_) fun outcome t' h => ?_
  · rcases h with h | h
    · exact .inl (unwritten_of_staged hg h)
    · exact .inr ⟨_, rfl, written_of_moved hg h⟩
  · obtain ⟨hsettled, hswept⟩ := h
    cases outcome with
    | ok _ => exact written_of_moved hg hsettled
    | error fault =>
      refine ⟨unwritten_of_staged hg hsettled, fun hsafe => ?_⟩
      have hswept := (hswept hsafe).resolve_left (by simp)
      exact nothingAdded_of_isSwept hg hsettled hswept

end Files

namespace FileStore

variable {s : FileStore} {t t₁ : FileTree} {id tag text : String} {safe : Call → Turn → Prop}
  {w? : Option Write} {P : FileTree → Prop}

/-! ### Reading -/

theorem weathers_readRecordFile {p : Path} (h : P t) :
    t.Weathers safe P
      (fun outcome t' => t' = t ∧ ∀ r, outcome = .ok r →
        ∃ text, t.text p = .ok text ∧ Record.ofText text = .ok r)
      (readRecordFile p) := by
  refine (FileTree.weathers_readText h).bind fun outcome t' hP hread => ?_
  obtain ⟨rfl, hread⟩ := hread
  cases outcome with
  | error fault => exact FileTree.weathers_pure hP ⟨rfl, fun r hr => by cases hr⟩
  | ok text =>
    dsimp only
    cases hof : Record.ofText text with
    | error fault => exact FileTree.weathers_pure hP ⟨rfl, fun r hr => by cases hr⟩
    | ok r =>
      refine FileTree.weathers_pure hP ⟨rfl, fun r' hr => ⟨text, hread text rfl, ?_⟩⟩
      rw [hof, ← Except.ok.inj hr]

/-- A record that is read is the one that is there. -/
theorem weathers_read (h : P t) :
    t.Weathers safe P
      (fun outcome t' => t' = t ∧ ∀ r, outcome = .ok r →
        isValidId id = true ∧
          ∃ text, t.text (s.recordPath id) = .ok text ∧ Record.ofText text = .ok r)
      (s.read id) := by
  unfold FileStore.read
  split
  next hid =>
    refine (FileTree.weathers_exists? h).bind fun there t' _ heq => ?_
    subst heq
    cases there with
    | false => exact FileTree.weathers_pure h ⟨rfl, fun r hr => by cases hr⟩
    | true =>
      exact (weathers_readRecordFile h).mono (fun _ h => h) fun outcome t' hread =>
        ⟨hread.1, fun r hr => ⟨hid, hread.2 r hr⟩⟩
  next hid => exact FileTree.weathers_pure h ⟨rfl, fun r hr => by cases hr⟩

theorem weathers_fetch (h : P t) :
    t.Weathers safe P (fun _ t' => t' = t) (s.fetch id) := by
  unfold fetch
  split
  · refine (FileTree.weathers_readText h).bind fun outcome t' hP hread => ?_
    split <;> exact FileTree.weathers_pure hP hread.1
  · exact FileTree.weathers_pure h rfl

theorem weathers_readAll (names : List String) (h : P t) :
    t.Weathers safe P (fun _ t' => t' = t) (s.readAll names) := by
  induction names with
  | nil => exact FileTree.weathers_pure h rfl
  | cons name names ih =>
    refine (FileTree.weathers_isFile h).bind fun there t' _ heq => ?_
    subst heq
    split
    · refine (weathers_readRecordFile h).bind fun outcome t' _ hread => ?_
      obtain ⟨rfl, -⟩ := hread
      split
      · exact FileTree.weathers_pure h rfl
      · refine ih.bind fun rest t' _ heq => ?_
        subst heq
        split <;> exact FileTree.weathers_pure h rfl
    · exact ih

theorem weathers_list (h : P t) :
    t.Weathers safe P (fun _ t' => t' = t) s.list := by
  refine (FileTree.weathers_list h).bind fun outcome t' _ heq => ?_
  subst heq
  split
  · exact FileTree.weathers_pure h rfl
  · refine (weathers_readAll _ h).bind fun rest t' _ heq => ?_
    subst heq
    split <;> exact FileTree.weathers_pure h rfl

/-! ### Writing -/

/-- Making the directory of an API and replacing its record. -/
theorem weathers_writeRecord (s : FileStore) (t : FileTree) (r : Record) (tag : String) :
    t.Weathers safe (Amid t (some ⟨s.recordPath r.id, r.toText.toUTF8⟩))
      (Concluded safe t (some ⟨s.recordPath r.id, r.toText.toUTF8⟩)) (s.writeRecord r tag) := by
  refine ((FileTree.weathers_makeDirectories _ (.refl t)).mono
    (fun t' h => .inl (unwritten_of_grows h)) fun _ _ h => h).bind fun made t₁ hP hg => ?_
  cases made with
  | error fault =>
    exact FileTree.weathers_pure hP ⟨unwritten_of_grows hg, fun _ => nothingAdded_of_grows hg⟩
  | ok _ =>
    refine (weathers_write_below hg _ _ _ _).bind fun moved t' hP h => ?_
    cases moved <;> exact FileTree.weathers_pure hP h

theorem weathers_create (s : FileStore) (t : FileTree) (r : Record) (tag : String) :
    t.Weathers safe (Amid t (some ⟨s.recordPath r.id, r.toText.toUTF8⟩))
      (Concluded safe t (some ⟨s.recordPath r.id, r.toText.toUTF8⟩)) (s.create r tag) := by
  unfold create
  split
  · refine (FileTree.weathers_exists? (.inl (unwritten_refl t))).bind fun there t' hP heq => ?_
    subst heq
    split
    · exact FileTree.weathers_pure hP concluded_error
    · exact weathers_writeRecord s _ r tag
  · exact FileTree.weathers_pure (.inl (unwritten_refl t)) concluded_error

theorem weathers_importDefinition (s : FileStore) (t : FileTree) (id text tag : String) :
    t.Weathers safe (Amid t (some ⟨s.definitionPath id, text.toUTF8⟩))
      (Concluded safe t (some ⟨s.definitionPath id, text.toUTF8⟩))
      (s.importDefinition id text tag) := by
  unfold importDefinition
  split
  · refine (FileTree.weathers_exists? (.inl (unwritten_refl t))).bind fun there t' hP heq => ?_
    subst heq
    split
    · refine (weathers_write_below (.refl _) _ _ _ _).bind fun moved t' hP h => ?_
      cases moved <;> exact FileTree.weathers_pure hP h
    · exact FileTree.weathers_pure hP concluded_error
  · exact FileTree.weathers_pure (.inl (unwritten_refl t)) concluded_error

/-- The file that a request is to write, and what it is to hold. An update writes under the
identifier in the record that it reads. -/
def write? (s : FileStore) (t : FileTree) : Request → Option Write
  | .create r _ => some ⟨s.recordPath r.id, r.toText.toUTF8⟩
  | .importDefinition id text _ => some ⟨s.definitionPath id, text.toUTF8⟩
  | .update id field content stamp =>
    match (t.run (s.read id)).1 with
    | .ok r =>
      let r := r.setContent field content stamp.now
      some ⟨s.recordPath r.id, r.toText.toUTF8⟩
    | .error _ => none
  | .read _ | .fetch _ | .list => none

theorem weathers_update (s : FileStore) (t : FileTree) (id : String) (field : TextField)
    (content : String) (stamp : Stamp) :
    t.Weathers safe (Amid t (s.write? t (.update id field content stamp)))
      (Concluded safe t (s.write? t (.update id field content stamp)))
      (s.update id field content stamp) := by
  refine (weathers_read (.inl (unwritten_refl t))).bind fun outcome t' hP hread => ?_
  obtain ⟨rfl, hread⟩ := hread
  cases outcome with
  | error fault => exact FileTree.weathers_pure hP concluded_error
  | ok r =>
    obtain ⟨hid, text, htext, hof⟩ := hread r rfl
    have hr : (t'.run (s.read id)).1 = .ok r :=
      read_eq_ok_iff.2 ⟨hid, text, FileTree.text_eq_ok_iff.1 htext, hof⟩
    simp only [write?, hr]
    refine (weathers_writeRecord s t' _ stamp.tag).bind fun written t'' hP h => ?_
    cases written <;> exact FileTree.weathers_pure hP h

section Answers

variable {α : Type} {w : Script (Except Fault α)}

/-- Looking at files concludes a request that has nothing to write. -/
theorem weathers_looking (h : t.Weathers safe P (fun _ t' => t' = t) w) :
    t.Weathers safe P (Concluded safe t none) w := by
  refine h.mono (fun _ h => h) fun outcome t' heq => ?_
  subst heq
  cases outcome with
  | ok _ => rfl
  | error fault => exact concluded_error

/-- What a request has come to is answered. -/
theorem weathers_answer (answer : α → Answer)
    (h : t.Weathers safe (Amid t w?) (Concluded safe t w?) w) :
    t.Weathers safe (Amid t w?) (Concluded safe t w?)
      (w >>= fun outcome => pure (outcome.map answer)) := by
  refine h.bind fun outcome t' hP h => ?_
  cases outcome <;> exact FileTree.weathers_pure hP h

end Answers

/-- Every request, whatever happens while it is served. -/
theorem weathers_serve (s : FileStore) (t : FileTree) (q : Request) :
    t.Weathers safe (Amid t (s.write? t q)) (Concluded safe t (s.write? t q)) (s.serve q) := by
  have same : Amid t none t := .inl (unwritten_refl t)
  cases q with
  | create r tag => exact weathers_answer _ (weathers_create s t r tag)
  | importDefinition id text tag => exact weathers_answer _ (weathers_importDefinition s t id text tag)
  | update id field content stamp =>
    exact weathers_answer _ (weathers_update s t id field content stamp)
  | read id =>
    have hread : t.Weathers safe (Amid t none) (fun _ t' => t' = t) (s.read id) :=
      (weathers_read same).mono (fun _ h => h) fun _ _ h => h.1
    exact weathers_answer _ (weathers_looking hread)
  | fetch id => exact weathers_answer _ (weathers_looking (weathers_fetch same))
  | list => exact weathers_answer _ (weathers_looking (weathers_list same))

/-! ### All or nothing -/

/-- The removals in a run are served. -/
def Sweeps {α : Type} (t : FileTree) (w : Script α) (turns : List Turn) : Prop :=
  t.Takes (fun call turn => ∀ p, call = .remove p → turn = .served) w turns

/-- What a request with something to write or nothing leaves of a tree, when it ends with an answer or
is cut off. -/
structure AllOrNothing (t : FileTree) (w? : Option Write) (swept : Prop)
    (outcome : Option (Except Fault Answer)) (t' : FileTree) : Prop where
  /-- Each record and each definition is as it was, or it is the target and completely new. -/
  whole : ∀ x, IsKept x → t'.fileAt? x = t.fileAt? x ∨
    ∃ w, w? = some w ∧ t'.resolve w.target = .ok x ∧ t'.fileAt? x = some w.content
  /-- A request that fails changes none of them. -/
  failed : ∀ fault, outcome = some (.error fault) → ∀ x, IsKept x → t'.fileAt? x = t.fileAt? x
  /-- A request that succeeds has written what it was to write. -/
  succeeded : ∀ answer, outcome = some (.ok answer) → ∀ w, w? = some w →
    t'.bytes w.target = .ok w.content
  /-- A request that ends leaves no other file behind, if its removals work. -/
  clean : outcome.isSome = true → swept → ∀ x, t'.fileAt? x ≠ none →
    t.fileAt? x ≠ none ∨ ∃ w, w? = some w ∧ t'.resolve w.target = .ok x

/-- **Writes are all or nothing.** Whatever happens to the calls of a request, and wherever it is cut
off, every record and every definition is there with all of its content, old or new. -/
theorem store_writes_all_or_nothing (s : FileStore) (t : FileTree) (q : Request)
    (turns : List Turn) :
    AllOrNothing t (s.write? t q) (Sweeps t (s.serve q) turns) (t.endure (s.serve q) turns).1
      (t.endure (s.serve q) turns).2 := by
  obtain ⟨hP, hQ⟩ := (weathers_serve s t q).endure (FileTree.takes_any _ turns)
  constructor
  case whole =>
    intro x hx
    rcases hP with same | ⟨w, hw, hwritten⟩
    · exact .inl (same x hx)
    · exact (hwritten.whole hx).imp_right fun h => ⟨w, hw, h⟩
  case failed => exact fun fault ho => (hQ _ ho).1
  case succeeded =>
    intro answer ho w hw
    have hconcluded := hQ _ ho
    rw [hw] at hconcluded
    exact hconcluded.bytes
  case clean =>
    -- The turns are the same, but now it is known of the removals that they are served.
    intro hsome hswept x hx
    obtain ⟨outcome, ho⟩ := Option.isSome_iff_exists.1 hsome
    have hconcluded := ((weathers_serve s t q).endure hswept).2 outcome ho
    cases outcome with
    | error fault => exact .inl (hconcluded.2 (fun p turn h => h p rfl) x hx)
    | ok answer =>
      cases hw : s.write? t q with
      | none =>
        simp only [Concluded, hw] at hconcluded
        exact .inl (hconcluded ▸ hx)
      | some w =>
        simp only [Concluded, hw] at hconcluded
        obtain ⟨place, hplace, -, -, hfiles⟩ := hconcluded.placed
        rcases hfiles x hx with rfl | hold
        · exact .inr ⟨w, rfl, hplace⟩
        · exact .inl hold

end FileStore

end PublisherConsole.Storage
