import Mathlib.Data.List.Chain
import PublisherConsole.Proofs.Screen.Wrap

/-!
# Spans of one style each

Characters that get their styles back are put into spans: neighbours of one style share a span, and where
the style changes a new span begins. So the spans show each character in its own style, none of them is
empty, and none has the style of the one before (`IsGrouped`).

Characters can be divided into such spans in one way only (`IsGrouped.regroup_chars`), and in every other
way there are more spans (`regroup_chars_eq_or_lt`). Both follow from what a span does in front of others:
it joins the first one, or it stays on its own (`joinSpan`).

The main statement is `restyling_groups_exactly`.
-/

namespace PublisherConsole.Screen

/-- The characters of a span, each with its style. -/
def Span.chars (s : Span) : List (Char × Style) := s.text.toList.map fun c => (c, s.style)

/-- Spans that all show something, and none of which has the style of the one before. -/
structure IsGrouped (spans : List Span) : Prop where
  filled : ∀ s ∈ spans, s.text ≠ ""
  apart : spans.IsChain fun a b => a.style ≠ b.style

/-- The spans that characters are grouped into. -/
def regroup (chars : List (Char × Style)) : List Span :=
  (styleRuns chars).map fun (cs, s) => ⟨String.ofList cs, s⟩

/-- A span in front of others. It joins the first one if this has the same style. -/
def joinSpan (s : Span) : List Span → List Span
  | [] => [s]
  | t :: spans =>
    if s.style = t.style then ⟨s.text ++ t.text, s.style⟩ :: spans else s :: t :: spans

variable {s : Span} {spans : List Span} {chars rest : List (Char × Style)}

/-! ### One more span -/

theorem length_joinSpan_le (s : Span) (spans : List Span) :
    (joinSpan s spans).length ≤ spans.length + 1 := by
  cases spans with
  | nil => exact Nat.le_refl _
  | cons t spans =>
    rw [joinSpan]
    split <;> simp

/-- A span stays on its own in front of spans of another style. -/
theorem joinSpan_of_apart (h : (s :: spans).IsChain fun a b => a.style ≠ b.style) :
    joinSpan s spans = s :: spans := by
  cases spans with
  | nil => rfl
  | cons t spans => exact if_neg (List.isChain_cons_cons.1 h).1

/-- Spans are still grouped with one more span that shows something. -/
theorem IsGrouped.joinSpan (h : IsGrouped spans) (hs : s.text ≠ "") :
    IsGrouped (joinSpan s spans) := by
  cases spans with
  | nil => exact ⟨by simpa [Screen.joinSpan] using hs, .singleton s⟩
  | cons t spans =>
    obtain ⟨filled, apart⟩ := h
    rw [List.forall_mem_cons] at filled
    rw [Screen.joinSpan]
    split
    next same =>
      refine ⟨List.forall_mem_cons.2 ⟨by simp [hs], filled.2⟩, ?_⟩
      rw [List.isChain_cons] at apart ⊢
      exact ⟨fun u hu => by rw [same]; exact apart.1 u hu, apart.2⟩
    next other =>
      exact ⟨List.forall_mem_cons.2 ⟨hs, List.forall_mem_cons.2 filled⟩,
        List.isChain_cons_cons.2 ⟨other, apart⟩⟩

/-- Two spans of one style join others as one. -/
theorem joinSpan_joinSpan (first second : String) (style : Style) (spans : List Span) :
    joinSpan ⟨first, style⟩ (joinSpan ⟨second, style⟩ spans) =
      joinSpan ⟨first ++ second, style⟩ spans := by
  cases spans with
  | nil => simp [joinSpan]
  | cons t spans => by_cases same : style = t.style <;> simp [joinSpan, same, String.append_assoc]

/-! ### Grouping -/

theorem regroup_cons (c : Char) (style : Style) (rest : List (Char × Style)) :
    regroup ((c, style) :: rest) = joinSpan ⟨String.ofList [c], style⟩ (regroup rest) := by
  rw [regroup, regroup, styleRuns]
  cases styleRuns rest with
  | nil => rfl
  | cons run runs =>
    obtain ⟨cs, t⟩ := run
    by_cases same : style = t <;> simp [joinSpan, same]

/-- The characters of a span that shows something join the others as a whole. -/
theorem regroup_chars_append (hs : s.text ≠ "") (rest : List (Char × Style)) :
    regroup (s.chars ++ rest) = joinSpan s (regroup rest) := by
  obtain ⟨text, style⟩ := s
  obtain ⟨cs, rfl⟩ : ∃ cs, String.ofList cs = text := ⟨text.toList, String.ofList_toList⟩
  have some : cs ≠ [] := by simpa using hs
  rw [Span.chars, String.toList_ofList]
  clear hs
  induction cs with
  | nil => exact absurd rfl some
  | cons c cs ih =>
    rw [List.map_cons, List.cons_append, regroup_cons]
    cases cs with
    | nil => rfl
    | cons d cs =>
      rw [ih (List.cons_ne_nil _ _), joinSpan_joinSpan, ← String.ofList_append,
        List.singleton_append]

/-- No character is lost, and none gets another style. -/
theorem flatMap_chars_regroup (chars : List (Char × Style)) :
    (regroup chars).flatMap Span.chars = chars := by
  have hruns := flatMap_styleRuns chars
  simpa only [regroup, List.flatMap_map, Span.chars, String.toList_ofList] using hruns

/-- **Characters are grouped.** -/
theorem isGrouped_regroup (chars : List (Char × Style)) : IsGrouped (regroup chars) := by
  induction chars with
  | nil => exact ⟨List.forall_mem_nil _, .nil⟩
  | cons x chars ih =>
    obtain ⟨c, style⟩ := x
    rw [regroup_cons]
    exact ih.joinSpan (by simp)

/-- **Grouped spans are found again** from their characters. -/
theorem IsGrouped.regroup_chars (h : IsGrouped spans) : regroup (spans.flatMap Span.chars) = spans := by
  induction spans with
  | nil => rfl
  | cons s spans ih =>
    obtain ⟨filled, apart⟩ := h
    rw [List.forall_mem_cons] at filled
    rw [List.flatMap_cons, regroup_chars_append filled.1, ih ⟨filled.2, apart.tail⟩,
      joinSpan_of_apart apart]

/-- **Other spans with the same characters are more.** -/
theorem regroup_chars_eq_or_lt (spans : List Span) :
    regroup (spans.flatMap Span.chars) = spans ∨
      (regroup (spans.flatMap Span.chars)).length < spans.length := by
  induction spans with
  | nil => exact .inl rfl
  | cons s spans ih =>
    rw [List.flatMap_cons, List.length_cons]
    have hrest : (regroup (spans.flatMap Span.chars)).length ≤ spans.length :=
      ih.elim (fun heq => (congrArg List.length heq).le) Nat.le_of_lt
    by_cases hs : s.text = ""
    · have none : s.chars = [] := by simp [Span.chars, hs]
      rw [none, List.nil_append]
      exact .inr (Nat.lt_succ_of_le hrest)
    · rw [regroup_chars_append hs]
      rcases ih with same | fewer
      · rw [same]
        cases spans with
        | nil => exact .inl rfl
        | cons t spans =>
          rw [joinSpan]
          split
          · exact .inr (Nat.lt_succ_self _)
          · exact .inl rfl
      · exact .inr (Nat.lt_of_le_of_lt (length_joinSpan_le _ _) (Nat.succ_lt_succ fewer))

/-- **Characters are put into spans by their styles, exactly.** With a style for each character, the spans
show the characters in their order, each in its own style; none of them is empty, and neighbours differ in
their style. No other line that shows the same is divided so, and every other one has more spans. -/
theorem restyling_groups_exactly (cs : List Char) (styles : List Style)
    (h : cs.length ≤ styles.length) :
    let l := restyle cs styles
    (l.chars.map Prod.fst = cs ∧ l.chars.map Prod.snd = styles.take cs.length) ∧
      (∀ s ∈ l.spans, s.text ≠ "") ∧ (l.spans.IsChain fun a b => a.style ≠ b.style) ∧
      ∀ l' : Line, l'.chars = l.chars →
        (IsGrouped l'.spans → l' = l) ∧ (l' = l ∨ l.spans.length < l'.spans.length) := by
  intro l
  have chars : l.chars = cs.zip styles := flatMap_chars_regroup _
  have grouped : IsGrouped l.spans := isGrouped_regroup _
  refine ⟨⟨?_, ?_⟩, grouped.filled, grouped.apart, fun l' same => ?_⟩
  · rw [chars, List.map_fst_zip h]
  · have htake : cs.zip styles = cs.zip (styles.take cs.length) := by
      rw [List.zip_eq_zip_take_min, Nat.min_eq_left h, List.take_length]
    rw [chars, htake, List.map_snd_zip (List.length_take_le _ _)]
  · -- The spans of the other line show the same characters, and these are grouped into the spans here.
    have spans : regroup (l'.spans.flatMap Span.chars) = l.spans := by
      change regroup l'.chars = l.spans
      rw [same, chars]
      rfl
    have line (heq : l.spans = l'.spans) : l' = l := congrArg Line.mk heq.symm
    refine ⟨fun grouped' => line ?_, ?_⟩
    · rw [← spans, grouped'.regroup_chars]
    · have fewer := regroup_chars_eq_or_lt l'.spans
      rw [spans] at fewer
      exact fewer.imp_left line

/-- Three characters of two styles make two spans, whatever style is left over. -/
theorem restyling_groups_three_characters :
    let styles : List Style := [.strong .plain, .strong .plain, .plain, .slanted .plain]
    ['a', 'b', 'c'].length ≤ styles.length ∧
      (restyle ['a', 'b', 'c'] styles).spans = [⟨"ab", .strong .plain⟩, ⟨"c", .plain⟩] := by
  intro styles
  have enough : ['a', 'b', 'c'].length ≤ styles.length := by decide
  obtain ⟨-, -, -, unique⟩ := restyling_groups_exactly ['a', 'b', 'c'] styles enough
  have same : Line.chars ⟨[⟨"ab", .strong .plain⟩, ⟨"c", .plain⟩]⟩ =
      (restyle ['a', 'b', 'c'] styles).chars := by decide
  have grouped : IsGrouped [⟨"ab", .strong .plain⟩, ⟨"c", .plain⟩] :=
    ⟨by decide, by decide⟩
  exact ⟨enough, congrArg Line.spans ((unique _ same).1 grouped).symm⟩

end PublisherConsole.Screen
