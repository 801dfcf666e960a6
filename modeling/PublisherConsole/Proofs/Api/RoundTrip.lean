import PublisherConsole.Api.RecordFormat
import PublisherConsole.Proofs.Json.Keeping
import PublisherConsole.Proofs.Json.Reading
import PublisherConsole.Proofs.Time.Calendar
import PublisherConsole.Proofs.Time.Timestamp

/-!
# Records survive their text

Reading leaves a choice of forms: members may be missing or stand in any order, a list may take the
place of an object, and a timestamp may have an offset, blanks, or digits behind the ninth. What has
been read is a record all the same, with an instant of the calendar (`Record.arises_of_ofText`), and
those are written in one form and read back from it. So the main statement, `text_round_trip`, goes
both ways.
-/

namespace PublisherConsole

open Json

/-! ### Written records are read back -/

theorem ApiKind.ofCode_code (k : ApiKind) : ApiKind.ofCode k.code = .ok k := by cases k <;> rfl

/-- A kind is read back from its written name. -/
theorem reads_kind {bs : List Char} (hb : Blanks bs) (k : ApiKind) :
    Reads ApiKind.read (bs ++ stringText k.code) k := by
  rw [stringText_eq]
  refine reads_onValue hb rfl ?_
  rw [← stringText_eq]
  intro rest p
  obtain ⟨q, hq⟩ := reads_readTextAs "variant identifier" blanks_nil
    (ApiKind.ofCode_code k) rest p
  rw [List.nil_append] at hq
  refine ⟨q, ?_⟩
  dsimp only
  rw [if_neg (by decide), if_pos rfl, hq]

/-- An instant is read back from its text. -/
theorem reads_instant {bs : List Char} (hb : Blanks bs) {t : Time.Instant} (h : t.isValid = true) :
    Reads Time.Instant.read (bs ++ stringText t.text) t := by
  refine reads_readTextAs _ hb ?_
  rw [Time.Instant.ofText_text h]

/-- A timestamp is read from a text. -/
theorem Time.Instant.arises_of_read {t : Time.Instant} {c c' : Cursor}
    (h : Time.Instant.read c = .ok (t, c')) : t.Arises := by
  obtain ⟨text, h⟩ := exists_of_readTextAs h
  split at h
  next t' ht =>
    cases h
    exact .read ht
  next => cases h

namespace Record

variable {r : Record} {text : String}

/-- The fields of a record that has been read as a whole. -/
def toFields (r : Record) : Fields :=
  ⟨some r.id, some r.name, some r.description, some r.overview, some r.kind, some r.lifecycle,
    some r.updatedAt⟩

theorem complete_toFields (r : Record) : r.toFields.complete = .ok r := rfl

/-- The fields take the members that are written for a record. -/
theorem takes_members (h : r.updatedAt.isValid = true) (depth : Nat) :
    Shape.Takes shape depth shape.blank
      [ ("id", .text r.id), ("name", .text r.name)
      , ("description", .optionalText r.description), ("overview", .optionalText r.overview)
      , ("api_type", .text r.kind.code), ("lifecycle_status", .text r.lifecycle)
      , ("updated_at", .text r.updatedAt.text) ]
      r.toFields := by
  have text : ∀ s, ReadsBefore readText (' ' :: (Value.text s).pretty depth) s :=
    fun s => (reads_readText blanks_space s).before
  have optional : ∀ o,
      ReadsBefore (readOptional readText) (' ' :: (Value.optionalText o).pretty depth) o :=
    fun o => (reads_readOptional blanks_space depth o).before
  obtain ⟨id, name, description, overview, kind, lifecycle, updatedAt⟩ := r
  refine .cons _ rfl rfl
    ((text id).put fun v => Fields.mk (some v) none none none none none none) ?_
  refine .cons _ rfl rfl
    ((text name).put fun v => Fields.mk _ (some v) none none none none none) ?_
  refine .cons _ rfl rfl
    ((optional description).put fun v => Fields.mk _ _ (some v) none none none none) ?_
  refine .cons _ rfl rfl
    ((optional overview).put fun v => Fields.mk _ _ _ (some v) none none none) ?_
  refine .cons _ rfl rfl
    ((reads_kind blanks_space kind).before.put fun v => Fields.mk _ _ _ _ (some v) none none) ?_
  refine .cons _ rfl rfl
    ((text lifecycle).put fun v => Fields.mk _ _ _ _ _ (some v) none) ?_
  exact .cons _ rfl rfl
    ((reads_instant blanks_space h).before.put fun v => Fields.mk _ _ _ _ _ _ (some v)) (.nil _)

/-- A record is read back from its text. -/
theorem ofText_toText (h : r.updatedAt.isValid = true) : Record.ofText r.toText = .ok r := by
  obtain ⟨q, hq⟩ := Shape.reads_object (s := shape) blanks_nil (takes_members h 1)
    (complete_toFields r) [] ⟨1, 0⟩
  simp only [List.nil_append, List.append_nil] at hq
  simp only [Record.ofText, Record.toText, readWhole, Cursor.start, Value.toText,
    String.toList_ofList, Record.toValue, hq, bind, Except.bind]
  rfl

/-! ### What has been read -/

/-- The time of a record, as soon as it has been read, is an instant that there is. -/
theorem keeps_arises : shape.Keeps fun f => ∀ t ∈ f.updatedAt, t.Arises := by
  intro field hfield f f' c c' hf h
  -- All fields but the time leave it alone.
  simp only [shape, fields, List.mem_cons, List.not_mem_nil, or_false] at hfield
  rcases hfield with rfl | rfl | rfl | rfl | rfl | rfl | rfl
  case inr.inr.inr.inr.inr.inr =>
    obtain ⟨⟨t, c₁⟩, ht, h⟩ := bind_eq_ok h
    cases h
    intro t' ht'
    obtain rfl : t = t' := by simpa using ht'
    exact Time.Instant.arises_of_read ht
  all_goals
    obtain ⟨⟨v, c₁⟩, -, h⟩ := bind_eq_ok h
    cases h
    exact hf

theorem updatedAt_of_complete {f : Fields} (h : f.complete = .ok r) :
    f.updatedAt = some r.updatedAt := by
  unfold Fields.complete at h
  split at h
  case h_4 ht =>
    cases h
    exact ht
  all_goals cases h

/-- **The time of a record that is read is an instant that there is.** -/
theorem arises_of_ofText (h : Record.ofText text = .ok r) : r.updatedAt.Arises := by
  obtain ⟨c', h⟩ := exists_of_readWhole h
  obtain ⟨f, hf, hcomplete⟩ := keeps_arises.exists_of_read (by simp [shape]) h
  exact hf r.updatedAt (updatedAt_of_complete hcomplete)

/-- **Records survive their text.** A record with any texts, and with any instant that can be read or
told by a clock, is read back from the text that is written for it, exactly as it was. So whatever
text a record was read from, writing it and reading it again gives the same record. -/
theorem text_round_trip :
    (∀ r : Record, r.updatedAt.Arises → Record.ofText r.toText = .ok r) ∧
      ∀ text r, Record.ofText text = .ok r → Record.ofText r.toText = .ok r := by
  have hback : ∀ r : Record, r.updatedAt.Arises → Record.ofText r.toText = .ok r :=
    fun r hr => ofText_toText (Time.Instant.arises_iff.1 hr)
  exact ⟨hback, fun text r h => hback r (arises_of_ofText h)⟩

/-- A record with characters that are escaped, an empty text, an absent one, and a leap second before
the first year, to the nanosecond. -/
def awkward : Record :=
  { id := "\"\\/", name := "\n\x01é😀", description := some "", overview := none, kind := .product
    lifecycle := "", updatedAt := ⟨⟨-5, 12, 31⟩, 23, 59, 60, 120000001⟩ }

set_option maxRecDepth 4000 in
/-- That record, and one that is read from a list with a lower-case letter, ten digits of a fraction
and an offset in its timestamp. -/
theorem text_round_trip_awkward :
    awkward.updatedAt.Arises ∧ Record.ofText awkward.toText = .ok awkward ∧
      ∃ r : Record, r.updatedAt = ⟨⟨10000, 1, 1⟩, 1, 4, 60, 500000000⟩ ∧
        Record.ofText
          "[\"a\", \"N\", null, \"x\", \"API\", \"\", \"+10000-1-1t00:59:60.5000000009-0005\"]" =
            .ok r ∧
        Record.ofText r.toText = .ok r := by
  have harises : awkward.updatedAt.Arises := Time.Instant.arises_iff.2 (by decide)
  have hread : Record.ofText
      "[\"a\", \"N\", null, \"x\", \"API\", \"\", \"+10000-1-1t00:59:60.5000000009-0005\"]" =
        .ok ⟨"a", "N", none, some "x", .api, "", ⟨⟨10000, 1, 1⟩, 1, 4, 60, 500000000⟩⟩ := rfl
  exact ⟨harises, text_round_trip.1 _ harises, _, rfl, hread, text_round_trip.2 _ _ hread⟩

end Record

end PublisherConsole
