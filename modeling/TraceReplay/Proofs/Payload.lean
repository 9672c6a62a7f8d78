import TraceReplay.Proofs.Interpret
import TraceReplay.Tally

/-! # Payloads that are no traces

Counting the events of a payload and replaying it examine the payload apart from each other. What
each of them refuses is told by the shape of the payload alone, and they refuse the same payloads,
except that a syntax tree has nothing to count in any mode, while the mode of a format without
syntax trees looks for its events. Objects with null for their events are left aside in the modes
that name a format.
-/

namespace TraceReplay

def Json.isScalar : Json → Bool
  | .bool _ | .int _ | .real _ | .text _ => true
  | _ => false

/-- A payload with the field of events, in which there is no list. -/
def EventsNotList (payload : Json) : Prop :=
  ∃ events, payload.field? eventsField = some events ∧ ∀ xs, events ≠ .list xs

theorem Format.trace_eq_error_iff {format : Format} {payload : Json} :
    (∃ e, format.trace payload = .error e) ↔
      ¬ (format = .clang ∧ isSyntaxTree payload = true) ∧
        (payload.isScalar = true ∨ EventsNotList payload) := by
  by_cases htree : format = .clang ∧ isSyntaxTree payload = true
  · simp [Format.trace, htree]
  · have hno : (decide (format = .clang) && isSyntaxTree payload) = false := by simpa using htree
    simp only [htree, not_false_iff, true_and, Format.trace, hno]
    cases payload with
    | object fields =>
      cases hevents : (Json.object fields).field? eventsField with
      | none => simp [EventsNotList, Json.isScalar, hevents]
      | some events => cases events <;> simp [EventsNotList, Json.isScalar, hevents]
    | _ => simp [EventsNotList, Json.isScalar, Json.field?]

theorem countable_eq_error_iff {payload : Json} :
    (∃ e, countable payload = .error e) ↔
      payload.isScalar = true ∨
        EventsNotList payload ∧ payload.field? eventsField ≠ some .null := by
  cases payload with
  | object fields =>
    cases hevents : (Json.object fields).field? eventsField with
    | none => simp [countable, EventsNotList, Json.isScalar, hevents]
    | some events => cases events <;> simp [countable, EventsNotList, Json.isScalar, hevents]
  | _ => simp [countable, EventsNotList, Json.isScalar, Json.field?]

theorem detect_eq_ok {payload : Json} {format : Format} (h : detect payload = .ok format) :
    (∃ xs, payload = .list xs) ∨
      format = .clang ∧
        (isSyntaxTree payload = true ∨ ∃ xs, payload.field? eventsField = some (.list xs)) := by
  cases payload with
  | list xs => exact .inl ⟨xs, rfl⟩
  | object fields =>
    right
    by_cases htree : isSyntaxTree (.object fields) = true
    · simp only [detect, htree, if_true, Except.ok.injEq] at h
      exact ⟨h.symm, .inl htree⟩
    · simp only [detect, htree] at h
      cases hevents : (Json.object fields).field? eventsField with
      | none => simp [hevents] at h
      | some events =>
        cases events with
        | list xs =>
          simp only [hevents, Bool.false_eq_true, if_false, Except.ok.injEq] at h
          exact ⟨h.symm, .inr ⟨xs, rfl⟩⟩
        | _ => simp [hevents] at h
  | _ => cases h

/-- A payload whose format is detected is refused neither by the replay in that format nor by the
count, unless it is a syntax tree. -/
theorem not_refused_of_detect {payload : Json} {format : Format}
    (h : detect payload = .ok format) :
    (¬ ∃ e, format.trace payload = .error e) ∧
      (isSyntaxTree payload = false → ¬ ∃ e, countable payload = .error e) := by
  rw [Format.trace_eq_error_iff, countable_eq_error_iff]
  have hevents {xs : List Json} (hfield : payload.field? eventsField = some (.list xs)) :
      payload.isScalar = false ∧ ¬ EventsNotList payload := by
    refine ⟨?_, ?_⟩
    · cases payload with
      | object fields => rfl
      | _ => cases hfield
    · rintro ⟨events, hsome, hno⟩
      exact hno xs (Option.some.inj (hsome.symm.trans hfield))
  rcases detect_eq_ok h with ⟨xs, rfl⟩ | ⟨rfl, htree | ⟨xs, hfield⟩⟩
  · simp [Json.isScalar, EventsNotList, Json.field?]
  · simp [htree]
  · simp [hevents hfield]

def unrecognizedPayload : String := "UnrecognizedPayloadError"

theorem Failure.name_eq_unrecognizedPayload {e : Failure} :
    e.name = unrecognizedPayload ↔ ∃ refusal, e = .payload refusal := by
  constructor
  · intro h
    cases e with
    | payload refusal => exact ⟨refusal, rfl⟩
    | codec error => cases error <;> simp [name, unrecognizedPayload] at h
    | file error => cases error <;> simp [name, unrecognizedPayload] at h
    | _ => simp [name, unrecognizedPayload] at h
  · rintro ⟨refusal, rfl⟩
    rfl

namespace Report

variable {α : Type}

/-- Whether a computation fails with a failure of the class. -/
def FailsWith (r : Report α) (name : String) : Prop := ∃ e, r.outcome = .error e ∧ e.name = name

theorem failsWith_unrecognizedPayload_iff {r : Report α} :
    r.FailsWith unrecognizedPayload ↔ ∃ refusal, r.outcome = .error (.payload refusal) := by
  unfold FailsWith
  simp only [Failure.name_eq_unrecognizedPayload]
  constructor
  · rintro ⟨-, he, refusal, rfl⟩
    exact ⟨refusal, he⟩
  · rintro ⟨refusal, he⟩
    exact ⟨_, he, refusal, rfl⟩

instance (r : Report α) (name : String) : Decidable (r.FailsWith name) :=
  match h : r.outcome with
  | .error e => decidable_of_iff (e.name = name) (by simp [FailsWith, h])
  | .ok a => isFalse (by simp [FailsWith, h])

end Report

/-- A replay refuses a payload if it finds no format, or no trace in the format. -/
theorem interpret_failsWith_iff {payload : Json} {mode : Mode} {locale : Locale} :
    (interpret payload (.text mode.name) (.text locale.code)).FailsWith unrecognizedPayload ↔
      (∃ e, mode.format payload = .error e) ∨
        ∃ format, mode.format payload = .ok format ∧ ∃ e, format.trace payload = .error e := by
  rw [Report.failsWith_unrecognizedPayload_iff, outcome_interpret, Request.ofNames_name]
  unfold Request.ofPayload
  cases mode.format payload with
  | error e => simp [Except.mapError, Except.bind, bind]
  | ok format =>
    cases htrace : format.trace payload with
    | error e => simp [Except.mapError, Except.bind, bind, htrace]
    | ok trace =>
      -- Once there is a request, only its replay can fail, and never because of the payload.
      have hreplay : ∀ refusal, Request.outcome ⟨format, locale, trace⟩ ≠
          .error (.payload refusal) := by
        intro refusal
        unfold Request.outcome
        cases (Request.run ⟨format, locale, trace⟩).outcome <;> simp [Except.mapError]
      simpa [Except.mapError, Except.bind, bind, htrace, pure, Except.pure] using hreplay

theorem outcome_eventStats (payload : Json) (mode : Mode) :
    (eventStats payload (.text mode.name)).outcome =
      ((mode.format payload).bind fun format =>
        if isSyntaxTree payload then .ok []
        else (countable payload).map (Tally.ofEvents format.tagField)).mapError .payload := by
  have hmode : (eventStats payload (.text mode.name)).outcome = (mode.stats payload).outcome := by
    simp [eventStats, Except.bind]
  rw [hmode, Mode.stats, Report.outcome_bind, Report.outcome_ofExcept]
  cases mode.format payload with
  | error e => rfl
  | ok format =>
    by_cases htree : isSyntaxTree payload = true
    · simp [htree, Except.mapError, Except.bind]
    · cases countable payload <;> simp [htree, Except.mapError, Except.bind, Except.map]

/-- A count refuses a payload if it finds no format, or no events in what is no syntax tree. -/
theorem eventStats_failsWith_iff {payload : Json} {mode : Mode} :
    (eventStats payload (.text mode.name)).FailsWith unrecognizedPayload ↔
      (∃ e, mode.format payload = .error e) ∨
        (∃ format, mode.format payload = .ok format) ∧ isSyntaxTree payload = false ∧
          ∃ e, countable payload = .error e := by
  rw [Report.failsWith_unrecognizedPayload_iff, outcome_eventStats]
  cases mode.format payload with
  | error e => simp [Except.mapError, Except.bind]
  | ok format =>
    by_cases htree : isSyntaxTree payload = true
    · simp [htree, Except.mapError, Except.bind]
    · cases countable payload <;> simp [htree, Except.mapError, Except.bind, Except.map]

theorem exists_format_of_isSyntaxTree {payload : Json} (h : isSyntaxTree payload = true)
    (mode : Mode) : ∃ format, mode.format payload = .ok format := by
  cases mode with
  | only format => exact ⟨format, rfl⟩
  | auto =>
    cases payload with
    | object fields => exact ⟨.clang, if_pos h⟩
    | _ => cases h

/-- If the format is detected, the count and the replay refuse what is in none. -/
theorem refuses_iff_of_auto (payload : Json) (locale : Locale) :
    (eventStats payload (.text Mode.auto.name)).FailsWith unrecognizedPayload ↔
      (interpret payload (.text Mode.auto.name) (.text locale.code)).FailsWith
        unrecognizedPayload := by
  rw [eventStats_failsWith_iff, interpret_failsWith_iff]
  apply or_congr_right
  cases hdetect : Mode.auto.format payload with
  | error e => simp
  | ok format =>
    obtain ⟨htrace, hcount⟩ := not_refused_of_detect hdetect
    constructor
    · rintro ⟨-, htree, herror⟩
      exact absurd herror (hcount htree)
    · rintro ⟨_, ⟨⟩, herror⟩
      exact absurd herror htrace

/-- If the format is given, the count and the replay refuse the same payloads, but for the syntax
trees that the format does not know and for objects with null for their events. -/
theorem refuses_iff_of_only {payload : Json} {format : Format} (locale : Locale)
    (htree : isSyntaxTree payload = true → format = .clang)
    (hnull : isSyntaxTree payload = false → payload.field? eventsField ≠ some .null) :
    (eventStats payload (.text (Mode.only format).name)).FailsWith unrecognizedPayload ↔
      (interpret payload (.text (Mode.only format).name) (.text locale.code)).FailsWith
        unrecognizedPayload := by
  have hformat : (Mode.only format).format payload = .ok format := rfl
  rw [eventStats_failsWith_iff, interpret_failsWith_iff, hformat, countable_eq_error_iff]
  simp only [Except.ok.injEq, exists_eq_left', Format.trace_eq_error_iff]
  by_cases h : isSyntaxTree payload = true
  · simp [h, htree h]
  · simp [h, hnull (Bool.eq_false_iff.2 h)]

/-- The count and the replay of a payload in a mode refuse the same payloads, leaving aside syntax
trees in the mode of the format that does not know them, and objects with null for their events in
the mode of a format. Of a syntax tree the count is empty in any mode, while the replay that does
not know it refuses it if it has events that are no list. -/
theorem eventStats_refuses_iff (payload : Json) (mode : Mode) (locale : Locale) :
    let count := eventStats payload (.text mode.name)
    let replay := interpret payload (.text mode.name) (.text locale.code)
    (¬ (mode = .only .wasm ∧ isSyntaxTree payload = true) →
        ¬ (mode ≠ .auto ∧ isSyntaxTree payload = false ∧
          payload.field? eventsField = some .null) →
        (count.FailsWith unrecognizedPayload ↔ replay.FailsWith unrecognizedPayload)) ∧
      (isSyntaxTree payload = true → count.outcome = .ok []) ∧
      (mode = .only .wasm → isSyntaxTree payload = true →
        (replay.FailsWith unrecognizedPayload ↔ EventsNotList payload)) := by
  intro count replay
  refine ⟨?_, ?_, ?_⟩
  · intro htree hnull
    cases mode with
    | auto => exact refuses_iff_of_auto payload locale
    | only format =>
      apply refuses_iff_of_only
      · intro h
        cases format with
        | clang => rfl
        | wasm => exact absurd ⟨rfl, h⟩ htree
      · intro h hevents
        exact hnull ⟨nofun, h, hevents⟩
  · intro h
    obtain ⟨format, hformat⟩ := exists_format_of_isSyntaxTree h mode
    rw [outcome_eventStats, hformat]
    simp [h, Except.bind, Except.mapError]
  · rintro rfl h
    have hscalar : payload.isScalar = false := by
      cases payload with
      | object fields => rfl
      | _ => cases h
    have hformat : (Mode.only .wasm).format payload = .ok .wasm := rfl
    rw [interpret_failsWith_iff, hformat]
    simp [Format.trace_eq_error_iff, hscalar]

/-- A syntax tree with a number for its events. -/
def strayTree : Json :=
  .object [("kind", .text "TranslationUnitDecl"), (eventsField, .int 5)]

def strayEvents : Json := .object [(eventsField, .int 5)]

theorem eventStats_refuses_iff_strayEvents :
    (eventStats strayEvents (.text "wasm")).FailsWith unrecognizedPayload ∧
      (interpret strayEvents (.text "wasm") (.text "bn")).FailsWith unrecognizedPayload ∧
      (eventStats strayTree (.text "wasm")).outcome = .ok [] ∧
      (interpret strayTree (.text "wasm") (.text "en")).FailsWith unrecognizedPayload := by
  obtain ⟨hsame, -, -⟩ := eventStats_refuses_iff strayEvents (.only .wasm) .bn
  obtain ⟨-, hempty, htree⟩ := eventStats_refuses_iff strayTree (.only .wasm) .en
  have hmarked : isSyntaxTree strayTree = true := by decide
  have hcount : (eventStats strayEvents (.text "wasm")).FailsWith unrecognizedPayload := by
    decide +kernel
  refine ⟨hcount, (hsame ?_ ?_).1 hcount, hempty hmarked, (htree rfl hmarked).2 ?_⟩
  · decide
  · decide
  · exact ⟨.int 5, rfl, nofun⟩

/-- In the mode of the format that does not know syntax trees, the two do not refuse the same. -/
theorem eventStats_differs_strayTree :
    ¬ ((eventStats strayTree (.text "wasm")).FailsWith unrecognizedPayload ↔
      (interpret strayTree (.text "wasm") (.text "en")).FailsWith unrecognizedPayload) := by
  decide +kernel

end TraceReplay
