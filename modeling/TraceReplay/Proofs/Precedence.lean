import TraceReplay.Proofs.GuardedRequests
import TraceReplay.Proofs.Payload

/-! # The order of the checks

A payload is interpreted in a mode and a locale that are given by name. The name of the mode, the
shape of the payload if its format is left open, the name of the locale, and the trace in the
format are checked in this order, and the first check that fails decides the outcome. Each of them
looks at the names and at the outline of the payload only. A format that is found in a payload
always finds its trace there, so that the last check is for the modes of a format. Behind the
checks only a declaration without a frame can fail.
-/

namespace TraceReplay

def modeNames : List Json := [.text "clang", .text "wasm", .text "auto"]

def localeCodes : List String := ["en", "bn"]

def Json.isList : Json → Bool
  | .list _ => true
  | _ => false

/-- A payload that can be told to be a trace: a list, a syntax tree, or an object with a list for
its events. -/
def looksLikeTrace (payload : Json) : Bool :=
  payload.isList || isSyntaxTree payload || (payload.field? "events").any Json.isList

def startsWithKind : Json → Bool
  | .list (x :: _) => (x.field? "kind").isSome
  | _ => false

/-- The format that a mode names, or else the one that can be told from the payload. -/
def formatOf (mode payload : Json) : Format :=
  if mode = .text "wasm" ∨ mode = .text "auto" ∧ startsWithKind payload = true then .wasm
  else .clang

/-- A syntax tree in the format that knows them. -/
def isTreeIn (format : Format) (payload : Json) : Bool := format = .clang && isSyntaxTree payload

/-- A payload without a trace in a format: a value other than null, a list and an object, or an
object with events that are no list. -/
def lacksTrace (format : Format) (payload : Json) : Bool :=
  !isTreeIn format payload &&
    (payload.isScalar || (payload.field? "events").any fun events => !events.isList)

theorem Mode.ofJson_of_not_mem {x : Json} (h : x ∉ modeNames) :
    Mode.ofJson x = .error (.badMode x) := by
  cases x with
  | text s =>
    have hname : all.find? (·.name = s) = none := by
      simp only [modeNames, List.mem_cons, Json.text.injEq, List.not_mem_nil, or_false,
        not_or] at h
      simp [all, name, Format.name, eq_comm, h]
    simp only [ofJson, hname]
  | _ => rfl

theorem Mode.exists_name_of_mem {x : Json} (h : x ∈ modeNames) :
    ∃ mode : Mode, x = .text mode.name := by
  simp only [modeNames, List.mem_cons, List.not_mem_nil, or_false] at h
  rcases h with rfl | rfl | rfl
  · exact ⟨.only .clang, rfl⟩
  · exact ⟨.only .wasm, rfl⟩
  · exact ⟨.auto, rfl⟩

theorem Mode.name_eq_auto {mode : Mode} : Json.text mode.name = .text "auto" ↔ mode = .auto := by
  cases mode with
  | auto => simp [name]
  | only format => cases format <;> simp [name, Format.name]

theorem Locale.ofJson_of_not_mem {code : String} (h : code ∉ localeCodes) :
    Locale.ofJson (.text code) = .error (.unknownLocale (.text code)) := by
  have hcode : all.find? (·.code = code) = none := by
    simp only [localeCodes, List.mem_cons, List.not_mem_nil, or_false, not_or] at h
    simp [all, Locale.code, eq_comm, h]
  simp only [ofJson, Json.named, hcode]
  rfl

theorem Locale.exists_code_of_mem {code : String} (h : code ∈ localeCodes) :
    ∃ locale : Locale, code = locale.code := by
  simp only [localeCodes, List.mem_cons, List.not_mem_nil, or_false] at h
  rcases h with rfl | rfl
  · exact ⟨.en, rfl⟩
  · exact ⟨.bn, rfl⟩

theorem detect_eq (payload : Json) :
    detect payload =
      if looksLikeTrace payload then .ok (formatOf (.text "auto") payload)
      else .error (.unrecognized payload.typeName) := by
  cases payload with
  | list xs =>
    cases xs with
    | nil => rfl
    | cons x rest =>
      cases hkind : (x.field? "kind").isSome <;>
        simp [detect, looksLikeTrace, Json.isList, formatOf, startsWithKind, Format.tagField, hkind]
  | object fields =>
    simp only [detect, looksLikeTrace, Json.isList, formatOf, startsWithKind, eventsField]
    by_cases htree : isSyntaxTree (.object fields) = true
    · simp [htree]
    · cases hevents : (Json.object fields).field? "events" with
      | none => simp [htree]
      | some events => cases events <;> simp [htree, Json.isList]
  | _ => rfl

/-- A mode stands for the format that it names or that is told from the payload; only the latter
can fail. -/
theorem Mode.format_eq (mode : Mode) (payload : Json) :
    mode.format payload =
      if mode = .auto ∧ looksLikeTrace payload = false then
        .error (.unrecognized payload.typeName)
      else .ok (formatOf (.text mode.name) payload) := by
  cases mode with
  | auto =>
    change detect payload = _
    rw [detect_eq]
    cases looksLikeTrace payload <;> rfl
  | only format => cases format <;> simp [Mode.format, formatOf, Mode.name, Format.name]

theorem eventsNotList_iff {payload : Json} :
    EventsNotList payload ↔
      ((payload.field? "events").any fun events => !events.isList) = true := by
  unfold EventsNotList eventsField
  cases payload.field? "events" with
  | none => simp
  | some events => cases events <;> simp [Json.isList]

theorem lacksTrace_iff {format : Format} {payload : Json} :
    lacksTrace format payload = true ↔ ∃ e, format.trace payload = .error e := by
  have htree : (!isTreeIn format payload) = true ↔
      ¬ (format = .clang ∧ isSyntaxTree payload = true) := by
    cases format <;> simp [isTreeIn]
  rw [lacksTrace, Bool.and_eq_true, Bool.or_eq_true, htree, Format.trace_eq_error_iff,
    eventsNotList_iff]

theorem Format.trace_of_isTreeIn {format : Format} {payload : Json}
    (h : isTreeIn format payload = true) : format.trace payload = .ok .syntaxTree := if_pos h

/-- Null and an object without the field of events have no events, unless they are a tree. -/
theorem Format.trace_of_eventless {format : Format} {payload : Json}
    (htree : isTreeIn format payload = false)
    (h : payload = .null ∨ payload.isObject = true ∧ payload.field? "events" = none) :
    format.trace payload = .ok (.events []) := by
  have hno : (decide (format = .clang) && isSyntaxTree payload) = false := htree
  rcases h with rfl | ⟨hobject, hevents⟩
  · simp [Format.trace, hno]
  · cases payload with
    | object fields => simp [Format.trace, hno, eventsField, hevents]
    | _ => cases hobject

theorem outcome_interpret_of_not_mem {mode : Json} (h : mode ∉ modeNames)
    (payload locale : Json) :
    (interpret payload mode locale).outcome = .error (.badMode mode) := by
  rw [outcome_interpret, Request.ofNames, Mode.ofJson_of_not_mem h]
  rfl

theorem outcome_interpret_of_format_error {mode : Mode} {payload : Json} {e : PayloadError}
    (h : mode.format payload = .error e) (locale : Json) :
    (interpret payload (.text mode.name) locale).outcome = .error (.payload e) := by
  rw [outcome_interpret, Request.ofNames, Mode.ofJson_name]
  simp only [Except.bind, bind, h]
  rfl

/-- Once the format is settled, the locale comes before the trace. -/
theorem outcome_interpret_of_format {mode : Mode} {payload : Json} {format : Format}
    (h : mode.format payload = .ok format) (locale : Json) :
    (interpret payload (.text mode.name) locale).outcome =
      (Locale.ofJson locale).bind fun locale => (format.interpret locale payload).outcome := by
  rw [outcome_interpret, Request.ofNames, Mode.ofJson_name]
  simp only [Except.bind, bind, h, Format.outcome_interpret]
  cases Locale.ofJson locale with
  | error e => rfl
  | ok locale =>
    simp only [Except.mapError]
    cases format.trace payload <;> rfl

namespace Format

variable {format : Format} {locale : Locale} {payload : Json}

theorem interpret_of_lacksTrace (h : lacksTrace format payload = true) :
    (format.interpret locale payload).FailsWith unrecognizedPayload := by
  obtain ⟨e, he⟩ := lacksTrace_iff.1 h
  refine ⟨.payload e, ?_, rfl⟩
  rw [outcome_interpret, he]
  rfl

/-- With a trace at hand, only a declaration without a frame can fail. -/
theorem interpret_of_trace (h : lacksTrace format payload = false) :
    (format.interpret locale payload).FailsWith "NoActiveFrameError" ∨
      ∃ steps, (format.interpret locale payload).outcome = .ok steps := by
  cases htrace : format.trace payload with
  | error e =>
    rw [lacksTrace_iff.2 ⟨e, htrace⟩] at h
    cases h
  | ok trace =>
    have houtcome : (format.interpret locale payload).outcome =
        (trace.run format locale).outcome.mapError .noActiveFrame := by
      rw [outcome_interpret, htrace]
      rfl
    rw [Report.FailsWith, houtcome]
    cases (trace.run format locale).outcome with
    | error e => exact .inl ⟨_, rfl, rfl⟩
    | ok steps => exact .inr ⟨steps, rfl⟩

theorem interpret_of_isTreeIn (h : isTreeIn format payload = true) :
    ∃ step, (format.interpret locale payload).outcome = .ok [step] := by
  rw [outcome_interpret, trace_of_isTreeIn h]
  exact ⟨_, rfl⟩

theorem interpret_of_eventless (htree : isTreeIn format payload = false)
    (h : payload = .null ∨ payload.isObject = true ∧ payload.field? "events" = none) :
    (format.interpret locale payload).outcome = .ok [] := by
  rw [outcome_interpret, trace_of_eventless htree h]
  rfl

end Format

/-- The outcome of interpreting a payload is that of the first check that fails: the mode is named,
the format is named or can be told from the payload, the locale is named, and the payload has a
trace in the format, which is never in doubt if the format is told from it. Behind the checks the
mode of the format has the same outcome, which is a list of steps or the failure of a declaration;
there is one step for a syntax tree, and none for a payload without events. The outcome is that of
the guarded request, so nothing else can be the matter. -/
theorem interpret_precedence (payload mode : Json) (locale : String) :
    let result := interpret payload mode (.text locale)
    let format := formatOf mode payload
    interpret? payload mode (.text locale) = result.outcome.mapError .failure ∧
    if mode ∉ modeNames then result.FailsWith "ValueError"
    else if mode = .text "auto" ∧ looksLikeTrace payload = false then
      result.FailsWith unrecognizedPayload
    else
      result.outcome = (interpret payload (.text format.name) (.text locale)).outcome ∧
      if locale ∉ localeCodes then result.FailsWith "ValueError"
      else if lacksTrace format payload = true then
        result.FailsWith unrecognizedPayload ∧ mode ≠ .text "auto"
      else
        (result.FailsWith "NoActiveFrameError" ∨ ∃ steps, result.outcome = .ok steps) ∧
        (isTreeIn format payload = true → ∃ step, result.outcome = .ok [step]) ∧
        (isTreeIn format payload = false →
          (payload = .null ∨ payload.isObject = true ∧ payload.field? "events" = none) →
          result.outcome = .ok []) := by
  intro result format
  refine ⟨interpret?_eq payload mode _, ?_⟩
  by_cases hmode : mode ∉ modeNames
  · rw [if_pos hmode]
    exact ⟨_, outcome_interpret_of_not_mem hmode payload _, rfl⟩
  rw [if_neg hmode]
  obtain ⟨m, rfl⟩ := Mode.exists_name_of_mem (Decidable.not_not.1 hmode)
  simp only [ne_eq, Mode.name_eq_auto]
  have hformat := m.format_eq payload
  by_cases hlooks : m = .auto ∧ looksLikeTrace payload = false
  · rw [if_pos hlooks] at hformat ⊢
    exact ⟨_, outcome_interpret_of_format_error hformat _, rfl⟩
  rw [if_neg hlooks] at hformat ⊢
  have houtcome := outcome_interpret_of_format hformat (.text locale)
  have hnamed : (Mode.only format).format payload = .ok format := rfl
  refine ⟨houtcome.trans (outcome_interpret_of_format hnamed _).symm, ?_⟩
  by_cases hlocale : locale ∉ localeCodes
  · rw [if_pos hlocale]
    rw [Locale.ofJson_of_not_mem hlocale] at houtcome
    exact ⟨_, houtcome, rfl⟩
  rw [if_neg hlocale]
  obtain ⟨l, rfl⟩ := Locale.exists_code_of_mem (Decidable.not_not.1 hlocale)
  rw [Locale.ofJson_code] at houtcome
  -- From here on the outcome is that of the format.
  change result.outcome = (format.interpret l payload).outcome at houtcome
  simp only [Report.FailsWith, houtcome]
  by_cases htrace : lacksTrace format payload = true
  · rw [if_pos htrace]
    refine ⟨Format.interpret_of_lacksTrace htrace, ?_⟩
    rintro rfl
    exact (not_refused_of_detect hformat).1 (lacksTrace_iff.1 htrace)
  · rw [if_neg htrace]
    exact ⟨Format.interpret_of_trace (Bool.eq_false_iff.2 htrace), Format.interpret_of_isTreeIn,
      Format.interpret_of_eventless⟩

/-- The same payload, with fewer and fewer other things the matter, and a syntax tree. -/
theorem interpret_precedence_strayEvents :
    (interpret strayEvents (.text "llvm") (.text "fr")).FailsWith "ValueError" ∧
      (interpret strayEvents (.text "auto") (.text "fr")).FailsWith unrecognizedPayload ∧
      (interpret strayEvents (.text "wasm") (.text "fr")).FailsWith "ValueError" ∧
      (interpret strayEvents (.text "wasm") (.text "bn")).FailsWith unrecognizedPayload ∧
      ∃ step, (interpret strayTree (.text "auto") (.text "bn")).outcome = .ok [step] := by
  obtain ⟨-, hmode⟩ := interpret_precedence strayEvents (.text "llvm") "fr"
  obtain ⟨-, hformat⟩ := interpret_precedence strayEvents (.text "auto") "fr"
  obtain ⟨-, hlocale⟩ := interpret_precedence strayEvents (.text "wasm") "fr"
  obtain ⟨-, htrace⟩ := interpret_precedence strayEvents (.text "wasm") "bn"
  obtain ⟨-, htree⟩ := interpret_precedence strayTree (.text "auto") "bn"
  rw [if_pos (by decide)] at hmode
  rw [if_neg (by decide), if_pos (by decide)] at hformat
  rw [if_neg (by decide), if_neg (by decide), if_pos (by decide)] at hlocale
  rw [if_neg (by decide), if_neg (by decide), if_neg (by decide), if_pos (by decide)] at htrace
  rw [if_neg (by decide), if_neg (by decide), if_neg (by decide), if_neg (by decide)] at htree
  exact ⟨hmode, hformat, hlocale.2, htrace.2.1, htree.2.2.1 (by decide)⟩

end TraceReplay
