import TraceReplay.Interpret
import TraceReplay.Proofs.Replay.Effects

/-! # Requests

Before anything is replayed, the mode, the format, the locale and the trace of a request are
settled one after the other, and the first of them that cannot be settled is what the request fails
with. Once they are, only the replay can fail. Logs have no part in this.
-/

namespace TraceReplay

theorem bind_eq_ok {ε α β : Type} {x : Except ε α} {f : α → Except ε β} {b : β}
    (h : x >>= f = .ok b) : ∃ a, x = .ok a ∧ f a = .ok b := by
  cases x with
  | error e => cases h
  | ok a => exact ⟨a, rfl, h⟩

theorem mapError_eq_ok {ε ε' α : Type} {x : Except ε α} {f : ε → ε'} {a : α}
    (h : x.mapError f = .ok a) : x = .ok a := by
  cases x with
  | error e => cases h
  | ok a => exact congrArg Except.ok (Except.ok.inj h)

/-- What is to be replayed, and how. -/
structure Request where
  format : Format
  locale : Locale
  trace : Trace
  deriving DecidableEq

namespace Request

/-- The request for a payload in a mode and a locale that are given by name. -/
def ofNames (payload mode locale : Json) : Except Failure Request := do
  let mode ← Mode.ofJson mode
  let format ← (mode.format payload).mapError .payload
  let locale ← Locale.ofJson locale
  let trace ← (format.trace payload).mapError .payload
  return ⟨format, locale, trace⟩

def ofPayload (mode : Mode) (locale : Locale) (payload : Json) : Except PayloadError Request := do
  let format ← mode.format payload
  let trace ← format.trace payload
  return ⟨format, locale, trace⟩

def inLocale (locale : Locale) (q : Request) : Request := { q with locale }

def run (q : Request) : Run := q.trace.run q.format q.locale

def outcome (q : Request) : Except Failure (List Step) := q.run.outcome.mapError .noActiveFrame

/-- Of the names that a request is given by, those of a mode and of a locale are settled. -/
theorem ofNames_name (payload : Json) (mode : Mode) (locale : Locale) :
    ofNames payload (.text mode.name) (.text locale.code) =
      (ofPayload mode locale payload).mapError .payload := by
  unfold ofNames ofPayload
  rw [Mode.ofJson_name, Locale.ofJson_code]
  simp only [Except.bind, bind]
  cases mode.format payload with
  | error e => rfl
  | ok format =>
    simp only [Except.mapError]
    cases format.trace payload <;> rfl

/-- A request depends on its locale in nothing else. -/
theorem ofNames_code (payload mode : Json) (locale locale' : Locale) :
    ofNames payload mode (.text locale'.code) =
      (ofNames payload mode (.text locale.code)).map (inLocale locale') := by
  change _ = inLocale locale' <$> ofNames payload mode (.text locale.code)
  simp only [ofNames, Locale.ofJson_code, map_bind]
  rfl

theorem trace_of_ofNames {payload mode locale : Json} {q : Request}
    (h : ofNames payload mode locale = .ok q) : q.format.trace payload = .ok q.trace := by
  obtain ⟨mode, -, h⟩ := bind_eq_ok h
  obtain ⟨format, -, h⟩ := bind_eq_ok h
  obtain ⟨locale, -, h⟩ := bind_eq_ok h
  obtain ⟨trace, htrace, h⟩ := bind_eq_ok h
  cases h
  exact mapError_eq_ok htrace

end Request

theorem Mode.outcome_choose (mode : Mode) (payload : Json) :
    (mode.choose payload).outcome = (mode.format payload).mapError .payload := by
  unfold Mode.choose
  cases mode.format payload with
  | error e => rfl
  | ok format => by_cases hauto : mode = .auto <;> simp [hauto, Except.mapError, Except.bind]

theorem Format.outcome_interpret (format : Format) (locale : Locale) (payload : Json) :
    (format.interpret locale payload).outcome =
      ((format.trace payload).mapError .payload).bind fun trace =>
        Request.outcome ⟨format, locale, trace⟩ := by
  unfold Format.interpret
  rw [Report.outcome_bind, Report.outcome_ofExcept]
  congr 1
  funext trace
  rw [Report.outcome_bind]
  change (Request.outcome ⟨format, locale, trace⟩).bind _ = _
  cases Request.outcome ⟨format, locale, trace⟩ <;> rfl

/-- Interpreting a payload settles the request and replays it. -/
theorem outcome_interpret (payload mode locale : Json) :
    (interpret payload mode locale).outcome =
      (Request.ofNames payload mode locale).bind Request.outcome := by
  change _ = Request.ofNames payload mode locale >>= Request.outcome
  simp only [interpret, Report.outcome_bind, Report.outcome_ofExcept, Mode.outcome_choose,
    Format.outcome_interpret, Request.ofNames, bind_assoc, pure_bind]
  rfl

/-- The steps of a payload are those of a replay that is not stopped. -/
theorem interpret_eq_ok {payload mode locale : Json} {steps : List Step}
    (h : (interpret payload mode locale).outcome = .ok steps) :
    ∃ q, Request.ofNames payload mode locale = .ok q ∧ q.run.stopped = none ∧
      steps = q.run.steps := by
  rw [outcome_interpret] at h
  cases hq : Request.ofNames payload mode locale with
  | error e =>
    rw [hq] at h
    cases h
  | ok q =>
    rw [hq] at h
    exact ⟨q, rfl, Run.mapError_outcome_eq_ok_iff.1 h⟩

end TraceReplay
