import TraceReplay.Mode
import TraceReplay.Naming
import TraceReplay.Replay.Run

/-! # Interpreting a payload

A trace is replayed event by event. A syntax tree has nothing to replay and is answered by one step
that says so. The mode, the format, the locale and the payload are examined in this order.
-/

namespace TraceReplay

open TraceReplay.Wording

def mainFrameName : String := "main"

/-- The single step that answers a syntax tree. -/
def syntaxTreeRun (locale : Locale) : Run :=
  let m := Memory.initial.push mainFrameName
  let step := m.step [] (Phrase.ast.say locale fun _ => "")
  ⟨[step], m, none, [.syntaxTree]⟩

def Trace.run (format : Format) (locale : Locale) : Trace → Run
  | .syntaxTree => syntaxTreeRun locale
  | .events xs =>
    let run := format.replay locale xs
    { run with journal := .replaying xs.length format :: run.journal }

def Run.report (run : Run) : Report (List Step) :=
  ⟨run.journal, run.outcome.mapError .noActiveFrame⟩

def Format.interpret (format : Format) (locale : Locale) (payload : Json) : Report (List Step) := do
  let trace ← .ofExcept ((format.trace payload).mapError .payload)
  let steps ← (trace.run format locale).report
  .log (.produced steps.length format)
  pure steps

/-- The steps of a payload in a mode and a locale that are given by name. -/
def interpret (payload mode locale : Json) : Report (List Step) := do
  let mode ← .ofExcept (Mode.ofJson mode)
  let format ← mode.choose payload
  let locale ← .ofExcept (Locale.ofJson locale)
  format.interpret locale payload

def readJson (text : String) : Report Json := .ofExcept ((Json.parse text).mapError .notJson)

def interpretText (text : String) (mode locale : Json) : Report (List Step) := do
  interpret (← readJson text) mode locale

end TraceReplay
