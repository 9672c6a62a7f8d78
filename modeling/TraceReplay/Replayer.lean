import TraceReplay.Interpret

/-! # Replayers

A replayer replays one payload after the other, each from the initial memory, and keeps the memory
that the last one has left.
-/

namespace TraceReplay

/-- A format and a locale, with the memory that the last payload has left. -/
structure Replayer where
  format : Format
  locale : Locale
  memory : Memory
  deriving DecidableEq

namespace Replayer

def ofNames (mode locale : Json) : Except Failure Replayer := do
  match ← Mode.ofJson mode with
  | .auto => .error .modeWithoutFormat
  | .only format => return ⟨format, ← Locale.ofJson locale, .initial⟩

/-- Replay a payload from the initial memory. The memory of a replay that fails is kept as the
failure has found it. -/
def replay (r : Replayer) (payload : Json) : Except Failure (List Step) × Replayer :=
  match r.format.trace payload with
  | .error e => (.error (.payload e), { r with memory := .initial })
  | .ok trace =>
    let run := trace.run r.format r.locale
    (run.outcome.mapError .noActiveFrame, { r with memory := run.memory })

end Replayer

end TraceReplay
