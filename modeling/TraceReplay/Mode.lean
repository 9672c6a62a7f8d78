import TraceReplay.Payload
import TraceReplay.Report

/-! # Modes

A mode names the format of a payload or leaves it to be detected.
-/

namespace TraceReplay

inductive Mode where
  | auto
  | only (format : Format)
  deriving DecidableEq

def Mode.name : Mode → String
  | auto => "auto"
  | only format => format.name

def Mode.all : List Mode := [.only .clang, .only .wasm, .auto]

def Mode.ofJson (x : Json) : Except Failure Mode :=
  match x with
  | .text s =>
    match Mode.all.find? (·.name = s) with
    | some mode => .ok mode
    | none => .error (.badMode x)
  | _ => .error (.badMode x)

@[simp] theorem Mode.ofJson_name (mode : Mode) : Mode.ofJson (.text mode.name) = .ok mode := by
  cases mode with
  | auto => rfl
  | only format => cases format <;> rfl

/-- The format that a mode stands for, given the payload. -/
def Mode.format (mode : Mode) (payload : Json) : Except PayloadError Format :=
  match mode with
  | .only format => .ok format
  | .auto => detect payload

def Mode.choose (mode : Mode) (payload : Json) : Report Format := do
  let format ← .ofExcept ((mode.format payload).mapError .payload)
  if mode = .auto then .log (.detected format)
  pure format

end TraceReplay
