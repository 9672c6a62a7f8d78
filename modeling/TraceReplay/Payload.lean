import TraceReplay.Failure

/-! # Payloads

A payload is a trace in one of the formats: a list of events, an object that holds the list in a
field, or null for no events. For the clang format it may also be a syntax tree.
-/

namespace TraceReplay

def eventsField : String := "events"

def isSyntaxTree (payload : Json) : Bool :=
  match payload.field? "kind" with
  | some (.text kind) => kind = "TranslationUnitDecl"
  | _ => false

/-- The format of a payload: a list is in the wasm format if its first element has a tag of that
format, and all other traces are in the clang format. -/
def detect (payload : Json) : Except PayloadError Format :=
  match payload with
  | .list (x :: _) => .ok (if (x.field? Format.wasm.tagField).isSome then .wasm else .clang)
  | .list [] => .ok .clang
  | .object _ =>
    if isSyntaxTree payload then .ok .clang
    else
      match payload.field? eventsField with
      | some (.list _) => .ok .clang
      | _ => .error (.unrecognized payload.typeName)
  | _ => .error (.unrecognized payload.typeName)

/-- What a format makes of a payload. -/
inductive Trace where
  | syntaxTree
  | events (xs : List Json)
  deriving DecidableEq

def Format.trace (format : Format) (payload : Json) : Except PayloadError Trace :=
  if format = .clang && isSyntaxTree payload then .ok .syntaxTree
  else
    match payload with
    | .null => .ok (.events [])
    | .list xs => .ok (.events xs)
    | .object _ =>
      match payload.field? eventsField with
      | none => .ok (.events [])
      | some (.list xs) => .ok (.events xs)
      | some _ => .error (.eventsNotList format)
    | _ => .error (.notTrace format payload.typeName)

def countable (payload : Json) : Except PayloadError (List Json) :=
  let events :=
    match payload with
    | .object _ => (payload.field? eventsField).getD .null
    | _ => payload
  match events with
  | .null => .ok []
  | .list xs => .ok xs
  | _ => .error (.notCountable events.typeName)

end TraceReplay
