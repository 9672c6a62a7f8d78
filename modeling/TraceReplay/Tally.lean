import TraceReplay.Json.Writer
import TraceReplay.Mode

/-! # Counting events

A tally counts the tags of events in the order in which they first occur. Elements without a tag
are counted together.
-/

namespace TraceReplay

abbrev Tally := List (String × Nat)

namespace Tally

def count (tag : String) : Tally → Tally
  | [] => [(tag, 1)]
  | (t, n) :: rest => if t = tag then (t, n + 1) :: rest else (t, n) :: count tag rest

def missingTag : String := "<missing>"

/-- The tally of events none of which has a tag. -/
def allMissing : Nat → Tally
  | 0 => []
  | n => [(missingTag, n)]

def tagOf (tagField : String) (x : Json) : String :=
  match x.field? tagField with
  | some (.text tag) => tag
  | _ => missingTag

def ofEvents (tagField : String) (xs : List Json) : Tally :=
  xs.foldl (fun tally x => tally.count (tagOf tagField x)) []

/-- Count by a field whose name is given as a JSON value. Only texts name fields, and a list or an
object is no name, which fails as soon as an object is asked for its field. -/
def ofNamedField (name : Json) (xs : List Json) : Except Failure Tally :=
  match name with
  | .text name => .ok (ofEvents name xs)
  | .list _ | .object _ =>
    if xs.any Json.isObject then .error (.noName name.typeName) else .ok (allMissing xs.length)
  | _ => .ok (allMissing xs.length)

def toJson (tally : Tally) : Json := .object (tally.map fun (tag, n) => (tag, .int n))

def dump (indent : Option Int) (tally : Tally) : String := Json.print ⟨indent, true⟩ tally.toJson

end Tally

/-- How often each tag occurs in a payload; a syntax tree has no events. -/
def Mode.stats (mode : Mode) (payload : Json) : Report Tally := do
  let format ← .ofExcept ((mode.format payload).mapError .payload)
  if isSyntaxTree payload then pure []
  else
    let xs ← .ofExcept ((countable payload).mapError .payload)
    .log (.counting format xs.length)
    pure (Tally.ofEvents format.tagField xs)

def eventStats (payload mode : Json) : Report Tally := do
  let mode ← .ofExcept (Mode.ofJson mode)
  mode.stats payload

end TraceReplay
