import TraceReplay.Datum
import TraceReplay.Naming

/-! # Descriptions by named arguments

A caller can ask for a description by the key of its phrase and pass the arguments by name, any data
among them. The receiver of the call and the key have names too, which no argument may have.
-/

namespace TraceReplay.Wording

abbrev Arguments := List (String × Datum)

namespace Arguments

/-- The names of the receiver and of the key. -/
def taken : List String := ["self", "key"]

def clash? (arguments : Arguments) : Option String :=
  (arguments.map Prod.fst).find? (· ∈ taken)

def text? (arguments : Arguments) (name : String) : Option String :=
  (arguments.lookup name).map Datum.display

end Arguments

inductive CallError where
  | clash (name : String)
  | failure (e : Failure)
  deriving DecidableEq

def CallError.message : CallError → String
  | clash name => "Messages.__call__() got multiple values for argument " ++ Text.quote name
  | failure e => e.message

def CallError.name : CallError → String
  | clash _ => "TypeError"
  | failure e => e.name

/-- The description by the phrase of a key, with the arguments that are passed. -/
def sayNamed (locale : Locale) (key : Json) (arguments : Arguments) : Except CallError String :=
  match arguments.clash? with
  | some name => .error (.clash name)
  | none => (sayKey locale key fun s => arguments.text? s.key).mapError .failure

end TraceReplay.Wording
