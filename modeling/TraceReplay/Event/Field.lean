import TraceReplay.Event.Checked
import TraceReplay.Address
import TraceReplay.Datum
import TraceReplay.Numeral.Lenient

/-! # Fields

What a field's data are taken for. Integers may also be written as truth values, as floating-point
numbers without fraction below `2 ^ 63`, and as decimal text in lenient notation; numbers may stand
for texts where that is said. Source lines and addresses never fail: what is none counts as absent.
-/

namespace TraceReplay.Field

def integerOfText (s : String) : Checked Int :=
  if Numeral.startsTooLong s.toList then .refuse .tooLarge
  else
    match Numeral.lenientInt? s.toList with
    | some n => .accepted n
    | none => .refuse .notNumeral

def integerOfReal (x : Binary64) : Checked Int :=
  match x.toInt? with
  | some n => if n.natAbs < Nat.pow 2 63 then .accepted n else .refuse .tooLarge
  | none => if x.isFinite then .refuse .hasFraction else .refuse .notFinite

def integer : Json → Checked Int
  | .int n => .accepted n
  | .bool b => .accepted (if b then 1 else 0)
  | .real x => integerOfReal x
  | .text s => integerOfText s
  | _ => .refuse .notInteger

def natural (x : Json) : Checked Nat :=
  (integer x).andThen fun n => if n < 0 then .refuse .belowMinimum else .accepted n.toNat

def naturalUpTo (limit : Nat) (x : Json) : Checked Nat :=
  (natural x).andThen fun n => if limit < n then .refuse .aboveMaximum else .accepted n

/-- The low eight bits of an integer. -/
def lowByte (x : Json) : Checked UInt8 := UInt8.ofInt <$> integer x

def text : Json → Checked String
  | .text s => .accepted s
  | _ => .refuse .notText

/-- A text; a number stands for the text that shows it. -/
def looseText : Json → Checked String
  | .int n => .accepted n.repr
  | .real x => .accepted x.text
  | x => text x

def list {α : Type} (element : Json → Checked α) : Json → Checked (List α)
  | .list xs => Checked.elements element 0 xs
  | _ => .refuse .notList

/-- Null stands for nothing. -/
def nullable {α : Type} (check : Json → Checked α) : Json → Checked (Option α)
  | .null => .accepted none
  | x => some <$> check x

def nullAs {α : Type} (value : α) (check : Json → Checked α) : Json → Checked α
  | .null => .accepted value
  | x => check x

/-- A list of bytes, a null element standing for zero. -/
def byteList (x : Json) : Checked (List UInt8) := list (nullAs 0 lowByte) x

def required {α : Type} (name : String) (check : Json → Checked α) (x : Json) : Checked α :=
  (match x.field? name with
    | some v => check v
    | none => .refuse .missing).within (.field name)

/-- The first of the fields of those names that is there, or else a value. -/
def firstOf {α : Type} (names : List String) (value : α) (check : Json → Checked α) (x : Json) :
    Checked α :=
  match names with
  | [] => .accepted value
  | name :: names =>
    match x.field? name with
    | some v => (check v).within (.field name)
    | none => firstOf names value check x

def withDefault {α : Type} (name : String) (value : α) (check : Json → Checked α) (x : Json) :
    Checked α :=
  firstOf [name] value check x

def object {α : Type} (check : Json → Checked α) (x : Json) : Checked α :=
  match x with
  | .object _ => check x
  | _ => .refuse .notObject

theorem object_eq_accepted {α : Type} {check : Json → Checked α} {x : Json} {a : α}
    (h : object check x = .accepted a) : x.isObject = true ∧ check x = .accepted a := by
  cases x with
  | object fields => exact ⟨rfl, h⟩
  | _ => cases h

/-- A source line is an integer or a finite number without fraction. -/
def lineOf? : Json → Option Int
  | .int n => some n
  | .real x => x.toInt?
  | _ => none

/-- The source line of an event, if its `line` is one. -/
def line? (x : Json) : Option Int := (x.field? "line").bind lineOf?

/-- The address of an event, if its `addr` is one. -/
def address? (x : Json) : Option Int := (x.field? "addr").bind Address.ofJson?

end TraceReplay.Field
