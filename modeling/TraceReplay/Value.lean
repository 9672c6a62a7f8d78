import TraceReplay.Datum

/-! # Values of variables

A variable holds an integer, a text, a sequence of characters or bytes. Every datum is folded into
one of these four kinds; an integer, a text, bytes and a nonempty list of characters are kept as
they are.
-/

namespace TraceReplay

inductive Value where
  | int (n : Int)
  | text (s : String)
  | chars (cs : List Char)
  | bytes (bs : List UInt8)
  deriving DecidableEq, Inhabited

def Datum.char? : Datum → Option Char
  | .text s =>
    match s.toList with
    | [c] => some c
    | _ => none
  | _ => none

/-- The integer of an integer; a truth value is none. -/
def Datum.int? : Datum → Option Int
  | .int n => some n
  | _ => none

namespace Value

/-- A sequence of integers: bytes if every integer is one, and otherwise their text. -/
def ofInts (ns : List Int) : Value :=
  if ns.all fun n => 0 ≤ n && n ≤ 0xff then .bytes (ns.map UInt8.ofInt)
  else .text (",".intercalate (ns.map Int.repr))

/-- A sequence of data. What is neither all characters nor all integers is shown as `whole`. -/
def ofSequence (whole : Datum) (xs : List Datum) : Value :=
  match xs.mapM Datum.char? with
  | some (c :: cs) => .chars (c :: cs)
  | _ =>
    match xs.mapM Datum.int? with
    | some ns => ofInts ns
    | none => .text whole.display

def ofDatum : Datum → Value
  | .null => .int 0
  | .bool b => .int (if b then 1 else 0)
  | .int n => .int n
  | .text s => .text s
  | .bytes bs => .bytes bs
  | .list xs => ofSequence (.list xs) xs
  | .tuple xs => ofSequence (.tuple xs) xs
  | x => .text x.display

def ofJson (x : Json) : Value := ofDatum (.ofJson x)

def toDatum : Value → Datum
  | .int n => .int n
  | .text s => .text s
  | .chars cs => .list (cs.map fun c => .text (String.singleton c))
  | .bytes bs => .bytes bs

def inline (v : Value) : String := v.toDatum.inline

def toJson : Value → Json
  | .int n => .int n
  | .text s => .text s
  | .chars cs => .list (cs.map fun c => .text (String.singleton c))
  | .bytes bs => .list (bs.map fun b => .int b.toNat)

end Value

end TraceReplay
