import TraceReplay.Json.Basic
import TraceReplay.Binary64.Shortest
import TraceReplay.Text.Quoted

/-! # Data of a trace

A datum is what a trace or its caller may offer as a value: any JSON value, and also bytes and
fixed sequences. The text of a datum shows a text as it is and all nested texts quoted; a list has
square brackets, a fixed sequence round ones, with a comma after a lone element.
-/

namespace TraceReplay

inductive Datum where
  | null
  | bool (b : Bool)
  | int (n : Int)
  | real (x : Binary64)
  | text (s : String)
  | bytes (bs : List UInt8)
  | list (xs : List Datum)
  | tuple (xs : List Datum)
  | record (fields : List (String × Datum))
  deriving Inhabited

namespace Datum

mutual

def ofJson : Json → Datum
  | .null => .null
  | .bool b => .bool b
  | .int n => .int n
  | .real x => .real x
  | .text s => .text s
  | .list xs => .list (ofElements xs)
  | .object fields => .record (ofFields fields)

def ofElements : List Json → List Datum
  | [] => []
  | x :: xs => ofJson x :: ofElements xs

def ofFields : List (String × Json) → List (String × Datum)
  | [] => []
  | (name, x) :: fields => (name, ofJson x) :: ofFields fields

end

mutual

/-- The text of a datum inside another one. -/
def quoted : Datum → String
  | .null => "None"
  | .bool true => "True"
  | .bool false => "False"
  | .int n => n.repr
  | .real x => x.text
  | .text s => Text.quote s
  | .bytes bs => Text.quoteBytes bs
  | .list xs => "[" ++ ", ".intercalate (quotedElements xs) ++ "]"
  | .tuple [x] => "(" ++ quoted x ++ ",)"
  | .tuple xs => "(" ++ ", ".intercalate (quotedElements xs) ++ ")"
  | .record fields => "\x7b" ++ ", ".intercalate (quotedFields fields) ++ "\x7d"

def quotedElements : List Datum → List String
  | [] => []
  | x :: xs => quoted x :: quotedElements xs

def quotedFields : List (String × Datum) → List String
  | [] => []
  | (name, x) :: fields => (Text.quote name ++ ": " ++ quoted x) :: quotedFields fields

end

/-- The text of a datum on its own. -/
def display : Datum → String
  | .text s => s
  | x => x.quoted

/-- The text that stands for a datum in descriptions: the elements of a sequence, separated by
commas without its brackets, and every other datum as it is displayed. -/
def inline : Datum → String
  | .bytes bs => ",".intercalate (bs.map fun b => b.toNat.repr)
  | .list xs => ",".intercalate (xs.map display)
  | .tuple xs => ",".intercalate (xs.map display)
  | x => x.display

end Datum

def Json.display (x : Json) : String := (Datum.ofJson x).display

def Json.quoted (x : Json) : String := (Datum.ofJson x).quoted

end TraceReplay
