import TraceReplay.Json.Basic
import TraceReplay.Numeral
import TraceReplay.Binary64.Shortest

/-! # Writing JSON text

A layout fixes the blanks and the characters that are escaped. Without indentation the elements
are separated by a comma and a space on one line; with it every element of a nonempty list or
object has a line of its own.
-/

namespace TraceReplay.Json

/-- How text is laid out: the blanks per level of nesting, a negative number counting as zero,
and whether all characters but printable ASCII are escaped. -/
structure Layout where
  indent : Option Int
  asciiOnly : Bool
  deriving DecidableEq

def unitEscape (u : Nat) : List Char := '\\' :: 'u' :: Numeral.hex 4 u

/-- The numeric escape of a character, in two parts beyond the sixteen-bit range. -/
def numericEscape (c : Char) : List Char :=
  let n := c.toNat
  if n < 0x10000 then unitEscape n
  else
    let v := n - 0x10000
    unitEscape (0xd800 + v / 0x400) ++ unitEscape (0xdc00 + v % 0x400)

def writeChar (asciiOnly : Bool) (c : Char) : List Char :=
  if c = '"' then ['\\', '"']
  else if c = '\\' then ['\\', '\\']
  else if c = '\n' then ['\\', 'n']
  else if c = '\r' then ['\\', 'r']
  else if c = '\t' then ['\\', 't']
  else if c = '\x0c' then ['\\', 'f']
  else if c = '\x08' then ['\\', 'b']
  else if c.toNat < 0x20 || (asciiOnly && 0x7e < c.toNat) then numericEscape c
  else [c]

def writeString (asciiOnly : Bool) (s : String) : List Char :=
  '"' :: s.toList.flatMap (writeChar asciiOnly) ++ ['"']

def writeReal (x : Binary64) : List Char :=
  match x with
  | .nan => "NaN".toList
  | .infinite false => "Infinity".toList
  | .infinite true => "-Infinity".toList
  | .finite .. => x.text.toList

/-- The break before an element at a depth of nesting. -/
def Layout.break (layout : Layout) (depth : Nat) : List Char :=
  match layout.indent with
  | none => []
  | some n => '\n' :: List.replicate (n.toNat * depth) ' '

/-- What stands between two elements at a depth of nesting. -/
def Layout.separator (layout : Layout) (depth : Nat) : List Char :=
  match layout.indent with
  | none => [',', ' ']
  | some _ => ',' :: layout.break depth

mutual

def write (layout : Layout) (depth : Nat) : Json → List Char
  | .null => "null".toList
  | .bool true => "true".toList
  | .bool false => "false".toList
  | .int n => n.repr.toList
  | .real x => writeReal x
  | .text s => writeString layout.asciiOnly s
  | .list [] => ['[', ']']
  | .list (x :: xs) =>
    '[' :: layout.break (depth + 1) ++ write layout (depth + 1) x ++
      writeElements layout (depth + 1) xs ++ layout.break depth ++ [']']
  | .object [] => ['\x7b', '\x7d']
  | .object ((name, x) :: fields) =>
    '\x7b' :: layout.break (depth + 1) ++ writeString layout.asciiOnly name ++ [':', ' '] ++
      write layout (depth + 1) x ++ writeMembers layout (depth + 1) fields ++
      layout.break depth ++ ['\x7d']

/-- The elements after the first, each with the separator before it. -/
def writeElements (layout : Layout) (depth : Nat) : List Json → List Char
  | [] => []
  | x :: xs => layout.separator depth ++ write layout depth x ++ writeElements layout depth xs

def writeMembers (layout : Layout) (depth : Nat) : List (String × Json) → List Char
  | [] => []
  | (name, x) :: fields =>
    layout.separator depth ++ writeString layout.asciiOnly name ++ [':', ' '] ++
      write layout depth x ++ writeMembers layout depth fields

end

def print (layout : Layout) (x : Json) : String := String.ofList (write layout 0 x)

end TraceReplay.Json
