import TraceReplay.Json.Basic
import TraceReplay.Numeral

/-! # Reading JSON text

A reader takes a list of characters and returns a value with the characters that follow it, or the
fault that stops it with the characters that start at the fault. Positions are computed from the
length of that rest once reading has failed. Numbers may also be `NaN`, `Infinity` and
`-Infinity`; a number without fraction and exponent is an integer. White space is space, tab, line
feed and carriage return.
-/

namespace TraceReplay.Json

inductive Fault where
  | value
  | propertyName
  | colon
  | comma
  | extraData
  | unterminatedString
  | controlCharacter
  | escape
  | unicodeEscape
  | byteOrderMark
  deriving DecidableEq

def Fault.message : Fault → String
  | value => "Expecting value"
  | propertyName => "Expecting property name enclosed in double quotes"
  | colon => "Expecting ':' delimiter"
  | comma => "Expecting ',' delimiter"
  | extraData => "Extra data"
  | unterminatedString => "Unterminated string starting at"
  | controlCharacter => "Invalid control character at"
  | escape => "Invalid \\escape"
  | unicodeEscape => "Invalid \\uXXXX escape"
  | byteOrderMark => "Unexpected UTF-8 BOM (decode using utf-8-sig)"

/-- A fault, and the text from the place of the fault on. -/
structure Stop where
  fault : Fault
  rest : List Char
  deriving DecidableEq

def isBlank (c : Char) : Bool := c == ' ' || c == '\t' || c == '\n' || c == '\r'

def skipBlank (cs : List Char) : List Char := cs.dropWhile isBlank

def highSurrogate (u : Nat) : Bool := 0xd800 ≤ u && u ≤ 0xdbff
def lowSurrogate (u : Nat) : Bool := 0xdc00 ≤ u && u ≤ 0xdfff

/-- The character of a code unit; a surrogate without its partner is replaced. -/
def charOfUnit (u : Nat) : Char :=
  if highSurrogate u || lowSurrogate u then '\uFFFD' else Char.ofNat u

/-- Join each high surrogate with a low surrogate that follows it. -/
def charsOfUnits : List Nat → List Char
  | high :: low :: us =>
    if highSurrogate high && lowSurrogate low then
      Char.ofNat (0x10000 + (high - 0xd800) * 0x400 + (low - 0xdc00)) :: charsOfUnits us
    else charOfUnit high :: charsOfUnits (low :: us)
  | [u] => [charOfUnit u]
  | [] => []

def escaped? : Char → Option Char
  | '"' => some '"'
  | '\\' => some '\\'
  | '/' => some '/'
  | 'b' => some '\x08'
  | 'f' => some '\x0c'
  | 'n' => some '\n'
  | 'r' => some '\r'
  | 't' => some '\t'
  | _ => none

/-- The code units of a string and the text after its closing quote. The opening quote starts at
`opening`. A numeric escape needs four digits and a character after them. -/
def stringUnits (opening : List Char) : List Char → Except Stop (List Nat × List Char)
  | [] => .error ⟨.unterminatedString, opening⟩
  | '"' :: rest => .ok ([], rest)
  | ['\\'] => .error ⟨.unterminatedString, opening⟩
  | '\\' :: 'u' :: a :: b :: c :: d :: rest =>
    match Numeral.plain? 16 [a, b, c, d], rest with
    | some unit, _ :: _ => do
      let (units, rest) ← stringUnits opening rest
      .ok (unit :: units, rest)
    | _, _ => .error ⟨.unicodeEscape, 'u' :: a :: b :: c :: d :: rest⟩
  | '\\' :: 'u' :: rest => .error ⟨.unicodeEscape, 'u' :: rest⟩
  | '\\' :: c :: rest =>
    match escaped? c with
    | some e => do
      let (units, rest) ← stringUnits opening rest
      .ok (e.toNat :: units, rest)
    | none => .error ⟨.escape, '\\' :: c :: rest⟩
  | c :: rest =>
    if c.toNat < 0x20 then .error ⟨.controlCharacter, c :: rest⟩
    else do
      let (units, rest) ← stringUnits opening rest
      .ok (c.toNat :: units, rest)

/-- A string whose opening quote starts at `opening`; `body` is the text after that quote. -/
def string (opening body : List Char) : Except Stop (String × List Char) := do
  let (units, rest) ← stringUnits opening body
  .ok (String.ofList (charsOfUnits units), rest)

def decimalValue (ds : List Char) : Nat := (Numeral.plain? 10 ds).getD 0

/-- The digits before the point: a single zero, or digits that do not start with zero. -/
def wholeDigits? : List Char → Option (List Char × List Char)
  | '0' :: rest => some (['0'], rest)
  | cs =>
    match cs.span Char.isDigit with
    | ([], _) => none
    | (ds, rest) => some (ds, rest)

def fractionDigits? : List Char → Option (List Char × List Char)
  | '.' :: rest =>
    match rest.span Char.isDigit with
    | ([], _) => none
    | (ds, rest) => some (ds, rest)
  | _ => none

def exponent? : List Char → Option (Int × List Char)
  | c :: rest =>
    if c == 'e' || c == 'E' then
      let (negative, rest) :=
        match rest with
        | '-' :: rest => (true, rest)
        | '+' :: rest => (false, rest)
        | rest => (false, rest)
      match rest.span Char.isDigit with
      | ([], _) => none
      | (ds, rest) =>
        let n : Int := decimalValue ds
        some (if negative then -n else n, rest)
    else none
  | [] => none

def unsigned? (negative : Bool) (cs : List Char) : Option (Json × List Char) := do
  let (whole, rest) ← wholeDigits? cs
  match fractionDigits? rest, exponent? rest with
  | none, none =>
    let n : Int := decimalValue whole
    some (.int (if negative then -n else n), rest)
  | none, some (power, rest) =>
    some (.real (.ofDecimal negative (decimalValue whole) power), rest)
  | some (fraction, rest), _ =>
    let digits := decimalValue (whole ++ fraction)
    let (power, rest) := (exponent? rest).getD (0, rest)
    some (.real (.ofDecimal negative digits (power - fraction.length)), rest)

def scalar (cs : List Char) : Except Stop (Json × List Char) :=
  match cs with
  | 'n' :: 'u' :: 'l' :: 'l' :: rest => .ok (.null, rest)
  | 't' :: 'r' :: 'u' :: 'e' :: rest => .ok (.bool true, rest)
  | 'f' :: 'a' :: 'l' :: 's' :: 'e' :: rest => .ok (.bool false, rest)
  | 'N' :: 'a' :: 'N' :: rest => .ok (.real .nan, rest)
  | 'I' :: 'n' :: 'f' :: 'i' :: 'n' :: 'i' :: 't' :: 'y' :: rest =>
    .ok (.real (.infinite false), rest)
  | '-' :: 'I' :: 'n' :: 'f' :: 'i' :: 'n' :: 'i' :: 't' :: 'y' :: rest =>
    .ok (.real (.infinite true), rest)
  | '-' :: rest =>
    match unsigned? true rest with
    | some result => .ok result
    | none => .error ⟨.value, cs⟩
  | cs =>
    match unsigned? false cs with
    | some result => .ok result
    | none => .error ⟨.value, cs⟩

mutual

/-- A value. The first argument bounds the steps of the recursion, of which every list, object and
element takes one; two for each character of the text suffice. -/
def value : Nat → List Char → Except Stop (Json × List Char)
  | 0, cs => .error ⟨.value, cs⟩
  | fuel + 1, cs =>
    match cs with
    | '"' :: body => do
      let (s, rest) ← string cs body
      .ok (.text s, rest)
    | '[' :: body =>
      match skipBlank body with
      | ']' :: rest => .ok (.list [], rest)
      | body => do
        let (xs, rest) ← elements fuel body
        .ok (.list xs, rest)
    | '{' :: body =>
      match skipBlank body with
      | '}' :: rest => .ok (.object [], rest)
      | body => do
        let (fields, rest) ← members fuel body
        .ok (.object (Fields.ofList fields), rest)
    | cs => scalar cs

def elements : Nat → List Char → Except Stop (List Json × List Char)
  | 0, cs => .error ⟨.value, cs⟩
  | fuel + 1, cs => do
    let (x, rest) ← value fuel cs
    match skipBlank rest with
    | ']' :: rest => .ok ([x], rest)
    | ',' :: rest => do
      let (xs, rest) ← elements fuel (skipBlank rest)
      .ok (x :: xs, rest)
    | rest => .error ⟨.comma, rest⟩

def members : Nat → List Char → Except Stop (Fields × List Char)
  | 0, cs => .error ⟨.propertyName, cs⟩
  | fuel + 1, cs =>
    match cs with
    | '"' :: body => do
      let (name, rest) ← string cs body
      match skipBlank rest with
      | ':' :: rest => do
        let (x, rest) ← value fuel (skipBlank rest)
        match skipBlank rest with
        | '}' :: rest => .ok ([(name, x)], rest)
        | ',' :: rest => do
          let (fields, rest) ← members fuel (skipBlank rest)
          .ok ((name, x) :: fields, rest)
        | rest => .error ⟨.comma, rest⟩
      | rest => .error ⟨.colon, rest⟩
    | cs => .error ⟨.propertyName, cs⟩

end

/-- The value that a whole text is. A level of nesting takes two steps and at least one character,
a further element one step and at least two, so that the bound is never reached. -/
def document (cs : List Char) : Except Stop Json :=
  if cs.head? = some '\uFEFF' then .error ⟨.byteOrderMark, cs⟩
  else do
    let (x, rest) ← value (2 * cs.length + 2) (skipBlank cs)
    match skipBlank rest with
    | [] => .ok x
    | rest => .error ⟨.extraData, rest⟩

/-- A fault and its place: the offset counts from zero, line and column from one. -/
structure SyntaxError where
  fault : Fault
  offset : Nat
  line : Nat
  column : Nat
  deriving DecidableEq

def SyntaxError.message (e : SyntaxError) : String :=
  e.fault.message ++ ": line " ++ e.line.repr ++ " column " ++ e.column.repr ++
    " (char " ++ e.offset.repr ++ ")"

def Stop.locate (cs : List Char) (stop : Stop) : SyntaxError :=
  let offset := cs.length - stop.rest.length
  let before := cs.take offset
  { fault := stop.fault
    offset
    line := before.count '\n' + 1
    column := (before.reverse.takeWhile (· != '\n')).length + 1 }

def parse (text : String) : Except SyntaxError Json :=
  (document text.toList).mapError (Stop.locate text.toList)

end TraceReplay.Json
