import TraceReplay.Json.Basic
import TraceReplay.Numeral
import TraceReplay.Text.Blank
import TraceReplay.Text.DecimalDigit

/-! # Address text

An address is shown as the hexadecimal numeral of its low 32 bits. It is read from an integer or
from hexadecimal text: an optional sign, an optional `0x` with an optional underscore behind it, and
digits with single underscores between them, where a decimal digit of any script counts as its
value. Blanks around the text are ignored; anything else is no address.
-/

namespace TraceReplay.Address

/-- The width of a shown address. -/
def digits : Nat := 8

def modulus : Nat := 0x100000000

def hexPadded (width : Nat) (n : Int) : String :=
  String.ofList ('0' :: 'x' :: Numeral.hex width (n % modulus).toNat)

def hex (n : Int) : String := hexPadded digits n

/-- Why a number is no width: it is negative, or does not fit 63 bits. -/
inductive WidthError where
  | negative (width : Int)
  | tooLarge
  deriving DecidableEq

def WidthError.message : WidthError → String
  | negative width => "Invalid format specifier '0" ++ width.repr ++ "x' for object of type 'int'"
  | tooLarge => "Too many decimal digits in format string"

/-- The text of an address in a width that may be any number. -/
def hexPadded? (width n : Int) : Except WidthError String :=
  if width < 0 then .error (.negative width)
  else if 0x8000000000000000 ≤ width then .error .tooLarge
  else .ok (hexPadded width.toNat n)

def hexOrUnknown : Option Int → String
  | some n => hex n
  | none => "?"

/-- Digits behind an optional prefix. -/
def magnitude? : List Char → Option Nat
  | '0' :: 'x' :: '_' :: cs => Numeral.grouped? 16 cs
  | '0' :: 'X' :: '_' :: cs => Numeral.grouped? 16 cs
  | '0' :: 'x' :: cs => Numeral.grouped? 16 cs
  | '0' :: 'X' :: cs => Numeral.grouped? 16 cs
  | cs => Numeral.grouped? 16 cs

def signed? : List Char → Option Int
  | '+' :: cs => (magnitude? cs).map Int.ofNat
  | '-' :: cs => (magnitude? cs).map fun n => -(n : Int)
  | cs => (magnitude? cs).map Int.ofNat

def ofText? (s : String) : Option Int :=
  signed? ((Text.trim Text.isBlank s.toList).map Text.toAsciiDigit)

def ofJson? : Json → Option Int
  | .int n => some n
  | .text s => ofText? s
  | _ => none

end TraceReplay.Address
