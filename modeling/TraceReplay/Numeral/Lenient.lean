import TraceReplay.Numeral
import TraceReplay.Text.Blank

/-! # Integers in lenient notation

A plain numeral is a zero, or digits of which the first is no zero, with at most a minus sign before
it. Lenient notation also has white space around the numeral, a plus sign, leading zeros, single
underscores inside, and a point that only zeros follow. It is read by stripping all of this and
reading the rest as a plain numeral. Leading zeros may have any underscores among them, and a minus
sign behind them if there is none before them. A plain numeral that is too long is told apart from
other texts only where it is written without anything that has to be stripped.
-/

namespace TraceReplay.Numeral

/-- The most digits of a plain numeral. -/
def maxPlainDigits : Nat := 4300

def splitMinus : List Char → Bool × List Char
  | '-' :: cs => (true, cs)
  | cs => (false, cs)

def startsTooLong (cs : List Char) : Bool :=
  let digits := (splitMinus cs).2.takeWhile Char.isDigit
  digits.head? ≠ some '0' && maxPlainDigits < digits.length

def plainInt? (cs : List Char) : Option Int :=
  let (negative, digits) := splitMinus cs
  if startsTooLong cs || (digits.head? = some '0' && digits ≠ ['0']) then none
  else (plain? 10 digits).map fun n => if negative then -(n : Int) else n

/-- Drop a point that only zeros follow, of which there must be one. -/
def stripPoint? (cs : List Char) : Option (List Char) :=
  match cs.span (· ≠ '.') with
  | (whole, []) => some whole
  | (whole, _ :: zeros) => if !zeros.isEmpty && zeros.all (· == '0') then some whole else none

/-- Drop leading zeros and the underscores among them, up to the last character of the text. The
first character must be a digit; behind dropped zeros a minus sign may stand as well. -/
def stripZeros? : List Char → Option (List Char)
  | [] => none
  | '0' :: cs =>
    match cs.dropWhile fun c => c == '0' || c == '_' with
    | [] => some [cs.getLastD '0']
    | c :: rest => if c.isDigit || c == '-' then some (c :: rest) else none
  | c :: cs => if c.isDigit then some (c :: cs) else none

/-- Drop underscores, each of which must stand between two other characters. -/
def stripUnderscores? : List Char → Option (List Char)
  | [] => some []
  | '_' :: _ => none
  | c :: '_' :: d :: cs => (stripUnderscores? (d :: cs)).map (c :: ·)
  | c :: cs => (stripUnderscores? cs).map (c :: ·)

def stripUnsigned? (cs : List Char) : Option (List Char) := do
  stripUnderscores? (← stripZeros? (← stripPoint? cs))

/-- Strip a numeral in lenient notation down to plain notation. -/
def strip? (cs : List Char) : Option (List Char) :=
  match Text.trim Text.isWhiteSpace cs with
  | '+' :: cs => stripUnsigned? cs
  | '-' :: cs => (stripUnsigned? cs).map ('-' :: ·)
  | cs => stripUnsigned? cs

/-- The value of a numeral in lenient notation. -/
def lenientInt? (cs : List Char) : Option Int := (strip? cs).bind plainInt?

end TraceReplay.Numeral
