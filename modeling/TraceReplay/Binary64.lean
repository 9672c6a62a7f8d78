/-! # Binary floating-point numbers of 64 bits

A finite number is its sign, significand and exponent, held exactly; both zeros are kept apart. A
decimal numeral denotes the nearest number, a tie going to the even significand, and a magnitude
beyond the largest number denotes infinity. All arithmetic is on integers.
-/

namespace TraceReplay

/-- A 64-bit binary floating-point number. A finite number has magnitude
`significand * 2 ^ exponent`, where the significand has at most 53 bits and the exponent is at
least -1074. -/
inductive Binary64 where
  | nan
  | infinite (negative : Bool)
  | finite (negative : Bool) (significand : Nat) (exponent : Int)
  deriving DecidableEq, Inhabited

namespace Binary64

def significandBits : Nat := 53
def minExponent : Int := -1074
def maxExponent : Int := 971

/-- `num / den` rounded to the nearest integer, a tie going to the even one. -/
def roundQuotient (num den : Nat) : Nat :=
  let q := num / den
  let twice := 2 * (num % den)
  if den < twice || (twice == den && q % 2 == 1) then q + 1 else q

def descale (base : Nat) (num den : Nat) (e : Int) : Nat × Nat :=
  if 0 ≤ e then (num, den * base.pow e.toNat) else (num * base.pow (-e).toNat, den)

/-- The number nearest to `num / den`, for positive arguments. -/
def ofRatio (negative : Bool) (num den : Nat) : Binary64 :=
  let guess : Int := (num.log2 : Int) - den.log2 - significandBits
  let (n, d) := descale 2 num den guess
  let normal := if n / d < Nat.pow 2 significandBits then guess else guess + 1
  let exponent := max normal minExponent
  let (n, d) := descale 2 num den exponent
  let rounded := roundQuotient n d
  let (significand, exponent) :=
    if rounded == Nat.pow 2 significandBits then (rounded / 2, exponent + 1)
    else (rounded, exponent)
  if maxExponent < exponent then .infinite negative else .finite negative significand exponent

def zero (negative : Bool) : Binary64 := .finite negative 0 minExponent

/-- The number nearest to `digits * 10 ^ exponent`. Magnitudes outside `10 ^ -330` to `10 ^ 310`
are decided by the number of digits alone. -/
def ofDecimal (negative : Bool) (digits : Nat) (exponent : Int) : Binary64 :=
  let magnitude := exponent + (Nat.toDigits 10 digits).length
  if digits == 0 || magnitude < -330 then zero negative
  else if 310 < magnitude then .infinite negative
  else
    let (num, den) := descale 10 digits 1 (-exponent)
    ofRatio negative num den

/-- The integer that a finite number is, if it is one. -/
def toInt? : Binary64 → Option Int
  | .finite negative significand exponent =>
    let signed (n : Nat) : Int := if negative then -n else n
    let (num, den) := descale 2 significand 1 (-exponent)
    if num % den == 0 then some (signed (num / den)) else none
  | _ => none

def isFinite : Binary64 → Bool
  | .finite .. => true
  | _ => false

end Binary64

end TraceReplay
