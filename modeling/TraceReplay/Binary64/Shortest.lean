import TraceReplay.Binary64

/-! # The shortest decimal text of a floating-point number

A finite number is written with the fewest significant digits that read back as the same number,
the nearest such digits if there are several, and the even last digit in a tie. The layout is
positional from `10 ^ -4` up to but not including `10 ^ 16`, with at least one digit on either
side of the point, and scientific elsewhere.
-/

namespace TraceReplay.Binary64

structure Decimal where
  digits : Nat
  exponent : Int
  deriving DecidableEq

/-- The exponent `p` with `10 ^ p ≤ num / den < 10 ^ (p + 1)`, for positive arguments. -/
def decimalMagnitude (num den : Nat) : Int :=
  if den ≤ num then ((Nat.toDigits 10 (num / den)).length : Int) - 1
  else
    let length := (Nat.toDigits 10 (den / num)).length
    if den ≤ num * Nat.pow 10 (length - 1) then 1 - (length : Int) else -(length : Int)

/-- The decimal of the given grid nearest to `num / den` among those that read back as `x`. -/
def onGrid? (x : Binary64) (num den : Nat) (exponent : Int) : Option Decimal :=
  let (n, d) := descale 10 num den exponent
  let below := n / d
  let nearest := roundQuotient n d
  let other := if nearest == below then below + 1 else below
  ([nearest, other].find? fun digits => ofDecimal false digits exponent == x).map (⟨·, exponent⟩)

/-- The shortest decimal of a positive number `significand * 2 ^ exponent`. Seventeen digits
always suffice. -/
def shortest (significand : Nat) (exponent : Int) : Decimal :=
  let (num, den) := descale 2 significand 1 (-exponent)
  let leading := decimalMagnitude num den
  let found := (List.range 17).findSome? fun (more : Nat) =>
    onGrid? (.finite false significand exponent) num den (leading - more)
  found.getD ⟨0, 0⟩

/-- The places at which a number is written positionally: `10 ^ -4` has place -3. -/
def positionalPlaces (place : Int) : Bool := -4 < place && place ≤ 16

/-- The text of a positive decimal whose digits are `ds`, the point standing `place` digits after
their start. -/
def layout (ds : List Char) (place : Int) : List Char :=
  if positionalPlaces place then
    if place ≤ 0 then '0' :: '.' :: List.replicate (-place).toNat '0' ++ ds
    else if (ds.length : Int) ≤ place then
      ds ++ List.replicate (place.toNat - ds.length) '0' ++ ['.', '0']
    else ds.take place.toNat ++ '.' :: ds.drop place.toNat
  else
    let power := place - 1
    let mantissa := if ds.length ≤ 1 then ds else ds.take 1 ++ '.' :: ds.drop 1
    let powerDigits := Nat.toDigits 10 power.natAbs
    mantissa ++ 'e' :: (if power < 0 then '-' else '+') ::
      List.replicate (2 - powerDigits.length) '0' ++ powerDigits

def magnitudeText (significand : Nat) (exponent : Int) : List Char :=
  if significand == 0 then ['0', '.', '0']
  else
    let decimal := shortest significand exponent
    let ds := Nat.toDigits 10 decimal.digits
    let place := decimal.exponent + ds.length
    layout (ds.reverse.dropWhile (· == '0')).reverse place

def text : Binary64 → String
  | .nan => "nan"
  | .infinite negative => if negative then "-inf" else "inf"
  | .finite negative significand exponent =>
    let digits := magnitudeText significand exponent
    String.ofList (if negative then '-' :: digits else digits)

end TraceReplay.Binary64
