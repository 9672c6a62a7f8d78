import TraceReplay.Bytes.LittleEndian

/-! # Null-terminated strings

A string is stored as the low byte of each of its code points, followed by a zero. Reading takes
each number before the first zero as a code point; raw numbers need not be bytes, and reading
them fails at the first one that is no code point. Numbers that do not fit four bytes with a sign
are told apart from other numbers that are no code points.
-/

namespace TraceReplay.Bytes

/-- Why numbers are not bytes or characters. -/
inductive CodecError where
  | negativeSize
  | notCodePoint
  | beyondFourBytes
  deriving DecidableEq

def CodecError.message : CodecError → String
  | negativeSize => "negative shift count"
  | notCodePoint => "chr() arg not in range(0x110000)"
  | beyondFourBytes => "Python int too large to convert to C int"

/-- The integer in a number of bytes that may be given as negative, which is refused. -/
def ofInt? (size n : Int) : Except CodecError (List UInt8) :=
  if size < 0 then .error .negativeSize else .ok (ofInt size.toNat n)

def ofString (s : String) : List UInt8 :=
  s.toList.map (fun c => UInt8.ofNat c.toNat) ++ [0]

def toChars (bytes : List UInt8) : List Char :=
  (bytes.takeWhile (· != 0)).map fun b => Char.ofNat b.toNat

/-- The characters of raw numbers before the first zero. -/
def charsOfNumbers : List Int → Except CodecError (List Char)
  | [] => .ok []
  | n :: rest =>
    if n = 0 then .ok []
    else if 0 < n && n < 0x110000 then (Char.ofNat n.toNat :: ·) <$> charsOfNumbers rest
    else .error (if fits 4 n then .notCodePoint else .beyondFourBytes)

/-- A byte ends the reading if it is zero, and is a code point otherwise. -/
theorem charsOfNumbers_byte (b : UInt8) (rest : List Int) :
    charsOfNumbers ((b.toNat : Int) :: rest) =
      if b = 0 then .ok [] else (Char.ofNat b.toNat :: ·) <$> charsOfNumbers rest := by
  by_cases h : b = 0
  · subst h; rfl
  · have hn : b.toNat ≠ 0 := fun e => h (UInt8.toNat_inj.1 e)
    have hlt : b.toNat < 256 := b.toNat_lt
    have h0 : ¬ ((b.toNat : Int) = 0) := by omega
    have h1 : (decide (0 < (b.toNat : Int)) && decide ((b.toNat : Int) < 0x110000)) = true := by
      simp only [Bool.and_eq_true, decide_eq_true_eq]; omega
    rw [charsOfNumbers, if_neg h0, if_pos h1, if_neg h, Int.toNat_natCast]

/-- Bytes are code points, so reading them as raw numbers never fails. -/
theorem charsOfNumbers_bytes (bytes : List UInt8) :
    charsOfNumbers (bytes.map fun b => (b.toNat : Int)) = .ok (toChars bytes) := by
  induction bytes with
  | nil => rfl
  | cons b bs ih =>
    rw [List.map_cons, charsOfNumbers_byte, ih]
    by_cases h : b = 0 <;> simp [toChars, h, Functor.map, Except.map]

end TraceReplay.Bytes
