import Mathlib.Algebra.Group.Int.Defs
import TraceReplay.Proofs.Memory.Footprint

/-! # The bytes of an integer

The bytes of an integer are its lowest digits in base 256, the least significant first. Read back,
they are the integer modulo the power of 256 that there is room for; and numbers that are read as
bytes and written again are their own low bytes. A store of such bytes into a variable of no
character type therefore leaves four of them as an unsigned integer, and any other number of them as
they are.
-/

namespace TraceReplay

namespace Bytes

def numbers (bytes : List UInt8) : List Int := bytes.map fun b => (b.toNat : Int)

def lowBytes (data : List Int) : List UInt8 := data.map UInt8.ofInt

theorem toNat_uint8OfInt (n : Int) : ((UInt8.ofInt n).toNat : Int) = n % 256 := by
  have hnonneg : 0 ≤ n % 256 := Int.emod_nonneg n (by decide)
  simp only [UInt8.ofInt, UInt8.toNat_ofNat']
  omega

theorem lowBytes_numbers (bytes : List UInt8) : lowBytes (numbers bytes) = bytes :=
  map_ofInt_toNat bytes

theorem numbers_lowBytes (data : List Int) : numbers (lowBytes data) = data.map (· % 256) := by
  rw [numbers, lowBytes, List.map_map]
  exact List.map_congr_left fun n _ => toNat_uint8OfInt n

theorem bounds_of_mem_numbers {bytes : List UInt8} {n : Int} (h : n ∈ numbers bytes) :
    0 ≤ n ∧ n ≤ 0xff := by
  obtain ⟨b, -, rfl⟩ := List.mem_map.1 h
  exact toNat_bounds b

theorem ediv_pow_succ (n : Int) (i : Nat) : n / 256 ^ (i + 1) = n / 256 / 256 ^ i := by
  rw [pow_succ', Int.ediv_ediv_of_nonneg (by decide)]

/-- The byte at a position is the digit there. -/
theorem getElem?_ofInt {size i : Nat} (h : i < size) (n : Int) :
    (ofInt size n)[i]? = some (UInt8.ofInt (n / 256 ^ i)) := by
  induction size generalizing i n with
  | zero => omega
  | succ size ih =>
    cases i with
    | zero => simp [ofInt]
    | succ i => rw [ofInt, List.getElem?_cons_succ, ih (by omega), ediv_pow_succ]

/-- The bytes of an integer are the integer, apart from the digits that there is no room for. -/
theorem toNat_ofInt (size : Nat) (n : Int) : (toNat (ofInt size n) : Int) = n % 256 ^ size := by
  induction size generalizing n with
  | zero => simp [ofInt, toNat]
  | succ size ih =>
    have hlow := toNat_uint8OfInt n
    have hhigh := ih (n / 256)
    have hsplit : n % 256 ^ (size + 1) = n % 256 + 256 * (n / 256 % 256 ^ size) := by
      have hassoc : (256 : Int) ^ (size + 1) * (n / 256 / 256 ^ size) =
          256 * (256 ^ size * (n / 256 / 256 ^ size)) := by rw [pow_succ', Int.mul_assoc]
      rw [Int.emod_def, ediv_pow_succ, Int.emod_def (n / 256), hassoc]
      omega
    rw [ofInt, toNat, hsplit]
    omega

/-- The integer of bytes has these bytes. -/
theorem ofInt_length_toNat (bytes : List UInt8) : ofInt bytes.length (toNat bytes) = bytes := by
  induction bytes with
  | nil => rfl
  | cons b bs ih =>
    have hlow : UInt8.ofInt (toNat (b :: bs)) = b := by
      apply UInt8.toNat_inj.1
      have hmod := toNat_uint8OfInt (toNat (b :: bs))
      have hlt := b.toNat_lt
      rw [toNat] at hmod ⊢
      omega
    have hhigh : (toNat (b :: bs) : Int) / 256 = toNat bs := by
      have hlt := b.toNat_lt
      rw [toNat]
      omega
    rw [List.length_cons, ofInt, hlow, hhigh, ih]

theorem pow_mul_eight (i : Nat) : (2 : Int) ^ (8 * i) = 256 ^ i := pow_mul 2 8 i

/-- Four bytes that are stored leave the integer's low 32 bits, and any other bytes stay bytes. -/
theorem storedNumbers_ofInt (size : Nat) (n : Int) {type : String}
    (htype : ¬ "char".toList <+: type.toList) :
    Variable.storedNumbers type (numbers (ofInt size n)) =
      .ok (if size = 4 then .int (n % 2 ^ 32) else .bytes (ofInt size n)) := by
  have hchar : Variable.isCharType type = false := by
    rw [← Bool.not_eq_true, Variable.isCharType, List.isPrefixOf_iff_prefix]
    exact htype
  rw [numbers, Variable.storedNumbers_bytes, Variable.storedValue, length_ofInt, toNat_ofInt]
  simp only [hchar, Bool.false_and, Bool.false_eq_true, if_false]
  split
  · next hsize => rw [hsize, ← pow_mul_eight]
  · rfl

/-- An integer of either sign is written as the given number of bytes, of which each is the digit in
base 256 at its position, and which are read as the integer modulo the power of two with eight bits
for each byte; stored into a variable of no character type, four of them leave that integer, and
others the bytes themselves. Numbers that are read as an integer and written again are their own low
bytes. -/
theorem littleEndian_codec (size : Nat) (n : Int) (data : List Int) :
    (∃ bytes, ofInt? size n = .ok bytes ∧ bytes.length = size ∧
      (∀ x ∈ numbers bytes, 0 ≤ x ∧ x ≤ 0xff) ∧
      (∀ i < size, (numbers bytes)[i]? = some (n / 2 ^ (8 * i) % 256)) ∧
      (toNat (lowBytes (numbers bytes)) : Int) = n % 2 ^ (8 * size) ∧
      ∀ type, ¬ "char".toList <+: type.toList →
        Variable.storedNumbers type (numbers bytes) =
          .ok (if size = 4 then .int (n % 2 ^ 32) else .bytes bytes)) ∧
    ∃ bytes, ofInt? data.length (toNat (lowBytes data)) = .ok bytes ∧
      numbers bytes = data.map (· % 256) := by
  have hwritten : ∀ (width : Nat) (k : Int), ofInt? width k = .ok (ofInt width k) := by
    intro width k
    rw [ofInt?, if_neg (by omega), Int.toNat_natCast]
  refine ⟨⟨ofInt size n, hwritten size n, length_ofInt size n, fun _ => bounds_of_mem_numbers,
    ?_, ?_, fun _ => storedNumbers_ofInt size n⟩, lowBytes data, ?_, numbers_lowBytes data⟩
  · intro i hi
    rw [numbers, List.getElem?_map, getElem?_ofInt hi, Option.map_some, toNat_uint8OfInt,
      pow_mul_eight]
  · rw [lowBytes_numbers, toNat_ofInt, pow_mul_eight]
  · have hread := ofInt_length_toNat (lowBytes data)
    rw [lowBytes, List.length_map] at hread
    rw [hwritten, lowBytes, hread]

/-- A negative integer that takes more than the four bytes of an unsigned one, and numbers that are
no bytes. -/
theorem littleEndian_codec_negative :
    ¬ "char".toList <+: "long".toList ∧
      ofInt? 6 (-0x1234567890) = .ok [0x70, 0x87, 0xa9, 0xcb, 0xed, 0xff] ∧
      Variable.storedNumbers "long" [0x70, 0x87, 0xa9, 0xcb, 0xed, 0xff] =
        .ok (.bytes [0x70, 0x87, 0xa9, 0xcb, 0xed, 0xff]) ∧
      ofInt? 3 (toNat (lowBytes [0x1ff, -2, 7])) = .ok [0xff, 0xfe, 7] := by
  have htype : ¬ "char".toList <+: "long".toList := by decide
  have hwritten : ofInt? 6 (-0x1234567890) = .ok [0x70, 0x87, 0xa9, 0xcb, 0xed, 0xff] := rfl
  obtain ⟨⟨bytes, hbytes, -, -, -, -, hstored⟩, low, hlow, hnumbers⟩ :=
    littleEndian_codec 6 (-0x1234567890) [0x1ff, -2, 7]
  cases hwritten.symm.trans hbytes
  refine ⟨htype, hwritten, hstored "long" htype, hlow.trans ?_⟩
  rw [← lowBytes_numbers low, hnumbers]
  rfl

end Bytes

end TraceReplay
