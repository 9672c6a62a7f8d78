/-! # Little-endian integers

An integer is written as a fixed number of bytes, the least significant first; the bits beyond
them are dropped, so a negative integer is written as its two's complement. Bytes are read as an
unsigned integer.
-/

namespace TraceReplay.Bytes

/-- The low `8 * size` bits of `n`, least significant byte first. -/
def ofInt : Nat → Int → List UInt8
  | 0, _ => []
  | size + 1, n => UInt8.ofInt n :: ofInt size (n / 256)

/-- The unsigned value of bytes, least significant first. -/
def toNat : List UInt8 → Nat
  | [] => 0
  | b :: bs => b.toNat + 256 * toNat bs

def fits (size : Nat) (n : Int) : Bool :=
  let bound : Int := Nat.pow 256 size / 2
  n < bound && -bound ≤ n

theorem toNat_bounds (b : UInt8) : 0 ≤ (b.toNat : Int) ∧ (b.toNat : Int) ≤ 0xff := by
  have hlt := b.toNat_lt
  omega

theorem ofInt_toNat (b : UInt8) : UInt8.ofInt b.toNat = b := by
  have hlt : b.toNat < 256 := b.toNat_lt
  apply UInt8.toNat_inj.1
  simp [UInt8.ofInt]
  omega

theorem map_ofInt_toNat (bytes : List UInt8) :
    (bytes.map fun b => (b.toNat : Int)).map UInt8.ofInt = bytes := by
  rw [List.map_map]
  exact (List.map_congr_left fun b _ => ofInt_toNat b).trans (List.map_id bytes)

theorem exists_bytes_of_bounds {data : List Int} (h : ∀ n ∈ data, 0 ≤ n ∧ n ≤ 0xff) :
    ∃ bytes : List UInt8, data = bytes.map fun b => (b.toNat : Int) := by
  refine ⟨data.map UInt8.ofInt, ?_⟩
  rw [List.map_map]
  refine ((List.map_id data).symm.trans ?_)
  apply List.map_congr_left
  intro n hn
  have hn' := h n hn
  simp [UInt8.ofInt]
  omega

theorem length_ofInt (size : Nat) (n : Int) : (ofInt size n).length = size := by
  induction size generalizing n with
  | zero => rfl
  | succ size ih => simp [ofInt, ih]

end TraceReplay.Bytes
