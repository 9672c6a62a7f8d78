import TraceReplay.Proofs.Memory.HeapLayout

/-! # Bytes written in turn

Replacing the leading bytes of a live block is the same as writing them one after the other, each
at its own offset, where an offset outside of the block does nothing. Both leave an equal memory,
provided that the blocks have the bytes of their sizes. No write changes where another one meets a
byte, so writes at different offsets may change places, and the number of bytes that are written is
known before the first one is.
-/

namespace TraceReplay

namespace HeapBlock

/-- Write bytes one after the other, the first of them at a position. -/
def writeFrom : Nat → List UInt8 → HeapBlock → HeapBlock
  | _, [], b => b
  | position, byte :: rest, b => writeFrom (position + 1) rest (b.setByte position byte.toNat)

theorem setByte_of_length_le {b : HeapBlock} {position : Nat} (h : b.bytes.length ≤ position)
    (byte : Int) : b.setByte position byte = b := by
  rw [setByte, List.set_eq_of_length_le h]

theorem writeFrom_of_length_le {b : HeapBlock} {position : Nat} (h : b.bytes.length ≤ position)
    (bytes : List UInt8) : b.writeFrom position bytes = b := by
  induction bytes generalizing position with
  | nil => rfl
  | cons byte rest ih =>
    rw [writeFrom, setByte_of_length_le h]
    exact ih (Nat.le_succ_of_le h)

/-- Bytes written in turn take the place of those that were there, as far as the block reaches. -/
theorem writeFrom_eq (position : Nat) (bytes : List UInt8) (b : HeapBlock)
    (h : position ≤ b.bytes.length) :
    b.writeFrom position bytes =
      { b with
        bytes := b.bytes.take position ++
          (bytes.take (b.bytes.length - position)).map (fun byte => some (byte.toNat : Int)) ++
          b.bytes.drop (position + bytes.length) } := by
  induction bytes generalizing position b with
  | nil => simp [writeFrom]
  | cons byte rest ih =>
    rcases Nat.lt_or_eq_of_le h with hlt | heq
    · have hlength : (b.setByte position byte.toNat).bytes.length = b.bytes.length :=
        List.length_set
      have htake : (b.bytes.set position (some (byte.toNat : Int))).take (position + 1) =
          b.bytes.take position ++ [some (byte.toNat : Int)] := by
        rw [List.take_succ_eq_append_getElem (by rwa [List.length_set]), List.getElem_set_self,
          List.take_set_of_le (Nat.le_refl position)]
      have hsub : b.bytes.length - position = (b.bytes.length - (position + 1)) + 1 := by omega
      rw [writeFrom, ih (position + 1) _ (by omega), hlength, hsub, List.take_succ_cons]
      simp only [setByte, htake, List.map_cons, List.length_cons]
      rw [List.drop_set_of_lt (by omega)]
      simp [Nat.add_assoc, Nat.add_comm 1]
    · have hdrop : b.bytes.drop (position + (rest.length + 1)) = [] :=
        List.drop_eq_nil_of_le (by omega)
      rw [writeFrom_of_length_le (Nat.le_of_eq heq.symm), List.length_cons, hdrop]
      simp [heq]

theorem writeFrom_zero (bytes : List UInt8) (b : HeapBlock) :
    b.writeFrom 0 bytes = b.setBytes bytes := by
  rw [writeFrom_eq 0 bytes b (Nat.zero_le _)]
  simp [setBytes]

/-- Bytes beyond the block are not written. -/
theorem setBytes_take {n : Nat} {b : HeapBlock} (h : b.bytes.length ≤ n) (bytes : List UInt8) :
    b.setBytes (bytes.take n) = b.setBytes bytes := by
  have hdrop : b.bytes.drop (bytes.take n).length = b.bytes.drop bytes.length := by
    rw [List.length_take]
    rcases Nat.le_total bytes.length n with hle | hge
    · rw [Nat.min_eq_right hle]
    · rw [Nat.min_eq_left hge, List.drop_eq_nil_of_le h]
      exact (List.drop_eq_nil_of_le (Nat.le_trans h hge)).symm
  rw [setBytes, setBytes, hdrop, List.take_take, Nat.min_eq_left h]

end HeapBlock

namespace Memory

def writeFrom (address : Option Int) : Nat → List UInt8 → Memory → Memory
  | _, [], m => m
  | offset, byte :: rest, m =>
    writeFrom address (offset + 1) rest (m.setByte address offset byte.toNat)

theorem setByte_of_hasByte {address : Option Int} {offset : Int} {m : Memory}
    (h : m.hasByte address offset = true) (byte : Int) :
    m.setByte address offset byte =
      { m with
        heap := updateFirst (HeapBlock.liveAt address) (HeapBlock.setByte offset.toNat byte)
          m.heap } := by
  rw [setByte, if_pos h]

theorem setByte_of_not_hasByte {address : Option Int} {offset : Int} {m : Memory}
    (h : m.hasByte address offset = false) (byte : Int) : m.setByte address offset byte = m := by
  rw [setByte, if_neg (by simp [h])]

theorem hasByte_of_liveBlock? {address : Option Int} {b : HeapBlock} {m : Memory}
    (h : m.liveBlock? address = some b) (offset : Int) :
    m.hasByte address offset = decide (0 ≤ offset ∧ offset < b.size) := by
  simp [hasByte, h]

theorem nonneg_of_hasByte {address : Option Int} {offset : Int} {m : Memory}
    (h : m.hasByte address offset = true) : 0 ≤ offset := by
  unfold hasByte at h
  split at h
  · simp only [Bool.and_eq_true, decide_eq_true_eq] at h
    exact h.1
  · cases h

/-- A write leaves the block that it is aimed at in place, with its byte changed if it is there. -/
theorem liveBlock?_setByte {address : Option Int} {b : HeapBlock} {m : Memory}
    (h : m.liveBlock? address = some b) (offset byte : Int) :
    (m.setByte address offset byte).liveBlock? address =
      some (if 0 ≤ offset ∧ offset < b.size then b.setByte offset.toNat byte else b) := by
  by_cases hin : 0 ≤ offset ∧ offset < b.size
  · have hfound := find?_updateFirst (p := HeapBlock.liveAt address)
      (f := HeapBlock.setByte offset.toNat byte) (fun _ hb => hb) m.heap
    have hbyte : m.hasByte address offset = true := by simp [hasByte_of_liveBlock? h, hin]
    rw [setByte_of_hasByte hbyte, if_pos hin]
    rw [liveBlock?] at h ⊢
    rw [hfound, h, Option.map_some]
  · have hbyte : m.hasByte address offset = false := by simp [hasByte_of_liveBlock? h, hin]
    rw [setByte_of_not_hasByte hbyte, if_neg hin, h]

theorem hasByte_setByte (address : Option Int) (offset byte other : Int) (m : Memory) :
    (m.setByte address offset byte).hasByte address other = m.hasByte address other := by
  cases hb : m.liveBlock? address with
  | none => rw [setByte_of_liveBlock?_eq_none hb]
  | some b =>
    rw [hasByte_of_liveBlock? hb, hasByte_of_liveBlock? (liveBlock?_setByte hb offset byte)]
    split <;> rfl

/-- Writes at different offsets may change places. -/
theorem setByte_comm (address : Option Int) {offset other : Int} (h : offset ≠ other)
    (byte byte' : Int) (m : Memory) :
    (m.setByte address offset byte).setByte address other byte' =
      (m.setByte address other byte').setByte address offset byte := by
  have hother := hasByte_setByte address offset byte other m
  have hoffset := hasByte_setByte address other byte' offset m
  cases hi : m.hasByte address offset with
  | false => rw [setByte_of_not_hasByte hi, setByte_of_not_hasByte (hoffset.trans hi)]
  | true =>
    cases hj : m.hasByte address other with
    | false => rw [setByte_of_not_hasByte hj, setByte_of_not_hasByte (hother.trans hj)]
    | true =>
      -- Both offsets are those of bytes, so they are not negative and differ as positions too.
      have hle := nonneg_of_hasByte hi
      have hle' := nonneg_of_hasByte hj
      have hswap : HeapBlock.setByte other.toNat byte' ∘ HeapBlock.setByte offset.toNat byte =
          HeapBlock.setByte offset.toNat byte ∘ HeapBlock.setByte other.toNat byte' := by
        funext b
        simp only [Function.comp_apply, HeapBlock.setByte]
        rw [List.set_comm _ _ (by omega)]
      have hlive : ∀ position value b, HeapBlock.liveAt address b = true →
          HeapBlock.liveAt address (b.setByte position value) = true := fun _ _ _ hb => hb
      rw [setByte_of_hasByte (hother.trans hj), setByte_of_hasByte hi,
        setByte_of_hasByte (hoffset.trans hi), setByte_of_hasByte hj]
      simp only
      rw [updateFirst_updateFirst (hlive _ _), updateFirst_updateFirst (hlive _ _), hswap]

/-- The number of bytes that are written when bytes are written one after the other, the first of
them at an offset. -/
def writtenFrom (address : Option Int) : Nat → List UInt8 → Memory → Nat
  | _, [], _ => 0
  | offset, byte :: rest, m =>
    (m.hasByte address offset).toNat +
      writtenFrom address (offset + 1) rest (m.setByte address offset byte.toNat)

/-- Bytes are written as far as the block reaches. -/
theorem writtenFrom_eq {address : Option Int} {b : HeapBlock} {m : Memory}
    (h : m.liveBlock? address = some b) (offset : Nat) (bytes : List UInt8) :
    m.writtenFrom address offset bytes = min bytes.length (b.size.toNat - offset) := by
  induction bytes generalizing m b offset with
  | nil => simp [writtenFrom]
  | cons byte rest ih =>
    rw [writtenFrom, ih (liveBlock?_setByte h offset byte.toNat), hasByte_of_liveBlock? h,
      List.length_cons]
    by_cases hin : 0 ≤ (offset : Int) ∧ (offset : Int) < b.size
    · rw [if_pos hin, decide_eq_true hin, Bool.toNat_true]
      simp only [HeapBlock.setByte]
      omega
    · rw [if_neg hin, decide_eq_false hin, Bool.toNat_false]
      omega

namespace HeapLayout

variable {m : Memory}

/-- A write changes the live block at the address, or none if its offset is outside of it. -/
theorem setByte_eq (h : HeapLayout m) (address : Option Int) (offset : Nat) (byte : Int) :
    m.setByte address offset byte =
      { m with
        heap := updateFirst (HeapBlock.liveAt address) (HeapBlock.setByte offset byte) m.heap } := by
  unfold Memory.setByte
  by_cases hbyte : m.hasByte address offset
  · simp [hbyte]
  · have hsame : updateFirst (HeapBlock.liveAt address) (HeapBlock.setByte offset byte) m.heap =
        updateFirst (HeapBlock.liveAt address) id m.heap := by
      apply updateFirst_congr
      intro b hb
      apply HeapBlock.setByte_of_length_le
      have hlength := (h.sound b (List.mem_of_find?_eq_some hb)).length
      simp [hasByte, liveBlock?, hb] at hbyte
      omega
    simp [hbyte, hsame, updateFirst_id]

theorem writeFrom_eq (h : HeapLayout m) (address : Option Int) (offset : Nat)
    (bytes : List UInt8) :
    m.writeFrom address offset bytes =
      { m with
        heap := updateFirst (HeapBlock.liveAt address) (HeapBlock.writeFrom offset bytes)
          m.heap } := by
  induction bytes generalizing offset m with
  | nil =>
    -- Writing nothing is an update by the identity, not syntactically the memory itself.
    have hid : HeapBlock.writeFrom offset [] = id := rfl
    rw [hid, updateFirst_id]
    rfl
  | cons byte rest ih =>
    rw [writeFrom, ih (h.setByte address offset byte.toNat), h.setByte_eq]
    have hlive : ∀ b, HeapBlock.liveAt address b = true →
        HeapBlock.liveAt address (b.setByte offset byte.toNat) = true := fun _ hb => hb
    simp only
    rw [updateFirst_updateFirst hlive]
    rfl

/-- The bytes of a block written in turn from its start replace its leading bytes. -/
theorem writeFrom_zero (h : HeapLayout m) (address : Option Int) (bytes : List UInt8) :
    m.writeFrom address 0 bytes = m.setBytes address bytes := by
  rw [h.writeFrom_eq, Memory.setBytes]
  congr 2
  funext b
  exact HeapBlock.writeFrom_zero bytes b

theorem liveBlock?_allocate (h : HeapLayout m) (size : Int) (label : String) :
    (m.allocate size label).2.liveBlock? (some m.heapCursor) =
      some (HeapBlock.fresh m.heapCursor size label) :=
  (h.allocate size label).liveBlock?_address (List.mem_append_right _ (List.mem_singleton_self _))
    rfl

/-- Bytes that are written to the block that is allocated are written to no other one. -/
theorem heap_setBytes_allocate (h : HeapLayout m) (size : Int) (label : String)
    (bytes : List UInt8) :
    ((m.allocate size label).2.setBytes (some m.heapCursor) bytes).heap =
      m.heap ++ [(HeapBlock.fresh m.heapCursor size label).setBytes bytes] := by
  have hlast : (m.allocate size label).2.heap[m.heap.length]? =
      some (HeapBlock.fresh m.heapCursor size label) := List.getElem?_concat_length
  have hset := updateFirst_eq_set (HeapBlock.setBytes bytes) (p := HeapBlock.liveAt m.heapCursor)
    (h.allocate size label).addresses_nodup hlast (HeapBlock.liveAt_iff.2 ⟨rfl, rfl⟩)
    fun c _ hc => (Option.some.inj (HeapBlock.liveAt_iff.1 hc).1).symm
  rw [Memory.setBytes]
  simp only [hset]
  simp [Memory.allocate]

/-- A fresh block takes as many bytes as its size. -/
theorem setBytes_take_allocate (h : HeapLayout m) (size : Nat) (label : String)
    (bytes : List UInt8) :
    (m.allocate size label).2.setBytes (some m.heapCursor) (bytes.take size) =
      (m.allocate size label).2.setBytes (some m.heapCursor) bytes := by
  have hblock := h.liveBlock?_allocate size label
  rw [Memory.setBytes, Memory.setBytes]
  congr 1
  apply updateFirst_congr
  intro b hb
  apply HeapBlock.setBytes_take
  cases hblock.symm.trans hb
  simp [HeapBlock.fresh]

end HeapLayout

end Memory

end TraceReplay
