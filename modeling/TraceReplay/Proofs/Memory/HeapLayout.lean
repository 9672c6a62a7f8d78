import TraceReplay.Proofs.Memory.Action

/-! # The layout of the heap

The blocks of the heap lie one behind the other from the heap's base to its cursor, in the order of
their allocation. Each block has the bytes of its size, which are all erased once it is freed and
all there as long as it is live. Every change of a memory keeps this, so a live block is found by
its address, and a write that passes the check of its offset meets a byte.
-/

namespace TraceReplay

/-- The bytes and the label of a block agree with its size and with whether it is freed. -/
structure HeapBlock.Sound (b : HeapBlock) : Prop where
  length : (b.bytes.length : Int) = max 0 b.size
  freed : b.freed = true → b.label = freedLabel ∧ ∀ byte ∈ b.bytes, byte = none
  live : b.freed = false → ∀ byte ∈ b.bytes, byte ≠ none

namespace HeapBlock

theorem fresh_sound (address size : Int) (label : String) : (fresh address size label).Sound := by
  constructor
  · simp only [fresh, List.length_replicate]
    omega
  · intro h
    cases h
  · intro _ byte hbyte
    rw [List.eq_of_mem_replicate hbyte]
    exact Option.some_ne_none 0

theorem Sound.erase {b : HeapBlock} (h : b.Sound) : b.erase.Sound := by
  constructor
  · simpa only [HeapBlock.erase, List.length_map] using h.length
  · intro _
    refine ⟨rfl, fun byte hbyte => ?_⟩
    obtain ⟨_, -, rfl⟩ := List.mem_map.1 hbyte
    rfl
  · intro hlive
    cases hlive

theorem Sound.setByte {b : HeapBlock} (h : b.Sound) (hlive : b.freed = false) (offset : Nat)
    (byte : Int) : (b.setByte offset byte).Sound := by
  constructor
  · simpa only [HeapBlock.setByte, List.length_set] using h.length
  · intro hfreed
    exact absurd (hlive.symm.trans hfreed) Bool.false_ne_true
  · intro _ x hx
    rcases List.mem_or_eq_of_mem_set hx with hx | rfl
    · exact h.live hlive x hx
    · exact Option.some_ne_none byte

theorem length_setBytes (bytes : List UInt8) (b : HeapBlock) :
    (b.setBytes bytes).bytes.length = b.bytes.length := by
  simp only [setBytes, List.length_append, List.length_map, List.length_take, List.length_drop]
  omega

theorem Sound.setBytes {b : HeapBlock} (h : b.Sound) (hlive : b.freed = false)
    (bytes : List UInt8) : (b.setBytes bytes).Sound := by
  constructor
  · rw [length_setBytes]
    exact h.length
  · intro hfreed
    exact absurd (hlive.symm.trans hfreed) Bool.false_ne_true
  · intro _ x hx
    rcases List.mem_append.1 hx with hx | hx
    · obtain ⟨byte, -, rfl⟩ := List.mem_map.1 hx
      exact Option.some_ne_none _
    · exact h.live hlive x (List.mem_of_mem_drop hx)

theorem liveAt_iff {address : Option Int} {b : HeapBlock} :
    liveAt address b = true ↔ address = some b.address ∧ b.freed = false := by
  simp only [liveAt, Bool.and_eq_true, decide_eq_true_eq, Bool.not_eq_true']
  exact and_congr_left' eq_comm

end HeapBlock

namespace Memory

/-- Blocks that lie one behind the other from the first address to the last one. -/
def Contiguous : Int → List HeapBlock → Int → Prop
  | start, [], stop => start = stop
  | start, b :: rest, stop => b.address = start ∧ Contiguous (start + slot b.size) rest stop

theorem Contiguous.concat {start stop : Int} {bs : List HeapBlock} (h : Contiguous start bs stop)
    {b : HeapBlock} (hb : b.address = stop) :
    Contiguous start (bs ++ [b]) (stop + slot b.size) := by
  induction bs generalizing start with
  | nil =>
    have hstart : start = stop := h
    exact ⟨hb.trans hstart.symm, by rw [hstart]; rfl⟩
  | cons c rest ih => exact ⟨h.1, ih h.2⟩

theorem Contiguous.updateFirst {f : HeapBlock → HeapBlock}
    (hf : ∀ b, (f b).address = b.address ∧ (f b).size = b.size) (p : HeapBlock → Bool)
    {start stop : Int} {bs : List HeapBlock} (h : Contiguous start bs stop) :
    Contiguous start (updateFirst p f bs) stop := by
  induction bs generalizing start with
  | nil => exact h
  | cons b rest ih =>
    obtain ⟨hb, hrest⟩ := h
    by_cases hp : p b
    · rw [TraceReplay.updateFirst, if_pos hp]
      exact ⟨(hf b).1.trans hb, by rw [(hf b).2]; exact hrest⟩
    · rw [TraceReplay.updateFirst, if_neg hp]
      exact ⟨hb, ih hrest⟩

theorem Contiguous.le {start stop : Int} {bs : List HeapBlock} (h : Contiguous start bs stop) :
    start ≤ stop := by
  induction bs generalizing start with
  | nil => exact Int.le_of_eq h
  | cons b rest ih =>
    have hrest := ih h.2
    have hpos := slot_pos b.size
    omega

theorem Contiguous.bounds {start stop : Int} {bs : List HeapBlock}
    (h : Contiguous start bs stop) {b : HeapBlock} (hb : b ∈ bs) :
    start ≤ b.address ∧ b.address + slot b.size ≤ stop := by
  induction bs generalizing start with
  | nil => cases hb
  | cons c rest ih =>
    obtain ⟨hc, hrest⟩ := h
    rcases List.mem_cons.1 hb with rfl | hb
    · have hle := hrest.le
      omega
    · have hb' := ih hrest hb
      have hpos := slot_pos c.size
      omega

theorem Contiguous.increasing {start stop : Int} {bs : List HeapBlock}
    (h : Contiguous start bs stop) :
    bs.Pairwise fun b c => b.address + slot b.size ≤ c.address := by
  induction bs generalizing start with
  | nil => exact .nil
  | cons b rest ih =>
    obtain ⟨hb, hrest⟩ := h
    rw [List.pairwise_cons]
    refine ⟨?_, ih hrest⟩
    intro c hc
    have hc' := hrest.bounds hc
    omega

/-- What holds of the heap of every memory. -/
structure HeapLayout (m : Memory) : Prop where
  blocks : Contiguous heapBase m.heap m.heapCursor
  sound : ∀ b ∈ m.heap, b.Sound

theorem initial_heapLayout : HeapLayout initial := ⟨rfl, fun _ hb => nomatch hb⟩

theorem HeapLayout.congr {m m' : Memory} (h : HeapLayout m) (he : m'.heapPart = m.heapPart) :
    HeapLayout m' := by
  obtain ⟨hheap, hcursor⟩ := Prod.mk.inj he
  constructor
  · rw [hheap, hcursor]
    exact h.blocks
  · rw [hheap]
    exact h.sound

theorem HeapLayout.allocate {m : Memory} (h : HeapLayout m) (size : Int) (label : String) :
    HeapLayout (m.allocate size label).2 := by
  constructor
  · exact h.blocks.concat (b := HeapBlock.fresh m.heapCursor size label) rfl
  · intro b hb
    rcases List.mem_append.1 hb with hb | hb
    · exact h.sound b hb
    · rw [List.mem_singleton.1 hb]
      exact HeapBlock.fresh_sound _ _ _

/-- A change of the live block at an address that leaves it sound and in its place. -/
theorem HeapLayout.update {m : Memory} (h : HeapLayout m) (address : Option Int)
    {f : HeapBlock → HeapBlock} (hplace : ∀ b, (f b).address = b.address ∧ (f b).size = b.size)
    (hsound : ∀ b, b.freed = false → b.Sound → (f b).Sound) :
    HeapLayout { m with heap := updateFirst (HeapBlock.liveAt address) f m.heap } := by
  constructor
  · exact h.blocks.updateFirst hplace _
  · exact forall_mem_updateFirst (fun b hb => hsound b (HeapBlock.liveAt_iff.1 hb).2) h.sound

theorem HeapLayout.free {m : Memory} (h : HeapLayout m) (address : Option Int) :
    HeapLayout (m.free address) :=
  h.update address (fun _ => ⟨rfl, rfl⟩) fun _ _ hb => hb.erase

theorem HeapLayout.setByte {m : Memory} (h : HeapLayout m) (address : Option Int)
    (offset byte : Int) : HeapLayout (m.setByte address offset byte) := by
  unfold Memory.setByte
  split
  · exact h.update address (fun _ => ⟨rfl, rfl⟩) fun _ hlive hb => hb.setByte hlive _ _
  · exact h

theorem HeapLayout.setBytes {m : Memory} (h : HeapLayout m) (address : Option Int)
    (bytes : List UInt8) : HeapLayout (m.setBytes address bytes) :=
  h.update address (fun _ => ⟨rfl, rfl⟩) fun _ hlive hb => hb.setBytes hlive bytes

/-- Every change keeps the layout of the heap. -/
theorem Change.heapLayout {m m' : Memory} (hc : Change m m') (h : HeapLayout m) :
    HeapLayout m' := by
  cases hc with
  | push name => exact h.congr (heapPart_push name m)
  | pop => exact h.congr (heapPart_pop m)
  | declare hd => exact h.congr (heapPart_declare hd)
  | assign p value => exact h.congr (heapPart_assignFirst p value m)
  | allocate size label => exact h.allocate size label
  | free address => exact h.free address
  | setByte address offset byte => exact h.setByte address offset byte
  | setBytes address bytes => exact h.setBytes address bytes
  | emit text => exact h.congr (heapPart_emit text m)

theorem Reaches.heapLayout {m m' : Memory} (hr : Reaches m m') (h : HeapLayout m) :
    HeapLayout m' :=
  hr.keeps (fun _ _ hc => hc.heapLayout) h

theorem Change.le_heapCursor {m m' : Memory} (hc : Change m m') :
    m.heapCursor ≤ m'.heapCursor := by
  cases hc with
  | push name => exact Int.le_refl _
  | pop => exact Int.le_refl _
  | declare hd => exact Int.le_of_eq (congrArg Prod.snd (heapPart_declare hd)).symm
  | assign p value => exact Int.le_of_eq (congrArg Prod.snd (heapPart_assignFirst p value m)).symm
  | allocate size label => exact Int.le_of_lt (Int.lt_add_of_pos_right _ (slot_pos size))
  | free address => exact Int.le_refl _
  | setByte address offset byte =>
    unfold Memory.setByte
    split <;> exact Int.le_refl _
  | setBytes address bytes => exact Int.le_refl _
  | emit text => exact Int.le_refl _

theorem Reaches.le_heapCursor {m m' : Memory} (h : Reaches m m') : m.heapCursor ≤ m'.heapCursor :=
  h.keeps (fun _ _ hc hle => Int.le_trans hle hc.le_heapCursor) (Int.le_refl _)

namespace HeapLayout

variable {m : Memory}

theorem addresses_increasing (h : HeapLayout m) : (m.heap.map (·.address)).Pairwise (· < ·) := by
  rw [List.pairwise_map]
  apply h.blocks.increasing.imp
  intro b c hbc
  have hpos := slot_pos b.size
  omega

theorem addresses_nodup (h : HeapLayout m) : (m.heap.map (·.address)).Nodup :=
  h.addresses_increasing.imp Int.ne_of_lt

/-- A live block is found by its address. -/
theorem liveBlock?_address (h : HeapLayout m) {b : HeapBlock} (hb : b ∈ m.heap)
    (hlive : b.freed = false) : m.liveBlock? (some b.address) = some b := by
  apply find?_eq_some_of_nodup h.addresses_nodup hb
  · exact HeapBlock.liveAt_iff.2 ⟨rfl, hlive⟩
  · intro c _ hc
    exact (Option.some.inj (HeapBlock.liveAt_iff.1 hc).1).symm

theorem hasByte_position (h : HeapLayout m) {address : Option Int} {offset : Int}
    (hoffset : m.hasByte address offset = true) :
    ∃ b, m.liveBlock? address = some b ∧ 0 ≤ offset ∧ offset < b.bytes.length := by
  unfold hasByte at hoffset
  cases hb : m.liveBlock? address with
  | none => simp [hb] at hoffset
  | some b =>
    simp only [hb, Bool.and_eq_true, decide_eq_true_eq] at hoffset
    have hlength := (h.sound b (List.mem_of_find?_eq_some hb)).length
    exact ⟨b, rfl, hoffset.1, by omega⟩

end HeapLayout

/-- The heap after any sequence of actions: its blocks fill it from its base to its cursor without
gaps, they are sound, their addresses differ, the address of a live block finds it, and no write
goes beyond the bytes of its block. -/
theorem performAll_heap (actions : List Action) :
    let m := initial.performAll actions
    Contiguous heapBase m.heap m.heapCursor ∧ (∀ b ∈ m.heap, b.Sound) ∧
      (m.heap.map (·.address)).Nodup ∧
      (∀ b ∈ m.heap, b.freed = false → m.liveBlock? (some b.address) = some b) ∧
      ∀ address offset, m.hasByte address offset = true →
        ∃ b, m.liveBlock? address = some b ∧ 0 ≤ offset ∧ offset < b.bytes.length := by
  intro m
  have h : HeapLayout m := (performAll_reaches actions initial).heapLayout initial_heapLayout
  exact ⟨h.blocks, h.sound, h.addresses_nodup, fun b hb => h.liveBlock?_address hb,
    fun _ _ => h.hasByte_position⟩

end Memory

end TraceReplay
