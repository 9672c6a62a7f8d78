import TraceReplay.Proofs.Memory.HeapLayout

/-! # Bounded memories

In a memory whose blocks have been allocated with sizes from one to a limit, and into which only
bytes have been written, every block keeps its size and every byte that is there is one. If no
local has been declared without a size, none is without one. Each operation keeps these bounds,
provided that its arguments are within them.
-/

namespace TraceReplay

namespace HeapBlock

/-- The size of a block is within the limit, and the bytes that are not erased are bytes. -/
structure Bounded (limit : Nat) (b : HeapBlock) : Prop where
  pos : 1 ≤ b.size
  le : b.size ≤ limit
  bytes : ∀ n, some n ∈ b.bytes → 0 ≤ n ∧ n ≤ 0xff

variable {limit : Nat} {b : HeapBlock}

theorem fresh_bounded {size : Int} (hpos : 1 ≤ size) (hle : size ≤ limit) (address : Int)
    (label : String) : (fresh address size label).Bounded limit := by
  refine ⟨hpos, hle, ?_⟩
  intro n hn
  cases List.eq_of_mem_replicate hn
  decide

theorem Bounded.erase (h : b.Bounded limit) : b.erase.Bounded limit := by
  refine ⟨h.pos, h.le, ?_⟩
  intro n hn
  simp [HeapBlock.erase] at hn

theorem Bounded.setByte (h : b.Bounded limit) {byte : Int} (hbyte : 0 ≤ byte ∧ byte ≤ 0xff)
    (offset : Nat) : (b.setByte offset byte).Bounded limit := by
  refine ⟨h.pos, h.le, ?_⟩
  intro n hn
  rcases List.mem_or_eq_of_mem_set hn with hn | hn
  · exact h.bytes n hn
  · cases hn
    exact hbyte

theorem Bounded.setBytes (h : b.Bounded limit) (bytes : List UInt8) :
    (b.setBytes bytes).Bounded limit := by
  refine ⟨h.pos, h.le, ?_⟩
  intro n hn
  rcases List.mem_append.1 hn with hn | hn
  · obtain ⟨byte, -, hbyte⟩ := List.mem_map.1 hn
    cases hbyte
    exact Bytes.toNat_bounds byte
  · exact h.bytes n (List.mem_of_mem_drop hn)

end HeapBlock

namespace Memory

structure Bounded (limit : Nat) (m : Memory) : Prop where
  blocks : ∀ b ∈ m.heap, b.Bounded limit
  locals : ∀ f ∈ m.frames, ∀ v ∈ f.locals, 1 ≤ v.size

theorem initial_bounded (limit : Nat) : initial.Bounded limit :=
  ⟨nofun, nofun⟩

namespace Bounded

variable {limit : Nat} {m m' : Memory}

theorem push (h : m.Bounded limit) (name : String) : (m.push name).Bounded limit := by
  refine ⟨h.blocks, List.forall_mem_cons.2 ⟨?_, h.locals⟩⟩
  intro v hv
  cases hv

theorem pop (h : m.Bounded limit) : m.pop.Bounded limit :=
  ⟨h.blocks, fun f hf => h.locals f (List.mem_of_mem_tail hf)⟩

theorem declare (h : m.Bounded limit) {name type : String} {size : Int} {value : Value}
    {v : Variable} (hsize : 1 ≤ size) (hd : m.declare name type size value = .ok (v, m')) :
    m'.Bounded limit := by
  obtain ⟨rfl, f, rest, hf, rfl⟩ := declare_eq_ok_iff.1 hd
  have hlocals := h.locals
  rw [hf] at hlocals
  obtain ⟨htop, hrest⟩ := List.forall_mem_cons.1 hlocals
  refine ⟨h.blocks, List.forall_mem_cons.2 ⟨?_, hrest⟩⟩
  intro w hw
  rcases List.mem_append.1 hw with hw | hw
  · exact htop w (List.mem_filter.1 hw).1
  · rw [List.mem_singleton.1 hw]
    exact hsize

theorem assignFirst (h : m.Bounded limit) (p : Variable → Bool) (value : Variable → Value) :
    (m.assignFirst p value).Bounded limit := by
  cases hf : m.frames with
  | nil =>
    rw [Memory.assignFirst, hf]
    exact h
  | cons f rest =>
    have hlocals := h.locals
    rw [hf] at hlocals
    obtain ⟨htop, hrest⟩ := List.forall_mem_cons.1 hlocals
    rw [Memory.assignFirst, hf]
    refine ⟨h.blocks, List.forall_mem_cons.2 ⟨?_, hrest⟩⟩
    exact forall_mem_updateFirst (fun _ _ hv => hv) htop

theorem allocate (h : m.Bounded limit) {size : Int} (hpos : 1 ≤ size) (hle : size ≤ limit)
    (label : String) : (m.allocate size label).2.Bounded limit := by
  refine ⟨?_, h.locals⟩
  intro b hb
  rcases List.mem_append.1 hb with hb | hb
  · exact h.blocks b hb
  · rw [List.mem_singleton.1 hb]
    exact HeapBlock.fresh_bounded hpos hle _ _

theorem update (h : m.Bounded limit) (p : HeapBlock → Bool) {f : HeapBlock → HeapBlock}
    (hf : ∀ b, b.Bounded limit → (f b).Bounded limit) :
    Memory.Bounded limit { m with heap := updateFirst p f m.heap } :=
  ⟨forall_mem_updateFirst (fun b _ => hf b) h.blocks, h.locals⟩

theorem free (h : m.Bounded limit) (address : Option Int) : (m.free address).Bounded limit :=
  h.update _ fun _ hb => hb.erase

theorem setByte (h : m.Bounded limit) (address : Option Int) (offset : Int) {byte : Int}
    (hbyte : 0 ≤ byte ∧ byte ≤ 0xff) : (m.setByte address offset byte).Bounded limit := by
  unfold Memory.setByte
  split
  · exact h.update _ fun _ hb => hb.setByte hbyte _
  · exact h

theorem setBytes (h : m.Bounded limit) (address : Option Int) (bytes : List UInt8) :
    (m.setBytes address bytes).Bounded limit :=
  h.update _ fun _ hb => hb.setBytes bytes

theorem emit (h : m.Bounded limit) (text : String) : (m.emit text).Bounded limit :=
  ⟨h.blocks, h.locals⟩

end Bounded

end Memory

/-- A block with a size from one to the limit and as many bytes, all of them there as long as the
block is live, and erased once it is freed. -/
structure HeapBlock.WellFormed (limit : Nat) (b : HeapBlock) : Prop where
  pos : 1 ≤ b.size
  le : b.size ≤ limit
  length : (b.bytes.length : Int) = b.size
  live : b.freed = false → ∀ byte ∈ b.bytes, ∃ n, byte = some n ∧ 0 ≤ n ∧ n ≤ 0xff
  freed : b.freed = true → ∀ byte ∈ b.bytes, byte = none

theorem HeapBlock.Bounded.wellFormed {limit : Nat} {b : HeapBlock} (h : b.Bounded limit)
    (hs : b.Sound) : b.WellFormed limit := by
  have hpos := h.pos
  have hlength := hs.length
  refine ⟨hpos, h.le, by omega, ?_, fun hfreed => (hs.freed hfreed).2⟩
  intro hlive byte hbyte
  -- That the byte is there is due to the layout, that it is one to the bounds.
  obtain ⟨n, rfl⟩ := Option.ne_none_iff_exists'.1 (hs.live hlive byte hbyte)
  exact ⟨n, rfl, h.bytes n hbyte⟩

/-- The data that stand for values: integers, texts, lists of texts of one character, and bytes. -/
inductive Datum.IsValue : Datum → Prop
  | int (n : Int) : IsValue (.int n)
  | text (s : String) : IsValue (.text s)
  | chars {xs : List Datum} (h : ∀ x ∈ xs, ∃ s, x = .text s ∧ s.length = 1) : IsValue (.list xs)
  | bytes {bs : List UInt8} (h : ∀ b ∈ bs, b.toNat ≤ 0xff) : IsValue (.bytes bs)

theorem Value.isValue_toDatum (value : Value) : value.toDatum.IsValue := by
  cases value with
  | int n => exact .int n
  | text s => exact .text s
  | chars cs =>
    apply Datum.IsValue.chars
    intro x hx
    obtain ⟨c, -, rfl⟩ := List.mem_map.1 hx
    exact ⟨String.singleton c, rfl, String.length_singleton⟩
  | bytes bs =>
    apply Datum.IsValue.bytes
    intro b _
    exact Nat.le_of_lt_succ b.toNat_lt

/-- A variable with a size and a value of one of the four kinds. -/
structure Variable.WellFormed (v : Variable) : Prop where
  pos : 1 ≤ v.size
  value : v.value.toDatum.IsValue

/-- What can be seen is well-formed. -/
structure Snapshot.WellFormed (limit : Nat) (s : Snapshot) : Prop where
  blocks : ∀ b ∈ s.heap, b.WellFormed limit
  locals : ∀ f ∈ s.stack, ∀ v ∈ f.locals, v.WellFormed

theorem Memory.Bounded.wellFormed_snapshot {limit : Nat} {m : Memory} (h : m.Bounded limit)
    (hl : m.HeapLayout) : m.snapshot.WellFormed limit := by
  constructor
  · intro b hb
    exact (h.blocks b hb).wellFormed (hl.sound b hb)
  · intro f hf v hv
    exact ⟨h.locals f (List.mem_reverse.1 hf) v hv, v.value.isValue_toDatum⟩

end TraceReplay
