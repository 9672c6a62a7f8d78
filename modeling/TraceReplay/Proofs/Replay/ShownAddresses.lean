import TraceReplay.Proofs.Address
import TraceReplay.Proofs.Memory.ByteWrites
import TraceReplay.Proofs.Replay.Addresses
import TraceReplay.Proofs.Replay.History

/-! # What a shown address stands for

As long as the cursors have not crossed, all addresses have 32 bits, and the text that a step shows
for a block or a local stands for nothing else. An event with that text as its address frees or
writes the very object that has been shown, also if it has changed in the meantime, and does nothing
if it is gone.
-/

namespace TraceReplay

namespace Event

/-- The address of an event that frees or writes what is there. -/
def target? : Event → Option (Option Int)
  | release e => some e.address
  | store e => some e.address
  | storeByte e => some e.address
  | _ => none

/-- What an event does to the live block at its address. -/
def onBlock : Event → HeapBlock → HeapBlock
  | release _, b => b.erase
  | store e, b => b.setBytes e.bytes
  | storeByte e, b =>
    if 0 ≤ e.offset ∧ e.offset < b.size then b.setByte e.offset.toNat e.byte.toNat else b
  | _, b => b

/-- What an event does to the local at its address. -/
def onLocal : Event → Variable → Variable
  | store e, v => { v with value := Variable.storedValue v.type e.bytes }
  | _, v => v

theorem target?_ofJson {operation : Operation} {x : Json} {e : Event}
    (h : Event.ofJson operation x = .accepted e) {address : Option Int}
    (ht : e.target? = some address) : address = Field.address? x := by
  cases operation <;> obtain ⟨data, hdata, rfl⟩ := Checked.map_eq_accepted_iff.1 h
  case release =>
    cases (Field.object_eq_accepted hdata).2
    exact (Option.some.inj ht).symm
  case store =>
    obtain ⟨bytes, -, rfl⟩ := Checked.map_eq_accepted_iff.1 (Field.object_eq_accepted hdata).2
    exact (Option.some.inj ht).symm
  case storeByte =>
    obtain ⟨_, byte, hoffset, -, rfl⟩ :=
      Checked.seq_eq_accepted_iff.1 (Field.object_eq_accepted hdata).2
    obtain ⟨offset, -, rfl⟩ := Checked.map_eq_accepted_iff.1 hoffset
    exact (Option.some.inj ht).symm
  all_goals cases ht

variable {format : Format} {m : Memory} {e : Event}

/-- An event that is aimed at a live block changes this block and nothing else. -/
theorem effect_of_block (hm : m.HeapLayout) {k : Nat} {b : HeapBlock} (hb : m.heap[k]? = some b)
    (hlive : b.freed = false) (ht : e.target? = some (some b.address)) :
    e.effect format m = .ok { m with heap := m.heap.set k (e.onBlock b) } := by
  have hfound : m.liveBlock? (some b.address) = some b :=
    hm.liveBlock?_address (List.mem_of_getElem? hb) hlive
  have hset : ∀ f : HeapBlock → HeapBlock,
      updateFirst (HeapBlock.liveAt (some b.address)) f m.heap = m.heap.set k (f b) := by
    intro f
    apply updateFirst_eq_set f hm.addresses_nodup hb (HeapBlock.liveAt_iff.2 ⟨rfl, hlive⟩)
    intro c _ hc
    exact (Option.some.inj (HeapBlock.liveAt_iff.1 hc).1).symm
  cases e with
  | release r =>
    have haddress : r.address = some b.address := Option.some.inj ht
    simp only [effect, Memory.free, haddress, hset]
    rfl
  | store s =>
    have haddress : s.address = some b.address := Option.some.inj ht
    simp only [effect, Store.effect, haddress, hfound, Memory.setBytes, hset]
    rfl
  | storeByte s =>
    have haddress : s.address = some b.address := Option.some.inj ht
    by_cases hoffset : 0 ≤ s.offset ∧ s.offset < b.size
    · simp [effect, Memory.setByte, Memory.hasByte, haddress, hfound, hset, onBlock, hoffset]
    · have hsame : m.heap.set k b = m.heap := by
        obtain ⟨hk, rfl⟩ := List.getElem?_eq_some_iff.1 hb
        exact List.set_getElem_self hk
      simp [effect, Memory.setByte, Memory.hasByte, haddress, hfound, onBlock, hoffset, hsame]
  | _ => cases ht

/-- An event that is aimed at a local of the innermost frame, where no block is live, changes at
most this local. -/
theorem effect_of_local (hm : m.StackLayout) {f : Frame} {rest : List Frame}
    (hf : m.frames = f :: rest) {i : Nat} {v : Variable} (hv : f.locals[i]? = some v)
    (hnone : m.liveBlock? (some v.address) = none) (ht : e.target? = some (some v.address)) :
    e.effect format m =
      .ok { m with frames := { f with locals := f.locals.set i (e.onLocal v) } :: rest } := by
  have hsame : { m with frames := { f with locals := f.locals.set i v } :: rest } = m := by
    obtain ⟨hi, rfl⟩ := List.getElem?_eq_some_iff.1 hv
    rw [List.set_getElem_self hi, ← hf]
  cases e with
  | release r =>
    have haddress : r.address = some v.address := Option.some.inj ht
    simp only [effect, haddress, Memory.free_of_liveBlock?_eq_none hnone, onLocal, hsame]
  | store s =>
    have haddress : s.address = some v.address := Option.some.inj ht
    have hset : updateFirst (fun w => some w.address = s.address)
        (fun w => { w with value := Variable.storedValue w.type s.bytes }) f.locals =
          f.locals.set i (onLocal (.store s) v) := by
      rw [haddress]
      apply updateFirst_eq_set _ (hm.frame_addresses_nodup hf) hv
      · simp
      · intro w _ hw
        simpa using hw
    simp only [effect, Store.effect, haddress, hnone]
    simp only [Memory.storeAt, Memory.assignFirst, hf, ← haddress, hset]
  | storeByte s =>
    have haddress : s.address = some v.address := Option.some.inj ht
    simp only [effect, haddress, Memory.setByte_of_liveBlock?_eq_none hnone, onLocal, hsame]
  | _ => cases ht

/-- An event that is aimed at nothing does nothing. -/
theorem effect_of_nothing {address : Option Int} (hblock : m.liveBlock? address = none)
    (hlocal : ∀ f rest, m.frames = f :: rest → ∀ v ∈ f.locals, some v.address ≠ address)
    (ht : e.target? = some address) : e.effect format m = .ok m := by
  cases e with
  | release r =>
    cases ht
    simp only [effect, Memory.free_of_liveBlock?_eq_none hblock]
  | store s =>
    cases ht
    simp only [effect, Store.effect, hblock, Memory.storeAt]
    cases hf : m.frames with
    | nil => simp only [Memory.assignFirst, hf]
    | cons f rest =>
      have hno : ∀ w ∈ f.locals, decide (some w.address = s.address) = false :=
        fun w hw => decide_eq_false (hlocal f rest hf w hw)
      simp only [Memory.assignFirst, hf, updateFirst_of_forall_not _ hno]
      rw [← hf]
  | storeByte s =>
    cases ht
    simp only [effect, Memory.setByte_of_liveBlock?_eq_none hblock]
  | _ => cases ht

end Event

/-- The element is read as an event that frees or writes what is at the address of this text. -/
structure Format.Aims (format : Format) (x : Json) (text : String) (e : Event) : Prop where
  read : (Item.read format x).event? = some e
  addr : x.field? "addr" = some (.text text)
  aimed : e.target?.isSome

theorem Format.Aims.target? {format : Format} {x : Json} {text : String} {e : Event}
    (h : format.Aims x text e) : e.target? = some (Address.ofText? text) := by
  obtain ⟨address, ht⟩ := Option.isSome_iff_exists.1 h.aimed
  obtain ⟨tag, operation, -, -, hdata⟩ := Item.event?_read.1 h.read
  rw [ht, Event.target?_ofJson hdata ht, Field.address?, h.addr]
  rfl

/-- The blocks lie below the cursor of the stack, and the locals above it. -/
structure Memory.Apart (m : Memory) : Prop where
  stack : StackLayout m
  heap : HeapLayout m
  cursors : m.heapCursor ≤ m.stackCursor

namespace Memory.Apart

variable {m : Memory}

theorem ofText?_inside {address : Int} (hle : heapBase ≤ address) (hlt : address < stackTop) :
    Address.ofText? (Address.hex address) = some address := by
  have hmodulus : (Address.modulus : Int) = 0x100000000 := rfl
  unfold heapBase at hle
  unfold stackTop at hlt
  exact Address.ofText?_hex (by omega) (by omega)

theorem ofText?_block (h : Apart m) {b : HeapBlock} (hb : b ∈ m.heap) :
    Address.ofText? (Address.hex b.address) = some b.address := by
  have hbounds := h.heap.blocks.bounds hb
  have hpos := slot_pos b.size
  have hcursors := h.cursors
  have htop := h.stack.cursor
  exact ofText?_inside hbounds.1 (by omega)

/-- An event with the text of a block changes this block if it is live, and nothing otherwise. -/
theorem effect_of_block (h : Apart m) {format : Format} {x : Json} {e : Event} {k : Nat}
    {b : HeapBlock} (hb : m.heap[k]? = some b) (haims : format.Aims x (Address.hex b.address) e) :
    e.effect format m =
      .ok (if b.freed then m else { m with heap := m.heap.set k (e.onBlock b) }) := by
  have hmem := List.mem_of_getElem? hb
  have ht : e.target? = some (some b.address) := by
    rw [haims.target?, h.ofText?_block hmem]
  cases hfreed : b.freed with
  | false => exact Event.effect_of_block h.heap hb hfreed ht
  | true =>
    have hblock : m.liveBlock? (some b.address) = none := by
      apply List.find?_eq_none.2
      intro c hc hlive
      obtain ⟨haddress, hlive⟩ := HeapBlock.liveAt_iff.1 hlive
      have hcb : b = c :=
        List.inj_on_of_nodup_map h.heap.addresses_nodup hmem hc (Option.some.inj haddress)
      rw [← hcb, hfreed] at hlive
      cases hlive
    apply Event.effect_of_nothing hblock _ ht
    intro f rest hf v hv heq
    have hlt := block_lt_local h.stack h.heap h.cursors
      (mem_locals (hf ▸ List.mem_cons_self) hv) hmem
    rw [Option.some.inj heq] at hlt
    exact Int.lt_irrefl _ hlt

end Memory.Apart

def pointerTrace : List Json :=
  [.object [("type", .text "function_enter"), ("fn", .text "main")],
    .object [("type", .text "local_alloc"), ("name", .text "p")],
    .object [("type", .text "local_alloc"), ("name", .text "x"), ("value", .int 5)],
    .object [("type", .text "malloc"), ("sizeBytes", .int 2), ("sym", .text "p")],
    .object [("type", .text "malloc"), ("sizeBytes", .int 2)],
    .object [("type", .text "free"), ("addr", .text "0x10000000")]]

end TraceReplay
