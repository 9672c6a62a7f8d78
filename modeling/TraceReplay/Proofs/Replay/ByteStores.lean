import TraceReplay.Proofs.Event.ReadingBack
import TraceReplay.Proofs.Replay.Stores

/-! # A store of bytes as stores of single bytes

One format stores a list of bytes at once, the other one a byte at an offset. At a live block the
first does what stores of the single bytes do, one for each byte at its own offset, in any order:
the offsets differ, and those behind the end of the block do nothing in either format.
-/

namespace TraceReplay

namespace ByteStore

def unlined (s : ByteStore) : ByteStore := { s with line := none }

def written (s : ByteStore) : Json := .object (("kind", .text "store_mem") :: s.fields)

theorem event?_written (s : ByteStore) :
    (Item.read .wasm s.written).event? = some (.storeByte s) := by
  have hdata : Event.ofJson .storeByte s.written = .accepted (.storeByte s) := by
    change Event.storeByte <$> (ByteStore.mk (Field.lineOf? (.ofInt? s.line))
      (Address.ofJson? (.ofInt? s.address)) <$> Checked.accepted s.offset
      <*> Checked.accepted (UInt8.ofInt s.byte.toNat)) = _
    rw [Field.lineOf?_ofInt?, Address.ofJson?_ofInt?, Bytes.ofInt_toNat]
    rfl
  exact Item.event?_read.2 ⟨"store_mem", .storeByte, rfl, rfl, hdata⟩

end ByteStore

/-- The stores of the single bytes of a store, each at its own offset. -/
def Store.singles (e : Store) : List ByteStore :=
  e.bytes.zipIdx.map fun (byte, offset) => ⟨none, e.address, offset, byte⟩

namespace Memory

def storeEach (stores : List ByteStore) (m : Memory) : Memory :=
  stores.foldl (fun m s => m.setByte s.address s.offset s.byte.toNat) m

theorem storeEach_unlined (stores : List ByteStore) (m : Memory) :
    m.storeEach (stores.map ByteStore.unlined) = m.storeEach stores :=
  List.foldl_map

/-- Stores to one address whose offsets differ may change places. -/
theorem storeEach_perm {address : Option Int} {stores stores' : List ByteStore}
    (h : stores.Perm stores') (haddress : ∀ s ∈ stores, s.address = address)
    (hoffset : ∀ s ∈ stores, ∀ t ∈ stores, s.offset = t.offset → s = t) (m : Memory) :
    m.storeEach stores = m.storeEach stores' := by
  apply h.foldl_eq'
  intro s hs t ht m
  by_cases heq : s.offset = t.offset
  · rw [hoffset s hs t ht heq]
  · rw [haddress s hs, haddress t ht, setByte_comm address heq]

theorem storeEach_zipIdx (address : Option Int) (bytes : List UInt8) (offset : Nat) (m : Memory) :
    m.storeEach ((bytes.zipIdx offset).map fun (byte, i) => ⟨none, address, i, byte⟩) =
      m.writeFrom address offset bytes := by
  induction bytes generalizing offset m with
  | nil => rfl
  | cons byte rest ih => exact ih (offset + 1) (m.setByte address offset byte.toNat)

/-- The single bytes of a store leave the same memory in any order. -/
theorem storeEach_singles_perm {e : Store} {stores : List ByteStore} (h : stores.Perm e.singles)
    (m : Memory) : m.storeEach stores = m.writeFrom e.address 0 e.bytes := by
  have hsingle : ∀ s ∈ e.singles, ∃ byte i, (byte, i) ∈ e.bytes.zipIdx ∧
      s = ⟨none, e.address, (i : Nat), byte⟩ := by
    intro s hs
    obtain ⟨⟨byte, i⟩, hmem, rfl⟩ := List.mem_map.1 hs
    exact ⟨byte, i, hmem, rfl⟩
  have haddress : ∀ s ∈ e.singles, s.address = e.address := by
    intro s hs
    obtain ⟨byte, i, -, rfl⟩ := hsingle s hs
    rfl
  have hoffset : ∀ s ∈ e.singles, ∀ t ∈ e.singles, s.offset = t.offset → s = t := by
    intro s hs t ht heq
    obtain ⟨byte, i, hi, rfl⟩ := hsingle s hs
    obtain ⟨byte', j, hj, rfl⟩ := hsingle t ht
    cases Int.ofNat.inj heq
    rw [(List.mem_zipIdx hi).2.2, (List.mem_zipIdx hj).2.2]
  rw [← storeEach_perm h.symm haddress hoffset]
  exact storeEach_zipIdx e.address e.bytes 0 m

end Memory

theorem Item.effects_byteStores (format : Format) {items : List Item} {stores : List ByteStore}
    (h : items.map event? = stores.map fun s => some (.storeByte s)) (m : Memory) :
    effects format items m = .ok (m.storeEach stores) := by
  induction items generalizing stores m with
  | nil =>
    cases List.map_eq_nil_iff.1 h.symm
    rfl
  | cons item rest ih =>
    cases stores with
    | nil => cases h
    | cons s stores =>
      obtain ⟨hitem, hrest⟩ := List.cons.inj h
      exact effects_cons_eq_ok_iff.2
        ⟨_, effect_of_event?_eq_some hitem format m, ih hrest _⟩

/-- In any memory that a trace leads to, a valid store at a live block leaves what any elements
leave that store the single bytes at their offsets, whatever the order of these elements, their
lines and the way in which they are written. Such elements can be written for every store. -/
theorem Trace.run_store_bytewise (format : Format) (locale locale' : Locale) (trace : Trace)
    {x : Json} {e : Store} (hx : (Item.read .clang x).event? = some (.store e)) {b : HeapBlock}
    (hb : b ∈ (trace.run format locale).memory.heap) (hlive : b.freed = false)
    (haddress : e.address = some b.address) :
    let m := (trace.run format locale).memory
    (e.singles.map ByteStore.written).map (fun y => (Item.read .wasm y).event?) =
        e.singles.map (fun s => some (.storeByte s)) ∧
      ∀ (ys : List Json) (stores : List ByteStore),
        ys.map (fun y => (Item.read .wasm y).event?) = stores.map (fun s => some (.storeByte s)) →
        (stores.map ByteStore.unlined).Perm e.singles →
        let run := Run.ofItems .wasm locale' (ys.map (Item.read .wasm)) m
        run.stopped = none ∧ (Item.read .clang x).effect .clang m = .ok run.memory := by
  intro m
  have hheap : m.HeapLayout := trace.heapLayout_run format locale
  have hstore : e.effect m = m.writeFrom e.address 0 e.bytes :=
    e.effect_of_found hheap (haddress ▸ hheap.liveBlock?_address hb hlive)
  constructor
  · rw [List.map_map]
    exact List.map_congr_left fun s _ => s.event?_written
  · intro ys stores hys hperm run
    have hitems : (ys.map (Item.read .wasm)).map Item.event? =
        stores.map fun s => some (.storeByte s) := by
      rw [List.map_map]
      exact hys
    have hall := Item.effects_byteStores .wasm hitems m
    rw [← Memory.storeEach_unlined, Memory.storeEach_singles_perm hperm] at hall
    obtain ⟨hstopped, hmemory, -⟩ := Run.ofItems_of_effects_ok locale' hall
    refine ⟨hstopped, ?_⟩
    rw [Item.effect_of_event?_eq_some hx, hmemory, ← hstore]
    rfl

theorem Trace.run_store_bytewise_pointerTrace :
    let m := ((Trace.events pointerTrace).run .clang .en).memory
    let x := Json.object [("type", .text "store"), ("addr", .text "0x10000004"),
      ("bytes", .list [.int 9, .null, .int 263])]
    let e : Store := ⟨none, some 0x10000004, [9, 0, 7]⟩
    let ys := [
      Json.object [("kind", .text "store_mem"), ("addr", .int 0x10000004), ("offset", .int 2),
        ("byte", .int 7), ("line", .int 4)],
      .object [("kind", .text "store_mem"), ("addr", .text "10000004"), ("offset", .int 1)],
      .object [("kind", .text "store_mem"), ("addr", .text "0X10000004"), ("byte", .int (-247))]]
    let run := Run.ofItems .wasm .en (ys.map (Item.read .wasm)) m
    (Item.read .clang x).event? = some (.store e) ∧
      ⟨0x10000004, 2, [some 0, some 0], false, "malloc"⟩ ∈ m.heap ∧
      run.stopped = none ∧ (Item.read .clang x).effect .clang m = .ok run.memory := by
  intro m x e ys run
  have hx : (Item.read .clang x).event? = some (.store e) := by decide +kernel
  have hb : ⟨0x10000004, 2, [some 0, some 0], false, "malloc"⟩ ∈ m.heap := by decide +kernel
  obtain ⟨-, hall⟩ :=
    Trace.run_store_bytewise .clang .en .en (.events pointerTrace) hx hb rfl rfl
  have hys : ys.map (fun y => (Item.read .wasm y).event?) =
      [⟨some 4, some 0x10000004, 2, 7⟩, ⟨none, some 0x10000004, 1, 0⟩,
        ⟨none, some 0x10000004, 0, 9⟩].map (fun s => some (.storeByte s)) := by decide +kernel
  exact ⟨hx, hb, hall ys _ hys (by decide +kernel)⟩

end TraceReplay
