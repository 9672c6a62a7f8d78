import TraceReplay.Proofs.Memory.StackLayout
import TraceReplay.Proofs.Replay.Outcome

/-! # The addresses that a run hands out

The addresses of the locals that a run declares descend from the top of the stack, and those of the
blocks that it allocates ascend from the base of the heap. Each lot is free of repetitions. As the
size of a local has no bound, the two cursors may cross, and then a block can get the address of a
local. Up to that point all addresses differ, and a store to a local does not reach the heap.
-/

namespace TraceReplay

theorem Trace.stackLayout_run (format : Format) (locale : Locale) (trace : Trace) :
    (trace.run format locale).memory.StackLayout :=
  (trace.initial_reaches format locale).stackLayout Memory.initial_stackLayout

theorem Allocation.heapCursor_effect (a : Allocation) (m : Memory) :
    (a.effect m).heapCursor = m.heapCursor + Memory.slot a.sizeOfBlock :=
  congrArg Prod.snd (a.heapPart_effect m)

namespace Event

/-- The address of the local that an event declares. -/
def localAddress? (format : Format) (m : Memory) : Event → Option Int
  | declare d =>
    match m.declare d.name (d.typeIn format) d.sizeOfLocal (.ofJson d.value) with
    | .ok (v, _) => some v.address
    | .error _ => none
  | _ => none

/-- The address of the block that an event allocates. -/
def blockAddress? (m : Memory) : Event → Option Int
  | allocate a => some (m.allocate a.sizeOfBlock a.labelOfBlock).1.address
  | _ => none

/-- A declared local lies below the cursor of the stack, which moves down to it. -/
theorem localAddress?_eq_some {format : Format} {m m' : Memory} {e : Event} {address : Int}
    (he : e.effect format m = .ok m') (h : e.localAddress? format m = some address) :
    address < m.stackCursor ∧ m'.stackCursor = address := by
  cases e with
  | declare d =>
    obtain ⟨v, hd⟩ := effect_declare_eq_ok he
    obtain ⟨-, hcursor, hlt⟩ := Memory.place_declare hd
    simp only [localAddress?, hd, Option.some.injEq] at h
    subst h
    exact ⟨hlt, hcursor⟩
  | _ => cases h

/-- An allocated block lies at the cursor of the heap, which moves up behind it. -/
theorem blockAddress?_eq_some {format : Format} {m m' : Memory} {e : Event} {address : Int}
    (he : e.effect format m = .ok m') (h : e.blockAddress? m = some address) :
    address = m.heapCursor ∧ m.heapCursor < m'.heapCursor := by
  cases e with
  | allocate a =>
    cases h
    cases he
    have hcursor := a.heapCursor_effect m
    have hpos := Memory.slot_pos a.sizeOfBlock
    exact ⟨rfl, by omega⟩
  | _ => cases h

end Event

namespace Item

/-- What is handed out by the elements of a run, in their order, up to the one that stops it. -/
def handedOut (format : Format) (address? : Memory → Event → Option Int) :
    List Item → Memory → List Int
  | [], _ => []
  | item :: rest, m =>
    match item.effect format m with
    | .ok after =>
      (item.event?.bind (address? m)).toList ++ handedOut format address? rest after
    | .error _ => []

def localAddresses (format : Format) (items : List Item) (m : Memory) : List Int :=
  handedOut format (Event.localAddress? format) items m

def blockAddresses (format : Format) (items : List Item) (m : Memory) : List Int :=
  handedOut format Event.blockAddress? items m

/-- What an event hands out is available before it and no longer after it, and nothing becomes
available. -/
structure Supply (format : Format) (address? : Memory → Event → Option Int)
    (available : Memory → Int → Prop) : Prop where
  taken : ∀ {m m' : Memory} {e : Event} {a : Int}, e.effect format m = .ok m' →
    address? m e = some a → available m a ∧ ¬ available m' a
  shrinks : ∀ {m m' : Memory} {a : Int}, m.Reaches m' → available m' a → available m a

theorem supply_localAddress (format : Format) :
    Supply format (Event.localAddress? format) fun m a => a < m.stackCursor where
  taken he ha := by
    obtain ⟨hlt, hcursor⟩ := Event.localAddress?_eq_some he ha
    omega
  shrinks h ha := Int.lt_of_lt_of_le ha h.stackCursor_le

theorem supply_blockAddress (format : Format) :
    Supply format Event.blockAddress? fun m a => m.heapCursor ≤ a where
  taken he ha := by
    obtain ⟨rfl, hlt⟩ := Event.blockAddress?_eq_some he ha
    omega
  shrinks h ha := Int.le_trans h.le_heapCursor ha

namespace Supply

variable {format : Format} {address? : Memory → Event → Option Int}
  {available : Memory → Int → Prop}

theorem taken_item (h : Supply format address? available) {item : Item} {m after : Memory}
    (he : item.effect format m = .ok after) {a : Int}
    (ha : a ∈ (item.event?.bind (address? m)).toList) : available m a ∧ ¬ available after a := by
  obtain ⟨e, hevent, haddress⟩ := Option.bind_eq_some_iff.1 (Option.mem_toList.1 ha)
  rw [effect_of_event?_eq_some hevent] at he
  exact h.taken he haddress

/-- What a run hands out is available at its start and no longer at its end. -/
theorem available_of_mem (h : Supply format address? available) (locale : Locale)
    {items : List Item} {m : Memory} {a : Int} (ha : a ∈ handedOut format address? items m) :
    available m a ∧ ¬ available (Run.ofItems format locale items m).memory a := by
  induction items generalizing m with
  | nil => cases ha
  | cons item rest ih =>
    simp only [handedOut] at ha
    simp only [Run.ofItems]
    cases he : item.effect format m with
    | error e => simp [he] at ha
    | ok after =>
      simp only [he, List.mem_append] at ha
      rcases ha with ha | ha
      · obtain ⟨hbefore, hafter⟩ := h.taken_item he ha
        exact ⟨hbefore, fun hend => hafter (h.shrinks (Run.ofItems_reaches _ _ _ _) hend)⟩
      · obtain ⟨hafter, hend⟩ := ih ha
        exact ⟨h.shrinks (effect_reaches he) hafter, hend⟩

/-- A run hands out nothing twice. -/
theorem nodup (h : Supply format address? available) (items : List Item) (m : Memory) :
    (handedOut format address? items m).Nodup := by
  induction items generalizing m with
  | nil => exact .nil
  | cons item rest ih =>
    rw [handedOut]
    cases he : item.effect format m with
    | error e => exact .nil
    | ok after =>
      refine List.nodup_append.2 ⟨?_, ih after, ?_⟩
      · cases item.event?.bind (address? m) with
        | none => exact .nil
        | some a => exact List.pairwise_singleton _ a
      · rintro a ha b hb rfl
        exact (h.taken_item he ha).2 (h.available_of_mem .en hb).1

end Supply

end Item

namespace Memory

/-- As long as the cursors have not crossed, every local lies above every block. -/
theorem block_lt_local {m : Memory} (hs : StackLayout m) (hh : HeapLayout m)
    (hcursors : m.heapCursor ≤ m.stackCursor) {v : Variable} (hv : v ∈ m.locals)
    {b : HeapBlock} (hb : b ∈ m.heap) : b.address < v.address := by
  have hlocal := hs.slot_inside hv
  have hblock := hh.blocks.bounds hb
  have hpos := slot_pos b.size
  omega

theorem liveBlock?_eq_none {m : Memory} {address : Int}
    (h : ∀ b ∈ m.heap, b.address ≠ address) : m.liveBlock? (some address) = none := by
  apply List.find?_eq_none.2
  intro b hb hlive
  exact h b hb (Option.some.inj (HeapBlock.liveAt_iff.1 hlive).1).symm

end Memory

/-- A run declares no two locals at one address and allocates no two blocks at one address. As long
as the cursors have not crossed at its end, all these addresses differ from one another, no local
has the address of a block, and a store to a local of the innermost frame does not reach the
heap. -/
theorem Format.replay_addresses (format : Format) (locale : Locale) (xs : List Json) :
    let items := xs.map (Item.read format)
    let locals := Item.localAddresses format items .initial
    let blocks := Item.blockAddresses format items .initial
    let m := (format.replay locale xs).memory
    locals.Nodup ∧ blocks.Nodup ∧
      (m.heapCursor ≤ m.stackCursor →
        (locals ++ blocks).Nodup ∧ (∀ v ∈ m.locals, ∀ b ∈ m.heap, b.address ≠ v.address) ∧
          ∀ f rest, m.frames = f :: rest → ∀ v ∈ f.locals, ∀ e : Store,
            e.address = some v.address → e.effect m = m.storeAt e.address e.bytes ∧
              (e.effect m).heap = m.heap) := by
  intro items locals blocks m
  have hlocals : locals.Nodup := (Item.supply_localAddress format).nodup items .initial
  have hblocks : blocks.Nodup := (Item.supply_blockAddress format).nodup items .initial
  refine ⟨hlocals, hblocks, fun hcursors => ?_⟩
  have hreaches : Memory.initial.Reaches m := Run.ofItems_reaches format locale items .initial
  have hapart : ∀ v ∈ m.locals, ∀ b ∈ m.heap, b.address ≠ v.address := fun v hv b hb =>
    Int.ne_of_lt (Memory.block_lt_local (hreaches.stackLayout Memory.initial_stackLayout)
      (hreaches.heapLayout Memory.initial_heapLayout) hcursors hv hb)
  refine ⟨List.nodup_append.2 ⟨hlocals, hblocks, ?_⟩, hapart, ?_⟩
  · -- A local is above the cursor of the stack, a block below that of the heap.
    rintro a ha b hb rfl
    have habove := ((Item.supply_localAddress format).available_of_mem locale ha).2
    have hbelow := ((Item.supply_blockAddress format).available_of_mem locale hb).2
    change ¬ a < m.stackCursor at habove
    change ¬ m.heapCursor ≤ a at hbelow
    omega
  · intro f rest hf v hv e he
    have hmem : v ∈ m.locals := Memory.mem_locals (hf ▸ List.mem_cons_self) hv
    have hstore : e.effect m = m.storeAt e.address e.bytes := by
      rw [Store.effect, he, Memory.liveBlock?_eq_none (hapart v hmem)]
    refine ⟨hstore, ?_⟩
    rw [hstore]
    exact congrArg Prod.fst (Memory.heapPart_assignFirst _ _ m)

/-- A local that takes all the space down to the base of the heap, a block, and a store to the
address of the local. -/
def collidingTrace : List Json :=
  [.object [("type", .text "function_enter")],
    .object [("type", .text "local_alloc"), ("name", .text "x"), ("size", .int 0x6fffe000)],
    .object [("type", .text "malloc"), ("sizeBytes", .int 4)],
    .object [("type", .text "store"), ("addr", .text "0x10000000"),
      ("bytes", .list [.int 1, .int 2, .int 3, .int 4])]]

/-- The block gets the address of the local, and the store that is aimed at the local fills the
block and leaves the local as it was. -/
theorem Format.replay_collidingTrace :
    let items := collidingTrace.map (Item.read .clang)
    let m := (Format.clang.replay .en collidingTrace).memory
    ¬ (Item.localAddresses .clang items .initial ++
        Item.blockAddresses .clang items .initial).Nodup ∧
      m.locals = [⟨"x", "int", 0x10000000, 0x6fffe000, .int 0⟩] ∧
      m.heap = [⟨0x10000000, 4, [some 1, some 2, some 3, some 4], false, "malloc"⟩] := by
  decide +kernel

end TraceReplay
