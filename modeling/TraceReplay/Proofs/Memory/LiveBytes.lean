import Mathlib.Logic.Function.Basic
import TraceReplay.Proofs.Memory.ByteWrites

/-! # The heap as a map of live bytes

The heap is a list that keeps freed blocks and is searched for the first live block at an address.
It stands for a map from the addresses of live blocks to their bytes: an allocation enters the
address that it returns, which has never been in the map before, a free takes an address out of it,
and a write replaces one byte of the list at an address. Frees and writes say whether they have
changed the map, and change nothing at all if they have not.
-/

namespace TraceReplay

/-- The bytes of live blocks by their addresses. -/
abbrev LiveBytes := Int → Option (List Int)

namespace LiveBytes

def empty : LiveBytes := fun _ => none

def at? (address : Option Int) (bytes : LiveBytes) : Option (List Int) := address.bind bytes

def write (address : Option Int) (offset byte : Int) (bytes : LiveBytes) : LiveBytes :=
  match address with
  | none => bytes
  | some a =>
    match bytes a with
    | none => bytes
    | some list =>
      if 0 ≤ offset ∧ offset < list.length then
        Function.update bytes a (some (list.set offset.toNat byte))
      else bytes

variable {bytes : LiveBytes} {offset : Int}

theorem write_of_inside {a : Int} {list : List Int} (h : bytes a = some list)
    (hin : 0 ≤ offset ∧ offset < list.length) (byte : Int) :
    bytes.write (some a) offset byte =
      Function.update bytes a (some (list.set offset.toNat byte)) := by
  simp only [write, h, if_pos hin]

theorem write_of_outside {address : Option Int}
    (h : ∀ list, bytes.at? address = some list → ¬ (0 ≤ offset ∧ offset < list.length))
    (byte : Int) : bytes.write address offset byte = bytes := by
  cases address with
  | none => rfl
  | some a =>
    cases hlist : bytes a with
    | none => simp only [write, hlist]
    | some list => simp only [write, hlist, if_neg (h list hlist)]

end LiveBytes

namespace Action

/-- The address that an action returns if it allocates a block. -/
def allocatedAddress? (a : Action) (m : Memory) : Option Int :=
  match a.perform m with
  | .ok (.allocated b, _) => some b.address
  | _ => none

/-- What an action does to the live bytes, with the address that it returns if it allocates. -/
def onLiveBytes (returned : Option Int) : Action → LiveBytes → LiveBytes
  | allocate size _, bytes =>
    match returned with
    | none => bytes
    | some a => Function.update bytes a (some (List.replicate size.toNat 0))
  | free address, bytes =>
    match address with
    | none => bytes
    | some a => Function.update bytes a none
  | write address offset byte, bytes => bytes.write address offset byte
  | _, bytes => bytes

end Action

namespace LiveBytes

/-- The live bytes after a sequence of actions on a memory. -/
def afterAll : List Action → Memory → LiveBytes → LiveBytes
  | [], _, bytes => bytes
  | a :: rest, m, bytes => afterAll rest (a.after m) (a.onLiveBytes (a.allocatedAddress? m) bytes)

end LiveBytes

namespace Memory

variable {m m' : Memory} {bytes : LiveBytes}

/-- The heap of a memory stands for a map of live bytes. -/
structure HasLiveBytes (m : Memory) (bytes : LiveBytes) : Prop where
  layout : HeapLayout m
  lookup : ∀ address : Int,
    (m.liveBlock? (some address)).map (·.bytes) = (bytes address).map (List.map some)

theorem initial_hasLiveBytes : HasLiveBytes initial .empty := ⟨initial_heapLayout, fun _ => rfl⟩

theorem liveBlock?_none (m : Memory) : m.liveBlock? none = none := by
  rw [liveBlock?, List.find?_eq_none]
  intro b _
  simp [HeapBlock.liveAt]

theorem liveBlock?_update_of_ne {f : HeapBlock → HeapBlock} (hf : ∀ b, (f b).address = b.address)
    {address : Option Int} {other : Int} (h : address ≠ some other) (m : Memory) :
    liveBlock? (some other) { m with heap := updateFirst (HeapBlock.liveAt address) f m.heap } =
      m.liveBlock? (some other) := by
  have haway : ∀ b c : HeapBlock, HeapBlock.liveAt address b = true → c.address = b.address →
      HeapBlock.liveAt (some other) c = false := by
    intro b c hb hc
    have hplace := (HeapBlock.liveAt_iff.1 hb).1
    have hne : c.address ≠ other := by
      rintro rfl
      exact h (hplace.trans (congrArg some hc.symm))
    simp [HeapBlock.liveAt, hne]
  exact find?_updateFirst_of_apart (fun b hb => haway b b hb rfl)
    (fun b hb => haway b (f b) hb (hf b)) m.heap

theorem liveBlock?_free_self (h : HeapLayout m) (address : Option Int) :
    (m.free address).liveBlock? address = none := by
  apply find?_updateFirst_eq_none h.addresses_nodup
  · intro b
    simp [HeapBlock.liveAt, HeapBlock.erase]
  · intro b c hb hc
    have hplace := (HeapBlock.liveAt_iff.1 hb).1.symm.trans (HeapBlock.liveAt_iff.1 hc).1
    exact Option.some.inj hplace

theorem liveBlock?_free_of_ne {address : Option Int} {other : Int} (h : address ≠ some other)
    (m : Memory) : (m.free address).liveBlock? (some other) = m.liveBlock? (some other) :=
  liveBlock?_update_of_ne (f := HeapBlock.erase) (fun _ => rfl) h m

theorem liveBlock?_setByte_of_ne {address : Option Int} {other : Int} (h : address ≠ some other)
    (offset byte : Int) (m : Memory) :
    (m.setByte address offset byte).liveBlock? (some other) = m.liveBlock? (some other) := by
  unfold setByte
  split
  · exact liveBlock?_update_of_ne (f := HeapBlock.setByte offset.toNat byte) (fun _ => rfl) h m
  · rfl

/-- No block lies at the cursor yet. -/
theorem HeapLayout.address_lt (h : HeapLayout m) {b : HeapBlock} (hb : b ∈ m.heap) :
    b.address < m.heapCursor := by
  have hbounds := h.blocks.bounds hb
  have hpos := slot_pos b.size
  omega

theorem liveBlock?_allocate_of_ne {other : Int} (h : m.heapCursor ≠ other) (size : Int)
    (label : String) :
    (m.allocate size label).2.liveBlock? (some other) = m.liveBlock? (some other) := by
  have hfresh : HeapBlock.liveAt (some other) (.fresh m.heapCursor size label) = false := by
    simp [HeapBlock.liveAt, HeapBlock.fresh, h]
  rw [liveBlock?, allocate, List.find?_append, List.find?_singleton, hfresh]
  simp [liveBlock?]

namespace HasLiveBytes

theorem congr (h : HasLiveBytes m bytes) (he : m'.heapPart = m.heapPart) :
    HasLiveBytes m' bytes := by
  refine ⟨h.layout.congr he, fun address => ?_⟩
  rw [liveBlock?_congr he]
  exact h.lookup address

theorem lookup_at? (h : HasLiveBytes m bytes) (address : Option Int) :
    (m.liveBlock? address).map (·.bytes) = (bytes.at? address).map (List.map some) := by
  cases address with
  | none =>
    rw [liveBlock?_none]
    rfl
  | some a => exact h.lookup a

/-- A write finds a byte exactly where the map has one. -/
theorem hasByte_iff (h : HasLiveBytes m bytes) (address : Option Int) (offset : Int) :
    m.hasByte address offset = true ↔
      ∃ list, bytes.at? address = some list ∧ 0 ≤ offset ∧ offset < list.length := by
  have hlookup := h.lookup_at? address
  cases hb : m.liveBlock? address with
  | none =>
    rw [hb, Option.map_none] at hlookup
    have hnone := Option.map_eq_none_iff.1 hlookup.symm
    simp [hasByte, hb, hnone]
  | some b =>
    rw [hb, Option.map_some] at hlookup
    obtain ⟨list, hlist, hbytes⟩ := Option.map_eq_some_iff.1 hlookup.symm
    have hlength := (h.layout.sound b (List.mem_of_find?_eq_some hb)).length
    rw [← hbytes, List.length_map] at hlength
    simp only [hasByte_of_liveBlock? hb, decide_eq_true_eq, hlist, Option.some.injEq,
      exists_eq_left']
    omega

theorem allocate (h : HasLiveBytes m bytes) (size : Int) (label : String) :
    HasLiveBytes (m.allocate size label).2
      (Function.update bytes m.heapCursor (some (List.replicate size.toNat 0))) := by
  refine ⟨h.layout.allocate size label, fun address => ?_⟩
  by_cases haddress : address = m.heapCursor
  · subst haddress
    rw [h.layout.liveBlock?_allocate, Function.update_self]
    simp [HeapBlock.fresh]
  · rw [liveBlock?_allocate_of_ne (Ne.symm haddress), Function.update_of_ne haddress]
    exact h.lookup address

theorem free (h : HasLiveBytes m bytes) (a : Int) :
    HasLiveBytes (m.free (some a)) (Function.update bytes a none) := by
  refine ⟨h.layout.free (some a), fun address => ?_⟩
  by_cases haddress : address = a
  · subst haddress
    rw [liveBlock?_free_self h.layout, Function.update_self]
    rfl
  · have hne : some a ≠ some address := fun e => haddress (Option.some.inj e).symm
    rw [liveBlock?_free_of_ne hne, Function.update_of_ne haddress]
    exact h.lookup address

theorem write (h : HasLiveBytes m bytes) (address : Option Int) (offset byte : Int) :
    HasLiveBytes (m.setByte address offset byte) (bytes.write address offset byte) := by
  cases hbyte : m.hasByte address offset with
  | false =>
    have hno : ∀ list, bytes.at? address = some list → ¬ (0 ≤ offset ∧ offset < list.length) := by
      intro list hlist hin
      have htrue := (h.hasByte_iff address offset).2 ⟨list, hlist, hin⟩
      exact Bool.false_ne_true (hbyte.symm.trans htrue)
    rw [setByte_of_not_hasByte hbyte, LiveBytes.write_of_outside hno]
    exact h
  | true =>
    obtain ⟨list, hlist, hin⟩ := (h.hasByte_iff address offset).1 hbyte
    obtain ⟨a, rfl, ha⟩ := Option.bind_eq_some_iff.1 hlist
    rw [LiveBytes.write_of_inside ha hin]
    refine ⟨h.layout.setByte (some a) offset byte, fun address => ?_⟩
    by_cases haddress : address = a
    · subst haddress
      have hlookup := h.lookup address
      obtain ⟨b, hb, hbytes⟩ : ∃ b, m.liveBlock? (some address) = some b ∧
          b.bytes = list.map some := by
        rw [ha, Option.map_some] at hlookup
        exact Option.map_eq_some_iff.1 hlookup
      have hsize : 0 ≤ offset ∧ offset < b.size := by
        rw [hasByte_of_liveBlock? hb] at hbyte
        exact of_decide_eq_true hbyte
      rw [liveBlock?_setByte hb, if_pos hsize, Function.update_self]
      simp [HeapBlock.setByte, hbytes, List.map_set]
    · have hne : some a ≠ some address := fun e => haddress (Option.some.inj e).symm
      rw [liveBlock?_setByte_of_ne hne, Function.update_of_ne haddress]
      exact h.lookup address

/-- An action does to the heap what it does to the live bytes. -/
theorem after (h : HasLiveBytes m bytes) (a : Action) :
    HasLiveBytes (a.after m) (a.onLiveBytes (a.allocatedAddress? m) bytes) := by
  cases a with
  | push name => exact h.congr (heapPart_push name m)
  | pop => exact h.congr (heapPart_pop m)
  | declare name type size value =>
    simp only [Action.after, Action.perform, Action.onLiveBytes]
    cases hd : m.declare name type size (.ofDatum value) with
    | error e => exact h
    | ok r => exact h.congr (heapPart_declare hd)
  | assign name value => exact h.congr (heapPart_assignFirst _ _ m)
  | store name data =>
    simp only [Action.after, Action.perform, Action.onLiveBytes]
    cases hs : m.storeNumbers name data with
    | error e => exact h
    | ok r =>
      rcases storeNumbers_eq_ok hs with ⟨-, hr⟩ | ⟨value, -, hr⟩
      · simp only [hr]
        exact h
      · simp only [hr]
        exact h.congr (heapPart_assignFirst _ _ m)
  | allocate size label =>
    simp only [Action.after, Action.allocatedAddress?, Action.perform, Action.onLiveBytes]
    cases ha : m.allocate? size label with
    | error e => exact h
    | ok r =>
      obtain rfl := allocate?_eq_ok ha
      exact h.allocate size label
  | free address =>
    cases address with
    | none =>
      have hfree : m.free none = m := free_of_liveBlock?_eq_none (liveBlock?_none m)
      simp only [Action.after, Action.perform, Action.onLiveBytes, hfree]
      exact h
    | some a => exact h.free a
  | write address offset byte => exact h.write address offset byte
  | output text => exact h.congr (heapPart_emit text m)

theorem afterAll (h : HasLiveBytes m bytes) (actions : List Action) :
    HasLiveBytes (m.performAll actions) (LiveBytes.afterAll actions m bytes) := by
  induction actions generalizing m bytes with
  | nil => exact h
  | cons a rest ih => exact ih (h.after a)

/-- Every address of the map has been handed out. -/
theorem address_lt (h : HasLiveBytes m bytes) {a : Int} {list : List Int}
    (ha : bytes a = some list) : a < m.heapCursor := by
  have hlookup := h.lookup a
  rw [ha, Option.map_some] at hlookup
  obtain ⟨b, hb, -⟩ := Option.map_eq_some_iff.1 hlookup
  obtain ⟨haddress, -⟩ := HeapBlock.liveAt_iff.1 (List.find?_some hb)
  rw [Option.some.inj haddress]
  exact h.layout.address_lt (List.mem_of_find?_eq_some hb)

end HasLiveBytes

theorem allocatedAddress?_eq (size : Int) (label : String) (m : Memory) :
    (Action.allocate size label).allocatedAddress? m =
      if Bytes.fits 8 size then some m.heapCursor else none := by
  simp only [Action.allocatedAddress?, Action.perform, allocate?, withinEightBytes]
  by_cases hfits : Bytes.fits 8 size = true
  · rw [if_pos hfits, if_pos hfits]
    rfl
  · rw [if_neg hfits, if_neg hfits]
    rfl

/-- The address of an allocation has not been in the map before. -/
theorem afterAll_heapCursor {earlier actions : List Action} (h : earlier <+: actions) :
    LiveBytes.afterAll earlier initial .empty (initial.performAll actions).heapCursor = none := by
  obtain ⟨rest, rfl⟩ := h
  have hbytes := initial_hasLiveBytes.afterAll earlier
  have hle : (initial.performAll earlier).heapCursor ≤
      (initial.performAll (earlier ++ rest)).heapCursor := by
    rw [performAll_append]
    exact (performAll_reaches rest _).le_heapCursor
  apply Option.eq_none_iff_forall_ne_some.2
  intro list hlist
  have hlt := hbytes.address_lt hlist
  omega

/-- The heap after any sequence of actions is the map of live bytes: a live block is found at an
address exactly if it is in the map, and with the bytes that it has there. An allocation whose size
fits eight bytes returns an address that has never been in the map. A free returns a block exactly
if the address is in the map, and a write is done exactly if the offset is that of a byte in the
map; otherwise both leave everything as it is. -/
theorem performAll_liveBytes (actions : List Action) :
    let m := initial.performAll actions
    let bytes := LiveBytes.afterAll actions initial .empty
    (∀ address, (m.liveBlock? address).map (·.bytes) = (bytes.at? address).map (List.map some)) ∧
      (∀ size label, let allocation := Action.allocate size label
        ((allocation.allocatedAddress? m).isSome ↔ Bytes.fits 8 size) ∧
          ∀ a ∈ allocation.allocatedAddress? m, ∀ earlier, earlier <+: actions →
            LiveBytes.afterAll earlier initial .empty a = none) ∧
      (∀ address, let free := Action.free address
        ∃ b, free.perform m = .ok (.freed b, free.after m) ∧
          (b.isSome ↔ ∃ list, bytes.at? address = some list) ∧ (b = none → free.after m = m)) ∧
      ∀ address offset byte, let write := Action.write address offset byte
        ∃ done, write.perform m = .ok (.written done, write.after m) ∧
          (done = true ↔
            ∃ list, bytes.at? address = some list ∧ 0 ≤ offset ∧ offset < list.length) ∧
          (done = false → write.after m = m) := by
  intro m bytes
  have h : HasLiveBytes m bytes := initial_hasLiveBytes.afterAll actions
  refine ⟨h.lookup_at?, fun size label => ⟨?_, ?_⟩, fun address => ?_,
    fun address offset byte => ?_⟩
  · rw [allocatedAddress?_eq]
    split <;> simp_all
  · intro a ha earlier hearlier
    rw [allocatedAddress?_eq] at ha
    split at ha
    · cases ha
      exact afterAll_heapCursor hearlier
    · cases ha
  · refine ⟨(m.liveBlock? address).map HeapBlock.erase, rfl, ?_, ?_⟩
    · have hlookup := congrArg Option.isSome (h.lookup_at? address)
      simp only [Option.isSome_map] at hlookup ⊢
      rw [hlookup, Option.isSome_iff_exists]
    · intro hnone
      exact free_of_liveBlock?_eq_none (Option.map_eq_none_iff.1 hnone)
  · exact ⟨m.hasByte address offset, rfl, h.hasByte_iff address offset,
      fun hno => setByte_of_not_hasByte hno byte⟩

end Memory

end TraceReplay
