import TraceReplay.Proofs.Replay.Addresses
import TraceReplay.Proofs.Replay.Guarded
import TraceReplay.Proofs.Replay.History
import TraceReplay.Proofs.Replay.Slices

/-! # What an allocation does

An allocation appends one live block at the cursor of the heap, with the bytes of the event as far
as they fit and zeros behind them, and keeps all blocks that are there. It assigns the text of the
new address to the local of the innermost frame that the event names, if there is one, and changes
nothing else.
-/

namespace TraceReplay

namespace Memory

theorem StackLayout.assign_of_local {m : Memory} (h : m.StackLayout) {f : Frame}
    {rest : List Frame} (hf : m.frames = f :: rest) {i : Nat} {v : Variable}
    (hv : f.locals[i]? = some v) (value : Value) :
    m.assign v.name value =
      { m with frames := { f with locals := f.locals.set i { v with value } } :: rest } := by
  have hset := updateFirst_eq_set (fun w : Variable => { w with value }) (p := (·.name = v.name))
    (h.names_nodup (hf ▸ List.mem_cons_self)) hv (by simp) fun w _ hw => by simpa using hw
  simp only [assign, Memory.assignFirst, hf, hset]

theorem assign_of_forall_ne {m : Memory} {name : String}
    (h : ∀ f rest, m.frames = f :: rest → ∀ v ∈ f.locals, v.name ≠ name) (value : Value) :
    m.assign name value = m := by
  cases hf : m.frames with
  | nil => simp only [assign, assignFirst, hf]
  | cons f rest =>
    have hno : ∀ v ∈ f.locals, decide (v.name = name) = false :=
      fun v hv => decide_eq_false (h f rest hf v hv)
    simp only [assign, assignFirst, hf, updateFirst_of_forall_not _ hno]
    rw [← hf]

end Memory

/-- The second memory is what an allocation makes of the first one. -/
structure Memory.Allocated (e : Allocation) (m m' : Memory) : Prop where
  /-- All blocks stay, and one is added that is live and lies at the cursor. Its size is four and
  its label `malloc` unless the event has another one, and zeros fill it behind the bytes of the
  event. -/
  heap : ∃ (size : Nat) (label : String),
    (e.size = some size ∧ size ≠ 0 ∨ e.size.getD 0 = 0 ∧ size = 4) ∧
      (e.label = some label ∧ label ≠ "" ∨ e.label.getD "" = "" ∧ label = "malloc") ∧
      m'.heap = m.heap ++ [{
        address := m.heapCursor
        size := size
        bytes := ((e.bytes.getD []).take size).map (fun byte => some (byte.toNat : Int)) ++
          List.replicate (size - (e.bytes.getD []).length) (some 0)
        freed := false
        label := label }] ∧
      m'.heapCursor = m.heapCursor + max 4 (size : Int)
  /-- The local that the event names takes the text of the address. -/
  pointer : ∀ f rest, m.frames = f :: rest → ∀ (i : Nat) v, f.locals[i]? = some v →
    v.name ≠ "" → e.sym = some v.name →
      m'.frames =
        { f with
          locals := f.locals.set i { v with value := .text (Address.hex m.heapCursor) } } :: rest
  noPointer : (∀ f rest, m.frames = f :: rest → ∀ v ∈ f.locals, v.name ≠ "" →
    e.sym ≠ some v.name) → m'.frames = m.frames
  stackCursor : m'.stackCursor = m.stackCursor
  output : m'.output = m.output

theorem sizeOr_cases (other : Nat) (size : Option Nat) :
    size = some (sizeOr other size) ∧ sizeOr other size ≠ 0 ∨
      size.getD 0 = 0 ∧ sizeOr other size = other := by
  cases size with
  | none => exact .inr ⟨rfl, rfl⟩
  | some n => by_cases hn : n = 0 <;> simp [sizeOr, hn]

theorem textOr_cases (other : String) (text : Option String) :
    text = some (textOr other text) ∧ textOr other text ≠ "" ∨
      text.getD "" = "" ∧ textOr other text = other := by
  cases text with
  | none => exact .inr ⟨rfl, rfl⟩
  | some s => by_cases hs : s = "" <;> simp [textOr, hs]

theorem HeapBlock.setBytes_fresh (address : Int) (size : Nat) (label : String)
    (bytes : List UInt8) :
    (fresh address size label).setBytes bytes =
      ⟨address, size, (bytes.take size).map (fun byte => some (byte.toNat : Int)) ++
        List.replicate (size - bytes.length) (some 0), false, label⟩ := by
  simp [setBytes, fresh]

theorem Allocation.effect_allocated (e : Allocation) {m : Memory} (hheap : m.HeapLayout)
    (hstack : m.StackLayout) : m.Allocated e (e.effect m) where
  heap := by
    refine ⟨e.sizeOfBlock, e.labelOfBlock, sizeOr_cases _ _, textOr_cases _ _, ?_,
      e.heapCursor_effect m⟩
    have hblocks : (e.effect m).heap = (e.filled m).heap := congrArg Prod.fst (e.heapPart_effect m)
    rw [hblocks, ← HeapBlock.setBytes_fresh]
    exact hheap.heap_setBytes_allocate _ _ _
  pointer f rest hf i v hv hname hsym := by
    have htext : textOr "" e.sym = v.name := by simp [hsym, textOr, hname]
    have hfilled : (e.filled m).StackLayout := hstack.of_stackPart rfl
    rw [e.effect_eq, htext, if_neg hname, hfilled.assign_of_local hf hv]
  noPointer hno := by
    rw [e.effect_eq]
    split
    · rfl
    · next hsym =>
      rw [Memory.assign_of_forall_ne]
      · rfl
      · intro f rest hf v hv hname
        have hnamed : e.sym = some (textOr "" e.sym) := by
          rcases textOr_cases "" e.sym with ⟨hnamed, -⟩ | ⟨-, hempty⟩
          · exact hnamed
          · exact absurd hempty hsym
        exact hno f rest hf v hv (hname ▸ hsym) (hname ▸ hnamed)
  stackCursor := by
    rw [e.effect_eq]
    split
    · rfl
    · exact Memory.stackCursor_assignFirst _ _ (e.filled m)
  output := e.output_effect m

/-- In any memory that a trace leads to, a valid allocation is carried out, also byte by byte, and
nothing breaks it off. -/
theorem Trace.run_allocation (format : Format) (locale : Locale) (trace : Trace) {x : Json}
    {e : Allocation} (hx : (Item.read format x).event? = some (.allocate e)) :
    let m := (trace.run format locale).memory
    ∃ m', (Item.read format x).effect format m = .ok m' ∧ e.effect? m = .ok m' ∧
      m.Allocated e m' := by
  intro m
  have hheap : m.HeapLayout := trace.heapLayout_run format locale
  have hstack : m.StackLayout := trace.stackLayout_run format locale
  refine ⟨e.effect m, ?_, e.effect?_eq hheap, e.effect_allocated hheap hstack⟩
  rw [Item.effect_of_event?_eq_some hx]
  rfl

def calledTrace : List Json :=
  [.object [("kind", .text "call"), ("fn", .text "main")],
    .object [("kind", .text "alloc_local"), ("name", .text "p")],
    .object [("kind", .text "malloc"), ("size", .int 2), ("sym", .text "p")],
    .object [("kind", .text "call"), ("fn", .text "f")],
    .object [("kind", .text "alloc_local"), ("name", .text "p")]]

/-- Four bytes for a block of three, whose address the inner one of the two locals takes. -/
theorem Trace.run_allocation_calledTrace :
    let m := ((Trace.events calledTrace).run .wasm .en).memory
    let x := Json.object [("kind", .text "malloc"), ("size", .int 3), ("sym", .text "p"),
      ("label", .text ""), ("bytes", .list [.int 1, .null, .int 259, .int 4])]
    let e : Allocation := ⟨none, some 3, some "p", some "", some [1, 0, 3, 4]⟩
    (Item.read .wasm x).event? = some (.allocate e) ∧
      ∃ m', (Item.read .wasm x).effect .wasm m = .ok m' ∧ e.effect? m = .ok m' ∧
        m.Allocated e m' ∧
        m'.frames =
          [⟨"f", [⟨"p", "i32", 0x7fffdff8, 4, .text "0x10000004"⟩]⟩,
            ⟨"main", [⟨"p", "i32", 0x7fffdffc, 4, .text "0x10000000"⟩]⟩] := by
  intro m x e
  have hx : (Item.read .wasm x).event? = some (.allocate e) := by decide +kernel
  obtain ⟨m', heffect, hbytewise, hallocated⟩ :=
    Trace.run_allocation .wasm .en (.events calledTrace) hx
  have hframes : m.frames =
      [⟨"f", [⟨"p", "i32", 0x7fffdff8, 4, .int 0⟩]⟩,
        ⟨"main", [⟨"p", "i32", 0x7fffdffc, 4, .text "0x10000000"⟩]⟩] := by decide +kernel
  refine ⟨hx, m', heffect, hbytewise, hallocated, ?_⟩
  rw [hallocated.pointer _ _ hframes 0 _ rfl (by decide) rfl]
  decide +kernel

end TraceReplay
