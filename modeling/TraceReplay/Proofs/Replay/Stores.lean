import TraceReplay.Proofs.Replay.Guarded
import TraceReplay.Proofs.Replay.ShownAddresses

/-! # What a store of bytes does

A store looks for a live block at its address, and then for a local of the innermost frame. It
replaces the leading bytes of the block as far as this reaches, or takes the bytes as a value of the
local's type, or does nothing. All that lies beside its address stays as it is. Its description
counts the bytes of the event, which are more than those that are written if the block is shorter.

-/

namespace TraceReplay

open TraceReplay.Wording

/-- What bytes stand for in a variable: the characters before the first zero if the type is a
character type, the unsigned integer of four bytes, and the bytes themselves otherwise. -/
inductive Variable.Takes (type : String) (bytes : List UInt8) : Value → Prop
  | chars {text rest : List UInt8} (htype : "char".toList <+: type.toList) (hbytes : bytes ≠ [])
      (hsplit : bytes = text ++ rest) (htext : 0 ∉ text) (hrest : ∀ b ∈ rest.head?, b = 0) :
      Takes type bytes (.chars (text.map fun b => Char.ofNat b.toNat))
  | int {a b c d : UInt8} (htype : ¬ "char".toList <+: type.toList) (hbytes : bytes = [a, b, c, d]) :
      Takes type bytes
        (.int (a.toNat + 256 * (b.toNat + 256 * (c.toNat + 256 * d.toNat))))
  | bytes (htype : ¬ "char".toList <+: type.toList ∨ bytes = []) (hlength : bytes.length ≠ 4) :
      Takes type bytes (.bytes bytes)

theorem Variable.takes_storedValue (type : String) (bytes : List UInt8) :
    Takes type bytes (storedValue type bytes) := by
  unfold storedValue
  split
  · next h =>
    simp only [isCharType, Bool.and_eq_true, List.isPrefixOf_iff_prefix, Bool.not_eq_true',
      List.isEmpty_eq_false_iff] at h
    apply Takes.chars h.1 h.2 (List.takeWhile_append_dropWhile (p := (· != 0))).symm
    · intro hzero
      simpa using List.all_eq_true.1 List.all_takeWhile _ hzero
    · intro b hb
      have hhead := List.head?_dropWhile_not (· != (0 : UInt8)) bytes
      rw [Option.mem_def.1 hb] at hhead
      simpa using hhead
  · next h =>
    have htype : ¬ "char".toList <+: type.toList ∨ bytes = [] := by
      simp only [isCharType, Bool.and_eq_true, List.isPrefixOf_iff_prefix, Bool.not_eq_true',
        List.isEmpty_eq_false_iff] at h
      by_cases hbytes : bytes = []
      · exact .inr hbytes
      · exact .inl fun hchar => h ⟨hchar, hbytes⟩
    split
    · next hlength =>
      obtain ⟨a, b, c, d, rfl⟩ : ∃ a b c d, bytes = [a, b, c, d] := by
        match bytes, hlength with
        | [a, b, c, d], _ => exact ⟨a, b, c, d, rfl⟩
      have hvalue : (Bytes.toNat [a, b, c, d] : Int) =
          a.toNat + 256 * (b.toNat + 256 * (c.toNat + 256 * d.toNat)) := by
        simp only [Bytes.toNat]
        omega
      rw [hvalue]
      exact .int (htype.resolve_right (List.cons_ne_nil a _)) rfl
    · next hlength => exact .bytes htype hlength

/-- The second memory is the first one but for what lies at the address: it has the freed blocks,
the blocks and the locals at other addresses, the frames of callers, the cursors and the output. -/
structure Memory.SameBeside (address : Option Int) (m m' : Memory) : Prop where
  blocks : m'.heap.length = m.heap.length
  block : ∀ (k : Nat) b, m.heap[k]? = some b → b.freed = true ∨ address ≠ some b.address →
    m'.heap[k]? = some b
  frames : m.frames = [] → m'.frames = []
  locals : ∀ f rest, m.frames = f :: rest → ∃ locals, m'.frames = { f with locals } :: rest ∧
    locals.length = f.locals.length ∧ ∀ (i : Nat) v, f.locals[i]? = some v →
      address ≠ some v.address → locals[i]? = some v
  cursors : m'.stackCursor = m.stackCursor ∧ m'.heapCursor = m.heapCursor
  output : m'.output = m.output

/-- No block is live at the address. -/
def Memory.Blockless (address : Option Int) (m : Memory) : Prop :=
  ∀ b ∈ m.heap, b.freed = false → address ≠ some b.address

theorem Memory.liveBlock?_eq_none_iff {address : Option Int} {m : Memory} :
    m.liveBlock? address = none ↔ m.Blockless address := by
  rw [liveBlock?, List.find?_eq_none]
  apply forall₂_congr
  intro b _
  rw [HeapBlock.liveAt_iff, and_comm, not_and]

namespace Memory.SameBeside

variable {m : Memory}

theorem refl (address : Option Int) (m : Memory) : SameBeside address m m where
  blocks := rfl
  block _ _ hb _ := hb
  frames h := h
  locals f _ hf := ⟨f.locals, hf, rfl, fun _ _ hv _ => hv⟩
  cursors := ⟨rfl, rfl⟩
  output := rfl

theorem setBlock {k : Nat} {b : HeapBlock} (hb : m.heap[k]? = some b) (hlive : b.freed = false)
    (b' : HeapBlock) : SameBeside (some b.address) m { m with heap := m.heap.set k b' } where
  blocks := List.length_set
  block j c hc haway := by
    by_cases hj : k = j
    · subst hj
      cases hb.symm.trans hc
      simp [hlive] at haway
    · exact (List.getElem?_set_ne hj).trans hc
  frames h := h
  locals f _ hf := ⟨f.locals, hf, rfl, fun _ _ hv _ => hv⟩
  cursors := ⟨rfl, rfl⟩
  output := rfl

theorem setLocal {f : Frame} {rest : List Frame} (hf : m.frames = f :: rest) {i : Nat}
    {v : Variable} (hv : f.locals[i]? = some v) (v' : Variable) :
    SameBeside (some v.address) m
      { m with frames := { f with locals := f.locals.set i v' } :: rest } where
  blocks := rfl
  block _ _ hb _ := hb
  frames h := by
    rw [hf] at h
    cases h
  locals g outer hg := by
    cases hf.symm.trans hg
    refine ⟨f.locals.set i v', rfl, List.length_set, ?_⟩
    intro j w hw haway
    by_cases hj : i = j
    · subst hj
      cases hv.symm.trans hw
      exact absurd rfl haway
    · exact (List.getElem?_set_ne hj).trans hw
  cursors := ⟨rfl, rfl⟩
  output := rfl

end Memory.SameBeside

/-- An event that is aimed at an address keeps all that lies beside it. -/
theorem Event.effect_beside {format : Format} {m m' : Memory} {e : Event} {address : Option Int}
    (hheap : m.HeapLayout) (hstack : m.StackLayout) (ht : e.target? = some address)
    (h : e.effect format m = .ok m') : m.SameBeside address m' := by
  by_cases hblock : ∃ b ∈ m.heap, b.freed = false ∧ address = some b.address
  · obtain ⟨b, hb, hlive, rfl⟩ := hblock
    obtain ⟨k, hk⟩ := List.getElem?_of_mem hb
    cases h.symm.trans (effect_of_block hheap hk hlive ht)
    exact .setBlock hk hlive _
  · have hnone : m.liveBlock? address = none :=
      Memory.liveBlock?_eq_none_iff.2 fun b hb hlive heq => hblock ⟨b, hb, hlive, heq⟩
    by_cases hlocal : ∃ f rest, m.frames = f :: rest ∧ ∃ v ∈ f.locals, address = some v.address
    · obtain ⟨f, rest, hf, v, hv, rfl⟩ := hlocal
      obtain ⟨i, hi⟩ := List.getElem?_of_mem hv
      cases h.symm.trans (effect_of_local hstack hf hi hnone ht)
      exact .setLocal hf hi _
    · have hno : ∀ f rest, m.frames = f :: rest → ∀ v ∈ f.locals, some v.address ≠ address :=
        fun f rest hf v hv heq => hlocal ⟨f, rest, hf, v, hv, heq.symm⟩
      cases h.symm.trans (effect_of_nothing hnone hno ht)
      exact .refl address m

/-- The second memory is what storing bytes at an address makes of the first one. -/
structure Memory.Stored (address : Option Int) (bytes : List UInt8) (m m' : Memory) : Prop where
  /-- A live block takes the bytes that fit in it and keeps those of its own behind them. -/
  block : ∀ (k : Nat) b, m.heap[k]? = some b → b.freed = false → address = some b.address →
    m' = { m with
      heap := m.heap.set k { b with
        bytes := (bytes.take b.size.toNat).map (fun byte => some (byte.toNat : Int)) ++
          b.bytes.drop bytes.length } }
  /-- Where no block is live, a local of the innermost frame takes the bytes as a value. -/
  innermost : m.Blockless address → ∀ f rest, m.frames = f :: rest →
    ∀ (i : Nat) v, f.locals[i]? = some v → address = some v.address →
      ∃ value, Variable.Takes v.type bytes value ∧
        m' = { m with frames := { f with locals := f.locals.set i { v with value } } :: rest }
  nothing : m.Blockless address →
    (∀ f rest, m.frames = f :: rest → ∀ v ∈ f.locals, address ≠ some v.address) → m' = m

theorem HeapBlock.Sound.length_eq {b : HeapBlock} (h : b.Sound) :
    b.bytes.length = b.size.toNat := by
  have hlength := h.length
  omega

/-- A store to a block writes its bytes one after the other. -/
theorem Store.effect_of_found (e : Store) {m : Memory} (hheap : m.HeapLayout) {b : HeapBlock}
    (h : m.liveBlock? e.address = some b) : e.effect m = m.writeFrom e.address 0 e.bytes := by
  rw [hheap.writeFrom_zero, effect, h]

theorem Store.effect_stored (e : Store) {m : Memory} (hheap : m.HeapLayout)
    (hstack : m.StackLayout) : m.Stored e.address e.bytes (e.effect m) where
  block k b hb hlive haddress := by
    have heffect : (Event.store e).effect .clang m = _ :=
      Event.effect_of_block hheap hb hlive (congrArg some haddress)
    have hlength := (hheap.sound b (List.mem_of_getElem? hb)).length_eq
    rw [← hlength]
    exact Except.ok.inj heffect
  innermost hblock f rest hf i v hv haddress := by
    have hnone := Memory.liveBlock?_eq_none_iff.2 hblock
    rw [haddress] at hnone
    have heffect : (Event.store e).effect .clang m = _ :=
      Event.effect_of_local hstack hf hv hnone (congrArg some haddress)
    exact ⟨_, Variable.takes_storedValue v.type e.bytes, Except.ok.inj heffect⟩
  nothing hblock hno := by
    have hlocal : ∀ f rest, m.frames = f :: rest → ∀ v ∈ f.locals, some v.address ≠ e.address :=
      fun f rest hf v hv heq => hno f rest hf v hv heq.symm
    have heffect : (Event.store e).effect .clang m = .ok m :=
      Event.effect_of_nothing (Memory.liveBlock?_eq_none_iff.2 hblock) hlocal rfl
    exact Except.ok.inj heffect

/-- In any memory that a trace leads to, a valid store is carried out, also byte by byte, and
nothing breaks it off. It changes what its address stands for, and nothing beside it. -/
theorem Trace.run_store (locale : Locale) (trace : Trace) {x : Json} {e : Store}
    (hx : (Item.read .clang x).event? = some (.store e)) :
    let m := (trace.run .clang locale).memory
    ∃ m', (Item.read .clang x).effect .clang m = .ok m' ∧ e.effect? m = .ok m' ∧
      m.Stored e.address e.bytes m' ∧ m.SameBeside e.address m' := by
  intro m
  have hheap : m.HeapLayout := trace.heapLayout_run .clang locale
  have hstack : m.StackLayout := trace.stackLayout_run .clang locale
  have heffect : (Event.store e).effect .clang m = .ok (e.effect m) := rfl
  refine ⟨e.effect m, ?_, e.effect?_eq hheap, e.effect_stored hheap hstack, ?_⟩
  · rw [Item.effect_of_event?_eq_some hx, heffect]
  · exact Event.effect_beside hheap hstack rfl heffect

theorem Trace.run_store_pointerTrace :
    let m := ((Trace.events pointerTrace).run .clang .en).memory
    let x := Json.object [("type", .text "store"), ("addr", .text "0x10000004"),
      ("bytes", .list [.int 9, .null, .int 263])]
    let e : Store := ⟨none, some 0x10000004, [9, 0, 7]⟩
    (Item.read .clang x).event? = some (.store e) ∧
      ∃ m', (Item.read .clang x).effect .clang m = .ok m' ∧ e.effect? m = .ok m' ∧
        m.Stored e.address e.bytes m' ∧ m.SameBeside e.address m' ∧
        m'.heap[0]? = m.heap[0]? ∧
        m'.heap[1]? = some ⟨0x10000004, 2, [some 9, some 0], false, "malloc"⟩ := by
  intro m x e
  have hx : (Item.read .clang x).event? = some (.store e) := by decide +kernel
  obtain ⟨m', heffect, hbytewise, hstored, hbeside⟩ := Trace.run_store .en (.events pointerTrace) hx
  have hfreed : m.heap[0]? = some ⟨0x10000000, 2, [none, none], true, "freed"⟩ := by decide +kernel
  have hlive : m.heap[1]? = some ⟨0x10000004, 2, [some 0, some 0], false, "malloc"⟩ := by
    decide +kernel
  refine ⟨hx, m', heffect, hbytewise, hstored, hbeside, ?_, ?_⟩
  · exact (hbeside.block 0 _ hfreed (.inl rfl)).trans hfreed.symm
  · rw [hstored.block 1 _ hlive rfl rfl, List.getElem?_set_self (by decide +kernel)]
    rfl

/-- The description that tells of so many bytes written to the block at the address of a store. -/
def Store.report (locale : Locale) (e : Store) (count : Nat) : String :=
  Phrase.storeHeap.say locale fun
    | .addr => Address.hexOrUnknown e.address
    | .count => count.repr
    | _ => ""

/-- Descriptions of different numbers of bytes differ. -/
theorem Store.report_inj {locale : Locale} {e : Store} {count other : Nat} :
    e.report locale count = e.report locale other ↔ count = other := by
  have hrepr : count.repr = other.repr ↔ count = other := by
    refine ⟨fun h => ?_, congrArg Nat.repr⟩
    have hdigits : Nat.toDigits 10 count = Nat.toDigits 10 other := by
      rw [← Nat.toList_repr, ← Nat.toList_repr, h]
    have hread : ∀ n, Numeral.plain? 10 (Nat.toDigits 10 n) = some n :=
      Numeral.plain?_toDigits (by decide) (by decide)
    exact Option.some.inj ((hread count).symm.trans ((congrArg _ hdigits).trans (hread other)))
  cases locale <;>
    simp only [report, Phrase.say, Phrase.template, Phrase.english, Phrase.bengali, Template.fill,
      String.append_left_inj, String.append_right_inj, hrepr]

theorem Store.describe_of_found {locale : Locale} {m : Memory} {e : Store} {b : HeapBlock}
    (h : m.liveBlock? e.address = some b) :
    e.describe locale m = e.report locale e.bytes.length := by
  rw [describe, h]
  rfl

/-- The step of a store to a live block is described by the number of bytes of the event. The store
writes those of them that fit in the block, so the description tells what has been done exactly if
they all fit. -/
theorem Trace.run_storeReport (locale : Locale) (trace : Trace) {x : Json} {e : Store}
    (hx : (Item.read .clang x).event? = some (.store e)) {b : HeapBlock}
    (hb : b ∈ (trace.run .clang locale).memory.heap) (hlive : b.freed = false)
    (haddress : e.address = some b.address) :
    let m := (trace.run .clang locale).memory
    let run := Run.ofItems .clang locale [Item.read .clang x] m
    let written := m.writtenFrom e.address 0 e.bytes
    run.stopped = none ∧ run.memory = m.writeFrom e.address 0 e.bytes ∧
      written = min e.bytes.length b.size.toNat ∧
      ∃ step, run.steps = [step] ∧ step.description = e.report locale e.bytes.length ∧
        (step.description = e.report locale written ↔ e.bytes.length ≤ b.size.toNat) := by
  intro m run written
  have hheap : m.HeapLayout := trace.heapLayout_run .clang locale
  have hfound : m.liveBlock? e.address = some b := haddress ▸ hheap.liveBlock?_address hb hlive
  have heffect : (Item.read .clang x).effect .clang m = .ok (e.effect m) :=
    Item.effect_of_event?_eq_some hx .clang m
  obtain ⟨hstopped, hmemory, hsteps⟩ := Run.ofItems_cons heffect locale []
  have hwritten : written = min e.bytes.length b.size.toNat := Memory.writtenFrom_eq hfound 0 _
  have hdescription : (Item.read .clang x).describe .clang locale m =
      e.report locale e.bytes.length := by
    rw [← Store.describe_of_found hfound]
    exact Item.describe_of_event?_eq_some hx .clang locale m
  refine ⟨hstopped, hmemory.trans (e.effect_of_found hheap hfound), hwritten, _, hsteps,
    hdescription, ?_⟩
  rw [Item.step, Memory.step, hdescription, Store.report_inj, hwritten]
  omega

theorem Trace.run_storeReport_pointerTrace :
    let m := ((Trace.events pointerTrace).run .clang .bn).memory
    let x := Json.object [("type", .text "store"), ("addr", .int 0x10000004),
      ("bytes", .list [.int 9, .int 8])]
    let e : Store := ⟨none, some 0x10000004, [9, 8]⟩
    (Item.read .clang x).event? = some (.store e) ∧
      ⟨0x10000004, 2, [some 0, some 0], false, "malloc"⟩ ∈ m.heap ∧
      m.writtenFrom e.address 0 e.bytes = 2 ∧
      ∃ step, (Run.ofItems .clang .bn [Item.read .clang x] m).steps = [step] ∧
        step.description = e.report .bn 2 := by
  intro m x e
  have hx : (Item.read .clang x).event? = some (.store e) := by decide +kernel
  have hb : ⟨0x10000004, 2, [some 0, some 0], false, "malloc"⟩ ∈ m.heap := by decide +kernel
  obtain ⟨-, -, hwritten, step, hsteps, hdescription, -⟩ :=
    Trace.run_storeReport .bn (.events pointerTrace) hx hb rfl rfl
  exact ⟨hx, hb, hwritten, step, hsteps, hdescription⟩

/-- Four bytes for a block of two: the description tells of four, and two are written. -/
theorem Trace.run_storeReport_overlong :
    let m := ((Trace.events [.object [("type", .text "malloc"), ("sizeBytes", .int 2)]]).run
      .clang .en).memory
    let x := Json.object [("type", .text "store"), ("addr", .text "0x10000000"),
      ("bytes", .list [.int 1, .int 2, .int 3, .int 4])]
    let e : Store := ⟨none, some 0x10000000, [1, 2, 3, 4]⟩
    (Item.read .clang x).event? = some (.store e) ∧
      ⟨0x10000000, 2, [some 0, some 0], false, "malloc"⟩ ∈ m.heap ∧
      m.writtenFrom e.address 0 e.bytes = 2 ∧
      (Run.ofItems .clang .en [Item.read .clang x] m).steps.map Step.description =
        ["4 bytes written to heap block 0x10000000"] ∧
      "4 bytes written to heap block 0x10000000" ≠ e.report .en 2 := by
  decide +kernel

end TraceReplay
