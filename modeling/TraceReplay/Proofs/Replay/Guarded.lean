import TraceReplay.Proofs.Memory.ByteWrites
import TraceReplay.Proofs.Replay.Effects
import TraceReplay.Proofs.Wording.Arguments

/-! # Guarded replay

A replay can be carried out with all of its partial operations in the open: a description is looked
up by its key and has only the arguments that are at hand, bytes are written one by one to positions
that have to exist, and the bytes of characters have to be code points. As long as the heap has its
layout none of this ever breaks off, and the outcome is that of the plain replay.
-/

namespace TraceReplay

open TraceReplay.Wording

/-- What a guarded replay can break off with. -/
inductive Breakdown where
  | failure (e : Failure)
  /-- A write to an offset below the size of a block, where the block has no byte. -/
  | noByte (offset : Int)
  deriving DecidableEq

def Breakdown.noActiveFrame (e : NoActiveFrame) : Breakdown := .failure (.noActiveFrame e)

namespace Memory

def setByte? (address : Option Int) (offset byte : Int) (m : Memory) : Except Breakdown Memory :=
  match m.liveBlock? address with
  | none => .ok m
  | some b =>
    if 0 ≤ offset ∧ offset < b.size then
      if offset < b.bytes.length then .ok (m.setByte address offset byte)
      else .error (.noByte offset)
    else .ok m

def writeFrom? (address : Option Int) : Nat → List UInt8 → Memory → Except Breakdown Memory
  | _, [], m => .ok m
  | offset, byte :: rest, m => do
    writeFrom? address (offset + 1) rest (← m.setByte? address offset byte.toNat)

def storeAt? (address : Option Int) (bytes : List UInt8) (m : Memory) : Except Breakdown Memory :=
  match m.localAt? address with
  | none => .ok m
  | some v =>
    match Variable.storedNumbers v.type (bytes.map fun b => (b.toNat : Int)) with
    | .ok value => .ok (m.assignFirst (fun w => some w.address = address) fun _ => value)
    | .error e => .error (.failure (.codec e))

theorem HeapLayout.setByte?_eq {m : Memory} (h : HeapLayout m) (address : Option Int)
    (offset byte : Int) : m.setByte? address offset byte = .ok (m.setByte address offset byte) := by
  unfold setByte?
  cases hb : m.liveBlock? address with
  | none => rw [setByte_of_liveBlock?_eq_none hb]
  | some b =>
    have hdecide := hasByte_of_liveBlock? hb offset
    by_cases hin : 0 ≤ offset ∧ offset < b.size
    · obtain ⟨b', hb', -, hlt⟩ := h.hasByte_position (hdecide.trans (decide_eq_true hin))
      cases hb.symm.trans hb'
      simp [hin, hlt]
    · simp [hin, setByte_of_not_hasByte (hdecide.trans (decide_eq_false hin))]

theorem HeapLayout.writeFrom?_eq {m : Memory} (h : HeapLayout m) (address : Option Int)
    (offset : Nat) (bytes : List UInt8) :
    m.writeFrom? address offset bytes = .ok (m.writeFrom address offset bytes) := by
  induction bytes generalizing offset m with
  | nil => rfl
  | cons byte rest ih =>
    rw [writeFrom?, h.setByte?_eq]
    exact ih (h.setByte address offset byte.toNat) (offset + 1)

/-- The bytes of a store are code points, so that decoding them does not fail. -/
theorem storeAt?_eq (address : Option Int) (bytes : List UInt8) (m : Memory) :
    m.storeAt? address bytes = .ok (m.storeAt address bytes) := by
  unfold storeAt? storeAt localAt? top? assignFirst
  cases hf : m.frames with
  | nil => rfl
  | cons f rest =>
    simp only [List.head?_cons, Option.bind_some]
    cases hv : f.locals.find? fun v => some v.address = address with
    | none =>
      have hno : ∀ v ∈ f.locals, decide (some v.address = address) = false := fun v hmem => by
        simpa using List.find?_eq_none.1 hv v hmem
      simp only [updateFirst_of_forall_not _ hno, ← hf]
    | some v =>
      simp only [Variable.storedNumbers_bytes, Except.ok.injEq]
      congr 3
      apply updateFirst_congr
      intro w hw
      cases hv.symm.trans hw
      rfl

end Memory

def Allocation.effect? (e : Allocation) (m : Memory) : Except Breakdown Memory := do
  let (block, m) := m.allocate e.sizeOfBlock e.labelOfBlock
  let m ← m.writeFrom? (some block.address) 0 ((e.bytes.getD []).take e.sizeOfBlock)
  let sym := textOr "" e.sym
  return if sym = "" then m else m.assign sym (.text (Address.hex block.address))

def Store.effect? (e : Store) (m : Memory) : Except Breakdown Memory :=
  match m.liveBlock? e.address with
  | some b => m.writeFrom? (some b.address) 0 e.bytes
  | none => m.storeAt? e.address e.bytes

theorem Allocation.effect?_eq (e : Allocation) {m : Memory} (h : m.HeapLayout) :
    e.effect? m = .ok (e.effect m) := by
  have hm := h.allocate e.sizeOfBlock e.labelOfBlock
  have hwrite : (m.allocate e.sizeOfBlock e.labelOfBlock).2.writeFrom? (some m.heapCursor) 0
      ((e.bytes.getD []).take e.sizeOfBlock) = .ok (e.filled m) := by
    rw [hm.writeFrom?_eq, hm.writeFrom_zero, h.setBytes_take_allocate]
    rfl
  rw [Allocation.effect_eq]
  change ((m.allocate e.sizeOfBlock e.labelOfBlock).2.writeFrom? (some m.heapCursor) 0
      ((e.bytes.getD []).take e.sizeOfBlock)).bind _ = _
  rw [hwrite]
  rfl

theorem Store.effect?_eq (e : Store) {m : Memory} (h : m.HeapLayout) :
    e.effect? m = .ok (e.effect m) := by
  unfold Store.effect? Store.effect
  cases hb : m.liveBlock? e.address with
  | none => exact Memory.storeAt?_eq e.address e.bytes m
  | some b =>
    have haddress : e.address = some b.address :=
      (HeapBlock.liveAt_iff.1 (List.find?_some hb)).1
    simp only [← haddress]
    rw [h.writeFrom?_eq, h.writeFrom_zero]

namespace Event

/-- The effect of an event with the writes and the decodings that it takes. -/
def effect? (format : Format) (m : Memory) : Event → Except Breakdown Memory
  | allocate e => e.effect? m
  | store e => e.effect? m
  | storeByte e => m.setByte? e.address e.offset e.byte.toNat
  | e => (e.effect format m).mapError .noActiveFrame

theorem effect?_eq (format : Format) {m : Memory} (h : m.HeapLayout) (e : Event) :
    e.effect? format m = (e.effect format m).mapError .noActiveFrame := by
  cases e with
  | allocate e => exact e.effect?_eq h
  | store e => exact e.effect?_eq h
  | storeByte e => exact h.setByte?_eq e.address e.offset e.byte.toNat
  | _ => rfl

end Event

def textOrElse (text : Option String) (other : Except Failure String) : Except Failure String :=
  if textOr "" text = "" then other else .ok (textOr "" text)

theorem textOrElse_ok (text : Option String) (other : String) :
    textOrElse text (.ok other) = .ok (textOr other text) := by
  cases text with
  | none => rfl
  | some s => by_cases hs : s = "" <;> simp [textOrElse, textOr, hs]

def Call.label? (locale : Locale) (e : Call) : Except Failure String :=
  textOrElse e.fn (Phrase.function.sayWith locale [])

theorem Call.label?_eq (locale : Locale) (e : Call) : e.label? locale = .ok (e.label locale) := by
  have hword :
      Phrase.function.sayWith locale [] = .ok (Phrase.function.say locale fun _ => "") :=
    Phrase.sayWith_eq_ok rfl locale
  rw [Call.label?, hword, textOrElse_ok]
  rfl

def Declaration.init? (locale : Locale) (e : Declaration) : Except Failure String :=
  match e.value with
  | .null => .ok ""
  | _ => Phrase.initSuffix.sayWith locale [(.value, (Value.ofJson e.value).inline)]

theorem Declaration.init?_eq (locale : Locale) (e : Declaration) :
    e.init? locale = .ok (match e.value with
      | .null => ""
      | _ => Phrase.initSuffix.say locale fun _ => (Value.ofJson e.value).inline) := by
  unfold Declaration.init?
  cases e.value with
  | null => rfl
  | _ => exact Phrase.sayWith_eq_ok rfl locale

namespace Event

/-- The description of an event by the key of its phrase and the arguments that are at hand. -/
def describe? (format : Format) (locale : Locale) (m : Memory) : Event → Except Failure String
  | enter e => do (Phrase.enter format).sayWith locale [(.fn, ← e.label? locale)]
  | exit e => do (Phrase.exit format).sayWith locale [(.fn, ← e.label? locale)]
  | declare e => do
    let address := Address.hex (m.stackCursor - Memory.slot e.sizeOfLocal)
    (Phrase.declare format).sayWith locale [(.name, e.name), (.type, e.typeIn format),
      (.size, e.sizeOfLocal.repr), (.addr, address), (.init, ← e.init? locale)]
  | assign e =>
    (Phrase.assign format).sayWith locale [(.name, e.name), (.value, (Value.ofJson e.value).inline)]
  | allocate e =>
    (Phrase.allocate format).sayWith locale [(.size, e.sizeOfBlock.repr),
      (.addr, Address.hex m.heapCursor), (.label, e.labelOfBlock)]
  | release e =>
    (Phrase.release format).sayWith locale [(.addr, Address.hexOrUnknown e.address)]
  | store e =>
    match m.liveBlock? e.address, m.localAt? e.address with
    | some _, _ =>
      Phrase.storeHeap.sayWith locale [(.addr, Address.hexOrUnknown e.address),
        (.count, e.bytes.length.repr)]
    | none, some v =>
      Phrase.storeLocal.sayWith locale [(.name, v.name), (.addr, Address.hex v.address)]
    | none, none => Phrase.storeNowhere.sayWith locale [(.addr, Address.hexOrUnknown e.address)]
  | storeByte e =>
    Phrase.storeByte.sayWith locale [(.addr, Address.hexOrUnknown e.address),
      (.offset, e.offset.repr), (.byte, e.byte.toNat.repr)]
  | output e => (Phrase.output format).sayWith locale [(.text, Text.escapeNewlines e.text)]
  | note e => textOrElse e.text (Phrase.note.sayWith locale [])

theorem describe?_eq (format : Format) (locale : Locale) (m : Memory) (e : Event) :
    e.describe? format locale m = .ok (e.describe format locale m) := by
  cases e with
  | enter e =>
    simp only [describe?, e.label?_eq]
    exact Phrase.sayWith_eq_ok rfl locale
  | exit e =>
    simp only [describe?, e.label?_eq]
    exact Phrase.sayWith_eq_ok rfl locale
  | declare e =>
    simp only [describe?, e.init?_eq]
    exact Phrase.sayWith_eq_ok rfl locale
  | assign e => exact Phrase.sayWith_eq_ok rfl locale
  | allocate e => exact Phrase.sayWith_eq_ok rfl locale
  | release e => exact Phrase.sayWith_eq_ok rfl locale
  | store e =>
    simp only [describe?, describe, Store.describe]
    cases m.liveBlock? e.address with
    | some b => exact Phrase.sayWith_eq_ok rfl locale
    | none =>
      cases m.localAt? e.address with
      | some v => exact Phrase.sayWith_eq_ok rfl locale
      | none => exact Phrase.sayWith_eq_ok rfl locale
  | storeByte e => exact Phrase.sayWith_eq_ok rfl locale
  | output e => exact Phrase.sayWith_eq_ok rfl locale
  | note e =>
    have hword : Phrase.note.sayWith locale [] = .ok (Phrase.note.say locale fun _ => "") :=
      Phrase.sayWith_eq_ok rfl locale
    simp only [describe?, describe, hword, textOrElse_ok]

end Event

namespace Item

def effect? (format : Format) (m : Memory) : Item → Except Breakdown Memory
  | event _ e => e.effect? format m
  | _ => .ok m

def describe? (format : Format) (locale : Locale) (m : Memory) : Item → Except Failure String
  | unknown _ tag => Phrase.unknownEvent.sayWith locale [(.tag, tag.display)]
  | malformed _ tag _ => Phrase.malformedEvent.sayWith locale [(.tag, tag)]
  | event _ e => e.describe? format locale m

theorem effect?_eq (format : Format) {m : Memory} (h : m.HeapLayout) (item : Item) :
    item.effect? format m = (item.effect format m).mapError .noActiveFrame := by
  cases item with
  | event tag e => exact e.effect?_eq format h
  | _ => rfl

theorem describe?_eq (format : Format) (locale : Locale) (m : Memory) (item : Item) :
    item.describe? format locale m = .ok (item.describe format locale m) := by
  cases item with
  | event tag e => exact e.describe?_eq format locale m
  | _ => exact Phrase.sayWith_eq_ok rfl locale

/-- The steps of elements, or what breaks them off. -/
def steps? (format : Format) (locale : Locale) : List Item → Memory → Except Breakdown (List Step)
  | [], _ => .ok []
  | item :: rest, m => do
    let after ← item.effect? format m
    let description ← (item.describe? format locale m).mapError .failure
    let steps ← steps? format locale rest after
    return (item.shown m after).step item.line.toList description :: steps

/-- Elements that are replayed on a memory with a heap layout break off only if the plain replay
does, at a declaration without a frame. -/
theorem steps?_eq (format : Format) (locale : Locale) (items : List Item) {m : Memory}
    (h : m.HeapLayout) :
    steps? format locale items m =
      (Run.ofItems format locale items m).outcome.mapError .noActiveFrame := by
  induction items generalizing m with
  | nil => rfl
  | cons item rest ih =>
    rw [steps?, item.effect?_eq format h, item.describe?_eq, Run.ofItems]
    cases he : item.effect format m with
    | error e => rfl
    | ok after =>
      have hafter : after.HeapLayout := (effect_reaches he).heapLayout h
      change (steps? format locale rest after).bind _ = _
      rw [ih hafter]
      simp only [Run.outcome]
      cases (Run.ofItems format locale rest after).stopped <;> rfl

end Item

/-- Replay a list of elements from the initial memory with the operations that can break off. -/
def Format.replay? (format : Format) (locale : Locale) (xs : List Json) :
    Except Breakdown (List Step) :=
  Item.steps? format locale (xs.map (Item.read format)) .initial

theorem Format.replay?_eq (format : Format) (locale : Locale) (xs : List Json) :
    format.replay? locale xs = (format.replay locale xs).outcome.mapError .noActiveFrame :=
  Item.steps?_eq format locale _ Memory.initial_heapLayout

end TraceReplay
