import TraceReplay.Event.Basic
import TraceReplay.Memory.Heap
import TraceReplay.Memory.Stack
import TraceReplay.Step
import TraceReplay.Text.Newline
import TraceReplay.Wording.Catalog

/-! # What an event does

The effect of an event on memory does not depend on the language of the descriptions, and the
description is determined by the memory before the event. Only a declaration can fail. The step of
an event shows the memory after it, except that leaving a function shows the frame that is left.
-/

namespace TraceReplay

open TraceReplay.Wording

/-- The text, or another one if it is absent or empty. -/
def textOr (other : String) : Option String → String
  | some s => if s = "" then other else s
  | none => other

def sizeOr (other : Nat) : Option Nat → Nat
  | some n => if n = 0 then other else n
  | none => other

def defaultFrameName : String := "func"
def defaultLocalSize : Nat := 4
def defaultBlockSize : Nat := 4

def Declaration.typeIn (format : Format) (e : Declaration) : String :=
  textOr format.defaultType e.type

def Declaration.sizeOfLocal (e : Declaration) : Nat := sizeOr defaultLocalSize e.size

def Allocation.sizeOfBlock (e : Allocation) : Nat := sizeOr defaultBlockSize e.size

def Allocation.labelOfBlock (e : Allocation) : String := textOr HeapBlock.defaultLabel e.label

/-- Allocate a block, fill it as far as there are bytes, and assign its address. -/
def Allocation.effect (e : Allocation) (m : Memory) : Memory :=
  let (block, m) := m.allocate e.sizeOfBlock e.labelOfBlock
  let m := m.setBytes (some block.address) (e.bytes.getD [])
  match textOr "" e.sym with
  | "" => m
  | sym => m.assign sym (.text (Address.hex block.address))

/-- Write to the live block at the address, or else to the local at the address. -/
def Store.effect (e : Store) (m : Memory) : Memory :=
  match m.liveBlock? e.address with
  | some _ => m.setBytes e.address e.bytes
  | none => m.storeAt e.address e.bytes

namespace Event

def effect (format : Format) (m : Memory) : Event → Except NoActiveFrame Memory
  | enter e => .ok (m.push (textOr defaultFrameName e.fn))
  | exit _ => .ok m.pop
  | declare e => (m.declare e.name (e.typeIn format) e.sizeOfLocal (.ofJson e.value)).map (·.2)
  | assign e => .ok (m.assign e.name (.ofJson e.value))
  | allocate e => .ok (e.effect m)
  | release e => .ok (m.free e.address)
  | store e => .ok (e.effect m)
  | storeByte e => .ok (m.setByte e.address e.offset e.byte.toNat)
  | output e => .ok (m.emit e.text)
  | note _ => .ok m

end Event

def Call.label (locale : Locale) (e : Call) : String :=
  textOr (Phrase.function.say locale fun _ => "") e.fn

def Declaration.describe (format : Format) (locale : Locale) (m : Memory) (e : Declaration) :
    String :=
  let value := (Value.ofJson e.value).inline
  let init :=
    match e.value with
    | .null => ""
    | _ => Phrase.initSuffix.say locale fun _ => value
  (Phrase.declare format).say locale fun
    | .name => e.name
    | .type => e.typeIn format
    | .size => e.sizeOfLocal.repr
    | .addr => Address.hex (m.stackCursor - Memory.slot e.sizeOfLocal)
    | .init => init
    | _ => ""

def Allocation.describe (format : Format) (locale : Locale) (m : Memory) (e : Allocation) :
    String :=
  (Phrase.allocate format).say locale fun
    | .size => e.sizeOfBlock.repr
    | .addr => Address.hex m.heapCursor
    | .label => e.labelOfBlock
    | _ => ""

def Store.describe (locale : Locale) (m : Memory) (e : Store) : String :=
  match m.liveBlock? e.address, m.localAt? e.address with
  | some _, _ =>
    Phrase.storeHeap.say locale fun
      | .addr => Address.hexOrUnknown e.address
      | .count => e.bytes.length.repr
      | _ => ""
  | none, some v =>
    Phrase.storeLocal.say locale fun
      | .name => v.name
      | .addr => Address.hex v.address
      | _ => ""
  | none, none => Phrase.storeNowhere.say locale fun _ => Address.hexOrUnknown e.address

def ByteStore.describe (locale : Locale) (e : ByteStore) : String :=
  Phrase.storeByte.say locale fun
    | .addr => Address.hexOrUnknown e.address
    | .offset => e.offset.repr
    | .byte => e.byte.toNat.repr
    | _ => ""

namespace Event

def describe (format : Format) (locale : Locale) (m : Memory) : Event → String
  | enter e => (Phrase.enter format).say locale fun _ => e.label locale
  | exit e => (Phrase.exit format).say locale fun _ => e.label locale
  | declare e => e.describe format locale m
  | assign e =>
    (Phrase.assign format).say locale fun
      | .name => e.name
      | .value => (Value.ofJson e.value).inline
      | _ => ""
  | allocate e => e.describe format locale m
  | release e => (Phrase.release format).say locale fun _ => Address.hexOrUnknown e.address
  | store e => e.describe locale m
  | storeByte e => e.describe locale
  | output e => (Phrase.output format).say locale fun _ => Text.escapeNewlines e.text
  | note e => textOr (Phrase.note.say locale fun _ => "") e.text

/-- The memory that the step of an event shows. -/
def shown (before after : Memory) : Event → Memory
  | exit _ => before
  | _ => after

end Event

end TraceReplay
