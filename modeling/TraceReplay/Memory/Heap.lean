import TraceReplay.Memory.Basic

/-! # The heap

A block is allocated at the heap cursor with all bytes zero, and no address is handed out twice.
Freeing a block erases its bytes and keeps it in the list. A block is found by its address as long
as it is live; a write changes one byte of a live block, or its leading bytes, and does nothing
outside of it.
-/

namespace TraceReplay

namespace HeapBlock

def defaultLabel : String := "malloc"
def freedLabel : String := "freed"

def fresh (address size : Int) (label : String) : HeapBlock :=
  ⟨address, size, List.replicate size.toNat (some 0), false, label⟩

def erase (b : HeapBlock) : HeapBlock :=
  { b with bytes := b.bytes.map fun _ => none, freed := true, label := freedLabel }

def setByte (offset : Nat) (byte : Int) (b : HeapBlock) : HeapBlock :=
  { b with bytes := b.bytes.set offset (some byte) }

/-- Replace the leading bytes, as far as the block reaches. -/
def setBytes (bytes : List UInt8) (b : HeapBlock) : HeapBlock :=
  { b with
    bytes := (bytes.take b.bytes.length).map (fun byte => some (byte.toNat : Int)) ++
      b.bytes.drop bytes.length }

def liveAt (address : Option Int) (b : HeapBlock) : Bool := some b.address = address && !b.freed

end HeapBlock

namespace Memory

def allocate (size : Int) (label : String) (m : Memory) : HeapBlock × Memory :=
  let b := HeapBlock.fresh m.heapCursor size label
  (b, { m with heap := m.heap ++ [b], heapCursor := m.heapCursor + slot size })

def liveBlock? (address : Option Int) (m : Memory) : Option HeapBlock :=
  m.heap.find? (HeapBlock.liveAt address)

/-- Free the live block at an address, if there is one. -/
def free (address : Option Int) (m : Memory) : Memory :=
  { m with heap := updateFirst (HeapBlock.liveAt address) HeapBlock.erase m.heap }

/-- Whether there is a live block at the address with a byte at the offset. -/
def hasByte (address : Option Int) (offset : Int) (m : Memory) : Bool :=
  match m.liveBlock? address with
  | some b => 0 ≤ offset && offset < b.size
  | none => false

/-- Set a byte of the live block at an address. -/
def setByte (address : Option Int) (offset byte : Int) (m : Memory) : Memory :=
  if m.hasByte address offset then
    let set := HeapBlock.setByte offset.toNat byte
    { m with heap := updateFirst (HeapBlock.liveAt address) set m.heap }
  else m

def setBytes (address : Option Int) (bytes : List UInt8) (m : Memory) : Memory :=
  { m with heap := updateFirst (HeapBlock.liveAt address) (HeapBlock.setBytes bytes) m.heap }

end Memory

end TraceReplay
