import TraceReplay.Failure
import TraceReplay.Memory.Heap
import TraceReplay.Step

/-! # Limits

Sizes and indentations are integers without bounds, but those that come from outside must fit eight
bytes with a sign.
-/

namespace TraceReplay

/-- An integer that fits eight bytes. -/
def withinEightBytes (n : Int) : Except Failure Int :=
  if Bytes.fits 8 n then .ok n else .error .beyondEightBytes

def Memory.allocate? (size : Int) (label : String) (m : Memory) :
    Except Failure (HeapBlock × Memory) :=
  (withinEightBytes size).map fun size => m.allocate size label

def Step.dump? (indent : Option Int) (steps : List Step) : Except Failure String :=
  match indent with
  | none => .ok (Step.dump none steps)
  | some n => (withinEightBytes n).map fun n => Step.dump (some n) steps

end TraceReplay
