import Mathlib.Logic.Relation
import TraceReplay.Limits
import TraceReplay.Proofs.Memory.Footprint

/-! # Sequences of memory operations

An action is an operation on memory with its arguments, none of which is restricted. It returns a
reply or fails, and an action that fails leaves the memory as it was. Whatever is done to a memory,
by actions or by the events of a trace, is a sequence of the changes that are listed here, so a
property that every change keeps holds after all of them.
-/

namespace TraceReplay

inductive Action where
  | push (name : String)
  | pop
  | declare (name type : String) (size : Int) (value : Datum)
  | assign (name : String) (value : Datum)
  | store (name : String) (data : List Int)
  | allocate (size : Int) (label : String)
  | free (address : Option Int)
  | write (address : Option Int) (offset byte : Int)
  | output (text : String)

inductive Reply where
  | nothing
  | frame (f : Option Frame)
  | declared (v : Variable)
  | assigned (v : Option Variable)
  | stored (value : Option Value)
  | allocated (b : HeapBlock)
  | freed (b : Option HeapBlock)
  | written (done : Bool)

namespace Action

def perform : Action → Memory → Except Failure (Reply × Memory)
  | push name, m => .ok (.frame (m.push name).top?, m.push name)
  | pop, m => .ok (.frame m.top?, m.pop)
  | declare name type size value, m =>
    match m.declare name type size (.ofDatum value) with
    | .ok (v, m') => .ok (.declared v, m')
    | .error e => .error (.noActiveFrame e)
  | assign name value, m =>
    let m' := m.assign name (.ofDatum value)
    .ok (.assigned (m'.local? name), m')
  | store name data, m =>
    match m.storeNumbers name data with
    | .ok (value, m') => .ok (.stored value, m')
    | .error e => .error (.codec e)
  | allocate size label, m =>
    match m.allocate? size label with
    | .ok (b, m') => .ok (.allocated b, m')
    | .error e => .error e
  | free address, m => .ok (.freed ((m.liveBlock? address).map HeapBlock.erase), m.free address)
  | write address offset byte, m =>
    .ok (.written (m.hasByte address offset), m.setByte address offset byte)
  | output text, m => .ok (.nothing, m.emit text)

def after (a : Action) (m : Memory) : Memory :=
  match a.perform m with
  | .ok (_, m') => m'
  | .error _ => m

def declaredAddress? (a : Action) (m : Memory) : Option Int :=
  match a.perform m with
  | .ok (.declared v, _) => some v.address
  | _ => none

end Action

namespace Memory

/-- The memory after a sequence of actions. -/
def performAll (actions : List Action) (m : Memory) : Memory :=
  actions.foldl (fun m a => a.after m) m

theorem performAll_append (actions rest : List Action) (m : Memory) :
    m.performAll (actions ++ rest) = (m.performAll actions).performAll rest :=
  List.foldl_append

/-- The addresses that the declarations in a sequence of actions return, in their order. -/
def declaredAddresses : List Action → Memory → List Int
  | [], _ => []
  | a :: rest, m => (a.declaredAddress? m).toList ++ declaredAddresses rest (a.after m)

/-- What can be done to a memory. Raw stores count as assignments of the value that they leave. -/
inductive Change (m : Memory) : Memory → Prop
  | push (name : String) : Change m (m.push name)
  | pop : Change m m.pop
  | declare {name type : String} {size : Int} {value : Value} {v : Variable} {m' : Memory}
      (h : m.declare name type size value = .ok (v, m')) : Change m m'
  | assign (p : Variable → Bool) (value : Variable → Value) : Change m (m.assignFirst p value)
  | allocate (size : Int) (label : String) : Change m (m.allocate size label).2
  | free (address : Option Int) : Change m (m.free address)
  | setByte (address : Option Int) (offset byte : Int) : Change m (m.setByte address offset byte)
  | setBytes (address : Option Int) (bytes : List UInt8) : Change m (m.setBytes address bytes)
  | emit (text : String) : Change m (m.emit text)

/-- The first memory becomes the second one by some sequence of changes. -/
abbrev Reaches : Memory → Memory → Prop := Relation.ReflTransGen Change

theorem Reaches.keeps {P : Memory → Prop} (hP : ∀ m m', Change m m' → P m → P m')
    {m m' : Memory} (h : Reaches m m') (hm : P m) : P m' := by
  induction h with
  | refl => exact hm
  | tail _ hc ih => exact hP _ _ hc ih

theorem allocate?_eq_ok {size : Int} {label : String} {m : Memory} {r : HeapBlock × Memory}
    (h : m.allocate? size label = .ok r) : r = m.allocate size label := by
  unfold allocate? withinEightBytes at h
  by_cases hs : Bytes.fits 8 size
  · simpa [hs, Except.map, eq_comm] using h
  · simp [hs, Except.map] at h

theorem after_reaches (a : Action) (m : Memory) : Reaches m (a.after m) := by
  unfold Action.after
  cases a with
  | push name => exact .single (.push name)
  | pop => exact .single .pop
  | declare name type size value =>
    simp only [Action.perform]
    cases hd : m.declare name type size (.ofDatum value) with
    | error e => exact .refl
    | ok r => exact .single (.declare hd)
  | assign name value => exact .single (.assign _ _)
  | store name data =>
    simp only [Action.perform]
    cases hs : m.storeNumbers name data with
    | error e => exact .refl
    | ok r =>
      rcases storeNumbers_eq_ok hs with ⟨-, hr⟩ | ⟨value, -, hr⟩
      · simp only [hr]
        exact .refl
      · simp only [hr]
        exact .single (.assign _ _)
  | allocate size label =>
    simp only [Action.perform]
    cases ha : m.allocate? size label with
    | error e => exact .refl
    | ok r =>
      obtain rfl := allocate?_eq_ok ha
      exact .single (.allocate size label)
  | free address => exact .single (.free address)
  | write address offset byte => exact .single (.setByte address offset byte)
  | output text => exact .single (.emit text)

theorem performAll_reaches (actions : List Action) (m : Memory) :
    Reaches m (m.performAll actions) := by
  induction actions generalizing m with
  | nil => exact .refl
  | cons a rest ih => exact (after_reaches a m).trans (ih (a.after m))

end Memory

end TraceReplay
