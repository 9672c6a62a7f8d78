import TraceReplay.Memory.Basic
import TraceReplay.Bytes.CString

/-! # The stack

Every operation on locals works on the innermost frame alone. A declaration takes a fresh address
below all addresses handed out before and replaces a local of the same name; it needs a frame, and
fails without one. A raw store puts bytes into a local: characters if its type is a character
type, an unsigned integer if there are four of them, and the bytes themselves otherwise.
-/

namespace TraceReplay

/-- A local was declared while there was no frame. -/
structure NoActiveFrame where
  name : String
  deriving DecidableEq

def NoActiveFrame.message (e : NoActiveFrame) : String :=
  "No active frame to allocate local '" ++ e.name ++ "'"

namespace Variable

/-- A type whose name starts as the character types' names do. -/
def isCharType (type : String) : Bool := "char".toList.isPrefixOf type.toList

def storedValue (type : String) (bytes : List UInt8) : Value :=
  if isCharType type && !bytes.isEmpty then .chars (Bytes.toChars bytes)
  else if bytes.length = 4 then .int (Bytes.toNat bytes)
  else .bytes bytes

/-- The value of a store of raw numbers, of which only a character type takes more than the low
byte. -/
def storedNumbers (type : String) (data : List Int) : Except Bytes.CodecError Value :=
  if isCharType type && !data.isEmpty then Value.chars <$> Bytes.charsOfNumbers data
  else .ok (storedValue type (data.map UInt8.ofInt))

theorem storedNumbers_bytes (type : String) (bytes : List UInt8) :
    storedNumbers type (bytes.map fun b => (b.toNat : Int)) = .ok (storedValue type bytes) := by
  unfold storedNumbers
  split
  · next h =>
    have h' : (isCharType type && !bytes.isEmpty) = true := by simpa using h
    rw [Bytes.charsOfNumbers_bytes]
    simp only [storedValue, h', if_true]
    rfl
  · rw [Bytes.map_ofInt_toNat]

end Variable

namespace Frame

def local? (name : String) (f : Frame) : Option Variable := f.locals.find? (·.name = name)

/-- Bind a name at the end, dropping what it was bound to. -/
def declare (v : Variable) (f : Frame) : Frame :=
  { f with locals := f.locals.filter (·.name ≠ v.name) ++ [v] }

end Frame

namespace Memory

def top? (m : Memory) : Option Frame := m.frames.head?

def push (name : String) (m : Memory) : Memory := { m with frames := ⟨name, []⟩ :: m.frames }

def pop (m : Memory) : Memory := { m with frames := m.frames.tail }

/-- Declare a local of the innermost frame and return it. -/
def declare (name type : String) (size : Int) (value : Value) (m : Memory) :
    Except NoActiveFrame (Variable × Memory) :=
  match m.frames with
  | [] => .error ⟨name⟩
  | f :: rest =>
    let v : Variable := ⟨name, type, m.stackCursor - slot size, size, value⟩
    .ok (v, { m with frames := f.declare v :: rest, stackCursor := v.address })

def local? (name : String) (m : Memory) : Option Variable := m.top?.bind (·.local? name)

def localAt? (address : Option Int) (m : Memory) : Option Variable :=
  m.top?.bind fun f => f.locals.find? fun v => some v.address = address

def assignFirst (p : Variable → Bool) (value : Variable → Value) (m : Memory) : Memory :=
  match m.frames with
  | [] => m
  | f :: rest =>
    let locals := updateFirst p (fun v => { v with value := value v }) f.locals
    { m with frames := { f with locals } :: rest }

def assign (name : String) (value : Value) (m : Memory) : Memory :=
  m.assignFirst (·.name = name) fun _ => value

def storeAt (address : Option Int) (bytes : List UInt8) (m : Memory) : Memory :=
  m.assignFirst (fun v => some v.address = address) fun v => Variable.storedValue v.type bytes

/-- Store raw numbers into a local and return its value, or nothing if there is no such local. -/
def storeNumbers (name : String) (data : List Int) (m : Memory) :
    Except Bytes.CodecError (Option Value × Memory) :=
  match m.local? name with
  | none => .ok (none, m)
  | some v => do
    let value ← Variable.storedNumbers v.type data
    .ok (some value, m.assign name value)

end Memory

end TraceReplay
