import TraceReplay.Event.Field
import TraceReplay.Format
import TraceReplay.Json.Equality

/-! # Events

The data of each kind of event, and how they are read from an object. Fields that are not named
here are ignored. An event can be written as an object again, which reads back as the same event.
-/

namespace TraceReplay

/-- The largest block that an event may allocate. -/
def maxBlockSize : Nat := 0x10000

/-- An event of which only the source line is read. -/
structure Bare where
  line : Option Int
  deriving DecidableEq

structure Call where
  line : Option Int
  fn : Option String
  deriving DecidableEq

structure Declaration where
  line : Option Int
  name : String
  type : Option String
  size : Option Nat
  value : Json
  deriving DecidableEq

structure Assignment where
  line : Option Int
  name : String
  value : Json
  deriving DecidableEq

/-- Allocating a block, whose address is assigned to the local `sym`. -/
structure Allocation where
  line : Option Int
  size : Option Nat
  sym : Option String
  label : Option String
  bytes : Option (List UInt8)
  deriving DecidableEq

structure Release where
  line : Option Int
  address : Option Int
  deriving DecidableEq

structure Store where
  line : Option Int
  address : Option Int
  bytes : List UInt8
  deriving DecidableEq

structure ByteStore where
  line : Option Int
  address : Option Int
  offset : Int
  byte : UInt8
  deriving DecidableEq

structure Output where
  line : Option Int
  text : String
  deriving DecidableEq

structure Note where
  line : Option Int
  text : Option String
  deriving DecidableEq

section

open TraceReplay.Field

def Bare.ofJson : Json → Checked Bare :=
  object fun x => .accepted ⟨line? x⟩

def Call.ofJson : Json → Checked Call :=
  object fun x => Call.mk (line? x) <$> withDefault "fn" none (nullable looseText) x

def Declaration.ofJson : Json → Checked Declaration :=
  object fun x =>
    Declaration.mk (line? x) <$> required "name" looseText x
      <*> withDefault "vtype" none (nullable looseText) x
      <*> withDefault "size" none (nullable natural) x
      <*> withDefault "value" .null .accepted x

def Assignment.ofJson : Json → Checked Assignment :=
  object fun x =>
    Assignment.mk (line? x) <$> required "name" looseText x
      <*> withDefault "value" .null .accepted x

def Allocation.ofJson : Json → Checked Allocation :=
  object fun x =>
    Allocation.mk (line? x)
      <$> firstOf ["sizeBytes", "size"] none (nullable (naturalUpTo maxBlockSize)) x
      <*> withDefault "sym" none (nullable looseText) x
      <*> withDefault "label" none (nullable looseText) x
      <*> withDefault "bytes" none (nullable byteList) x

def Release.ofJson : Json → Checked Release :=
  object fun x => .accepted ⟨line? x, address? x⟩

def Store.ofJson : Json → Checked Store :=
  object fun x => Store.mk (line? x) (address? x) <$> withDefault "bytes" [] (nullAs [] byteList) x

def ByteStore.ofJson : Json → Checked ByteStore :=
  object fun x =>
    ByteStore.mk (line? x) (address? x) <$> withDefault "offset" 0 (nullAs 0 integer) x
      <*> withDefault "byte" 0 (nullAs 0 lowByte) x

def Output.ofJson : Json → Checked Output :=
  object fun x => Output.mk (line? x) <$> withDefault "text" "" (nullAs "" looseText) x

def Note.ofJson : Json → Checked Note :=
  object fun x => Note.mk (line? x) <$> withDefault "text" none (nullable looseText) x

end

namespace Json

def ofInt? : Option Int → Json
  | some n => .int n
  | none => .null

def ofText? : Option String → Json
  | some s => .text s
  | none => .null

def ofBytes (bytes : List UInt8) : Json := .list (bytes.map fun b => .int b.toNat)

end Json

def Bare.fields (e : Bare) : Json.Fields := [("line", .ofInt? e.line)]

def Call.fields (e : Call) : Json.Fields := [("line", .ofInt? e.line), ("fn", .ofText? e.fn)]

def Declaration.fields (e : Declaration) : Json.Fields :=
  [("line", .ofInt? e.line), ("name", .text e.name), ("vtype", .ofText? e.type),
    ("size", .ofInt? (e.size.map Int.ofNat)), ("value", e.value)]

def Assignment.fields (e : Assignment) : Json.Fields :=
  [("line", .ofInt? e.line), ("name", .text e.name), ("value", e.value)]

def Allocation.fields (e : Allocation) : Json.Fields :=
  [("line", .ofInt? e.line), ("size", .ofInt? (e.size.map Int.ofNat)), ("sym", .ofText? e.sym),
    ("label", .ofText? e.label), ("bytes", (e.bytes.map Json.ofBytes).getD .null)]

def Release.fields (e : Release) : Json.Fields :=
  [("line", .ofInt? e.line), ("addr", .ofInt? e.address)]

def Store.fields (e : Store) : Json.Fields :=
  [("line", .ofInt? e.line), ("addr", .ofInt? e.address), ("bytes", .ofBytes e.bytes)]

def ByteStore.fields (e : ByteStore) : Json.Fields :=
  [("line", .ofInt? e.line), ("addr", .ofInt? e.address), ("offset", .int e.offset),
    ("byte", .int e.byte.toNat)]

def Output.fields (e : Output) : Json.Fields := [("line", .ofInt? e.line), ("text", .text e.text)]

def Note.fields (e : Note) : Json.Fields := [("line", .ofInt? e.line), ("text", .ofText? e.text)]

inductive Event where
  | enter (call : Call)
  | exit (call : Call)
  | declare (declaration : Declaration)
  | assign (assignment : Assignment)
  | allocate (allocation : Allocation)
  | release (release : Release)
  | store (store : Store)
  | storeByte (store : ByteStore)
  | output (output : Output)
  | note (note : Note)
  deriving DecidableEq

namespace Event

def ofJson : Operation → Json → Checked Event
  | .enter, x => enter <$> Call.ofJson x
  | .exit, x => exit <$> Call.ofJson x
  | .declare, x => declare <$> Declaration.ofJson x
  | .assign, x => assign <$> Assignment.ofJson x
  | .allocate, x => allocate <$> Allocation.ofJson x
  | .release, x => release <$> Release.ofJson x
  | .store, x => store <$> Store.ofJson x
  | .storeByte, x => storeByte <$> ByteStore.ofJson x
  | .output, x => output <$> Output.ofJson x
  | .note, x => note <$> Note.ofJson x

def line : Event → Option Int
  | enter e => e.line
  | exit e => e.line
  | declare e => e.line
  | assign e => e.line
  | allocate e => e.line
  | release e => e.line
  | store e => e.line
  | storeByte e => e.line
  | output e => e.line
  | note e => e.line

end Event

end TraceReplay
