import TraceReplay.Memory.Basic
import TraceReplay.Address
import TraceReplay.Json.Writer

/-! # Steps

A step records one moment of a replay: the source lines to highlight, a description, and what can
be seen of the memory. Steps are written out as a list of objects whose fields have a fixed order;
addresses become text and values lose their kind.
-/

namespace TraceReplay

structure Step where
  lines : List Int
  description : String
  snapshot : Snapshot
  deriving DecidableEq

def Memory.step (lines : List Int) (description : String) (m : Memory) : Step :=
  ⟨lines, description, m.snapshot⟩

def Variable.toJson (v : Variable) : Json :=
  .object [("name", .text v.name), ("type", .text v.type), ("addr", .text (Address.hex v.address)),
    ("size", .int v.size), ("value", v.value.toJson)]

def Frame.toJson (f : Frame) : Json :=
  .object [("name", .text f.name), ("locals", .list (f.locals.map Variable.toJson))]

def HeapBlock.byteToJson : Option Int → Json
  | some n => .int n
  | none => .null

def HeapBlock.toJson (b : HeapBlock) : Json :=
  .object [("addr", .text (Address.hex b.address)), ("size", .int b.size),
    ("bytes", .list (b.bytes.map byteToJson)), ("freed", .bool b.freed), ("label", .text b.label)]

def Step.toJson (s : Step) : Json :=
  .object [("lines", .list (s.lines.map .int)), ("desc", .text s.description),
    ("stack", .list (s.snapshot.stack.map Frame.toJson)),
    ("heap", .list (s.snapshot.heap.map HeapBlock.toJson)), ("stdout", .text s.snapshot.output)]

def Step.dump (indent : Option Int) (steps : List Step) : String :=
  Json.print ⟨indent, false⟩ (.list (steps.map Step.toJson))

end TraceReplay
