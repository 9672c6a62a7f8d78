/-! # Trace formats

A trace is a list of events in one of two formats. The formats share their operations, except that
`clang` stores bytes at an address and `wasm` one byte at an offset of a block; they differ in the
field that holds an event's tag, in the tags, and in the type a local has by default.
-/

namespace TraceReplay

inductive Format where
  | clang
  | wasm
  deriving DecidableEq, Inhabited

inductive Operation where
  | enter
  | exit
  | declare
  | assign
  | allocate
  | release
  | store
  | storeByte
  | output
  | note
  deriving DecidableEq

namespace Format

def name : Format → String
  | clang => "clang"
  | wasm => "wasm"

def tagField : Format → String
  | clang => "type"
  | wasm => "kind"

def defaultType : Format → String
  | clang => "int"
  | wasm => "i32"

/-- The tags of a format and what they stand for. -/
def tags : Format → List (String × Operation)
  | clang =>
    [("function_enter", .enter), ("function_exit", .exit), ("local_alloc", .declare),
      ("local_set", .assign), ("malloc", .allocate), ("free", .release), ("store", .store),
      ("printf", .output), ("note", .note)]
  | wasm =>
    [("call", .enter), ("ret", .exit), ("alloc_local", .declare), ("set_local", .assign),
      ("malloc", .allocate), ("free", .release), ("store_mem", .storeByte), ("print", .output),
      ("note", .note)]

def operation? (format : Format) (tag : String) : Option Operation := format.tags.lookup tag

end Format

end TraceReplay
