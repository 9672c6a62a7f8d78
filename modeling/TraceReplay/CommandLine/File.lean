import TraceReplay.Failure
import TraceReplay.Text.Newline

/-! # Files

The text of a file is its bytes read as UTF-8, with unified line ends.
-/

namespace TraceReplay.CommandLine

/-- What a path leads to. -/
inductive FileContent where
  | absent
  | directory
  /-- A part before the last one is a file. -/
  | notDirectory
  | nameTooLong
  | bytes (data : List UInt8)
  deriving DecidableEq

def FileContent.text (name : String) : FileContent → Except FileError String
  | absent => .error (.absent name)
  | directory => .error (.directory name)
  | notDirectory => .error (.notDirectory name)
  | nameTooLong => .error (.nameTooLong name)
  | bytes data =>
    match Text.Utf8.decode data with
    | .ok s => .ok (String.ofList (Text.unifyNewlines s.toList))
    | .error fault => .error (.notUtf8 fault)

end TraceReplay.CommandLine
