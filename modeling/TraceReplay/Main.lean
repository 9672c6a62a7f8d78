import TraceReplay.CommandLine.Program

/-! # The executable -/

namespace TraceReplay.CommandLine

/-- What a failed attempt to read a file says of its name. A failure to open it reports the name, a
failure to read it does not. A file that cannot be read for other reasons counts as absent. -/
def contentOfError : IO.Error → FileContent
  | .inappropriateType none .. => .directory
  | .inappropriateType (some _) .. => .notDirectory
  | .invalidArgument .. => .nameTooLong
  | _ => .absent

def look (name : String) : IO FileContent := do
  try
    return .bytes (← IO.FS.readBinFile name).toList
  catch e => return contentOfError e

def readText (stream : IO.FS.Stream) : IO (Except FileError String) := do
  let bytes ← stream.readBinToEnd
  return (FileContent.bytes bytes.toList).text "-"

end TraceReplay.CommandLine

open TraceReplay.CommandLine

def main (args : List String) : IO UInt32 := do
  let stdin ← IO.getStdin
  let terminal ← stdin.isTty
  let source : Option Source := (Options.ofArguments args).toOption.map (·.source terminal)
  let input ← if source = some .input then readText stdin else pure (.ok "")
  let content ←
    match source with
    | some (.file name) => look name
    | _ => pure .absent
  let outcome := run args ⟨input, terminal, fun _ => content⟩
  let stderr ← IO.getStderr
  stderr.putStr outcome.stderr
  if let some e := outcome.unreported then stderr.putStrLn (e.name ++ ": " ++ e.message)
  (← IO.getStdout).putStr outcome.stdout
  return outcome.exit.toUInt32
