import TraceReplay.CommandLine.Arguments
import TraceReplay.CommandLine.File
import TraceReplay.Recipe
import TraceReplay.Tally

/-! # The program

The program reads JSON text from a file or from its standard input and writes steps or counts as
JSON text. At a terminal and without a file it runs a demonstration trace instead. Nothing is
written to the standard output unless the whole request succeeds; the log and the text of a
failure go to the standard error. A locale that is absent ends the program without a report, unless
something else fails before or no description is needed.
-/

namespace TraceReplay.CommandLine

/-- What the program sees of its surroundings: the text of the standard input or why there is none,
whether it is a terminal, and what file names lead to. -/
structure Environment where
  input : Except FileError String
  terminal : Bool
  file : String → FileContent

/-- How the program ends, with what it wrote and the failure that ended it unreported, if any. -/
structure Outcome where
  exit : Nat
  stdout : String
  stderr : String
  unreported : Option Failure
  deriving DecidableEq

/-- Where the text comes from. -/
inductive Source where
  | demonstration
  | input
  | file (name : String)
  deriving DecidableEq

def Options.source (o : Options) (terminal : Bool) : Source :=
  match o.file with
  | none => if terminal then .demonstration else .input
  | some "-" => .input
  | some name => .file name

/-- The text of a file. A name with a null character is refused before the file is looked for. -/
def Environment.read (env : Environment) (name : String) : Report String :=
  let text :=
    if name.toList.contains '\x00' then .error .nullCharacter else (env.file name).text name
  .ofExcept (text.mapError .file)

def Environment.readInput (env : Environment) : Report String :=
  .ofExcept (env.input.mapError .file)

def demonstration : Json :=
  let event (tag : String) (line : Int) (fields : Json.Fields) : Json :=
    .object (("type", .text tag) :: fields ++ [("line", .int line)])
  .list
    [event "function_enter" 9 [("fn", .text "main")],
      event "local_alloc" 10
        [("name", .text "x"), ("vtype", .text "int"), ("size", .int 4), ("value", .int 42)],
      event "local_alloc" 11 [("name", .text "p"), ("vtype", .text "int*"), ("size", .int 8)],
      event "malloc" 11 [("sizeBytes", .int 4), ("sym", .text "p")],
      event "store" 12
        [("addr", .text "0x10000000"), ("bytes", .list [.int 99, .int 0, .int 0, .int 0])],
      event "printf" 13 [("text", .text "99\n")],
      event "free" 14 [("addr", .text "0x10000000")],
      event "function_exit" 15 [("fn", .text "main")]]

namespace Options

def indent (o : Options) : Option Int := if o.compact then none else some 2

/-- The mode by name. An empty list stands for an absent one. -/
def modeName (o : Options) : Json := o.mode.elim (.list []) fun mode => .text mode.name

def localeName (o : Options) : Json := o.locale.elim (.list []) fun locale => .text locale.code

def answerTrace (o : Options) (payload : Json) : Report String :=
  if o.stats then Tally.dump o.indent <$> eventStats payload o.modeName
  else Step.dump o.indent <$> interpret payload o.modeName o.localeName

/-- The output for a text; counting goes before synthesizing. -/
def answerText (o : Options) (text : String) : Report String := do
  let x ← readJson text
  if o.recipe && !o.stats then Step.dump o.indent <$> synthesize x o.localeName
  else o.answerTrace x

def answer (o : Options) (env : Environment) : Report String :=
  match o.source env.terminal with
  | .demonstration => o.answerTrace demonstration
  | .input => do o.answerText (← env.readInput)
  | .file name => do o.answerText (← env.read name)

def notice (o : Options) (terminal : Bool) : String :=
  if o.source terminal = .demonstration then "No file provided. Using built-in demo trace.\n"
  else ""

/-- Run the program; a failure is logged and reported, if it can be. -/
def run (o : Options) (env : Environment) : Outcome :=
  let report := o.answer env
  let log (entries : List Journal.Entry) : String :=
    o.notice env.terminal ++ Journal.render o.verbose entries
  match report.outcome with
  | .ok text => ⟨0, text ++ "\n", log report.journal, none⟩
  | .error e =>
    if e.isReported then
      ⟨1, "", log (report.journal ++ [.failed e.name]) ++ "error: " ++ e.message ++ "\n", none⟩
    else ⟨1, "", log report.journal, some e⟩

end Options

def usage : String :=
  "usage: tracereplay [-h] [--mode MODE] [--recipe] [--locale LOCALE] [--stats] [--compact]\n" ++
    "                   [--verbose] [file]\n"

def run (args : List String) (env : Environment) : Outcome :=
  match Options.ofArguments args with
  | .error .help => ⟨0, usage, "", none⟩
  | .error .usage => ⟨2, "", usage, none⟩
  | .ok o => o.run env

end TraceReplay.CommandLine
