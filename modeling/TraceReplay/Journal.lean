import TraceReplay.Datum
import TraceReplay.Format
import TraceReplay.Json.Equality

/-! # The journal

What a run has to report about itself, in the order in which it happens. Entries from the level of
warnings on are always shown, all entries on request.
-/

namespace TraceReplay

namespace Journal

inductive Level where
  | debug
  | info
  | warning
  deriving DecidableEq

def Level.name : Level → String
  | debug => "DEBUG"
  | info => "INFO"
  | warning => "WARNING"

inductive Entry where
  | detected (format : Format)
  | replaying (count : Nat) (format : Format)
  | syntaxTree
  | event (format : Format) (tag : String) (line : Option Int)
  | unknownEvent (format : Format) (tag : Json)
  | malformedEvent (format : Format) (tag : String) (faults : Nat)
  | noFrameToPop
  | noLocal (name : String)
  | noBlock (address : Option Int)
  | produced (count : Nat) (format : Format)
  | counting (format : Format) (count : Nat)
  | synthesized (count : Nat)
  | failed (error : String)
  deriving DecidableEq

namespace Entry

def level : Entry → Level
  | event .. | noFrameToPop | noLocal _ | noBlock _ | failed _ => .debug
  | unknownEvent .. | malformedEvent .. => .warning
  | _ => .info

def orNone : Option Int → String
  | some n => n.repr
  | none => "None"

def text : Entry → String
  | detected format => "Auto-detected " ++ format.name ++ " payload"
  | replaying count format =>
    "Replaying " ++ count.repr ++ " " ++ format.name ++ " event(s)"
  | syntaxTree => "Clang AST payload: emitting a single explanatory step"
  | event format tag line => format.name ++ " event " ++ tag ++ " line=" ++ orNone line
  | unknownEvent format tag => "Unrecognized " ++ format.name ++ " event: " ++ tag.quoted
  | malformedEvent format tag faults =>
    "Malformed " ++ format.name ++ " event " ++ Text.quote tag ++ ": " ++ faults.repr ++
      " validation error(s)"
  | noFrameToPop => "pop_frame on empty stack ignored"
  | noLocal name => "set_local: no live local '" ++ name ++ "' in current frame"
  | noBlock address => "free_heap: no live block at " ++ orNone address
  | produced count format =>
    "Produced " ++ count.repr ++ " step(s) with " ++ format.name ++ " normalizer"
  | counting format count =>
    "Counting " ++ format.name ++ " event kinds over " ++ count.repr ++ " event(s)"
  | synthesized count => "Synthesized " ++ count.repr ++ " step(s) from recipe"
  | failed error => "Interpretation failed\n" ++ error

def render (e : Entry) : String := e.level.name ++ ": " ++ e.text ++ "\n"

end Entry

/-- The log of a journal: warnings, or everything if it is verbose. -/
def render (verbose : Bool) (entries : List Entry) : String :=
  let shown := entries.filter fun e => verbose || e.level == .warning
  String.join (shown.map Entry.render)

end Journal

end TraceReplay
