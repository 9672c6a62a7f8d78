import TraceReplay.Mode
import TraceReplay.Text.DecimalDigit

/-! # Arguments of the command line

Arguments are sorted into operands and switches before any of them is acted on. A long switch may
be abbreviated as long as it stays unambiguous and takes a value behind an equals sign. Short
switches without a value may be joined, the first of them also by an equals sign; the value of a
short switch may follow it directly, and the value of a first one also behind an equals sign.
After `--` all arguments are operands. The one operand is the file to read, and the last of
several uses of a switch counts. A value that is joined to its switch and is just `--` is dropped,
which leaves the switch without one.
-/

namespace TraceReplay.CommandLine

inductive Switch where
  | help
  | mode
  | recipe
  | locale
  | stats
  | compact
  | verbose
  deriving DecidableEq

namespace Switch

def all : List Switch := [help, mode, recipe, locale, stats, compact, verbose]

def long : Switch → List Char
  | help => "--help".toList
  | mode => "--mode".toList
  | recipe => "--recipe".toList
  | locale => "--locale".toList
  | stats => "--stats".toList
  | compact => "--compact".toList
  | verbose => "--verbose".toList

def short? : Switch → Option Char
  | help => some 'h'
  | mode => some 'm'
  | recipe => some 'r'
  | locale => some 'l'
  | verbose => some 'v'
  | _ => none

def takesValue (s : Switch) : Bool := s = mode || s = locale

def ofShort? (c : Char) : Option Switch := all.find? (·.short? = some c)

end Switch

inductive Refusal where
  | help
  | usage
  deriving DecidableEq

/-- What an argument is. A switch may carry a text: a value, or further short switches that are
joined to a short one. -/
inductive Token where
  | operand (s : String)
  | terminator
  | long (s : Switch) (value : Option (List Char))
  | short (s : Switch) (joined : Option (List Char))
  | unknown
  deriving DecidableEq

def splitValue (cs : List Char) : List Char × Option (List Char) :=
  match cs.span (· ≠ '=') with
  | (name, _ :: value) => (name, some value)
  | (name, []) => (name, none)

/-- Digits, or a point with digits after it and perhaps before it; a line feed may follow. -/
def isNumber (cs : List Char) : Bool :=
  let digit (c : Char) := (Text.decimalDigit? c).isSome
  let cs := if cs.getLast? = some '\n' then cs.dropLast else cs
  match cs.span digit with
  | (ds, []) => !ds.isEmpty
  | (_, '.' :: rest) => !rest.isEmpty && rest.all digit
  | _ => false

/-- An argument that starts with a minus sign and is no switch: negative numbers and texts with a
space are operands. -/
def otherwise (s : String) : Token :=
  if isNumber (s.toList.drop 1) || s.toList.contains ' ' then .operand s else .unknown

def classify (s : String) : Except Refusal Token :=
  match s.toList with
  | ['-'] => .ok (.operand s)
  | '-' :: '-' :: cs =>
    let (name, value) := splitValue ('-' :: '-' :: cs)
    match Switch.all.filter fun w => name.isPrefixOf w.long with
    | [w] => .ok (.long w value)
    | [] => .ok (otherwise s)
    | _ => .error .usage
  | '-' :: c :: cs =>
    match Switch.ofShort? c with
    | some w =>
      match cs with
      | [] => .ok (.short w none)
      | '=' :: cs => .ok (.short w (some cs))
      | cs => .ok (.short w (some cs))
    | none => .ok (otherwise s)
  | _ => .ok (.operand s)

/-- Sort the arguments; the first `--` makes operands of all that follow it. -/
def tokens : List String → Except Refusal (List Token)
  | [] => .ok []
  | "--" :: rest => .ok (.terminator :: rest.map .operand)
  | s :: rest => do
    let t ← classify s
    let ts ← tokens rest
    .ok (t :: ts)

/-- What the arguments ask for. The mode or the locale is absent if its switch is left without a
value. -/
structure Options where
  file : Option String
  mode : Option Mode
  recipe : Bool
  locale : Option Locale
  stats : Bool
  compact : Bool
  verbose : Bool
  deriving DecidableEq

namespace Options

def default : Options := ⟨none, some .auto, false, some .en, false, false, false⟩

/-- What a value names. No value names nothing, and a value must name something. -/
def choose {α : Type} (meaning : String → Option α) (value : Option String) :
    Except Refusal (Option α) :=
  match value with
  | none => .ok none
  | some s => (meaning s).elim (.error .usage) fun a => .ok (some a)

def use (o : Options) (s : Switch) (value : Option String) : Except Refusal Options :=
  match s with
  | .help => .error .help
  | .mode => do
    let mode ← choose (fun s => Mode.all.find? (·.name = s)) value
    .ok { o with mode }
  | .locale => do
    let locale ← choose (fun s => Locale.all.find? (·.code = s)) value
    .ok { o with locale }
  | .recipe => .ok { o with recipe := true }
  | .stats => .ok { o with stats := true }
  | .compact => .ok { o with compact := true }
  | .verbose => .ok { o with verbose := true }

def useAll (o : Options) (switches : List Switch) : Except Refusal Options :=
  switches.foldlM (fun o s => o.use s none) o

/-- The value that a text joined to a switch gives: `--` gives none. -/
def joinedValue (cs : List Char) : Option String :=
  if cs = ['-', '-'] then none else some (String.ofList cs)

/-- The switches that a short switch and the characters behind it amount to. -/
inductive Joined where
  | withValue (before : List Switch) (last : Switch) (value : List Char)
  | withoutValue (before : List Switch) (last : Switch)
  deriving DecidableEq

def joinAll (before : List Switch) (s : Switch) : List Char → Except Refusal Joined
  | [] => .ok (.withoutValue before s)
  | c :: cs =>
    if s.takesValue then .ok (.withValue before s (c :: cs))
    else
      match Switch.ofShort? c with
      | some next => joinAll (before ++ [s]) next cs
      | none => .error .usage

/-- Read the text that a short switch carries. Only a value may be empty. -/
def join (s : Switch) : Option (List Char) → Except Refusal Joined
  | none => .ok (.withoutValue [] s)
  | some [] => if s.takesValue then .ok (.withValue [] s []) else .error .usage
  | some cs => joinAll [] s cs

/-- Act on the sorted arguments in turn. The flag tells whether an argument was left over. -/
def consume : List Token → Options → Bool → Except Refusal Options
  | [], o, extra => if extra then .error .usage else .ok o
  | .operand s :: rest, o, extra =>
    match o.file, rest with
    | none, .terminator :: rest => consume rest { o with file := some s } extra
    | none, rest => consume rest { o with file := some s } extra
    | some _, rest => consume rest o true
  | .terminator :: rest, o, extra => consume rest o (extra || o.file.isSome)
  | .unknown :: rest, o, _ => consume rest o true
  | .long s none :: rest, o, extra =>
    if s.takesValue then
      match rest with
      | .operand value :: rest => do consume rest (← o.use s (some value)) extra
      | _ => .error .usage
    else do consume rest (← o.use s none) extra
  | .long s (some value) :: rest, o, extra =>
    if s.takesValue then do consume rest (← o.use s (joinedValue value)) extra
    else .error .usage
  | .short s cs :: rest, o, extra => do
    match ← join s cs with
    | .withValue before last value =>
      let o ← o.useAll before
      consume rest (← o.use last (joinedValue value)) extra
    | .withoutValue before last =>
      if last.takesValue then
        match rest with
        | .operand value :: rest => do
          let o ← o.useAll before
          consume rest (← o.use last (some value)) extra
        | _ => .error .usage
      else do
        let o ← o.useAll before
        consume rest (← o.use last none) extra

def ofArguments (args : List String) : Except Refusal Options := do
  consume (← tokens args) default false

end Options

end TraceReplay.CommandLine
