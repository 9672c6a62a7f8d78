import TraceReplay.Replay.Effect
import TraceReplay.Journal

/-! # Replaying a trace

Each element of a trace is read as an event, or else as an element that is inert: one whose tag is
unknown, or whose data are malformed. A run applies the elements in turn to a memory and yields a
step for each. It stops at the first declaration without a frame, keeping the memory as it was
before.
-/

namespace TraceReplay

open TraceReplay.Wording

inductive Item where
  | unknown (line : Option Int) (tag : Json)
  | malformed (line : Option Int) (tag : String) (faults : List Checked.Fault)
  | event (tag : String) (data : Event)
  deriving DecidableEq

namespace Item

/-- Read an element of a trace. A missing tag counts as null. -/
def read (format : Format) (x : Json) : Item :=
  let line := Field.line? x
  match x.field? format.tagField with
  | some (.text tag) =>
    match format.operation? tag with
    | some operation =>
      match Event.ofJson operation x with
      | .accepted e => .event tag e
      | .refused faults => .malformed line tag faults
    | none => .unknown line (.text tag)
  | some tag => .unknown line tag
  | none => .unknown line .null

def line : Item → Option Int
  | unknown line _ => line
  | malformed line _ _ => line
  | event _ e => e.line

def effect (format : Format) (m : Memory) : Item → Except NoActiveFrame Memory
  | event _ e => e.effect format m
  | _ => .ok m

def describe (format : Format) (locale : Locale) (m : Memory) : Item → String
  | unknown _ tag => Phrase.unknownEvent.say locale fun _ => tag.display
  | malformed _ tag _ => Phrase.malformedEvent.say locale fun _ => tag
  | event _ e => e.describe format locale m

def shown (before after : Memory) : Item → Memory
  | event _ e => e.shown before after
  | _ => after

def step (format : Format) (locale : Locale) (before after : Memory) (item : Item) : Step :=
  (item.shown before after).step item.line.toList (item.describe format locale before)

end Item

/-- What an event reports besides its step, given the memory before it. -/
def Event.remarks (m : Memory) : Event → List Journal.Entry
  | .exit _ => if m.frames.isEmpty then [.noFrameToPop] else []
  | .assign e => if (m.local? e.name).isNone then [.noLocal e.name] else []
  | .allocate e =>
    let sym := textOr "" e.sym
    if sym ≠ "" && (m.local? sym).isNone then [.noLocal sym] else []
  | .release e => if (m.liveBlock? e.address).isNone then [.noBlock e.address] else []
  | _ => []

def Item.entries (format : Format) (m : Memory) : Item → List Journal.Entry
  | unknown _ tag => [.unknownEvent format tag]
  | malformed _ tag faults => [.malformedEvent format tag faults.length]
  | event tag e => .event format tag e.line :: e.remarks m

/-- The result of a run: the steps up to its end, the memory at its end, and what stopped it. -/
structure Run where
  steps : List Step
  memory : Memory
  stopped : Option NoActiveFrame
  journal : List Journal.Entry
  deriving DecidableEq

def Run.ofItems (format : Format) (locale : Locale) : List Item → Memory → Run
  | [], m => ⟨[], m, none, []⟩
  | item :: rest, m =>
    match item.effect format m with
    | .error e => ⟨[], m, some e, item.entries format m⟩
    | .ok after =>
      let run := Run.ofItems format locale rest after
      { run with
        steps := item.step format locale m after :: run.steps
        journal := item.entries format m ++ run.journal }

/-- The steps, or what stopped the run. -/
def Run.outcome (run : Run) : Except NoActiveFrame (List Step) :=
  match run.stopped with
  | some e => .error e
  | none => .ok run.steps

/-- Replay a list of elements from the initial memory. -/
def Format.replay (format : Format) (locale : Locale) (xs : List Json) : Run :=
  Run.ofItems format locale (xs.map (Item.read format)) .initial

end TraceReplay
