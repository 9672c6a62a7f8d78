import TraceReplay.Interpret

/-! # Recipes

A recipe outlines a small program: locals of its main function, one block on the heap, and some
output. Its steps are synthesized without a trace. A field with two names may be given under
either, the first one winning; texts must be texts.
-/

namespace TraceReplay

open TraceReplay.Wording

structure RecipeLocal where
  name : String
  type : Option String
  size : Nat
  value : Json
  line : Option Int
  deriving DecidableEq

structure Recipe where
  startLine : Option Int
  endLine : Option Int
  locals : List RecipeLocal
  heapBytes : Option (List Int)
  print : Option String
  deriving DecidableEq

section

open TraceReplay.Field

def RecipeLocal.ofJson : Json → Checked RecipeLocal :=
  object fun x =>
    RecipeLocal.mk <$> required "name" text x
      <*> withDefault "type" none (nullable text) x
      <*> withDefault "size" defaultLocalSize natural x
      <*> withDefault "value" (.int 0) .accepted x
      <*> withDefault "line" none (nullable integer) x

def Recipe.ofJson : Json → Checked Recipe :=
  object fun x =>
    Recipe.mk <$> firstOf ["startLine", "start_line"] none (nullable integer) x
      <*> firstOf ["endLine", "end_line"] none (nullable integer) x
      <*> withDefault "locals" [] (list RecipeLocal.ofJson) x
      <*> firstOf ["heapBytes", "heap_bytes"] none (nullable (list integer)) x
      <*> withDefault "print" none (nullable text) x

end

namespace Recipe

def empty : Recipe := ⟨none, none, [], none, none⟩

/-- The lines of a step; a line that is zero is none. -/
def lines (line : Option Int) : List Int := (line.filter (· ≠ 0)).toList

def defaultType : String := "int"
def heapLabel : String := "malloc(int[n])"

def declareLocals (locale : Locale) :
    List RecipeLocal → Memory → Except NoActiveFrame (List Step × Memory)
  | [], m => .ok ([], m)
  | l :: rest, m => do
    let size := sizeOr defaultLocalSize (some l.size)
    let (_, m) ← m.declare l.name (textOr defaultType l.type) size (.ofJson l.value)
    let step := m.step (lines l.line) (Phrase.recipeLocal.say locale fun _ => l.name)
    let (steps, m) ← declareLocals locale rest m
    .ok (step :: steps, m)

def allocate (locale : Locale) (r : Recipe) (m : Memory) : List Step × Memory :=
  match r.heapBytes with
  | none => ([], m)
  | some data =>
    let (block, m) := m.allocate data.length heapLabel
    let m := m.setBytes (some block.address) (data.map UInt8.ofInt)
    let description := Phrase.recipeHeap.say locale fun _ => Address.hex block.address
    ([m.step [] description], m)

def write (locale : Locale) (r : Recipe) (m : Memory) : List Step × Memory :=
  match textOr "" r.print with
  | "" => ([], m)
  | text =>
    let m := m.emit text
    ([m.step [] (Phrase.recipePrint.say locale fun _ => Text.escapeNewlines text)], m)

/-- The steps of a recipe, whose main frame is live in all of them. -/
def synthesize (locale : Locale) (r : Recipe) : Except NoActiveFrame (List Step) := do
  let m := Memory.initial.push mainFrameName
  let start := m.step (lines r.startLine) (Phrase.recipeStart.say locale fun _ => "")
  let (declared, m) ← declareLocals locale r.locals m
  let (allocated, m) := r.allocate locale m
  let (written, m) := r.write locale m
  let done := m.step (lines r.endLine) (Phrase.recipeEnd.say locale fun _ => "")
  .ok (start :: declared ++ allocated ++ written ++ [done])

def check (x : Json) : Except Failure Recipe :=
  match ofJson x with
  | .accepted r => .ok r
  | .refused faults => .error (.invalid faults)

def report (locale : Locale) (r : Recipe) : Report (List Step) := do
  let steps ← .ofExcept ((r.synthesize locale).mapError .noActiveFrame)
  .log (.synthesized steps.length)
  pure steps

/-- The recipe that a value stands for, null being the empty recipe. -/
def ofValue (x : Json) : Except Failure Recipe :=
  match x with
  | .null => .ok empty
  | x => check x

end Recipe

def synthesize (x locale : Json) : Report (List Step) := do
  let recipe ← .ofExcept (Recipe.ofValue x)
  let locale ← .ofExcept (Locale.ofJson locale)
  recipe.report locale

def synthesizeText (text : String) (locale : Json) : Report (List Step) := do
  synthesize (← readJson text) locale

end TraceReplay
