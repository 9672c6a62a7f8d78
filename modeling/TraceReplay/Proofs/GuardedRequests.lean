import TraceReplay.Proofs.Interpret
import TraceReplay.Proofs.Replay.Guarded
import TraceReplay.Proofs.Replay.Recipes

/-! # Guarded requests

Requests can be answered with all partial operations in the open, as the elements of a trace are
replayed: a description is looked up by its key and has only the arguments at hand, and bytes are
written to positions that have to exist. Neither ever breaks off, whether a trace is replayed or a
recipe is synthesized, and in no language: the outcome is that of the plain request.
-/

namespace TraceReplay

open TraceReplay.Wording

def Trace.steps? (format : Format) (locale : Locale) : Trace → Except Breakdown (List Step)
  | .syntaxTree => do
    let description ← (Phrase.ast.sayWith locale []).mapError .failure
    return [(Memory.initial.push mainFrameName).step [] description]
  | .events xs => format.replay? locale xs

theorem Trace.steps?_eq (format : Format) (locale : Locale) (trace : Trace) :
    trace.steps? format locale = (trace.run format locale).outcome.mapError .noActiveFrame := by
  cases trace with
  | syntaxTree =>
    have hwords : Phrase.ast.sayWith locale [] = .ok (Phrase.ast.say locale fun _ => "") :=
      Phrase.sayWith_eq_ok rfl locale
    rw [steps?, hwords]
    rfl
  | events xs => exact format.replay?_eq locale xs

theorem Item.Shows.reaches {format : Format} {items : List Item} {m m' : Memory}
    {snapshots : List Snapshot} (h : Shows format items m snapshots m') : m.Reaches m' := by
  induction h with
  | nil m => exact .refl
  | cons effect _ ih => exact (Item.effect_reaches effect).trans ih

namespace Recipe

def declareLocals? (locale : Locale) :
    List RecipeLocal → Memory → Except Breakdown (List Step × Memory)
  | [], m => .ok ([], m)
  | l :: rest, m => do
    let size := sizeOr defaultLocalSize (some l.size)
    let (_, m) ← (m.declare l.name (textOr defaultType l.type) size (.ofJson l.value)).mapError
      .noActiveFrame
    let description ← (Phrase.recipeLocal.sayWith locale [(.name, l.name)]).mapError .failure
    let step := m.step (lines l.line) description
    let (steps, m) ← declareLocals? locale rest m
    return (step :: steps, m)

/-- Allocate the block and write its bytes one by one. -/
def allocate? (locale : Locale) (r : Recipe) (m : Memory) : Except Breakdown (List Step × Memory) :=
  match r.heapBytes with
  | none => .ok ([], m)
  | some data => do
    let (block, m) := m.allocate data.length heapLabel
    let m ← m.writeFrom? (some block.address) 0 (data.map UInt8.ofInt)
    let address := Address.hex block.address
    let description ← (Phrase.recipeHeap.sayWith locale [(.addr, address)]).mapError .failure
    return ([m.step [] description], m)

def write? (locale : Locale) (r : Recipe) (m : Memory) : Except Breakdown (List Step × Memory) :=
  match r.output? with
  | none => .ok ([], m)
  | some text => do
    let shown := Text.escapeNewlines text
    let description ← (Phrase.recipePrint.sayWith locale [(.text, shown)]).mapError .failure
    return ([(m.emit text).step [] description], m.emit text)

def synthesize? (locale : Locale) (r : Recipe) : Except Breakdown (List Step) := do
  let m := Memory.initial.push mainFrameName
  let opening ← (Phrase.recipeStart.sayWith locale []).mapError .failure
  let start := m.step (lines r.startLine) opening
  let (declared, m) ← declareLocals? locale r.locals m
  let (allocated, m) ← r.allocate? locale m
  let (written, m) ← r.write? locale m
  let closing ← (Phrase.recipeEnd.sayWith locale []).mapError .failure
  return start :: declared ++ allocated ++ written ++ [m.step (lines r.endLine) closing]

theorem declareLocals?_eq (locale : Locale) (ls : List RecipeLocal) (m : Memory) :
    declareLocals? locale ls m = (declareLocals locale ls m).mapError .noActiveFrame := by
  induction ls generalizing m with
  | nil => rfl
  | cons l rest ih =>
    have hwords : Phrase.recipeLocal.sayWith locale [(.name, l.name)] =
        .ok (Phrase.recipeLocal.say locale fun _ => l.name) := Phrase.sayWith_eq_ok rfl locale
    simp only [declareLocals?, declareLocals, hwords]
    cases m.declare l.name (textOr defaultType l.type) (sizeOr defaultLocalSize (some l.size))
      (.ofJson l.value) with
    | error e => rfl
    | ok r =>
      change (declareLocals? locale rest r.2).bind _ =
        ((declareLocals locale rest r.2).bind _).mapError _
      rw [ih]
      cases declareLocals locale rest r.2 <;> rfl

theorem allocate?_eq (locale : Locale) (r : Recipe) {m : Memory} (h : m.HeapLayout) :
    r.allocate? locale m = .ok (r.allocate locale m) := by
  unfold allocate? allocate
  cases r.heapBytes with
  | none => rfl
  | some data =>
    have hm := h.allocate data.length heapLabel
    have hwords : Phrase.recipeHeap.sayWith locale [(.addr, Address.hex m.heapCursor)] =
        .ok (Phrase.recipeHeap.say locale fun _ => Address.hex m.heapCursor) :=
      Phrase.sayWith_eq_ok rfl locale
    simp only [hm.writeFrom?_eq, hm.writeFrom_zero]
    change ((Phrase.recipeHeap.sayWith locale [(.addr, Address.hex m.heapCursor)]).mapError
      Breakdown.failure).bind _ = _
    rw [hwords]
    rfl

theorem write?_eq (locale : Locale) (r : Recipe) (m : Memory) :
    r.write? locale m = .ok (r.write locale m) := by
  rw [write_eq, write?]
  cases r.output? with
  | none => rfl
  | some text =>
    have hwords : Phrase.recipePrint.sayWith locale [(.text, Text.escapeNewlines text)] =
        .ok (Phrase.recipePrint.say locale fun _ => Text.escapeNewlines text) :=
      Phrase.sayWith_eq_ok rfl locale
    simp only [hwords]
    rfl

theorem synthesize?_eq (locale : Locale) (r : Recipe) :
    r.synthesize? locale = (r.synthesize locale).mapError .noActiveFrame := by
  have hopening : Phrase.recipeStart.sayWith locale [] =
      .ok (Phrase.recipeStart.say locale fun _ => "") := Phrase.sayWith_eq_ok rfl locale
  have hclosing : Phrase.recipeEnd.sayWith locale [] =
      .ok (Phrase.recipeEnd.say locale fun _ => "") := Phrase.sayWith_eq_ok rfl locale
  unfold synthesize? synthesize
  simp only [hopening, hclosing, declareLocals?_eq, write?_eq]
  -- The bytes of the block are written on the memory that the locals leave.
  obtain ⟨declared, m, hdeclared, -, hshows⟩ :=
    declareLocals_shows locale r.locals (Memory.initial.push mainFrameName) (List.cons_ne_nil _ _)
  have hpushed : (Memory.initial.push mainFrameName).HeapLayout :=
    Memory.initial_heapLayout.congr (Memory.heapPart_push _ _)
  rw [hdeclared]
  change (r.allocate? locale m).bind _ = _
  rw [allocate?_eq locale r (hshows.reaches.heapLayout hpushed)]
  rfl

end Recipe

/-- The steps of a payload, or what breaks them off. -/
def interpret? (payload mode locale : Json) : Except Breakdown (List Step) := do
  let request ← (Request.ofNames payload mode locale).mapError .failure
  request.trace.steps? request.format request.locale

def synthesize? (x locale : Json) : Except Breakdown (List Step) := do
  let recipe ← (Recipe.ofValue x).mapError .failure
  let locale ← (Locale.ofJson locale).mapError .failure
  recipe.synthesize? locale

theorem interpret?_eq (payload mode locale : Json) :
    interpret? payload mode locale = (interpret payload mode locale).outcome.mapError .failure := by
  rw [outcome_interpret, interpret?]
  cases Request.ofNames payload mode locale with
  | error e => rfl
  | ok request =>
    change request.trace.steps? request.format request.locale =
      (request.run.outcome.mapError Failure.noActiveFrame).mapError .failure
    rw [Trace.steps?_eq]
    change request.run.outcome.mapError Breakdown.noActiveFrame = _
    cases request.run.outcome <;> rfl

theorem Recipe.outcome_report (locale : Locale) (r : Recipe) :
    (r.report locale).outcome = (r.synthesize locale).mapError .noActiveFrame := by
  unfold report
  rw [Report.outcome_bind, Report.outcome_ofExcept]
  cases r.synthesize locale <;> rfl

theorem Recipe.synthesize?_eq_report (locale : Locale) (r : Recipe) :
    r.synthesize? locale = (r.report locale).outcome.mapError .failure := by
  rw [outcome_report, synthesize?_eq]
  cases r.synthesize locale <;> rfl

theorem synthesize?_eq (x locale : Json) :
    synthesize? x locale = (synthesize x locale).outcome.mapError .failure := by
  unfold synthesize? synthesize
  simp only [Report.outcome_bind, Report.outcome_ofExcept]
  cases Recipe.ofValue x with
  | error e => rfl
  | ok recipe =>
    simp only [Except.mapError, Except.bind, bind]
    cases Locale.ofJson locale with
    | error e => rfl
    | ok locale => exact recipe.synthesize?_eq_report locale

end TraceReplay
