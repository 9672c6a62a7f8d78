import TraceReplay.Proofs.Failures
import TraceReplay.Proofs.Replay.Formats

/-! # Languages

The language of a request decides how its steps are described, and nothing else. The effects of a
trace do not depend on it, so two replays of a trace go through the same memories and are stopped
alike, and the same holds of recipes. Every phrase has its words in either language, with no slot
that is not filled.
-/

namespace TraceReplay

open TraceReplay.Wording

/-- Two outcomes agree in all but the descriptions: they are the same failure, or as many steps that
agree in their order. -/
inductive SameSteps : Except Failure (List Step) → Except Failure (List Step) → Prop
  | error (e : Failure) : SameSteps (.error e) (.error e)
  | ok {steps steps' : List Step} (h : List.Forall₂ Step.Agrees steps steps') :
    SameSteps (.ok steps) (.ok steps')

/-- A memory that is shown with the same lines makes steps that agree. -/
theorem Memory.step_agrees (lines : List Int) (description description' : String) (m : Memory) :
    Step.Agrees (m.step lines description) (m.step lines description') :=
  ⟨rfl, rfl, rfl, rfl⟩

theorem Run.ofItems_locale (format : Format) (locale locale' : Locale) (items : List Item)
    (m : Memory) : Agrees (ofItems format locale items m) (ofItems format locale' items m) := by
  induction items generalizing m with
  | nil => exact ⟨rfl, rfl, .nil⟩
  | cons item rest ih =>
    simp only [ofItems]
    -- The effect takes no locale, so both runs are in the same case.
    cases item.effect format m with
    | error e => exact ⟨rfl, rfl, .nil⟩
    | ok after =>
      have hstep : Step.Agrees (item.step format locale m after)
          (item.step format locale' m after) := Memory.step_agrees _ _ _ _
      exact ⟨(ih after).stopped, (ih after).memory, .cons hstep (ih after).steps⟩

theorem Trace.run_locale (format : Format) (locale locale' : Locale) (trace : Trace) :
    Run.Agrees (trace.run format locale) (trace.run format locale') := by
  cases trace with
  | syntaxTree => exact ⟨rfl, rfl, .cons (Memory.step_agrees _ _ _ _) .nil⟩
  | events xs =>
    have h := Run.ofItems_locale format locale locale' (xs.map (Item.read format)) .initial
    exact ⟨h.stopped, h.memory, h.steps⟩

theorem Run.Agrees.sameSteps {run run' : Run} (h : Agrees run run') :
    SameSteps (run.outcome.mapError .noActiveFrame) (run'.outcome.mapError .noActiveFrame) := by
  unfold outcome
  rw [h.stopped]
  cases run.stopped with
  | some e => exact .error (.noActiveFrame e)
  | none => exact .ok h.steps

theorem interpret_locale (payload mode : Json) (locale locale' : Locale) :
    SameSteps (interpret payload mode (.text locale.code)).outcome
      (interpret payload mode (.text locale'.code)).outcome := by
  rw [outcome_interpret, outcome_interpret, Request.ofNames_code payload mode locale locale']
  cases Request.ofNames payload mode (.text locale.code) with
  | error e => exact .error e
  | ok request => exact (request.trace.run_locale request.format request.locale locale').sameSteps

namespace Recipe

variable (locale locale' : Locale)

theorem declareLocals_locale (ls : List RecipeLocal) (m : Memory) :
    (∃ e, declareLocals locale ls m = .error e ∧ declareLocals locale' ls m = .error e) ∨
      ∃ steps steps' m', declareLocals locale ls m = .ok (steps, m') ∧
        declareLocals locale' ls m = .ok (steps', m') ∧ List.Forall₂ Step.Agrees steps steps' := by
  induction ls generalizing m with
  | nil => exact .inr ⟨[], [], m, rfl, rfl, .nil⟩
  | cons l rest ih =>
    simp only [declareLocals]
    cases m.declare l.name (textOr defaultType l.type) (sizeOr defaultLocalSize (some l.size))
      (.ofJson l.value) with
    | error e => exact .inl ⟨e, rfl, rfl⟩
    | ok declared =>
      simp only [Except.bind, bind]
      rcases ih declared.2 with ⟨e, he, he'⟩ | ⟨steps, steps', m', hsteps, hsteps', hagree⟩
      · rw [he, he']
        exact .inl ⟨e, rfl, rfl⟩
      · rw [hsteps, hsteps']
        exact .inr ⟨_, _, m', rfl, rfl, .cons (Memory.step_agrees _ _ _ _) hagree⟩

theorem allocate_locale (r : Recipe) (m : Memory) :
    List.Forall₂ Step.Agrees (r.allocate locale m).1 (r.allocate locale' m).1 ∧
      (r.allocate locale' m).2 = (r.allocate locale m).2 := by
  unfold allocate
  cases r.heapBytes with
  | none => exact ⟨.nil, rfl⟩
  | some data => exact ⟨.cons (Memory.step_agrees _ _ _ _) .nil, rfl⟩

theorem write_locale (r : Recipe) (m : Memory) :
    List.Forall₂ Step.Agrees (r.write locale m).1 (r.write locale' m).1 ∧
      (r.write locale' m).2 = (r.write locale m).2 := by
  rw [write_eq, write_eq]
  cases r.output? with
  | none => exact ⟨.nil, rfl⟩
  | some text => exact ⟨.cons (Memory.step_agrees _ _ _ _) .nil, rfl⟩

def assemble (r : Recipe) (declared : List Step) (m : Memory) : List Step :=
  let start := (Memory.initial.push mainFrameName).step (lines r.startLine)
    (Phrase.recipeStart.say locale fun _ => "")
  let allocated := r.allocate locale m
  let written := r.write locale allocated.2
  let done := written.2.step (lines r.endLine) (Phrase.recipeEnd.say locale fun _ => "")
  start :: declared ++ allocated.1 ++ written.1 ++ [done]

theorem synthesize_eq (r : Recipe) :
    r.synthesize locale =
      (declareLocals locale r.locals (Memory.initial.push mainFrameName)).map fun declared =>
        r.assemble locale declared.1 declared.2 := by
  unfold synthesize
  simp only
  cases declareLocals locale r.locals (Memory.initial.push mainFrameName) <;> rfl

theorem assemble_locale (r : Recipe) {declared declared' : List Step} (m : Memory)
    (h : List.Forall₂ Step.Agrees declared declared') :
    List.Forall₂ Step.Agrees (r.assemble locale declared m) (r.assemble locale' declared' m) := by
  obtain ⟨hallocated, hm⟩ := r.allocate_locale locale locale' m
  obtain ⟨hwritten, hm'⟩ := r.write_locale locale locale' (r.allocate locale m).2
  simp only [assemble, hm, hm']
  apply List.rel_append
  · apply List.rel_append
    · apply List.rel_append
      · exact .cons (Memory.step_agrees _ _ _ _) h
      · exact hallocated
    · exact hwritten
  · exact .cons (Memory.step_agrees _ _ _ _) .nil

theorem report_locale (r : Recipe) :
    SameSteps (r.report locale).outcome (r.report locale').outcome := by
  rw [outcome_report, outcome_report, synthesize_eq, synthesize_eq]
  rcases declareLocals_locale locale locale' r.locals (Memory.initial.push mainFrameName) with
    ⟨e, he, he'⟩ | ⟨declared, declared', m, hdeclared, hdeclared', hagree⟩
  · rw [he, he']
    exact .error (.noActiveFrame e)
  · rw [hdeclared, hdeclared']
    exact .ok (r.assemble_locale locale locale' m hagree)

end Recipe

theorem synthesize_locale (x : Json) (locale locale' : Locale) :
    SameSteps (synthesize x (.text locale.code)).outcome
      (synthesize x (.text locale'.code)).outcome := by
  unfold synthesize
  simp only [Report.outcome_bind, Report.outcome_ofExcept, Locale.ofJson_code]
  cases Recipe.ofValue x with
  | error e => exact .error e
  | ok recipe => exact recipe.report_locale locale locale'

/-- Whether a failure is that of a description: a phrase that is not there, or a slot that is not
given. -/
def Failure.isOfWording : Failure → Bool
  | unknownPhrase _ | missingSlot _ => true
  | _ => false

def Worded {α : Type} (x : Except Failure α) : Prop := ∀ e, x = .error e → e.isOfWording = false

theorem worded_iff {α : Type} {x : Except Failure α} :
    Worded x ↔ FailsOnly (fun e => e.isOfWording = false) x := Iff.rfl

theorem Locale.worded_ofJson (x : Json) : Worded (Locale.ofJson x) :=
  worded_iff.2 (Locale.failsOnly_ofJson rfl rfl)

theorem interpret_worded (payload mode locale : Json) :
    Worded (interpret payload mode locale).outcome := by
  apply worded_iff.2
  apply interpret_failsOnly
  · rfl
  · exact Locale.worded_ofJson locale
  · exact fun _ => rfl
  · exact fun _ => rfl

theorem Recipe.report_worded (locale : Locale) (r : Recipe) :
    Worded (r.report locale).outcome :=
  worded_iff.2 (r.report_failsOnly (fun _ => rfl) locale)

theorem synthesize_worded (x locale : Json) : Worded (synthesize x locale).outcome := by
  apply worded_iff.2
  apply synthesize_failsOnly
  · exact Locale.worded_ofJson locale
  · exact fun _ => rfl
  · exact fun _ => rfl

/-- Requests in two languages have the same outcome but for the descriptions of their steps, be it
the replay of a payload or the synthesis of a recipe, which may be given as a value. In neither
language does it matter that phrases are looked up by their keys and filled with the arguments at
hand: a request that is answered so has the same outcome, which is no failure of wording. -/
theorem language_only_words (payload mode x : Json) (recipe : Recipe) (locale locale' : Locale) :
    let replay (l : Locale) := (interpret payload mode (.text l.code)).outcome
    let synthesis (l : Locale) := (synthesize x (.text l.code)).outcome
    let report (l : Locale) := (recipe.report l).outcome
    SameSteps (replay locale) (replay locale') ∧ SameSteps (synthesis locale) (synthesis locale') ∧
      SameSteps (report locale) (report locale') ∧
      ∀ l : Locale,
        interpret? payload mode (.text l.code) = (replay l).mapError .failure ∧
        synthesize? x (.text l.code) = (synthesis l).mapError .failure ∧
        recipe.synthesize? l = (report l).mapError .failure ∧
        Worded (replay l) ∧ Worded (synthesis l) ∧ Worded (report l) := by
  intro replay synthesis report
  refine ⟨interpret_locale payload mode locale locale', synthesize_locale x locale locale',
    recipe.report_locale locale locale', ?_⟩
  intro l
  exact ⟨interpret?_eq payload mode _, synthesize?_eq x _, recipe.synthesize?_eq_report l,
    interpret_worded payload mode _, synthesize_worded x _, recipe.report_worded l⟩

end TraceReplay
