import TraceReplay.CommandLine.Program
import TraceReplay.Proofs.Failures

/-! # How the program ends

The program makes one call, which its options choose, on the text that it has read. If the call
succeeds, its rendering is all that is written to the standard output; if anything fails, nothing is
written there and the failure is reported. Only the switch for the locale, left without its value,
makes the program break off without a report, and only where the locale is asked for.
-/

namespace TraceReplay.CommandLine

/-- A text that ends where a line starts. -/
def EndsLine (s : String) : Prop := s = "" ∨ ∃ rest, s = rest ++ "\n"

/-- A text in which some line starts with the given text. -/
def HasLine (start text : String) : Prop :=
  ∃ before after, EndsLine before ∧ text = before ++ start ++ after

theorem EndsLine.append {s t : String} (hs : EndsLine s) (ht : EndsLine t) :
    EndsLine (s ++ t) := by
  rcases ht with rfl | ⟨rest, rfl⟩
  · rwa [String.append_empty]
  · exact .inr ⟨s ++ rest, String.append_assoc.symm⟩

theorem endsLine_render (verbose : Bool) (entries : List Journal.Entry) :
    EndsLine (Journal.render verbose entries) := by
  simp only [Journal.render]
  induction entries.filter fun e => verbose || e.level == .warning with
  | nil => exact .inl rfl
  | cons e rest ih =>
    rw [List.map_cons, String.join_cons]
    exact EndsLine.append (.inr ⟨_, rfl⟩) ih

theorem Options.endsLine_notice (o : Options) (terminal : Bool) : EndsLine (o.notice terminal) := by
  unfold notice
  split
  · exact .inr ⟨"No file provided. Using built-in demo trace.", rfl⟩
  · exact .inl rfl

/-- The parts of the library that a call may run, with what they can break off with. -/
structure Library (ε : Type) where
  failure : Failure → ε
  replay (payload mode locale : Json) : Except ε (List Step)
  synthesis (x locale : Json) : Except ε (List Step)

namespace Library

def plain : Library Failure where
  failure := id
  replay payload mode locale := (TraceReplay.interpret payload mode locale).outcome
  synthesis x locale := (TraceReplay.synthesize x locale).outcome

def guarded : Library Breakdown := ⟨.failure, interpret?, synthesize?⟩

end Library

namespace Options

/-- The text that is read: that of the file, or of the standard input if there is none or its name
is a minus sign. -/
def text (o : Options) (env : Environment) : Except Failure String :=
  match o.file with
  | none => env.input.mapError .file
  | some name =>
    if name = "-" then env.input.mapError .file
    else if name.toList.contains '\x00' then .error (.file .nullCharacter)
    else ((env.file name).text name).mapError .file

/-- The call that the options choose, with its rendering: counting goes before synthesizing, and
that before replaying. A terminal without a file has the demonstration replayed or counted. -/
def call {ε : Type} (library : Library ε) (o : Options) (env : Environment) : Except ε String :=
  let count (payload : Json) : Except ε String :=
    Tally.dump o.indent <$> (eventStats payload o.modeName).outcome.mapError library.failure
  let replay (payload : Json) : Except ε String :=
    Step.dump o.indent <$> library.replay payload o.modeName o.localeName
  if o.file = none ∧ env.terminal = true then
    if o.stats then count demonstration else replay demonstration
  else do
    let text ← (o.text env).mapError library.failure
    let x ← (readJson text).outcome.mapError library.failure
    if o.stats then count x
    else if o.recipe then Step.dump o.indent <$> library.synthesis x o.localeName
    else replay x

theorem source_of_file {o : Options} {name : String} (h : o.file = some name) (terminal : Bool) :
    o.source terminal = if name = "-" then .input else .file name := by
  unfold source
  rw [h]
  split
  · next hfile => cases hfile
  · next hfile =>
    cases hfile
    rfl
  · next other hdash hfile =>
    cases hfile
    rw [if_neg hdash]

theorem outcome_answerTrace (o : Options) (payload : Json) :
    (o.answerTrace payload).outcome =
      if o.stats then Tally.dump o.indent <$> (eventStats payload o.modeName).outcome
      else Step.dump o.indent <$> (interpret payload o.modeName o.localeName).outcome := by
  unfold answerTrace
  split <;> exact Report.outcome_map _ _

theorem outcome_answerText (o : Options) (text : String) :
    (o.answerText text).outcome = (readJson text).outcome.bind fun x =>
      if o.stats then Tally.dump o.indent <$> (eventStats x o.modeName).outcome
      else if o.recipe then Step.dump o.indent <$> (synthesize x o.localeName).outcome
      else Step.dump o.indent <$> (interpret x o.modeName o.localeName).outcome := by
  unfold answerText
  rw [Report.outcome_bind]
  congr 1
  funext x
  cases hstats : o.stats <;> cases hrecipe : o.recipe <;> simp [outcome_answerTrace, hstats]

theorem mapError_plain {α : Type} (x : Except Failure α) :
    x.mapError Library.plain.failure = x := by cases x <;> rfl

theorem outcome_answer_of_text {o : Options} {env : Environment}
    (h : ¬ (o.file = none ∧ env.terminal = true)) :
    (o.answer env).outcome = (o.text env).bind fun text => (o.answerText text).outcome := by
  unfold answer text
  cases hfile : o.file with
  | none =>
    have hterminal : env.terminal = false := by simpa [hfile] using h
    have hsource : o.source env.terminal = .input := by simp [source, hfile, hterminal]
    rw [hsource]
    exact Report.outcome_bind _ _
  | some name =>
    rw [source_of_file hfile]
    by_cases hdash : name = "-"
    · simp only [if_pos hdash]
      exact Report.outcome_bind _ _
    · simp only [if_neg hdash, Report.outcome_bind, Environment.read, Report.outcome_ofExcept]
      split <;> rfl

/-- The program answers with what the call gives. -/
theorem outcome_answer (o : Options) (env : Environment) :
    (o.answer env).outcome = o.call .plain env := by
  simp only [call, mapError_plain]
  by_cases h : o.file = none ∧ env.terminal = true
  · have hsource : o.source env.terminal = .demonstration := by simp [source, h]
    rw [if_pos h, answer, hsource]
    exact o.outcome_answerTrace demonstration
  · rw [if_neg h, outcome_answer_of_text h]
    simp only [outcome_answerText]
    rfl

theorem call_guarded (o : Options) (env : Environment) :
    o.call .guarded env = (o.call .plain env).mapError .failure := by
  have hreplay (payload : Json) :
      Step.dump o.indent <$> Library.guarded.replay payload o.modeName o.localeName =
        (Step.dump o.indent <$> Library.plain.replay payload o.modeName o.localeName).mapError
          Breakdown.failure := by
    rw [mapError_map]
    exact congrArg _ (interpret?_eq payload o.modeName o.localeName)
  have hsynthesis (x : Json) :
      Step.dump o.indent <$> Library.guarded.synthesis x o.localeName =
        (Step.dump o.indent <$> Library.plain.synthesis x o.localeName).mapError
          Breakdown.failure := by
    rw [mapError_map]
    exact congrArg _ (synthesize?_eq x o.localeName)
  have hcount (x : Except Failure Tally) :
      Tally.dump o.indent <$> x.mapError Library.guarded.failure =
        (Tally.dump o.indent <$> x).mapError Breakdown.failure := (mapError_map _ _ x).symm
  simp only [call, hreplay, hsynthesis, hcount, mapError_plain]
  split
  · split <;> rfl
  · rw [mapError_bind]
    congr 1
    funext text
    rw [mapError_bind]
    congr 1
    funext x
    split
    · rfl
    · split <;> rfl

/-- What is reported, and the one failure that is not: an absent locale that is asked for. -/
def MayFail (o : Options) (e : Failure) : Prop :=
  e.isReported = true ∨ o.locale = none ∧ e = .noName "list"

theorem locale_failsOnly (o : Options) : FailsOnly o.MayFail (Locale.ofJson o.localeName) := by
  cases h : o.locale with
  | none =>
    rw [localeName, h]
    exact .error (.inr ⟨h, rfl⟩)
  | some locale =>
    rw [localeName, h]
    change FailsOnly _ (Locale.ofJson (.text locale.code))
    rw [Locale.ofJson_code]
    exact .ok locale

theorem text_failsOnly (o : Options) (env : Environment) : FailsOnly o.MayFail (o.text env) := by
  have hfile {α : Type} (x : Except FileError α) : FailsOnly o.MayFail (x.mapError .file) :=
    .mapError (fun _ => .inl rfl) x
  unfold text
  cases o.file with
  | none => exact hfile env.input
  | some name =>
    by_cases hdash : name = "-"
    · simp only [if_pos hdash]
      exact hfile env.input
    · simp only [if_neg hdash]
      split
      · exact .error (.inl rfl)
      · exact hfile _

/-- A call fails in no other way. -/
theorem call_failsOnly (o : Options) (env : Environment) :
    FailsOnly o.MayFail (o.call .plain env) := by
  have hcount (payload : Json) :
      FailsOnly o.MayFail (eventStats payload o.modeName).outcome :=
    eventStats_failsOnly (.inl rfl) (fun _ => .inl rfl) payload
  have hreplay (payload : Json) :
      FailsOnly o.MayFail (interpret payload o.modeName o.localeName).outcome :=
    interpret_failsOnly (.inl rfl) o.locale_failsOnly (fun _ => .inl rfl) (fun _ => .inl rfl)
      payload
  have hsynthesis (x : Json) : FailsOnly o.MayFail (synthesize x o.localeName).outcome :=
    synthesize_failsOnly o.locale_failsOnly (fun _ => .inl rfl) (fun _ => .inl rfl) x
  simp only [call, mapError_plain]
  split
  · split
    · exact (hcount demonstration).map _
    · exact (hreplay demonstration).map _
  · apply (o.text_failsOnly env).bind
    intro text
    have hjson : FailsOnly o.MayFail (readJson text).outcome := .mapError (fun _ => .inl rfl) _
    apply hjson.bind
    intro x
    split
    · exact (hcount x).map _
    · split
      · exact (hsynthesis x).map _
      · exact (hreplay x).map _

theorem not_isReported_iff {o : Options} {e : Failure} (h : o.MayFail e) :
    e.isReported = false ↔ o.locale = none ∧ e = .noName "list" := by
  rcases h with h | ⟨hlocale, rfl⟩
  · rw [h]
    refine ⟨nofun, ?_⟩
    rintro ⟨-, rfl⟩
    cases h
  · exact ⟨fun _ => ⟨hlocale, rfl⟩, fun _ => rfl⟩

theorem run_of_call_ok {o : Options} {env : Environment} {out : String}
    (h : o.call .plain env = .ok out) :
    (o.run env).exit = 0 ∧ (o.run env).stdout = out ++ "\n" ∧ (o.run env).unreported = none := by
  rw [← outcome_answer] at h
  simp only [run, h, true_and]

theorem run_of_call_error {o : Options} {env : Environment} {e : Failure}
    (h : o.call .plain env = .error e) :
    (o.run env).exit = 1 ∧ (o.run env).stdout = "" ∧
      if e.isReported then
        (o.run env).unreported = none ∧ HasLine ("error: " ++ e.message) (o.run env).stderr
      else (o.run env).unreported = some e := by
  rw [← outcome_answer] at h
  simp only [run, h]
  cases hreported : e.isReported with
  | false => exact ⟨rfl, rfl, rfl⟩
  | true =>
    have hlog := (o.endsLine_notice env.terminal).append
      (endsLine_render o.verbose ((o.answer env).journal ++ [.failed e.name]))
    refine ⟨rfl, rfl, rfl, _, "\n", hlog, ?_⟩
    simp only [String.append_assoc, if_true]

/-- Only an absent locale that is asked for ends the program without a report. -/
theorem unreported_eq_some_iff (o : Options) (env : Environment) (e : Failure) :
    (o.run env).unreported = some e ↔
      o.locale = none ∧ e = .noName "list" ∧ o.call .plain env = .error e := by
  cases hcall : o.call .plain env with
  | ok out => simp [run_of_call_ok hcall]
  | error x =>
    obtain ⟨-, -, hreport⟩ := run_of_call_error hcall
    have hbreaks := not_isReported_iff (o.call_failsOnly env x hcall)
    constructor
    · intro hunreported
      cases hx : x.isReported with
      | true =>
        rw [if_pos hx, hunreported] at hreport
        cases hreport.1
      | false =>
        rw [hx, if_neg Bool.false_ne_true, hunreported] at hreport
        cases hreport
        obtain ⟨hlocale, heq⟩ := hbreaks.1 hx
        exact ⟨hlocale, heq, rfl⟩
    · rintro ⟨-, rfl, hsame⟩
      cases hsame
      exact hreport

end Options

/-- The program ends with 0 or 1. It ends with 0 exactly if the call that the options choose
succeeds, and then the standard output is the rendering of that call in a line; otherwise nothing is
on the standard output, and a line of the standard error reports the failure. The failure goes
unreported only if the locale is absent and the call asks for it. The call gives the same with all
partial operations in the open, so that nothing else can be the matter. -/
theorem run_allOrNothing (args : List String) (env : Environment) (o : Options)
    (h : Options.ofArguments args = .ok o) :
    let outcome := run args env
    let call := o.call .plain env
    o.call .guarded env = call.mapError .failure ∧
      (∀ e, outcome.unreported = some e ↔
        o.locale = none ∧ e = .noName "list" ∧ call = .error e) ∧
      (outcome.exit = 0 ∨ outcome.exit = 1) ∧
      (outcome.exit = 0 ↔ ∃ out, call = .ok out) ∧
      (∀ out, call = .ok out → outcome.stdout = out ++ "\n") ∧
      (outcome.exit = 1 ↔ ∃ e, call = .error e) ∧
      ∀ e, call = .error e → outcome.stdout = "" ∧
        (outcome.unreported = none → HasLine ("error: " ++ e.message) outcome.stderr) := by
  intro outcome call
  have houtcome : outcome = o.run env := by simp only [outcome, run, h]
  rw [houtcome]
  refine ⟨o.call_guarded env, o.unreported_eq_some_iff env, ?_⟩
  cases hcall : o.call .plain env with
  | ok out =>
    obtain ⟨hexit, hstdout, -⟩ := Options.run_of_call_ok hcall
    simp [call, hcall, hexit, hstdout]
  | error e =>
    obtain ⟨hexit, hstdout, hreport⟩ := Options.run_of_call_error hcall
    have hline (hunreported : (o.run env).unreported = none) :
        HasLine ("error: " ++ e.message) (o.run env).stderr := by
      split at hreport
      · exact hreport.2
      · rw [hunreported] at hreport
        cases hreport
    simpa [call, hcall, hexit, hstdout] using hline

def givenInput (text : String) : Environment := ⟨.ok text, false, fun _ => .absent⟩

theorem run_allOrNothing_givenInput :
    let counted := run ["--recipe", "--stats", "--compact", "-"] (givenInput "[null]")
    let missing := run ["--recipe", "notes.json"] (givenInput "[null]")
    counted.exit = 0 ∧ counted.stdout = "\x7b\"<missing>\": 1\x7d\n" ∧
      missing.exit = 1 ∧ missing.stdout = "" ∧
      HasLine "error: [Errno 2] No such file or directory: 'notes.json'" missing.stderr := by
  intro counted missing
  let o : Options := ⟨some "-", some .auto, true, some .en, true, true, false⟩
  let o' : Options := ⟨some "notes.json", some .auto, true, some .en, false, false, false⟩
  obtain ⟨-, -, -, hzero, hprints, -⟩ := run_allOrNothing ["--recipe", "--stats", "--compact", "-"]
    (givenInput "[null]") o rfl
  obtain ⟨-, -, -, -, -, hone, hfails⟩ := run_allOrNothing ["--recipe", "notes.json"]
    (givenInput "[null]") o' rfl
  have hcall : o.call .plain (givenInput "[null]") = .ok "\x7b\"<missing>\": 1\x7d" := by rfl
  have hfailed : o'.call .plain (givenInput "[null]") = .error (.file (.absent "notes.json")) := rfl
  have hreported : missing.unreported = none := by decide +kernel
  obtain ⟨hnothing, hline⟩ := hfails _ hfailed
  exact ⟨hzero.2 ⟨_, hcall⟩, hprints _ hcall, hone.2 ⟨_, hfailed⟩, hnothing, hline hreported⟩

/-- The locale is absent if its switch has just a terminator for its value. -/
theorem run_absentLocale :
    Options.ofArguments ["--locale=--"] = .ok { Options.default with locale := none } ∧
      (run ["--locale=--"] (givenInput "[]")).unreported = some (.noName "list") := by
  constructor
  · rfl
  · decide +kernel

end TraceReplay.CommandLine
