import TraceReplay.Proofs.Replay.Prefixes

/-! # Replaying in place

A replay can also be run by a machine that has one memory and one list of steps, changes both in
place, and keeps them through a failure and from one payload to the next. All that parts the
payloads is that the machine is cleared, for a syntax tree as well as for events. Its results are
those of a replayer, whatever the machine has been left with, and what a failure leaves behind is
the memory of the events before.
-/

namespace TraceReplay

open TraceReplay.Wording

/-- What is changed in place: a memory, and the steps so far. -/
structure Machine where
  memory : Memory
  steps : List Step
  deriving DecidableEq

namespace Machine

/-- A machine that has not been used. -/
def fresh : Machine := ⟨.initial, []⟩

/-- What a machine does. A failure leaves the machine as it is at that point. -/
abbrev Action := EStateM Failure Machine

def clear : Action Unit := set fresh

def change (f : Memory → Memory) : Action Unit := modify fun b => { b with memory := f b.memory }

def changeTop (f : Frame → Frame) : Action Unit :=
  change fun m => { m with frames := m.frames.modifyHead f }

def emit (line : Option Int) (description : String) : Action Unit :=
  modify fun b => { b with steps := b.steps ++ [b.memory.step line.toList description] }

/-- Declare a local: look for a frame, take an address, drop the local of that name, and add the new
one. -/
def declareLocal (name type : String) (size : Int) (value : Value) : Action Unit := do
  if (← get).memory.frames.isEmpty then throw (.noActiveFrame ⟨name⟩)
  change fun m => { m with stackCursor := m.stackCursor - Memory.slot size }
  let address := (← get).memory.stackCursor
  changeTop fun f => { f with locals := f.locals.filter (·.name ≠ name) }
  changeTop fun f => { f with locals := f.locals ++ [⟨name, type, address, size, value⟩] }

def allocate (e : Allocation) : Action Unit := do
  let address := (← get).memory.heapCursor
  change fun m => (m.allocate e.sizeOfBlock e.labelOfBlock).2
  change (·.setBytes (some address) (e.bytes.getD []))
  if textOr "" e.sym ≠ "" then change (·.assign (textOr "" e.sym) (.text (Address.hex address)))

/-- What an event changes before its step is added. -/
def prepare (format : Format) : Event → Action Unit
  | .enter e => change (·.push (textOr defaultFrameName e.fn))
  | .exit _ => pure ()
  | .declare e => declareLocal e.name (e.typeIn format) e.sizeOfLocal (.ofJson e.value)
  | .assign e => change (·.assign e.name (.ofJson e.value))
  | .allocate e => allocate e
  | .release e => change (·.free e.address)
  | .store e => change e.effect
  | .storeByte e => change (·.setByte e.address e.offset e.byte.toNat)
  | .output e => change (·.emit e.text)
  | .note _ => pure ()

/-- What an event changes after its step has been added. -/
def conclude : Event → Action Unit
  | .exit _ => change Memory.pop
  | _ => pure ()

def item (format : Format) (locale : Locale) (item : Item) : Action Unit := do
  let description := item.describe format locale (← get).memory
  match item with
  | .event _ e =>
    prepare format e
    emit e.line description
    conclude e
  | item => emit item.line description

/-- Go through elements in turn. -/
def items (format : Format) (locale : Locale) : List Item → Action Unit
  | [] => pure ()
  | first :: rest => do
    item format locale first
    items format locale rest

def events (format : Format) (payload : Json) : Except PayloadError (List Json) :=
  match payload with
  | .null => .ok []
  | .list xs => .ok xs
  | .object _ =>
    match payload.field? eventsField with
    | none => .ok []
    | some (.list xs) => .ok xs
    | some _ => .error (.eventsNotList format)
  | _ => .error (.notTrace format payload.typeName)

def answerTree (locale : Locale) : Action (List Step) := do
  clear
  change (·.push mainFrameName)
  emit none (Phrase.ast.say locale fun _ => "")
  return (← get).steps

/-- Clear the machine, look for events, replay them in turn, and return the steps. -/
def replayEvents (format : Format) (locale : Locale) (payload : Json) : Action (List Step) := do
  clear
  match events format payload with
  | .error e => throw (.payload e)
  | .ok xs =>
    items format locale (xs.map (Item.read format))
    return (← get).steps

/-- Replay a payload on a machine. -/
def replay (format : Format) (locale : Locale) (payload : Json) : Action (List Step) :=
  if format = .clang ∧ isSyntaxTree payload = true then answerTree locale
  else replayEvents format locale payload

@[simp] theorem run_clear (b : Machine) : clear.run b = .ok () fresh := rfl

@[simp] theorem run_change (f : Memory → Memory) (b : Machine) :
    (change f).run b = .ok () { b with memory := f b.memory } := rfl

@[simp] theorem run_emit (line : Option Int) (description : String) (b : Machine) :
    (emit line description).run b =
      .ok () { b with steps := b.steps ++ [b.memory.step line.toList description] } := rfl

/-- A declaration looks for a frame before it changes anything. -/
theorem run_declareLocal (name type : String) (size : Int) (value : Value) (b : Machine) :
    (declareLocal name type size value).run b =
      match b.memory.declare name type size value with
      | .ok (_, m) => .ok () { b with memory := m }
      | .error e => .error (.noActiveFrame e) b := by
  cases hframes : b.memory.frames with
  | nil => simp [declareLocal, Memory.declare, hframes]
  | cons top rest => simp [declareLocal, changeTop, Memory.declare, Frame.declare, hframes]

theorem run_allocate (e : Allocation) (b : Machine) :
    (allocate e).run b = .ok () { b with memory := e.effect b.memory } := by
  rw [Allocation.effect_eq]
  by_cases hsym : textOr "" e.sym = "" <;> simp [allocate, Allocation.filled, hsym]

theorem run_prepare {e : Event} (h : ∀ c, e ≠ .exit c) (format : Format) (b : Machine) :
    (prepare format e).run b =
      match e.effect format b.memory with
      | .ok m => .ok () { b with memory := m }
      | .error x => .error (.noActiveFrame x) b := by
  cases e with
  | exit c => exact absurd rfl (h c)
  | declare d =>
    rw [prepare, run_declareLocal, Event.effect]
    cases b.memory.declare d.name (d.typeIn format) d.sizeOfLocal (.ofJson d.value) <;> rfl
  | allocate e => exact run_allocate e b
  | _ => rfl

theorem conclude_eq_pure {e : Event} (h : ∀ c, e ≠ .exit c) : conclude e = pure () := by
  cases e with
  | exit c => exact absurd rfl (h c)
  | _ => rfl

theorem shown_of_ne_exit {e : Event} (h : ∀ c, e ≠ .exit c) (before after : Memory) :
    e.shown before after = after := by
  cases e with
  | exit c => exact absurd rfl (h c)
  | _ => rfl

/-- An element has its effect and adds its step, or leaves the machine as it is. -/
theorem run_item (format : Format) (locale : Locale) (item : Item) (b : Machine) :
    (Machine.item format locale item).run b =
      match item.effect format b.memory with
      | .ok after => .ok () ⟨after, b.steps ++ [item.step format locale b.memory after]⟩
      | .error e => .error (.noActiveFrame e) b := by
  cases item with
  | event tag e =>
    by_cases hexit : ∃ c, e = .exit c
    · obtain ⟨c, rfl⟩ := hexit
      rfl
    · have h : ∀ c, e ≠ .exit c := fun c hc => hexit ⟨c, hc⟩
      simp only [Machine.item, EStateM.run_bind, EStateM.run_get, run_prepare h,
        conclude_eq_pure h, Item.effect]
      cases e.effect format b.memory with
      | error x => rfl
      | ok after => simp [Item.step, Item.shown, shown_of_ne_exit h, Item.line]
  | _ => rfl

/-- Elements in turn change a machine as a run does that starts from its memory. -/
theorem run_items (format : Format) (locale : Locale) (items : List Item) (b : Machine) :
    let run := Run.ofItems format locale items b.memory
    let after : Machine := ⟨run.memory, b.steps ++ run.steps⟩
    (Machine.items format locale items).run b =
      match run.stopped with
      | none => .ok () after
      | some e => .error (.noActiveFrame e) after := by
  induction items generalizing b with
  | nil => simp [Machine.items, Run.ofItems]
  | cons first rest ih =>
    simp only [Machine.items, EStateM.run_bind, run_item, Run.ofItems]
    cases first.effect format b.memory with
    | error e => simp
    | ok after =>
      have hrest := ih ⟨after, b.steps ++ [first.step format locale b.memory after]⟩
      simpa using hrest

theorem trace_eq (format : Format) (payload : Json) :
    format.trace payload =
      if format = .clang ∧ isSyntaxTree payload = true then .ok .syntaxTree
      else (events format payload).map .events := by
  unfold Format.trace
  by_cases htree : format = .clang ∧ isSyntaxTree payload = true
  · simp [htree]
  · have hno : (decide (format = .clang) && isSyntaxTree payload) = false := by simpa using htree
    rw [hno, if_neg htree, if_neg Bool.false_ne_true]
    unfold events
    cases payload with
    | object fields =>
      simp only
      cases (Json.object fields).field? eventsField with
      | none => rfl
      | some events => cases events <;> rfl
    | _ => rfl

/-- What a machine makes of a payload does not depend on the machine. -/
theorem run_replay (format : Format) (locale : Locale) (payload : Json) (b : Machine) :
    (replay format locale payload).run b =
      match format.trace payload with
      | .error e => .error (.payload e) fresh
      | .ok trace =>
        let run := trace.run format locale
        match run.stopped with
        | none => .ok run.steps ⟨run.memory, run.steps⟩
        | some e => .error (.noActiveFrame e) ⟨run.memory, run.steps⟩ := by
  rw [trace_eq, replay]
  by_cases htree : format = .clang ∧ isSyntaxTree payload = true
  · rw [if_pos htree, if_pos htree]
    rfl
  · rw [if_neg htree, if_neg htree, replayEvents]
    cases hevents : events format payload with
    | error e => rfl
    | ok xs =>
      have hrun := run_items format locale (xs.map (Item.read format)) fresh
      simp only [EStateM.run_bind, run_clear, hrun, Except.map, Trace.run, Format.replay]
      have hfresh : fresh.memory = .initial := rfl
      rw [hfresh]
      cases (Run.ofItems format locale (xs.map (Item.read format)) .initial).stopped <;> rfl

section Results

variable {α : Type}

def left : EStateM.Result Failure Machine α → Machine
  | .ok _ b => b
  | .error _ b => b

def outcome : EStateM.Result Failure Machine α → Except Failure α
  | .ok a _ => .ok a
  | .error e _ => .error e

end Results

/-- The machine after a history of payloads. -/
def serve (format : Format) (locale : Locale) (history : List Json) (b : Machine) : Machine :=
  history.foldl (fun b payload => left ((replay format locale payload).run b)) b

theorem result_replay (r : Replayer) (payload : Json) (b : Machine) :
    let result := (replay r.format r.locale payload).run b
    outcome result = (r.replay payload).1 ∧
      (left result).memory = (r.replay payload).2.memory := by
  intro result
  simp only [result, run_replay, Replayer.replay, Run.outcome]
  cases r.format.trace payload with
  | error e => exact ⟨rfl, rfl⟩
  | ok trace =>
    simp only
    cases (trace.run r.format r.locale).stopped <;> exact ⟨rfl, rfl⟩

end Machine

theorem Run.mapError_outcome_eq_error_iff {run : Run} {e : NoActiveFrame} :
    run.outcome.mapError Failure.noActiveFrame = .error (.noActiveFrame e) ↔
      run.stopped = some e := by
  unfold outcome
  cases run.stopped <;> simp [Except.mapError]

/-- A run that is stopped at an element leaves the memory of the run of the elements before it. -/
theorem Run.ofItems_stopped {format : Format} {locale : Locale} {items : List Item} {m : Memory}
    {e : NoActiveFrame} (h : (ofItems format locale items m).stopped = some e) :
    ∃ k < items.length,
      (ofItems format locale (items.take k) m).stopped = none ∧
      (ofItems format locale (items.take k) m).memory = (ofItems format locale items m).memory ∧
      (ofItems format locale (items.take k) m).steps.length = k ∧
      (ofItems format locale (items.take (k + 1)) m).stopped = some e := by
  obtain ⟨hpart, -, hstops⟩ := ofItems_part (rfl : ofItems format locale items m = _)
  obtain ⟨item, hitem, hfails⟩ := hstops e h
  generalize (ofItems format locale items m).steps.length = k at hpart hitem
  have hlt : k < items.length := (List.getElem?_eq_some_iff.1 hitem).1
  obtain ⟨hstopped, hmemory, hlength⟩ := ofItems_of_effects_ok locale hpart
  refine ⟨k, hlt, hstopped, hmemory, hlength.trans (List.length_take_of_le (Nat.le_of_lt hlt)), ?_⟩
  apply ofItems_of_effects_error
  have hlonger : items.take (k + 1) = items.take k ++ [item] := by
    rw [List.take_add_one, hitem]
    rfl
  unfold Item.effects at hpart ⊢
  rw [hlonger, List.foldlM_append, hpart]
  change (item.effect format _).bind _ = _
  rw [hfails]
  rfl

namespace Replayer

def serve (history : List Json) (r : Replayer) : Replayer :=
  history.foldl (fun r payload => (r.replay payload).2) r

@[simp] theorem format_replay (r : Replayer) (payload : Json) :
    (r.replay payload).2.format = r.format := by
  unfold replay
  cases r.format.trace payload <;> rfl

@[simp] theorem locale_replay (r : Replayer) (payload : Json) :
    (r.replay payload).2.locale = r.locale := by
  unfold replay
  cases r.format.trace payload <;> rfl

theorem replay_congr {r r' : Replayer} (hformat : r'.format = r.format)
    (hlocale : r'.locale = r.locale) (payload : Json) : r'.replay payload = r.replay payload := by
  obtain ⟨format, locale, m⟩ := r
  obtain ⟨_, _, m'⟩ := r'
  cases hformat
  cases hlocale
  rfl

theorem serve_settings (history : List Json) (r : Replayer) :
    (r.serve history).format = r.format ∧ (r.serve history).locale = r.locale := by
  induction history generalizing r with
  | nil => exact ⟨rfl, rfl⟩
  | cons payload rest ih =>
    obtain ⟨hformat, hlocale⟩ := ih (r.replay payload).2
    exact ⟨hformat.trans (r.format_replay payload), hlocale.trans (r.locale_replay payload)⟩

theorem memory_serve (history : List Json) {r : Replayer} {b : Machine}
    (h : b.memory = r.memory) :
    (b.serve r.format r.locale history).memory = (r.serve history).memory := by
  induction history generalizing r b with
  | nil => exact h
  | cons payload rest ih =>
    have hrest := ih (Machine.result_replay r payload b).2
    rw [format_replay, locale_replay] at hrest
    exact hrest

/-- A replay that is aborted is that of a list of events. -/
theorem exists_events_of_aborted {r : Replayer} {payload : Json} {e : NoActiveFrame}
    (h : (r.replay payload).1 = .error (.noActiveFrame e)) :
    ∃ xs, r.format.trace payload = .ok (.events xs) ∧ r.replay payload = r.replay (.list xs) := by
  cases htrace : r.format.trace payload with
  | error refusal => simp [replay, htrace] at h
  | ok trace =>
    cases trace with
    | syntaxTree =>
      simp only [replay, htrace] at h
      cases h
    | events xs =>
      refine ⟨xs, rfl, ?_⟩
      rw [replay_list_eq, replay, htrace]
      rfl

/-- A replay that is aborted has replayed the events before the one that it fails at, and is left
as a replay of these alone would be. -/
theorem replay_aborted {r : Replayer} {payload : Json} {e : NoActiveFrame}
    (h : (r.replay payload).1 = .error (.noActiveFrame e)) :
    ∃ xs k steps, r.format.trace payload = .ok (.events xs) ∧ k < xs.length ∧
      r.replay (.list (xs.take k)) = (.ok steps, (r.replay payload).2) ∧ steps.length = k ∧
      (r.replay (.list (xs.take (k + 1)))).1 = .error (.noActiveFrame e) := by
  obtain ⟨xs, htrace, hreplay⟩ := exists_events_of_aborted h
  rw [hreplay, (r.replay_list xs).1, Run.mapError_outcome_eq_error_iff] at h
  obtain ⟨k, hk, hbefore, hmemory, hlength, hat⟩ := Run.ofItems_stopped h
  rw [List.length_map] at hk
  rw [← List.map_take] at hbefore hmemory hlength hat
  refine ⟨xs, k, _, htrace, hk, ?_, hlength, ?_⟩
  · rw [hreplay]
    apply Prod.ext
    · exact replay_list_eq_ok_iff.2 ⟨hbefore, rfl⟩
    · rw [replay_list_eq, replay_list_eq]
      exact congrArg (fun memory => { r with memory }) hmemory
  · rw [(r.replay_list _).1, Run.mapError_outcome_eq_error_iff]
    exact hat

/-- A replay that fails has either refused the payload, before anything was replayed, or has been
aborted at a declaration. -/
theorem replay_eq_error {r : Replayer} {payload : Json} {e : Failure}
    (h : (r.replay payload).1 = .error e) :
    (∃ refusal, e = .payload refusal ∧ (r.replay payload).2.memory = .initial) ∨
      ∃ x, e = .noActiveFrame x := by
  unfold replay at h ⊢
  cases htrace : r.format.trace payload with
  | error refusal =>
    simp only [htrace, Except.error.injEq] at h
    exact .inl ⟨refusal, h.symm, rfl⟩
  | ok trace =>
    simp only [htrace] at h
    right
    cases hrun : (trace.run r.format r.locale).outcome with
    | ok steps => simp [hrun, Except.mapError] at h
    | error x =>
      simp only [hrun, Except.mapError, Except.error.injEq] at h
      exact ⟨x, h.symm⟩

/-- A replayer carries nothing over from the payloads before. It has the outcome of one that was
just made, and is left with the same memory, and so is a machine that replays in place. If it is
aborted at an event, what is left is the memory after the events before it; if it refuses the
payload, it is the initial memory. It does not fail otherwise. -/
theorem replay_reused (format : Format) (locale : Locale) (history : List Json) (payload : Json) :
    let new : Replayer := ⟨format, locale, .initial⟩
    let used := new.serve history
    let machine := Machine.serve format locale history .fresh
    let result := (Machine.replay format locale payload).run machine
    let outcome := (used.replay payload).1
    let left := (used.replay payload).2
    ofNames (.text format.name) (.text locale.code) = .ok new ∧
      used.replay payload = new.replay payload ∧
      (machine.memory = used.memory ∧ Machine.outcome result = outcome ∧
        (Machine.left result).memory = left.memory ∧
        result = (Machine.replay format locale payload).run .fresh) ∧
      (∀ e, outcome = .error (.noActiveFrame e) →
        ∃ xs k steps, format.trace payload = .ok (.events xs) ∧ k < xs.length ∧
          new.replay (.list (xs.take k)) = (.ok steps, left) ∧ steps.length = k ∧
          (new.replay (.list (xs.take (k + 1)))).1 = .error (.noActiveFrame e)) ∧
      (∀ e, outcome = .error e →
        (∃ refusal, e = .payload refusal ∧ left.memory = .initial) ∨
          ∃ x, e = .noActiveFrame x) := by
  intro new used machine result outcome left
  obtain ⟨hformat, hlocale⟩ := new.serve_settings history
  have hsame : used.replay payload = new.replay payload := replay_congr hformat hlocale payload
  obtain ⟨houtcome, hleft⟩ := Machine.result_replay new payload machine
  have hfirst : outcome = (new.replay payload).1 := congrArg Prod.fst hsame
  have hsecond : left = (new.replay payload).2 := congrArg Prod.snd hsame
  rw [hfirst, hsecond, hsame]
  refine ⟨?_, rfl, ⟨new.memory_serve history rfl, houtcome, hleft, ?_⟩, ?_, ?_⟩
  · have hmode : Mode.ofJson (.text format.name) = .ok (.only format) :=
      Mode.ofJson_name (.only format)
    simp only [ofNames, hmode, Locale.ofJson_code]
    rfl
  · simp only [result, Machine.run_replay]
  · intro e he
    exact replay_aborted he
  · intro e he
    exact replay_eq_error he

end Replayer

end TraceReplay
