import TraceReplay.Proofs.Replay.Depth
import TraceReplay.Proofs.Replay.Guarded
import TraceReplay.Replayer

/-! # The outcome of a replay

Whatever the elements of a trace are, a replay of them either returns a step for each, or fails at
the first declaration that comes while no call is open. Which of the two it is can be told from the
elements alone.
-/

namespace TraceReplay

namespace Run

theorem outcome_of_effects_ok {format : Format} (locale : Locale) {items : List Item}
    {m m' : Memory} (h : Item.effects format items m = .ok m') :
    ∃ steps, (ofItems format locale items m).outcome = .ok steps ∧
      steps.length = items.length := by
  obtain ⟨hstopped, -, hlength⟩ := ofItems_of_effects_ok locale h
  exact ⟨_, by rw [outcome, hstopped], hlength⟩

theorem outcome_of_effects_error {format : Format} (locale : Locale) {items : List Item}
    {m : Memory} {e : NoActiveFrame} (h : Item.effects format items m = .error e) :
    (ofItems format locale items m).outcome = .error e := by
  rw [outcome, ofItems_of_effects_error locale h]

/-- The memory of a run is the effect of the elements before its end. The run ends at the first
element whose effect fails, if there is one. -/
theorem ofItems_part {format : Format} {locale : Locale} {items : List Item} {m : Memory}
    {run : Run} (h : ofItems format locale items m = run) :
    Item.effects format (items.take run.steps.length) m = .ok run.memory ∧
      (run.stopped = none → run.steps.length = items.length) ∧
      ∀ e, run.stopped = some e → ∃ item, items[run.steps.length]? = some item ∧
        item.effect format run.memory = .error e := by
  induction items generalizing m run with
  | nil =>
    obtain rfl := h
    refine ⟨rfl, fun _ => rfl, ?_⟩
    intro e hstopped
    cases hstopped
  | cons item rest ih =>
    rw [ofItems] at h
    cases he : item.effect format m with
    | error e =>
      simp only [he] at h
      obtain rfl := h
      refine ⟨rfl, ?_, ?_⟩
      · intro hstopped
        cases hstopped
      · intro e' hstopped
        cases hstopped
        exact ⟨item, rfl, he⟩
    | ok after =>
      obtain ⟨hmemory, hnone, hsome⟩ := ih (m := after) rfl
      simp only [he] at h
      obtain rfl := h
      refine ⟨Item.effects_cons_eq_ok_iff.2 ⟨after, he, hmemory⟩, ?_, hsome⟩
      intro hstopped
      exact congrArg (· + 1) (hnone hstopped)

end Run

/-- A replay goes through the whole trace, or up to the element whose effect fails. -/
theorem Format.replay_part {format : Format} {locale : Locale} {xs : List Json} {run : Run}
    (h : format.replay locale xs = run) :
    let part := xs.take run.steps.length
    Item.effects format (part.map (Item.read format)) .initial = .ok run.memory ∧
      (run.stopped = none → part = xs) ∧
      ∀ e, run.stopped = some e → ∃ x rest, xs = part ++ x :: rest ∧
        (Item.read format x).effect format run.memory = .error e := by
  intro part
  obtain ⟨hmemory, hnone, hsome⟩ := Run.ofItems_part h
  rw [← List.map_take] at hmemory
  refine ⟨hmemory, ?_, ?_⟩
  · intro hstopped
    have hlength : run.steps.length = xs.length := (hnone hstopped).trans (List.length_map _)
    exact List.take_of_length_le (Nat.le_of_eq hlength.symm)
  · intro e hstopped
    obtain ⟨item, hitem, herror⟩ := hsome e hstopped
    rw [List.getElem?_map, Option.map_eq_some_iff] at hitem
    obtain ⟨x, hx, rfl⟩ := hitem
    obtain ⟨hlt, rfl⟩ := List.getElem?_eq_some_iff.1 hx
    refine ⟨_, xs.drop (run.steps.length + 1), ?_, herror⟩
    rw [← List.drop_eq_getElem_cons hlt, List.take_append_drop]

theorem Trace.initial_reaches (format : Format) (locale : Locale) (trace : Trace) :
    Memory.initial.Reaches (trace.run format locale).memory := by
  cases trace with
  | syntaxTree => exact .single (.push mainFrameName)
  | events xs => exact Run.ofItems_reaches format locale (xs.map (Item.read format)) .initial

theorem Trace.heapLayout_run (format : Format) (locale : Locale) (trace : Trace) :
    (trace.run format locale).memory.HeapLayout :=
  (trace.initial_reaches format locale).heapLayout Memory.initial_heapLayout

/-- A list of events, bare or in the field of an object that is no syntax tree, is the trace. -/
theorem Format.trace_eq_events {format : Format} {payload : Json} {xs : List Json}
    (h : payload = .list xs ∨ payload.field? eventsField = some (.list xs) ∧
      ¬ (format = .clang ∧ isSyntaxTree payload = true)) :
    format.trace payload = .ok (.events xs) := by
  rcases h with rfl | ⟨hfield, htree⟩
  · simp [Format.trace, isSyntaxTree, Json.field?]
  · have hno : (decide (format = .clang) && isSyntaxTree payload) = false := by
      simpa using htree
    cases payload with
    | object fields => simp [Format.trace, hno, hfield]
    | _ => cases hfield

theorem Replayer.replay_events {r : Replayer} {payload : Json} {xs : List Json}
    (h : r.format.trace payload = .ok (.events xs)) :
    (r.replay payload).1 = (r.format.replay r.locale xs).outcome.mapError .noActiveFrame := by
  simp only [Replayer.replay, h]
  rfl

theorem Replayer.replay_list_eq (r : Replayer) (xs : List Json) :
    r.replay (.list xs) = ((r.format.replay r.locale xs).outcome.mapError .noActiveFrame,
      { r with memory := (r.format.replay r.locale xs).memory }) := by
  have htrace : r.format.trace (.list xs) = .ok (.events xs) := Format.trace_eq_events (.inl rfl)
  simp only [Replayer.replay, htrace]
  rfl

theorem Replayer.replay_list (r : Replayer) (xs : List Json) :
    (r.replay (.list xs)).1 = (r.format.replay r.locale xs).outcome.mapError .noActiveFrame ∧
      (r.replay (.list xs)).2.memory = (r.format.replay r.locale xs).memory := by
  rw [r.replay_list_eq]
  exact ⟨rfl, rfl⟩

theorem Replayer.replay_eq_ok {r : Replayer} {payload : Json} {steps : List Step}
    (h : (r.replay payload).1 = .ok steps) :
    ∃ trace, r.format.trace payload = .ok trace ∧ (trace.run r.format r.locale).stopped = none ∧
      steps = (trace.run r.format r.locale).steps := by
  unfold Replayer.replay at h
  cases htrace : r.format.trace payload with
  | error e => simp [htrace] at h
  | ok trace =>
    simp only [htrace] at h
    exact ⟨trace, rfl, Run.mapError_outcome_eq_ok_iff.1 h⟩

theorem Replayer.replay_list_eq_ok_iff {r : Replayer} {xs : List Json} {steps : List Step} :
    (r.replay (.list xs)).1 = .ok steps ↔
      (r.format.replay r.locale xs).stopped = none ∧
        steps = (r.format.replay r.locale xs).steps := by
  rw [(r.replay_list xs).1]
  exact Run.mapError_outcome_eq_ok_iff

theorem Replayer.replay_list_of_not_stopped {r : Replayer} {xs : List Json}
    (h : (r.format.replay r.locale xs).stopped = none) :
    (r.replay (.list xs)).1 = .ok (r.format.replay r.locale xs).steps :=
  replay_list_eq_ok_iff.2 ⟨h, rfl⟩

/-- The outcome of replaying a list of events, bare or in the field of an object. It is that of the
guarded replay, so nothing but a failure of the plain one occurs. It is a failure exactly if some
declaration is stray, and then the one that names the first of them; otherwise there is a step for
each event. -/
theorem Replayer.replay_outcome (r : Replayer) (payload : Json) (xs : List Json)
    (h : payload = .list xs ∨ payload.field? eventsField = some (.list xs) ∧
      ¬ (r.format = .clang ∧ isSyntaxTree payload = true)) :
    let items := xs.map (Item.read r.format)
    let outcome := (r.replay payload).1
    r.format.replay? r.locale xs = outcome.mapError .failure ∧
      ((∃ e, outcome = .error e) ↔ ∃ i d, Item.StrayFrom 0 items i d) ∧
      (∀ e, outcome = .error e →
        ∃ i d, Item.FirstStrayFrom 0 items i d ∧ e = .noActiveFrame ⟨d.name⟩) ∧
      ((¬ ∃ i d, Item.StrayFrom 0 items i d) →
        ∃ steps, outcome = .ok steps ∧ steps.length = xs.length) := by
  intro items outcome
  have houtcome : outcome = (r.format.replay r.locale xs).outcome.mapError .noActiveFrame :=
    Replayer.replay_events (Format.trace_eq_events h)
  have hguarded : r.format.replay? r.locale xs = outcome.mapError .failure := by
    rw [houtcome, Format.replay?_eq]
    cases (r.format.replay r.locale xs).outcome <;> rfl
  refine ⟨hguarded, ?_⟩
  -- Whether the effects succeed decides which of the two sides of the outcome holds.
  cases he : Item.effects r.format items .initial with
  | ok m' =>
    have hno : ¬ ∃ i d, Item.StrayFrom 0 items i d := by
      rintro ⟨i, d, hstray⟩
      exact Item.not_strayFrom_of_effects_ok he i d hstray
    obtain ⟨steps, hsteps, hlength⟩ := Run.outcome_of_effects_ok r.locale he
    have hok : outcome = .ok steps := by
      rw [houtcome, Format.replay, hsteps]
      rfl
    rw [hok]
    refine ⟨⟨?_, fun hstray => absurd hstray hno⟩, ?_, fun _ => ?_⟩
    · rintro ⟨e, hfails⟩
      cases hfails
    · intro e hfails
      cases hfails
    · exact ⟨steps, rfl, hlength.trans (List.length_map _)⟩
  | error x =>
    obtain ⟨i, d, hfirst, rfl⟩ := Item.exists_firstStrayFrom_of_effects_error he
    have herror : outcome = .error (.noActiveFrame ⟨d.name⟩) := by
      rw [houtcome, Format.replay, Run.outcome_of_effects_error r.locale he]
      rfl
    have hstray : ∃ i d, Item.StrayFrom 0 items i d := ⟨i, d, hfirst.stray⟩
    rw [herror]
    refine ⟨⟨fun _ => hstray, fun _ => ⟨_, rfl⟩⟩, ?_, fun hno => absurd hstray hno⟩
    intro e hfails
    cases hfails
    exact ⟨i, d, hfirst, rfl⟩

/-- A call with a declaration that lacks a name, left twice, and then two stray declarations. -/
def strayTrace : List Json :=
  [.object [("type", .text "function_enter")], .object [("type", .text "local_alloc")],
    .object [("type", .text "function_exit")], .object [("type", .text "function_exit")],
    .object [("type", .text "local_alloc"), ("name", .text "x")],
    .object [("type", .text "local_alloc"), ("name", .text "y")]]

def strayItems : List Item :=
  [.event "function_enter" (.enter ⟨none, none⟩),
    .malformed none "local_alloc" [⟨[.field "name"], .missing⟩],
    .event "function_exit" (.exit ⟨none, none⟩), .event "function_exit" (.exit ⟨none, none⟩),
    .event "local_alloc" (.declare ⟨none, "x", none, none, .null⟩),
    .event "local_alloc" (.declare ⟨none, "y", none, none, .null⟩)]

theorem strayItems_firstStrayFrom :
    Item.FirstStrayFrom 0 strayItems 4 ⟨none, "x", none, none, .null⟩ := by
  constructor
  · exact ⟨rfl, rfl⟩
  · rintro j hj d ⟨hdeclare, -⟩
    rcases j with _ | _ | _ | _ | j
    · cases hdeclare
    · cases hdeclare
    · cases hdeclare
    · cases hdeclare
    · omega

theorem Replayer.replay_outcome_strayTrace :
    ((Replayer.mk .clang .en .initial).replay (.object [("events", .list strayTrace)])).1 =
      .error (.noActiveFrame ⟨"x"⟩) := by
  have hitems : strayTrace.map (Item.read .clang) = strayItems := by decide +kernel
  have htree : ¬ (Format.clang = .clang ∧
      isSyntaxTree (.object [("events", .list strayTrace)]) = true) := by decide
  have houtcome := Replayer.replay_outcome ⟨.clang, .en, .initial⟩
    (.object [("events", .list strayTrace)]) strayTrace (.inr ⟨rfl, htree⟩)
  simp only [hitems] at houtcome
  obtain ⟨-, hfails, hnames, -⟩ := houtcome
  obtain ⟨e, he⟩ := hfails.2 ⟨4, _, strayItems_firstStrayFrom.stray⟩
  obtain ⟨i, d, hfirst, rfl⟩ := hnames e he
  rw [he, hfirst.unique strayItems_firstStrayFrom]

end TraceReplay
