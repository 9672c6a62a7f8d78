import TraceReplay.Proofs.Replay.Depth

/-! # Callees and callers

An element of a trace changes the innermost frame at most; the frames behind it stay as they are
until it is left. So a call whose body is balanced leaves all frames as it has found them, whatever
the body declares, assigns, stores and allocates.
-/

namespace TraceReplay

namespace Item

variable {format : Format} {item : Item} {items : List Item} {m m' : Memory}

/-- An element keeps all frames but the innermost. -/
theorem tail_suffix_effect (h : item.effect format m = .ok m') : m.frames.tail <:+ m'.frames := by
  cases he : item.event? with
  | none =>
    rw [effect_of_event?_eq_none he] at h
    cases h
    exact List.tail_suffix _
  | some e =>
    rw [effect_of_event?_eq_some he] at h
    rcases Event.effect_frames h with ⟨c, -, hf⟩ | ⟨c, -, hf⟩ | ⟨-, -, hsame⟩
    · rw [hf]
      exact (List.tail_suffix _).trans (List.suffix_cons _ _)
    · exact ⟨[], hf.symm⟩
    · rw [← hsame.callers]
      exact List.tail_suffix _

/-- Elements that never leave the frames above a base keep the base. -/
theorem effects_of_above (format : Format) {base : List Frame} (hbase : base <:+ m.frames)
    (habove : ∀ i < items.length, base.length < depthFrom m.frames.length (items.take i)) :
    ∃ m', effects format items m = .ok m' ∧ base <:+ m'.frames ∧
      m'.frames.length = depthFrom m.frames.length items := by
  induction items generalizing m with
  | nil => exact ⟨m, rfl, hbase, rfl⟩
  | cons item rest ih =>
    have hlt : base.length < m.frames.length := habove 0 (Nat.succ_pos _)
    cases he : item.effect format m with
    | error x =>
      -- Only a declaration without a frame fails, and there is a frame above the base.
      obtain ⟨-, -, hnone, -⟩ := effect_eq_error_iff.1 he
      omega
    | ok after =>
      -- The base lies behind the innermost frame, which is all that the element can touch.
      have htail : base <:+ m.frames.tail := by
        cases hf : m.frames with
        | nil => simp [hf] at hlt
        | cons f outer =>
          rw [hf, List.suffix_cons_iff] at hbase
          rcases hbase with rfl | hbase
          · simp [hf] at hlt
          · exact hbase
      have hdepth := effect_depth he
      have hbelow : ∀ i < rest.length,
          base.length < depthFrom after.frames.length (rest.take i) := by
        intro i hi
        rw [hdepth]
        exact habove (i + 1) (Nat.succ_lt_succ hi)
      obtain ⟨m', hrest, hbase', hlength⟩ := ih (htail.trans (tail_suffix_effect he)) hbelow
      refine ⟨m', effects_cons_eq_ok_iff.2 ⟨after, he, hrest⟩, hbase', ?_⟩
      rw [hlength, hdepth]
      rfl

def isEnter (item : Item) : Bool :=
  match item.event? with
  | some (.enter _) => true
  | _ => false

def isExit (item : Item) : Bool :=
  match item.event? with
  | some (.exit _) => true
  | _ => false

/-- How many elements enter a function. -/
def enters (items : List Item) : Nat := items.countP isEnter

/-- How many elements leave a function. -/
def exits (items : List Item) : Nat := items.countP isExit

/-- No prefix leaves more functions than it enters, and the whole leaves as many as it enters. -/
structure Balanced (items : List Item) : Prop where
  nested : ∀ n, exits (items.take n) ≤ enters (items.take n)
  closed : exits items = enters items

theorem balanced_iff :
    Balanced items ↔ (∀ n < items.length, exits (items.take n) ≤ enters (items.take n)) ∧
      exits items = enters items := by
  constructor
  · rintro ⟨hnested, hclosed⟩
    exact ⟨fun n _ => hnested n, hclosed⟩
  · rintro ⟨hnested, hclosed⟩
    refine ⟨?_, hclosed⟩
    intro n
    by_cases hn : n < items.length
    · exact hnested n hn
    · rw [List.take_of_length_le (Nat.le_of_not_lt hn)]
      exact Nat.le_of_eq hclosed

instance : DecidablePred Balanced := fun _ => decidable_of_iff _ balanced_iff.symm

theorem depthAfter_add_exits {depth : Nat} (h : exits [item] ≤ depth + enters [item]) :
    item.depthAfter depth + exits [item] = depth + enters [item] := by
  unfold depthAfter exits enters isExit isEnter at *
  cases he : item.event? with
  | none => simp [he]
  | some e =>
    cases e with
    | exit c =>
      simp [he, Event.depthAfter] at h ⊢
      omega
    | _ => simp [he, Event.depthAfter]

theorem enters_cons : enters (item :: items) = enters [item] + enters items := by
  simp only [enters, List.countP_cons, List.countP_nil]
  omega

theorem exits_cons : exits (item :: items) = exits [item] + exits items := by
  simp only [exits, List.countP_cons, List.countP_nil]
  omega

theorem depthFrom_add_exits {depth : Nat}
    (h : ∀ n, exits (items.take n) ≤ depth + enters (items.take n)) :
    depthFrom depth items + exits items = depth + enters items := by
  induction items generalizing depth with
  | nil => rfl
  | cons item rest ih =>
    have hafter := depthAfter_add_exits (h 1)
    have hrest : ∀ n, exits (rest.take n) ≤ item.depthAfter depth + enters (rest.take n) := by
      intro n
      have hn := h (n + 1)
      rw [List.take_succ_cons, exits_cons, enters_cons] at hn
      omega
    have heq := ih hrest
    change depthFrom (item.depthAfter depth) rest + _ = _
    rw [exits_cons, enters_cons]
    omega

theorem Balanced.depthFrom_take (h : Balanced items) (depth n : Nat) :
    depthFrom depth (items.take n) + exits (items.take n) = depth + enters (items.take n) := by
  apply depthFrom_add_exits
  intro k
  rw [List.take_take]
  exact Nat.le_trans (h.nested _) (Nat.le_add_left _ _)

theorem Balanced.depthFrom_eq (h : Balanced items) (depth : Nat) :
    depthFrom depth items = depth := by
  have hall := h.depthFrom_take depth items.length
  have hclosed := h.closed
  rw [List.take_length] at hall
  omega

/-- The body of a call and its end are applied above the frame of the call. -/
theorem Balanced.above (h : Balanced items) (depth : Nat) (exit : Item) :
    ∀ i < (items ++ [exit]).length, depth < depthFrom (depth + 1) ((items ++ [exit]).take i) := by
  intro i hi
  rw [List.length_append, List.length_singleton] at hi
  rw [List.take_append_of_le_length (Nat.le_of_lt_succ hi)]
  have hcount := h.depthFrom_take (depth + 1) i
  have hnested := h.nested i
  omega

theorem Balanced.depthFrom_append_exit (h : Balanced items) {exit : Item} {c : Call}
    (hexit : exit.event? = some (.exit c)) (depth : Nat) :
    depthFrom (depth + 1) (items ++ [exit]) = depth := by
  rw [depthFrom, List.foldl_append]
  change depthAfter (depthFrom (depth + 1) items) exit = depth
  rw [h.depthFrom_eq, depthAfter, hexit]
  rfl

/-- A call with a balanced body succeeds and ends with the frames that it started with. -/
theorem Balanced.effects_call (h : Balanced items) {enter exit : Item} {c c' : Call}
    (henter : enter.event? = some (.enter c)) (hexit : exit.event? = some (.exit c'))
    (format : Format) (m : Memory) :
    ∃ m', effects format (enter :: (items ++ [exit])) m = .ok m' ∧ m'.frames = m.frames := by
  let called := m.push (textOr defaultFrameName c.fn)
  have hcalled : enter.effect format m = .ok called := effect_of_event?_eq_some henter format m
  have hbase : m.frames <:+ called.frames := List.suffix_cons _ _
  obtain ⟨m', heffects, hsuffix, hlength⟩ :=
    effects_of_above format hbase (h.above m.frames.length exit)
  have hdepth : m'.frames.length = m.frames.length :=
    hlength.trans (h.depthFrom_append_exit hexit m.frames.length)
  exact ⟨m', effects_cons_eq_ok_iff.2 ⟨called, hcalled, heffects⟩,
    (hsuffix.eq_of_length hdepth.symm).symm⟩

end Item

/-- A call with a balanced body does not fail, yields a step for each element, and leaves the frames
as they were. -/
theorem Run.ofItems_call_frames (format : Format) (locale : Locale) (m : Memory)
    {enter exit : Json} {body : List Json} {c c' : Call}
    (henter : (Item.read format enter).event? = some (.enter c))
    (hexit : (Item.read format exit).event? = some (.exit c'))
    (hbody : Item.Balanced (body.map (Item.read format))) :
    let run := Run.ofItems format locale ((enter :: (body ++ [exit])).map (Item.read format)) m
    run.stopped = none ∧ run.memory.frames = m.frames ∧ run.steps.length = body.length + 2 := by
  intro run
  obtain ⟨m', heffects, hframes⟩ := hbody.effects_call henter hexit format m
  have hall :
      Item.effects format ((enter :: (body ++ [exit])).map (Item.read format)) m = .ok m' := by
    rw [List.map_cons, List.map_append]
    exact heffects
  obtain ⟨hstopped, hmemory, hsteps⟩ := Run.ofItems_of_effects_ok locale hall
  refine ⟨hstopped, ?_, ?_⟩
  · rw [hmemory, hframes]
  · rw [hsteps]
    simp

/-- A body that declares and assigns in a nested call, with an unknown and a malformed element. -/
def nestedBody : List Json :=
  [.object [("kind", .text "alloc_local"), ("name", .text "p"), ("value", .int 1)],
    .object [("kind", .text "call")],
    .object [("kind", .text "alloc_local"), ("name", .text "p")],
    .object [("kind", .text "malloc"), ("sym", .text "p")],
    .object [("kind", .text "ret")],
    .object [("kind", .text "set_local")],
    .object [("kind", .text "nothing")],
    .object [("kind", .text "set_local"), ("name", .text "p"), ("value", .int 2)]]

theorem Run.ofItems_call_frames_nestedBody :
    let m := (Format.wasm.replay .en [.object [("kind", .text "call")],
      .object [("kind", .text "alloc_local"), ("name", .text "p")]]).memory
    let run := Run.ofItems .wasm .en ((.object [("kind", .text "call"), ("fn", .text "f")] ::
      (nestedBody ++ [.object [("kind", .text "ret")]])).map (Item.read .wasm)) m
    run.stopped = none ∧ run.memory.frames = m.frames ∧ run.steps.length = 10 := by
  have henter : (Item.read .wasm (.object [("kind", .text "call"), ("fn", .text "f")])).event? =
      some (.enter ⟨none, some "f"⟩) := by decide +kernel
  have hexit : (Item.read .wasm (.object [("kind", .text "ret")])).event? =
      some (.exit ⟨none, none⟩) := by decide +kernel
  have hbody : Item.Balanced (nestedBody.map (Item.read .wasm)) := by decide +kernel
  exact Run.ofItems_call_frames .wasm .en _ henter hexit hbody

end TraceReplay
