import TraceReplay.Proofs.Event.ReadingBack
import TraceReplay.Proofs.Replay.Outcome
import TraceReplay.Recipe

/-! # Recipes as traces

What a recipe outlines can be written as a clang trace: entering the main function, a declaration
for each local, an allocation, an output and a note. The synthesis does not replay that trace, but
changes memory itself; its steps show the same memories as those of the replay.
-/

namespace TraceReplay

open TraceReplay.Wording

/-- The elements lead from one memory to another one, and their steps show the snapshots. -/
inductive Item.Shows (format : Format) : List Item → Memory → List Snapshot → Memory → Prop
  | nil (m : Memory) : Shows format [] m [] m
  | cons {item : Item} {rest : List Item} {m after m' : Memory} {snapshots : List Snapshot}
      (effect : item.effect format m = .ok after) (shows : Shows format rest after snapshots m') :
      Shows format (item :: rest) m ((item.shown m after).snapshot :: snapshots) m'

namespace Item.Shows

variable {format : Format} {items items' : List Item} {m m' m'' : Memory}
  {snapshots snapshots' : List Snapshot}

theorem append (h : Shows format items m snapshots m')
    (h' : Shows format items' m' snapshots' m'') :
    Shows format (items ++ items') m (snapshots ++ snapshots') m'' := by
  induction h with
  | nil m => exact h'
  | cons effect _ ih => exact .cons effect (ih h')

theorem cons_after {item : Item} {after : Memory} (effect : item.effect format m = .ok after)
    (shown : item.shown m after = after) (h : Shows format items after snapshots m') :
    Shows format (item :: items) m (after.snapshot :: snapshots) m' := by
  have hcons := Shows.cons effect h
  rwa [shown] at hcons

/-- A run of the elements succeeds, and its steps show the snapshots. -/
theorem run (h : Shows format items m snapshots m') (locale : Locale) :
    ∃ steps, (Run.ofItems format locale items m).outcome = .ok steps ∧
      steps.map Step.snapshot = snapshots := by
  induction h with
  | nil m => exact ⟨[], rfl, rfl⟩
  | @cons item rest m after m' snapshots effect _ ih =>
    obtain ⟨steps, houtcome, hsnapshots⟩ := ih
    refine ⟨item.step format locale m after :: steps, ?_, by rw [List.map_cons, hsnapshots]; rfl⟩
    simp only [Run.ofItems, effect, Run.outcome] at houtcome ⊢
    split at houtcome
    · cases houtcome
    · cases houtcome
      rfl

end Item.Shows

def RecipeLocal.event (l : RecipeLocal) : Json :=
  .object [("type", .text "local_alloc"), ("name", .text l.name), ("vtype", .ofText? l.type),
    ("size", .int l.size), ("value", l.value)]

namespace Recipe

def allocationEvent (data : List Int) : Json :=
  .object [("type", .text "malloc"), ("sizeBytes", .int data.length), ("label", .text heapLabel),
    ("bytes", .list (data.map .int))]

def outputEvent (text : String) : Json :=
  .object [("type", .text "printf"), ("text", .text text)]

def output? (r : Recipe) : Option String := r.print.filter (· ≠ "")

/-- The clang trace that does what a recipe outlines. -/
def trace (r : Recipe) : List Json :=
  [.object [("type", .text "function_enter"), ("fn", .text mainFrameName)]] ++
    r.locals.map RecipeLocal.event ++ (r.heapBytes.map allocationEvent).toList ++
    (r.output?.map outputEvent).toList ++ [.object [("type", .text "note")]]

end Recipe

theorem Item.read_of_accepted {format : Format} {x : Json} {tag : String} {operation : Operation}
    {e : Event} (htag : x.field? format.tagField = some (.text tag))
    (hoperation : format.operation? tag = some operation)
    (hdata : Event.ofJson operation x = .accepted e) : read format x = .event tag e := by
  simp only [read, htag, hoperation, hdata]

theorem RecipeLocal.read_event (l : RecipeLocal) :
    Item.read .clang l.event =
      .event "local_alloc" (.declare ⟨none, l.name, l.type, some l.size, l.value⟩) := by
  have hdata : Declaration.ofJson l.event =
      .accepted ⟨none, l.name, l.type, some l.size, l.value⟩ := by
    have hsize : Field.nullable Field.natural (.int l.size) = .accepted (some l.size) :=
      congrArg (some <$> ·) (Field.natural_natCast l.size)
    change Declaration.mk none <$> (Checked.accepted l.name)
      <*> (Field.nullable Field.looseText (.ofText? l.type)).within (.field "vtype")
      <*> (Field.nullable Field.natural (.int l.size)).within (.field "size")
      <*> Checked.accepted l.value = _
    rw [Field.nullable_looseText_ofText?, hsize]
    rfl
  exact Item.read_of_accepted rfl rfl (congrArg (Event.declare <$> ·) hdata)

namespace Recipe

theorem read_allocationEvent {data : List Int} (h : data.length ≤ maxBlockSize) :
    Item.read .clang (allocationEvent data) = .event "malloc" (.allocate
      ⟨none, some data.length, none, some heapLabel, some (data.map UInt8.ofInt)⟩) := by
  have hdata : Allocation.ofJson (allocationEvent data) =
      .accepted ⟨none, some data.length, none, some heapLabel, some (data.map UInt8.ofInt)⟩ := by
    have hsize : Field.nullable (Field.naturalUpTo maxBlockSize) (.int data.length) =
        .accepted (some data.length) :=
      congrArg (some <$> ·) (Field.naturalUpTo_natCast h)
    have hbytes : Field.nullable Field.byteList (.list (data.map .int)) =
        .accepted (some (data.map UInt8.ofInt)) :=
      congrArg (some <$> ·) (Field.elements_lowByte data 0)
    change Allocation.mk none
      <$> (Field.nullable (Field.naturalUpTo maxBlockSize) (.int data.length)).within
        (.field "sizeBytes")
      <*> Checked.accepted none <*> Checked.accepted (some heapLabel)
      <*> (Field.nullable Field.byteList (.list (data.map .int))).within (.field "bytes") = _
    rw [hsize, hbytes]
    rfl
  exact Item.read_of_accepted rfl rfl (congrArg (Event.allocate <$> ·) hdata)

theorem declareLocals_shows (locale : Locale) (ls : List RecipeLocal) (m : Memory)
    (hframe : m.frames ≠ []) :
    ∃ steps m', declareLocals locale ls m = .ok (steps, m') ∧ steps.length = ls.length ∧
      Item.Shows .clang ((ls.map RecipeLocal.event).map (Item.read .clang)) m
        (steps.map Step.snapshot) m' := by
  induction ls generalizing m with
  | nil => exact ⟨[], m, rfl, rfl, .nil m⟩
  | cons l ls ih =>
    obtain ⟨f, rest, hframes⟩ := List.exists_cons_of_ne_nil hframe
    obtain ⟨v, after, hdeclare, hafter⟩ : ∃ v after, m.declare l.name
        (textOr defaultType l.type) (sizeOr defaultLocalSize (some l.size)) (.ofJson l.value) =
          .ok (v, after) ∧ after.frames ≠ [] :=
      ⟨_, _, Memory.declare_eq_ok_iff.2 ⟨rfl, f, rest, hframes, rfl⟩, List.cons_ne_nil _ _⟩
    obtain ⟨steps, m', hsteps, hlength, hshows⟩ := ih after hafter
    have heffect : (Item.read .clang l.event).effect .clang m = .ok after := by
      rw [l.read_event]
      exact congrArg (Except.map Prod.snd) hdeclare
    have hshown : (Item.read .clang l.event).shown m after = after := by
      rw [l.read_event]
      rfl
    refine ⟨after.step (lines l.line)
      (Phrase.recipeLocal.say locale fun _ => l.name) :: steps, m', ?_, ?_, ?_⟩
    · simp only [declareLocals, hdeclare, hsteps, bind, Except.bind]
    · rw [List.length_cons, List.length_cons, hlength]
    · exact .cons_after heffect hshown hshows

theorem allocate_shows (locale : Locale) (r : Recipe) (m : Memory)
    (h : ∀ data, r.heapBytes = some data → 1 ≤ data.length ∧ data.length ≤ maxBlockSize) :
    Item.Shows .clang (((r.heapBytes.map allocationEvent).toList).map (Item.read .clang)) m
      ((r.allocate locale m).1.map Step.snapshot) (r.allocate locale m).2 := by
  cases hbytes : r.heapBytes with
  | none =>
    simp only [allocate, hbytes]
    exact .nil m
  | some data =>
    obtain ⟨hpos, hle⟩ := h data hbytes
    -- In a trace a size of zero counts as absent, while a recipe allocates an empty block.
    have hsize : sizeOr defaultBlockSize (some data.length) = data.length :=
      if_neg (Nat.ne_of_gt hpos)
    simp only [allocate, hbytes, Option.map_some, Option.toList_some, List.map_cons, List.map_nil,
      read_allocationEvent hle]
    refine .cons_after ?_ rfl (.nil _)
    simp only [Item.effect, Event.effect, Allocation.effect_eq, Allocation.filled,
      Allocation.sizeOfBlock, hsize]
    rfl

theorem length_allocate (locale : Locale) (r : Recipe) (m : Memory) :
    (r.allocate locale m).1.length = if r.heapBytes.isSome then 1 else 0 := by
  unfold allocate
  cases r.heapBytes <;> rfl

theorem textOr_print (r : Recipe) : textOr "" r.print = r.output?.getD "" := by
  unfold output?
  cases r.print with
  | none => rfl
  | some text => by_cases htext : text = "" <;> simp [textOr, Option.filter_some, htext]

theorem output?_ne_empty {r : Recipe} {text : String} (h : r.output? = some text) : text ≠ "" := by
  simpa using (Option.filter_eq_some_iff.1 h).2

theorem write_eq (locale : Locale) (r : Recipe) (m : Memory) :
    r.write locale m = match r.output? with
      | none => ([], m)
      | some text => ([(m.emit text).step [] (Phrase.recipePrint.say locale fun _ =>
          Text.escapeNewlines text)], m.emit text) := by
  rw [write, r.textOr_print]
  cases houtput : r.output? with
  | none => rfl
  | some text =>
    simp only [Option.getD_some]
    split
    · exact absurd rfl (output?_ne_empty houtput)
    · rfl

theorem length_write (locale : Locale) (r : Recipe) (m : Memory) :
    (r.write locale m).1.length = if r.output?.isSome then 1 else 0 := by
  rw [write_eq]
  cases r.output? <;> rfl

theorem write_shows (locale : Locale) (r : Recipe) (m : Memory) :
    Item.Shows .clang (((r.output?.map outputEvent).toList).map (Item.read .clang)) m
      ((r.write locale m).1.map Step.snapshot) (r.write locale m).2 := by
  rw [write_eq]
  cases r.output? with
  | none => exact .nil m
  | some text =>
    have heffect : (Item.read .clang (outputEvent text)).effect .clang m = .ok (m.emit text) := rfl
    exact .cons_after heffect rfl (.nil _)

/-- The steps of a synthesis, and what they show. -/
theorem synthesize_shows (locale : Locale) (r : Recipe) :
    ∃ steps, r.synthesize locale = .ok steps ∧
      steps.length = 2 + r.locals.length + (if r.heapBytes.isSome then 1 else 0) +
        (if r.output?.isSome then 1 else 0) ∧
      ((∀ data, r.heapBytes = some data → 1 ≤ data.length ∧ data.length ≤ maxBlockSize) →
        ∃ m', Item.Shows .clang (r.trace.map (Item.read .clang)) .initial
          (steps.map Step.snapshot) m') := by
  let entered := Memory.initial.push mainFrameName
  let start := entered.step (lines r.startLine) (Phrase.recipeStart.say locale fun _ => "")
  obtain ⟨declared, m₁, hdeclared, hlength, hlocals⟩ :=
    declareLocals_shows locale r.locals entered (List.cons_ne_nil _ _)
  let allocated := r.allocate locale m₁
  let written := r.write locale allocated.2
  let done := written.2.step (lines r.endLine) (Phrase.recipeEnd.say locale fun _ => "")
  refine ⟨start :: declared ++ allocated.1 ++ written.1 ++ [done], ?_, ?_, fun hbytes => ?_⟩
  · change (declareLocals locale r.locals entered).bind _ = _
    rw [hdeclared]
    rfl
  · have hallocated : allocated.1.length = if r.heapBytes.isSome then 1 else 0 :=
      length_allocate locale r m₁
    have hwritten : written.1.length = if r.output?.isSome then 1 else 0 :=
      length_write locale r allocated.2
    simp only [List.length_append, List.length_cons, List.length_nil, hlength, hallocated,
      hwritten]
    omega
  · have hstart : Item.Shows .clang ([Json.object [("type", .text "function_enter"),
        ("fn", .text mainFrameName)]].map (Item.read .clang)) .initial [start.snapshot] entered :=
      .cons_after rfl rfl (.nil entered)
    have hdone : Item.Shows .clang ([Json.object [("type", .text "note")]].map (Item.read .clang))
        written.2 [done.snapshot] written.2 :=
      .cons_after rfl rfl (.nil written.2)
    have hshows := (((hstart.append hlocals).append (allocate_shows locale r m₁ hbytes)).append
      (write_shows locale r allocated.2)).append hdone
    refine ⟨written.2, ?_⟩
    simp only [trace, List.map_append]
    exact hshows

end Recipe

/-- Every recipe that a value stands for is synthesized, in as many steps as it has parts. The
steps show what those of the recipe's trace show, provided that a trace may allocate the block. -/
theorem synthesize_trace (x : Json) (r : Recipe) (locale locale' : Locale) (m : Memory)
    (h : Recipe.ofValue x = .ok r) :
    ∃ steps, (synthesize x (.text locale.code)).outcome = .ok steps ∧
      steps.length = 2 + r.locals.length + (if r.heapBytes.isSome then 1 else 0) +
        (if r.output?.isSome then 1 else 0) ∧
      ((∀ data, r.heapBytes = some data → 1 ≤ data.length ∧ data.length ≤ maxBlockSize) →
        ∃ steps', ((Replayer.mk .clang locale' m).replay (.list r.trace)).1 = .ok steps' ∧
          steps'.length = steps.length ∧
          steps'.map Step.snapshot = steps.map Step.snapshot) := by
  obtain ⟨steps, hsteps, hlength, hshows⟩ := r.synthesize_shows locale
  refine ⟨steps, ?_, hlength, fun hbytes => ?_⟩
  · have hreport : (r.report locale).outcome = .ok steps := by
      rw [Recipe.report, hsteps]
      rfl
    simp [synthesize, h, hreport, Except.bind]
  · obtain ⟨m', hrun⟩ := hshows hbytes
    obtain ⟨steps', houtcome, hsnapshots⟩ := hrun.run locale'
    refine ⟨steps', ?_, ?_, hsnapshots⟩
    · rw [((Replayer.mk .clang locale' m).replay_list r.trace).1, Format.replay, houtcome]
      rfl
    · simpa using congrArg List.length hsnapshots

/-- A recipe with a local declared again, bytes beyond eight bits, and a size and a type that count
as absent. -/
def sampleOutline : Json :=
  .object [("startLine", .int 5), ("heapBytes", .list [.int 300, .int (-1), .text "7"]),
    ("locals", .list [
      .object [("name", .text "x"), ("value", .int 42), ("line", .int 6)],
      .object [("name", .text "c"), ("type", .text "char"), ("size", .int 1),
        ("value", .text "a")],
      .object [("name", .text "x"), ("type", .text ""), ("size", .int 0), ("value", .null)]]),
    ("print", .text "done\n")]

def sampleRecipe : Recipe :=
  { startLine := some 5
    endLine := none
    locals := [⟨"x", none, 4, .int 42, some 6⟩, ⟨"c", some "char", 1, .text "a", none⟩,
      ⟨"x", some "", 0, .null, none⟩]
    heapBytes := some [300, -1, 7]
    print := some "done\n" }

theorem synthesize_trace_sampleOutline :
    ∃ steps steps', (synthesize sampleOutline (.text "en")).outcome = .ok steps ∧
      ((Replayer.mk .clang .bn .initial).replay (.list sampleRecipe.trace)).1 = .ok steps' ∧
      steps.length = 7 ∧ steps'.length = 7 ∧
      steps'.map Step.snapshot = steps.map Step.snapshot := by
  have hjson : Recipe.ofJson sampleOutline = .accepted sampleRecipe := by decide +kernel
  have hrecipe : Recipe.ofValue sampleOutline = .ok sampleRecipe := by
    change Recipe.check sampleOutline = _
    rw [Recipe.check, hjson]
  obtain ⟨steps, hsteps, hlength, htrace⟩ :=
    synthesize_trace sampleOutline sampleRecipe .en .bn .initial hrecipe
  have hbytes : ∀ data, sampleRecipe.heapBytes = some data →
      1 ≤ data.length ∧ data.length ≤ maxBlockSize := by
    intro data hdata
    cases hdata
    decide
  obtain ⟨steps', hsteps', hequal, hsnapshots⟩ := htrace hbytes
  exact ⟨steps, steps', hsteps, hsteps', hlength, hequal.trans hlength, hsnapshots⟩

end TraceReplay
