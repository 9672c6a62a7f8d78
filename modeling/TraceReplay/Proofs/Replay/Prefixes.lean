import TraceReplay.Proofs.Event.Reading
import TraceReplay.Proofs.Replay.Callers
import TraceReplay.Proofs.Replay.Outcome

/-! # Prefixes of a trace

Replaying the first events of a list gives the first steps of the whole replay, whatever comes
later. Between two such prefixes that differ in one event lies the step of that event: it shows the
memory that the longer one leaves, unless the event leaves a function. Then it shows the memory
that the shorter one leaves, in which the function's frame is still there.
-/

namespace TraceReplay

/-- A value that is an event by which a function is left: it has the tag for that and valid data. -/
def Format.Leaves (format : Format) (x : Json) : Prop :=
  ∃ tag c, x.field? format.tagField = some (.text tag) ∧ format.operation? tag = some .exit ∧
    Call.ofJson x = .accepted c

theorem Item.isExit_iff {item : Item} : item.isExit = true ↔ ∃ c, item.event? = some (.exit c) := by
  unfold isExit
  split
  · next c h => simp [h]
  · next h => simpa using h

theorem Format.leaves_iff {format : Format} {x : Json} :
    format.Leaves x ↔ (Item.read format x).isExit = true := by
  rw [Item.isExit_iff]
  constructor
  · rintro ⟨tag, c, htag, hoperation, hdata⟩
    exact ⟨c, Item.event?_read.2
      ⟨tag, .exit, htag, hoperation, Event.ofJson_eq_exit.2 ⟨rfl, hdata⟩⟩⟩
  · rintro ⟨c, hc⟩
    obtain ⟨tag, operation, htag, hoperation, hdata⟩ := Item.event?_read.1 hc
    obtain ⟨rfl, hcall⟩ := Event.ofJson_eq_exit.1 hdata
    exact ⟨tag, c, htag, hoperation, hcall⟩

instance (format : Format) : DecidablePred format.Leaves :=
  fun _ => decidable_of_iff _ Format.leaves_iff.symm

/-- The step shows the memory: its frames from the outermost to the innermost, its heap and its
output. -/
structure Step.Shows (s : Step) (m : Memory) : Prop where
  stack : s.snapshot.stack = m.frames.reverse
  heap : s.snapshot.heap = m.heap
  output : s.snapshot.output = m.output

namespace Item

theorem step_shows (item : Item) (format : Format) (locale : Locale) (before after : Memory) :
    (item.step format locale before after).Shows (item.shown before after) where
  stack := rfl
  heap := rfl
  output := rfl

theorem shown_of_isExit {item : Item} (h : item.isExit = true) (before after : Memory) :
    item.shown before after = before := by
  cases item with
  | event tag e =>
    cases e with
    | exit c => rfl
    | _ => cases h
  | _ => cases h

theorem effect_of_isExit {item : Item} (h : item.isExit = true) (format : Format) (m : Memory) :
    item.effect format m = .ok m.pop := by
  obtain ⟨c, hc⟩ := isExit_iff.1 h
  rw [effect_of_event?_eq_some hc]
  rfl

theorem shown_of_not_isExit {item : Item} (h : item.isExit = false) (before after : Memory) :
    item.shown before after = after := by
  cases item with
  | event tag e =>
    cases e with
    | exit c => cases h
    | _ => rfl
  | _ => rfl

end Item

namespace Run

variable {format : Format} {locale : Locale} {items : List Item} {m : Memory}

theorem exists_after_of_not_stopped {item : Item}
    (h : (ofItems format locale (item :: items) m).stopped = none) :
    ∃ after, item.effect format m = .ok after ∧
      (ofItems format locale items after).stopped = none := by
  cases he : item.effect format m with
  | error e => simp [ofItems, he] at h
  | ok after =>
    rw [(ofItems_cons he locale items).1] at h
    exact ⟨after, rfl, h⟩

/-- A part of a run that is not stopped is not stopped, and has the first steps. -/
theorem ofItems_take (h : (ofItems format locale items m).stopped = none) (k : Nat) :
    (ofItems format locale (items.take k) m).stopped = none ∧
      (ofItems format locale (items.take k) m).steps =
        (ofItems format locale items m).steps.take k := by
  induction items generalizing m k with
  | nil =>
    rw [List.take_nil]
    exact ⟨rfl, List.take_nil.symm⟩
  | cons item rest ih =>
    cases k with
    | zero => exact ⟨rfl, rfl⟩
    | succ k =>
      obtain ⟨after, he, hrest⟩ := exists_after_of_not_stopped h
      obtain ⟨hstopped, -, hsteps⟩ := ofItems_cons he locale (rest.take k)
      obtain ⟨hrest', htake⟩ := ih hrest k
      rw [List.take_succ_cons, hstopped, hsteps, (ofItems_cons he locale rest).2.2,
        List.take_succ_cons, htake]
      exact ⟨hrest', rfl⟩

/-- The element at a position leads from the memory that the elements before it leave to the one
that they leave together with it, and its step is between these two. -/
theorem ofItems_getElem? (h : (ofItems format locale items m).stopped = none) {k : Nat}
    {item : Item} (hk : items[k]? = some item) :
    let before := (ofItems format locale (items.take k) m).memory
    let after := (ofItems format locale (items.take (k + 1)) m).memory
    item.effect format before = .ok after ∧
      (ofItems format locale items m).steps[k]? = some (item.step format locale before after) := by
  induction items generalizing m k with
  | nil => cases hk
  | cons first rest ih =>
    obtain ⟨next, he, hrest⟩ := exists_after_of_not_stopped h
    have hmemory (k : Nat) : (ofItems format locale ((first :: rest).take (k + 1)) m).memory =
        (ofItems format locale (rest.take k) next).memory := (ofItems_cons he locale _).2.1
    rw [(ofItems_cons he locale rest).2.2, hmemory]
    cases k with
    | zero =>
      cases hk
      exact ⟨he, rfl⟩
    | succ k =>
      rw [hmemory]
      exact ih hrest hk

end Run

theorem Memory.pop_eq (m : Memory) :
    m.frames = [] ∧ m.pop = m ∨
      ∃ top rest, m.frames = top :: rest ∧ m.pop = { m with frames := rest } := by
  cases hf : m.frames with
  | nil =>
    left
    refine ⟨rfl, ?_⟩
    rw [pop, hf, List.tail_nil, ← hf]
  | cons top rest =>
    right
    refine ⟨top, rest, rfl, ?_⟩
    rw [pop, hf, List.tail_cons]

theorem Replayer.replay_list_take (r : Replayer) {xs : List Json} {steps : List Step}
    (h : (r.replay (.list xs)).1 = .ok steps) (k : Nat) :
    (r.replay (.list (xs.take k))).1 = .ok (steps.take k) := by
  obtain ⟨hstopped, rfl⟩ := replay_list_eq_ok_iff.1 h
  obtain ⟨hpart, hsteps⟩ := Run.ofItems_take hstopped k
  rw [← List.map_take] at hpart hsteps
  exact replay_list_eq_ok_iff.2 ⟨hpart, hsteps.symm⟩

/-- If a list of events is replayed, its first events are replayed alike and give the first steps,
and lists that begin alike have alike first steps. The step of an event shows the frames, the heap
and the output of the memory that is left once the list is replayed up to this event, or up to the
one before if the event leaves a function, which then removes the innermost frame, if there is
one. -/
theorem Replayer.replay_take (r : Replayer) (xs : List Json) (steps : List Step)
    (h : (r.replay (.list xs)).1 = .ok steps) :
    let memory (k : Nat) := (r.replay (.list (xs.take k))).2.memory
    steps.length = xs.length ∧
      (∀ k, (r.replay (.list (xs.take k))).1 = .ok (steps.take k)) ∧
      (∀ (k : Nat) x s, xs[k]? = some x → steps[k]? = some s →
        if r.format.Leaves x then
          s.Shows (memory k) ∧
            ((memory k).frames = [] ∧ memory (k + 1) = memory k ∨
              ∃ top rest, (memory k).frames = top :: rest ∧
                memory (k + 1) = { memory k with frames := rest })
        else s.Shows (memory (k + 1))) ∧
      ∀ k ys steps', k ≤ xs.length → (r.replay (.list (xs.take k ++ ys))).1 = .ok steps' →
        steps'.take k = steps.take k := by
  intro memory
  obtain ⟨hstopped, rfl⟩ := replay_list_eq_ok_iff.1 h
  have hmemory (k : Nat) : memory k =
      (Run.ofItems r.format r.locale ((xs.map (Item.read r.format)).take k) .initial).memory := by
    rw [← List.map_take]
    exact (r.replay_list (xs.take k)).2
  refine ⟨?_, fun k => r.replay_list_take h k, ?_, ?_⟩
  · obtain ⟨-, hlength, -⟩ := Run.ofItems_part (rfl : r.format.replay r.locale xs = _)
    exact (hlength hstopped).trans (List.length_map _)
  · intro k x s hx hs
    have hitem : (xs.map (Item.read r.format))[k]? = some (Item.read r.format x) := by
      rw [List.getElem?_map, hx]
      rfl
    obtain ⟨heffect, hstep⟩ := Run.ofItems_getElem? hstopped hitem
    rw [← hmemory, ← hmemory] at heffect hstep
    obtain rfl := Option.some.inj (hs.symm.trans hstep)
    have hshows := (Item.read r.format x).step_shows r.format r.locale (memory k) (memory (k + 1))
    simp only [Format.leaves_iff]
    cases hexit : (Item.read r.format x).isExit with
    | true =>
      have hpop : memory (k + 1) = (memory k).pop := by
        rw [Item.effect_of_isExit hexit] at heffect
        exact (Except.ok.inj heffect).symm
      rw [Item.shown_of_isExit hexit] at hshows
      rw [if_pos rfl]
      refine ⟨hshows, ?_⟩
      rw [hpop]
      exact (memory k).pop_eq
    | false =>
      rw [Item.shown_of_not_isExit hexit] at hshows
      rw [if_neg Bool.false_ne_true]
      exact hshows
  · intro k ys steps' hk hsteps'
    have htake := r.replay_list_take hsteps' k
    rw [List.take_left' (List.length_take_of_le hk), r.replay_list_take h k] at htake
    exact (Except.ok.inj htake).symm

/-- A call that declares, allocates and writes, and is left by a malformed event, by a valid one,
and once more without a frame. -/
def returnTrace : List Json :=
  [.object [("kind", .text "call"), ("fn", .text "f")],
    .object [("kind", .text "alloc_local"), ("name", .text "x"), ("value", .int 7)],
    .object [("kind", .text "malloc"), ("size", .int 2)],
    .object [("kind", .text "print"), ("text", .text "in")],
    .object [("kind", .text "ret"), ("fn", .list [])], .object [("kind", .text "ret")],
    .object [("kind", .text "ret"), ("line", .int 3)],
    .object [("kind", .text "print"), ("text", .text "out")]]

theorem Replayer.replay_take_returnTrace :
    let r : Replayer := ⟨.wasm, .en, .initial⟩
    let memory (k : Nat) := (r.replay (.list (returnTrace.take k))).2.memory
    ∃ steps malformed left, (r.replay (.list returnTrace)).1 = .ok steps ∧ steps.length = 8 ∧
      (r.replay (.list (returnTrace.take 6))).1 = .ok (steps.take 6) ∧
      steps[4]? = some malformed ∧ malformed.Shows (memory 5) ∧
      steps[5]? = some left ∧ left.Shows (memory 5) ∧
      left.snapshot.stack.map Frame.name = ["f"] ∧
      left.snapshot.heap = [⟨0x10000000, 2, [some 0, some 0], false, "malloc"⟩] ∧
      left.snapshot.output = "in" ∧
      (memory 6).frames = [] ∧ memory 7 = memory 6 := by
  intro r memory
  have hstopped : (Format.wasm.replay .en returnTrace).stopped = none := by decide +kernel
  have hsteps := replay_list_of_not_stopped (r := r) hstopped
  obtain ⟨hlength, hprefix, hshows, -⟩ := Replayer.replay_take r returnTrace _ hsteps
  have hleaves : ∀ k ∈ [5, 6], ∀ x ∈ returnTrace[k]?, Format.wasm.Leaves x := by decide +kernel
  have hstays : ∀ x ∈ returnTrace[4]?, ¬ Format.wasm.Leaves x := by decide +kernel
  have hstep (k : Nat) (hk : k < 8) :
      ∃ s, (r.format.replay r.locale returnTrace).steps[k]? = some s :=
    ⟨_, List.getElem?_eq_getElem (hlength ▸ hk)⟩
  obtain ⟨malformed, hfour⟩ := hstep 4 (by decide)
  obtain ⟨left, hfive⟩ := hstep 5 (by decide)
  obtain ⟨again, hsix⟩ := hstep 6 (by decide)
  have hmalformed := hshows 4 _ _ rfl hfour
  rw [if_neg (hstays _ rfl)] at hmalformed
  have hleft := hshows 5 _ _ rfl hfive
  rw [if_pos (hleaves 5 (by decide) _ rfl)] at hleft
  have hagain := hshows 6 _ _ rfl hsix
  rw [if_pos (hleaves 6 (by decide) _ rfl)] at hagain
  have hframes : (memory 5).frames.reverse.map Frame.name = ["f"] := by decide +kernel
  have hheap : (memory 5).heap = [⟨0x10000000, 2, [some 0, some 0], false, "malloc"⟩] := by
    decide +kernel
  have houtput : (memory 5).output = "in" := by decide +kernel
  have hempty : (memory 6).frames = [] := by decide +kernel
  refine ⟨_, malformed, left, hsteps, hlength, hprefix 6, hfour, hmalformed, hfive, hleft.1, ?_, ?_,
    ?_, hempty, ?_⟩
  · rw [hleft.1.stack, hframes]
  · rw [hleft.1.heap, hheap]
  · rw [hleft.1.output, houtput]
  · obtain ⟨-, hsame⟩ | ⟨top, rest, htop, -⟩ := hagain.2
    · exact hsame
    · rw [hempty] at htop
      cases htop

end TraceReplay
