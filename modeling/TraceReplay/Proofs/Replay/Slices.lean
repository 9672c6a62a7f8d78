import TraceReplay.Proofs.Replay.Outcome

/-! # Heap and output as slices of a trace

The heap after a run is the one after the events that allocate, release and store alone, although
these see a stack without frames then: what they do to the heap depends on the heap only, and no
other element changes it. In the same way the output is what the valid output events write, one
after the other.
-/

namespace TraceReplay

theorem Allocation.heapPart_effect_congr {m n : Memory} (h : n.heapPart = m.heapPart)
    (e : Allocation) : (e.effect n).heapPart = (e.effect m).heapPart := by
  have hcursor : n.heapCursor = m.heapCursor := congrArg Prod.snd h
  have hallocate := Memory.heapPart_allocate_congr h e.sizeOfBlock e.labelOfBlock
  rw [heapPart_effect, heapPart_effect, filled, filled, hcursor]
  exact Memory.heapPart_setBytes_congr hallocate _ _

/-- Whether a store finds a block depends on the heap alone; if it does not, whatever it does to a
local leaves the heap as it is. -/
theorem Store.heapPart_effect_congr {m n : Memory} (h : n.heapPart = m.heapPart) (e : Store) :
    (e.effect n).heapPart = (e.effect m).heapPart := by
  unfold Store.effect
  rw [Memory.liveBlock?_congr h]
  split
  · exact Memory.heapPart_setBytes_congr h _ _
  · rw [Memory.storeAt, Memory.heapPart_assignFirst, Memory.storeAt, Memory.heapPart_assignFirst, h]

theorem Allocation.output_effect (e : Allocation) (m : Memory) :
    (e.effect m).output = m.output := by
  rw [effect_eq]
  split
  · rfl
  · exact Memory.output_assignFirst _ _ (e.filled m)

theorem Store.output_effect (e : Store) (m : Memory) : (e.effect m).output = m.output := by
  unfold Store.effect
  split
  · rfl
  · exact Memory.output_assignFirst _ _ m

namespace Event

def isHeap : Event → Bool
  | allocate _ | release _ | store _ | storeByte _ => true
  | _ => false

def text? : Event → Option String
  | output e => some e.text
  | _ => none

theorem heapPart_of_not_isHeap {format : Format} {m m' : Memory} {e : Event}
    (hheap : e.isHeap = false) (h : e.effect format m = .ok m') : m'.heapPart = m.heapPart := by
  cases e with
  | declare d =>
    obtain ⟨v, hd⟩ := effect_declare_eq_ok h
    exact Memory.heapPart_declare hd
  | assign a =>
    cases h
    exact Memory.heapPart_assignFirst _ _ m
  | allocate | release | store | storeByte => cases hheap
  | _ => cases h; rfl

theorem heapPart_of_isHeap {format : Format} {m m' n : Memory} {e : Event}
    (hheap : e.isHeap = true) (h : e.effect format m = .ok m') (hpart : n.heapPart = m.heapPart) :
    ∃ n', e.effect format n = .ok n' ∧ n'.heapPart = m'.heapPart := by
  cases e with
  | allocate a =>
    cases h
    exact ⟨_, rfl, a.heapPart_effect_congr hpart⟩
  | release r =>
    cases h
    exact ⟨_, rfl, Memory.heapPart_free_congr hpart r.address⟩
  | store s =>
    cases h
    exact ⟨_, rfl, s.heapPart_effect_congr hpart⟩
  | storeByte s =>
    cases h
    exact ⟨_, rfl, Memory.heapPart_setByte_congr hpart s.address s.offset s.byte.toNat⟩
  | _ => cases hheap

theorem text?_of_ofJson {operation : Operation} {x : Json} {e : Event}
    (h : ofJson operation x = .accepted e) (houtput : operation ≠ .output) : e.text? = none := by
  cases operation with
  | output => exact absurd rfl houtput
  | _ =>
    obtain ⟨data, -, rfl⟩ := Checked.map_eq_accepted_iff.1 h
    rfl

theorem output_effect {format : Format} {m m' : Memory} {e : Event}
    (h : e.effect format m = .ok m') : m'.output = m.output ++ e.text?.getD "" := by
  cases e with
  | declare d =>
    obtain ⟨v, hd⟩ := effect_declare_eq_ok h
    simp [Memory.output_declare hd, text?]
  | allocate a =>
    cases h
    simp [a.output_effect, text?]
  | store s =>
    cases h
    simp [s.output_effect, text?]
  | output o =>
    cases h
    rfl
  | assign | storeByte =>
    cases h
    simp [Memory.assign, text?]
  | _ =>
    cases h
    exact String.append_empty.symm

end Event

namespace Item

def isHeap (item : Item) : Bool := item.event?.any Event.isHeap

def text? (item : Item) : Option String := item.event?.bind Event.text?

theorem heapPart_of_not_isHeap {format : Format} {m m' : Memory} {item : Item}
    (hheap : item.isHeap = false) (h : item.effect format m = .ok m') :
    m'.heapPart = m.heapPart := by
  cases item with
  | event tag e => exact Event.heapPart_of_not_isHeap hheap h
  | _ => cases h; rfl

theorem heapPart_of_isHeap {format : Format} {m m' n : Memory} {item : Item}
    (hheap : item.isHeap = true) (h : item.effect format m = .ok m')
    (hpart : n.heapPart = m.heapPart) :
    ∃ n', item.effect format n = .ok n' ∧ n'.heapPart = m'.heapPart := by
  cases item with
  | event tag e => exact Event.heapPart_of_isHeap hheap h hpart
  | _ => cases hheap

theorem output_effect {format : Format} {m m' : Memory} {item : Item}
    (h : item.effect format m = .ok m') : m'.output = m.output ++ item.text?.getD "" := by
  cases item with
  | event tag e => exact Event.output_effect h
  | _ =>
    cases h
    exact String.append_empty.symm

/-- From any memory with the same heap, the elements that may change the heap lead to the heap that
all elements lead to. -/
theorem effects_filter_isHeap {format : Format} {items : List Item} {m m' n : Memory}
    (h : effects format items m = .ok m') (hpart : n.heapPart = m.heapPart) :
    ∃ n', effects format (items.filter isHeap) n = .ok n' ∧ n'.heapPart = m'.heapPart := by
  induction items generalizing m n with
  | nil =>
    cases h
    exact ⟨n, rfl, hpart⟩
  | cons item rest ih =>
    obtain ⟨after, he, hrest⟩ := effects_cons_eq_ok_iff.1 h
    cases hheap : item.isHeap with
    | true =>
      obtain ⟨nafter, hne, hnpart⟩ := heapPart_of_isHeap hheap he hpart
      obtain ⟨n', hn', hpart'⟩ := ih hrest hnpart
      rw [List.filter_cons_of_pos hheap]
      exact ⟨n', effects_cons_eq_ok_iff.2 ⟨nafter, hne, hn'⟩, hpart'⟩
    | false =>
      have hafter : n.heapPart = after.heapPart :=
        hpart.trans (heapPart_of_not_isHeap hheap he).symm
      rw [List.filter_cons_of_neg (by simp [hheap])]
      exact ih hrest hafter

theorem output_effects {format : Format} {items : List Item} {m m' : Memory}
    (h : effects format items m = .ok m') :
    m'.output = m.output ++ String.join (items.filterMap text?) := by
  induction items generalizing m with
  | nil =>
    cases h
    simp
  | cons item rest ih =>
    obtain ⟨after, he, hrest⟩ := effects_cons_eq_ok_iff.1 h
    rw [ih hrest, output_effect he, List.filterMap_cons]
    cases item.text? with
    | none => simp
    | some text => simp [String.append_assoc]

end Item

namespace Format

/-- Whether a value is a valid event that allocates, releases or stores. -/
def isHeapEvent (format : Format) (x : Json) : Bool := (Item.read format x).isHeap

/-- The text that a value writes if it is a valid output event. Null and a missing text count as
empty, and a number writes the text that shows it. -/
def outputText? (format : Format) (x : Json) : Option String :=
  match x.field? format.tagField with
  | some (.text tag) =>
    if format.operation? tag = some .output then
      match x.field? "text" with
      | none | some .null => some ""
      | some (.text s) => some s
      | some (.int n) => some n.repr
      | some (.real v) => some v.text
      | some _ => none
    else none
  | _ => none

theorem text?_read (format : Format) (x : Json) :
    (Item.read format x).text? = format.outputText? x := by
  cases htag : x.field? format.tagField with
  | none =>
    simp only [Item.read, outputText?, htag]
    rfl
  | some v =>
    cases v with
    | text tag =>
      cases hoperation : format.operation? tag with
      | none =>
        simp only [Item.read, outputText?, htag, hoperation]
        rfl
      | some operation =>
        simp only [Item.read, outputText?, htag, hoperation, Option.some.injEq]
        by_cases houtput : operation = .output
        · subst houtput
          obtain ⟨fields, rfl⟩ : ∃ fields, x = .object fields := by
            cases x with
            | object fields => exact ⟨fields, rfl⟩
            | _ => cases htag
          simp only [if_true, Event.ofJson, Output.ofJson, Field.object, Field.withDefault,
            Field.firstOf]
          cases (Json.object fields).field? "text" with
          | none => rfl
          | some v => cases v <;> rfl
        · rw [if_neg houtput]
          cases hdata : Event.ofJson operation x with
          | accepted e => exact Event.text?_of_ofJson hdata houtput
          | refused faults => rfl
    | _ =>
      simp only [Item.read, outputText?, htag]
      rfl

/-- The heap and the output are slices of the trace, or of its part before the declaration that
stops the replay. The valid events of that part that allocate, release and store lead to the same
blocks and the same cursor when they are replayed alone, which is never stopped. The output is made
of the texts of its valid output events. -/
theorem replay_slices (format : Format) (locale locale' : Locale) (xs : List Json) :
    let run := format.replay locale xs
    let part := xs.take run.steps.length
    let slice := format.replay locale' (part.filter format.isHeapEvent)
    (run.stopped = none → part = xs) ∧
      (∀ e, run.stopped = some e → ∃ x rest, xs = part ++ x :: rest ∧
        (Item.read format x).effect format run.memory = .error e) ∧
      slice.stopped = none ∧ slice.memory.heap = run.memory.heap ∧
      slice.memory.heapCursor = run.memory.heapCursor ∧
      run.memory.output = String.join (part.filterMap format.outputText?) := by
  intro run part slice
  have hrun : format.replay locale xs = run := rfl
  obtain ⟨heffects, hall, hnext⟩ := replay_part hrun
  have hfilter : (part.map (Item.read format)).filter Item.isHeap =
      (part.filter format.isHeapEvent).map (Item.read format) := List.filter_map
  have htexts : (part.map (Item.read format)).filterMap Item.text? =
      part.filterMap format.outputText? := by
    rw [List.filterMap_map]
    exact congrArg (fun text? => part.filterMap text?) (funext format.text?_read)
  obtain ⟨m, hslice, hheap⟩ := Item.effects_filter_isHeap heffects rfl
  rw [hfilter] at hslice
  obtain ⟨hstopped, hmemory, -⟩ := Run.ofItems_of_effects_ok locale' hslice
  have hpart : slice.memory.heapPart = run.memory.heapPart := (congrArg _ hmemory).trans hheap
  refine ⟨hall, hnext, hstopped, congrArg Prod.fst hpart, congrArg Prod.snd hpart, ?_⟩
  rw [Item.output_effects heffects, htexts]
  exact String.empty_append

end Format

end TraceReplay
