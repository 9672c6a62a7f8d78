import Mathlib.Data.Option.Basic
import TraceReplay.Replay.Run
import TraceReplay.Proofs.Memory.Action

/-! # The effects of a run

A run applies the effects of its elements in turn, so it is a fold in `Except`: it splits where the
list of its elements is split. Elements that are no events have no effect. Each event is a sequence
of changes of the memory; entering adds a frame, leaving removes one, and every other event touches
the innermost frame at most. Only a declaration without a frame fails.
-/

namespace TraceReplay

namespace Item

/-- The event of an element, if its tag is known and its data are valid. -/
def event? : Item → Option Event
  | event _ e => some e
  | _ => none

/-- An element is an event exactly if its tag names an operation and the operation's data are
accepted. -/
theorem event?_read {format : Format} {x : Json} {e : Event} :
    (read format x).event? = some e ↔ ∃ tag operation,
      x.field? format.tagField = some (.text tag) ∧ format.operation? tag = some operation ∧
        Event.ofJson operation x = .accepted e := by
  cases hx : x.field? format.tagField with
  | none => simp [read, hx, event?]
  | some v =>
    cases v with
    | text tag =>
      cases ho : format.operation? tag with
      | none => simp [read, hx, ho, event?]
      | some operation =>
        cases hd : Event.ofJson operation x <;> simp [read, hx, ho, hd, event?]
    | _ => simp [read, hx, event?]

/-- The memory after a sequence of elements, or what stops them. -/
def effects (format : Format) (items : List Item) (m : Memory) : Except NoActiveFrame Memory :=
  items.foldlM (effect format) m

theorem effects_cons_eq_ok_iff {format : Format} {item : Item} {rest : List Item}
    {m m' : Memory} :
    effects format (item :: rest) m = .ok m' ↔
      ∃ after, item.effect format m = .ok after ∧ effects format rest after = .ok m' := by
  change (item.effect format m).bind (effects format rest) = _ ↔ _
  cases item.effect format m <;> simp [Except.bind]

theorem effects_cons_eq_error_iff {format : Format} {item : Item} {rest : List Item}
    {m : Memory} {e : NoActiveFrame} :
    effects format (item :: rest) m = .error e ↔
      item.effect format m = .error e ∨
        ∃ after, item.effect format m = .ok after ∧ effects format rest after = .error e := by
  change (item.effect format m).bind (effects format rest) = _ ↔ _
  cases item.effect format m <;> simp [Except.bind]

theorem effect_of_event?_eq_none {item : Item} (h : item.event? = none) (format : Format)
    (m : Memory) : item.effect format m = .ok m := by
  cases item with
  | event tag e => cases h
  | _ => rfl

theorem effect_of_event?_eq_some {item : Item} {e : Event} (h : item.event? = some e)
    (format : Format) (m : Memory) : item.effect format m = e.effect format m := by
  cases item with
  | event tag e' => cases h; rfl
  | _ => cases h

theorem describe_of_event?_eq_some {item : Item} {e : Event} (h : item.event? = some e)
    (format : Format) (locale : Locale) (m : Memory) :
    item.describe format locale m = e.describe format locale m := by
  cases item with
  | event tag e' => cases h; rfl
  | _ => cases h

end Item

namespace Run

theorem ofItems_cons {format : Format} {m after : Memory} {item : Item}
    (he : item.effect format m = .ok after) (locale : Locale) (items : List Item) :
    (ofItems format locale (item :: items) m).stopped =
        (ofItems format locale items after).stopped ∧
      (ofItems format locale (item :: items) m).memory =
        (ofItems format locale items after).memory ∧
      (ofItems format locale (item :: items) m).steps =
        item.step format locale m after :: (ofItems format locale items after).steps := by
  simp only [ofItems, he, true_and]

/-- A run whose effects all succeed is not stopped and has a step for each element. -/
theorem ofItems_of_effects_ok {format : Format} (locale : Locale) {items : List Item}
    {m m' : Memory} (h : Item.effects format items m = .ok m') :
    (ofItems format locale items m).stopped = none ∧
      (ofItems format locale items m).memory = m' ∧
      (ofItems format locale items m).steps.length = items.length := by
  induction items generalizing m with
  | nil => cases h; exact ⟨rfl, rfl, rfl⟩
  | cons item rest ih =>
    obtain ⟨after, he, hrest⟩ := Item.effects_cons_eq_ok_iff.1 h
    obtain ⟨hstopped, hmemory, hlength⟩ := ih hrest
    simp [ofItems, he, hstopped, hmemory, hlength]

theorem ofItems_of_effects_error {format : Format} (locale : Locale) {items : List Item}
    {m : Memory} {e : NoActiveFrame} (h : Item.effects format items m = .error e) :
    (ofItems format locale items m).stopped = some e := by
  induction items generalizing m with
  | nil => cases h
  | cons item rest ih =>
    rcases Item.effects_cons_eq_error_iff.1 h with he | ⟨after, he, hrest⟩
    · simp [ofItems, he]
    · simp [ofItems, he, ih hrest]

theorem mapError_outcome_eq_ok_iff {ε : Type} {f : NoActiveFrame → ε} {run : Run}
    {steps : List Step} :
    run.outcome.mapError f = .ok steps ↔ run.stopped = none ∧ steps = run.steps := by
  unfold outcome
  cases run.stopped with
  | none => simp [Except.mapError, eq_comm]
  | some e => simp [Except.mapError]

end Run

def Allocation.filled (e : Allocation) (m : Memory) : Memory :=
  (m.allocate e.sizeOfBlock e.labelOfBlock).2.setBytes (some m.heapCursor) (e.bytes.getD [])

theorem Allocation.effect_eq (e : Allocation) (m : Memory) :
    e.effect m =
      if textOr "" e.sym = "" then e.filled m
      else (e.filled m).assign (textOr "" e.sym) (.text (Address.hex m.heapCursor)) := by
  by_cases hsym : textOr "" e.sym = ""
  · rw [if_pos hsym]
    simp only [Allocation.effect, hsym]
    rfl
  · rw [if_neg hsym]
    simp only [Allocation.effect]
    rfl

theorem Allocation.heapPart_effect (e : Allocation) (m : Memory) :
    (e.effect m).heapPart = (e.filled m).heapPart := by
  rw [Allocation.effect_eq]
  split
  · rfl
  · exact Memory.heapPart_assignFirst _ _ (e.filled m)

/-- The second memory has the frames of the first one, but maybe for what is in the innermost. -/
structure Memory.SameCallers (m m' : Memory) : Prop where
  depth : m'.frames.length = m.frames.length
  callers : m'.frames.tail = m.frames.tail

namespace Memory.SameCallers

variable {m m' m'' : Memory}

theorem trans (h : SameCallers m m') (h' : SameCallers m' m'') : SameCallers m m'' :=
  ⟨h'.depth.trans h.depth, h'.callers.trans h.callers⟩

theorem of_stackPart (h : m'.stackPart = m.stackPart) : SameCallers m m' := by
  have hframes : m'.frames = m.frames := congrArg Prod.fst h
  constructor <;> rw [hframes]

theorem assignFirst (p : Variable → Bool) (value : Variable → Value) (m : Memory) :
    SameCallers m (m.assignFirst p value) := by
  cases hf : m.frames with
  | nil => constructor <;> simp [Memory.assignFirst, hf]
  | cons f rest => constructor <;> simp [Memory.assignFirst, hf]

theorem declare {name type : String} {size : Int} {value : Value} {v : Variable}
    (h : m.declare name type size value = .ok (v, m')) : SameCallers m m' := by
  obtain ⟨-, f, rest, hf, rfl⟩ := Memory.declare_eq_ok_iff.1 h
  constructor <;> simp [hf]

theorem allocation (e : Allocation) (m : Memory) : SameCallers m (e.effect m) := by
  have hfilled : SameCallers m (e.filled m) := of_stackPart (by
    rw [Allocation.filled, Memory.stackPart_setBytes, Memory.stackPart_allocate])
  rw [Allocation.effect_eq]
  split
  · exact hfilled
  · exact hfilled.trans (assignFirst _ _ _)

theorem store (e : Store) (m : Memory) : SameCallers m (e.effect m) := by
  unfold Store.effect
  split
  · exact of_stackPart (Memory.stackPart_setBytes _ _ m)
  · exact assignFirst _ _ m

end Memory.SameCallers

namespace Event

/-- The number of open calls after an event; leaving without a call does nothing. -/
def depthAfter (depth : Nat) : Event → Nat
  | enter _ => depth + 1
  | exit _ => depth - 1
  | _ => depth

theorem effect_declare_eq_ok {format : Format} {m m' : Memory} {d : Declaration}
    (h : (Event.declare d).effect format m = .ok m') :
    ∃ v, m.declare d.name (d.typeIn format) d.sizeOfLocal (.ofJson d.value) = .ok (v, m') := by
  simp only [effect] at h
  cases hd : m.declare d.name (d.typeIn format) d.sizeOfLocal (.ofJson d.value) with
  | error x => simp [hd, Except.map] at h
  | ok r =>
    simp only [hd, Except.map, Except.ok.injEq] at h
    exact ⟨r.1, by rw [← h]⟩

/-- Only a declaration without a frame fails. -/
theorem effect_eq_error_iff {format : Format} {m : Memory} {e : Event} {x : NoActiveFrame} :
    e.effect format m = .error x ↔ ∃ d, e = .declare d ∧ m.frames = [] ∧ x = ⟨d.name⟩ := by
  cases e with
  | declare d =>
    have hmap : (Event.declare d).effect format m = .error x ↔
        m.declare d.name (d.typeIn format) d.sizeOfLocal (.ofJson d.value) = .error x := by
      simp only [effect]
      cases m.declare d.name (d.typeIn format) d.sizeOfLocal (.ofJson d.value) <;>
        simp [Except.map]
    rw [hmap, Memory.declare_eq_error_iff]
    simp
  | _ => simp [effect]

/-- What an event that succeeds does to the frames. -/
theorem effect_frames {format : Format} {m m' : Memory} {e : Event}
    (h : e.effect format m = .ok m') :
    (∃ c, e = .enter c ∧ m'.frames = ⟨textOr defaultFrameName c.fn, []⟩ :: m.frames) ∨
      (∃ c, e = .exit c ∧ m'.frames = m.frames.tail) ∨
      ((∀ c, e ≠ .enter c) ∧ (∀ c, e ≠ .exit c) ∧ m.SameCallers m') := by
  cases e with
  | enter c => cases h; exact .inl ⟨c, rfl, rfl⟩
  | exit c => cases h; exact .inr (.inl ⟨c, rfl, rfl⟩)
  | declare d =>
    obtain ⟨v, hd⟩ := effect_declare_eq_ok h
    exact .inr (.inr ⟨by simp, by simp, .declare hd⟩)
  | assign a => cases h; exact .inr (.inr ⟨by simp, by simp, .assignFirst _ _ m⟩)
  | allocate a => cases h; exact .inr (.inr ⟨by simp, by simp, .allocation a m⟩)
  | release r => cases h; exact .inr (.inr ⟨by simp, by simp, .of_stackPart rfl⟩)
  | store s => cases h; exact .inr (.inr ⟨by simp, by simp, .store s m⟩)
  | storeByte s =>
    cases h
    exact .inr (.inr ⟨by simp, by simp, .of_stackPart (Memory.stackPart_setByte _ _ _ m)⟩)
  | output o => cases h; exact .inr (.inr ⟨by simp, by simp, .of_stackPart rfl⟩)
  | note n => cases h; exact .inr (.inr ⟨by simp, by simp, .of_stackPart rfl⟩)

theorem effect_depth {format : Format} {m m' : Memory} {e : Event}
    (h : e.effect format m = .ok m') : m'.frames.length = e.depthAfter m.frames.length := by
  rcases effect_frames h with ⟨c, rfl, hf⟩ | ⟨c, rfl, hf⟩ | ⟨henter, hexit, hsame⟩
  · rw [hf]
    rfl
  · rw [hf, List.length_tail]
    rfl
  · rw [hsame.depth]
    cases e with
    | enter c => exact absurd rfl (henter c)
    | exit c => exact absurd rfl (hexit c)
    | _ => rfl

/-- An event is a sequence of changes. -/
theorem effect_reaches {format : Format} {m m' : Memory} {e : Event}
    (h : e.effect format m = .ok m') : m.Reaches m' := by
  cases e with
  | enter c => cases h; exact .single (.push _)
  | exit c => cases h; exact .single .pop
  | declare d =>
    obtain ⟨v, hd⟩ := effect_declare_eq_ok h
    exact .single (.declare hd)
  | assign a => cases h; exact .single (.assign _ _)
  | allocate a =>
    cases h
    have hfilled : m.Reaches (a.filled m) :=
      .tail (.single (.allocate a.sizeOfBlock a.labelOfBlock)) (.setBytes _ _)
    rw [Allocation.effect_eq]
    split
    · exact hfilled
    · exact hfilled.tail (.assign _ _)
  | release r => cases h; exact .single (.free _)
  | store s =>
    cases h
    unfold Store.effect
    split
    · exact .single (.setBytes _ _)
    · exact .single (.assign _ _)
  | storeByte s => cases h; exact .single (.setByte _ _ _)
  | output o => cases h; exact .single (.emit _)
  | note n => cases h; exact .refl

end Event

theorem Item.effect_reaches {format : Format} {m m' : Memory} {item : Item}
    (h : item.effect format m = .ok m') : m.Reaches m' := by
  cases item with
  | event tag e => exact Event.effect_reaches h
  | _ => cases h; exact .refl

/-- The memory of a run is reached by changes, also if the run is stopped. -/
theorem Run.ofItems_reaches (format : Format) (locale : Locale) (items : List Item) (m : Memory) :
    m.Reaches (ofItems format locale items m).memory := by
  induction items generalizing m with
  | nil => exact .refl
  | cons item rest ih =>
    rw [ofItems]
    cases he : item.effect format m with
    | error e => exact .refl
    | ok after => exact (Item.effect_reaches he).trans (ih after)

end TraceReplay
