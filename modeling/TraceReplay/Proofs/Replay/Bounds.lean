import TraceReplay.Proofs.Event.Reading
import TraceReplay.Proofs.Interpret
import TraceReplay.Proofs.Memory.Bounds
import TraceReplay.Proofs.Replay.History

/-! # Well-formed steps

An event is read from any data, but what it does to a memory is within bounds: the size of a block
has been checked, a size that is absent or zero stands for another one, and only bytes are written.
So every step that is returned shows blocks of the right length, with bytes in them as long as they
are live, and locals that have a size and a value of one of the four kinds.
-/

namespace TraceReplay

theorem sizeOr_pos {other : Nat} (h : 1 ≤ other) (size : Option Nat) : 1 ≤ sizeOr other size := by
  cases size with
  | none => exact h
  | some n =>
    by_cases hn : n = 0
    · rwa [sizeOr, if_pos hn]
    · rw [sizeOr, if_neg hn]
      omega

theorem sizeOr_le {limit other : Nat} (h : other ≤ limit) {size : Option Nat}
    (hsize : ∀ n, size = some n → n ≤ limit) : sizeOr other size ≤ limit := by
  cases size with
  | none => exact h
  | some n =>
    by_cases hn : n = 0
    · rwa [sizeOr, if_pos hn]
    · rw [sizeOr, if_neg hn]
      exact hsize n rfl

/-- An event that allocates no larger block than the limit, if any. -/
def Event.Within (limit : Nat) (e : Event) : Prop :=
  ∀ a, e = .allocate a → a.sizeOfBlock ≤ limit

theorem Event.within_of_ofJson {operation : Operation} {x : Json} {e : Event}
    (h : ofJson operation x = .accepted e) : e.Within maxBlockSize := by
  rintro a rfl
  obtain ⟨-, ha⟩ := ofJson_eq_allocate.1 h
  exact sizeOr_le (by decide) fun n hn => Allocation.size_le ha hn

namespace Memory.Bounded

variable {limit : Nat} {format : Format} {m m' : Memory}

theorem allocation (h : m.Bounded limit) {a : Allocation} (ha : a.sizeOfBlock ≤ limit) :
    (a.effect m).Bounded limit := by
  have hpos : 1 ≤ a.sizeOfBlock := sizeOr_pos (by decide) a.size
  have hfilled : (a.filled m).Bounded limit :=
    (h.allocate (by omega) (by omega) a.labelOfBlock).setBytes _ _
  rw [Allocation.effect_eq]
  split
  · exact hfilled
  · exact hfilled.assignFirst _ _

theorem store (h : m.Bounded limit) (s : Store) : (s.effect m).Bounded limit := by
  unfold Store.effect
  split
  · exact h.setBytes _ _
  · exact h.assignFirst _ _

theorem event (h : m.Bounded limit) {e : Event} (hlimit : e.Within limit)
    (he : e.effect format m = .ok m') : m'.Bounded limit := by
  cases e with
  | declare d =>
    obtain ⟨v, hd⟩ := Event.effect_declare_eq_ok he
    have hpos : 1 ≤ d.sizeOfLocal := sizeOr_pos (by decide) d.size
    exact h.declare (by omega) hd
  | enter c =>
    cases he
    exact h.push _
  | exit c =>
    cases he
    exact h.pop
  | assign a =>
    cases he
    exact h.assignFirst _ _
  | allocate a =>
    cases he
    exact h.allocation (hlimit a rfl)
  | release r =>
    cases he
    exact h.free _
  | store s =>
    cases he
    exact h.store s
  | storeByte s =>
    cases he
    exact h.setByte _ _ (Bytes.toNat_bounds s.byte)
  | output o =>
    cases he
    exact h.emit _
  | note n =>
    cases he
    exact h

/-- An element of a trace keeps the bounds, whatever it is. -/
theorem read (h : m.Bounded maxBlockSize) {x : Json}
    (he : (Item.read format x).effect format m = .ok m') : m'.Bounded maxBlockSize := by
  cases hevent : (Item.read format x).event? with
  | none =>
    rw [Item.effect_of_event?_eq_none hevent] at he
    cases he
    exact h
  | some e =>
    rw [Item.effect_of_event?_eq_some hevent] at he
    obtain ⟨_, _, -, -, hdata⟩ := Item.event?_read.1 hevent
    exact h.event (Event.within_of_ofJson hdata) he

end Memory.Bounded

/-- What the elements keep of a memory holds of all memories that their steps show. -/
theorem Run.forall_mem_steps {P : Memory → Prop} {format : Format} (locale : Locale)
    {items : List Item}
    (hP : ∀ item ∈ items, ∀ m m', item.effect format m = .ok m' → P m → P m') {m : Memory}
    (hm : P m) : ∀ s ∈ (ofItems format locale items m).steps,
      ∃ shown, P shown ∧ s.snapshot = shown.snapshot := by
  induction items generalizing m with
  | nil =>
    intro s hs
    cases hs
  | cons item rest ih =>
    obtain ⟨hitem, hrest⟩ := List.forall_mem_cons.1 hP
    simp only [ofItems]
    cases he : item.effect format m with
    | error e =>
      intro s hs
      cases hs
    | ok after =>
      have hafter : P after := hitem m after he hm
      refine List.forall_mem_cons.2 ⟨⟨item.shown m after, ?_, rfl⟩, ih hrest hafter⟩
      rcases item.shown_eq m after with hshown | hshown
      · rwa [hshown]
      · rwa [hshown]

theorem Trace.forall_mem_steps (format : Format) (locale : Locale) (trace : Trace) :
    ∀ s ∈ (trace.run format locale).steps, ∃ shown : Memory,
      (shown.Bounded maxBlockSize ∧ shown.HeapLayout) ∧ s.snapshot = shown.snapshot := by
  have hinitial := Memory.initial_bounded maxBlockSize
  cases trace with
  | syntaxTree =>
    intro s hs
    rw [List.mem_singleton.1 hs]
    refine ⟨Memory.initial.push mainFrameName, ⟨hinitial.push _, ?_⟩, rfl⟩
    exact Memory.initial_heapLayout.congr (Memory.heapPart_push _ _)
  | events xs =>
    apply Run.forall_mem_steps locale _ ⟨hinitial, Memory.initial_heapLayout⟩
    intro item hitem m m' he hm
    obtain ⟨x, -, rfl⟩ := List.mem_map.1 hitem
    exact ⟨hm.1.read he, (Item.effect_reaches he).heapLayout hm.2⟩

/-- Whatever the payload, the mode and the locale are, every step that is returned for them is
well-formed. -/
theorem interpret_wellFormed (payload mode locale : Json) (steps : List Step)
    (h : (interpret payload mode locale).outcome = .ok steps) :
    ∀ s ∈ steps, s.snapshot.WellFormed maxBlockSize := by
  obtain ⟨q, -, -, rfl⟩ := interpret_eq_ok h
  intro s hs
  obtain ⟨shown, ⟨hbounded, hlayout⟩, hshown⟩ := q.trace.forall_mem_steps q.format q.locale s hs
  rw [hshown]
  exact hbounded.wellFormed_snapshot hlayout

/-- Locals without a size and with sequences for values, a block whose size counts as absent and
that is given more than it takes, one that is too large, and a write beyond a block. -/
def boundaryTrace : List Json :=
  [.object [("kind", .text "call")],
    .object [("kind", .text "alloc_local"), ("name", .text "x"), ("size", .int 0)],
    .object [("kind", .text "alloc_local"), ("name", .text "s"), ("value", .list [.text "a"])],
    .object [("kind", .text "alloc_local"), ("name", .text "b"), ("value", .list [.int 255])],
    .object [("kind", .text "malloc"), ("size", .int 0),
      ("bytes", .list [.int 300, .int (-1), .null, .text "7", .int 9])],
    .object [("kind", .text "malloc"), ("size", .int 0x10001)],
    .object [("kind", .text "store_mem"), ("addr", .text "0x10000000"), ("offset", .int 4),
      ("byte", .int 1)],
    .object [("kind", .text "free"), ("addr", .text "0x10000000")]]

theorem interpret_wellFormed_boundaryTrace :
    ∃ steps, (interpret (.list boundaryTrace) (.text "auto") (.text "bn")).outcome = .ok steps ∧
      steps.length = 8 ∧ ∀ s ∈ steps, s.snapshot.WellFormed maxBlockSize := by
  have hlength : (interpret (.list boundaryTrace) (.text "auto") (.text "bn")).outcome.map
      List.length = .ok 8 := by decide +kernel
  cases hsteps : (interpret (.list boundaryTrace) (.text "auto") (.text "bn")).outcome with
  | error e =>
    rw [hsteps] at hlength
    cases hlength
  | ok steps =>
    rw [hsteps] at hlength
    exact ⟨steps, rfl, Except.ok.inj hlength, interpret_wellFormed _ _ _ steps hsteps⟩

end TraceReplay
