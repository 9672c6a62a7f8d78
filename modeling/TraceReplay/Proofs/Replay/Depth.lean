import TraceReplay.Proofs.Replay.Effects

/-! # The depth of calls

The number of open calls is computed from the elements of a trace alone: an element that enters a
function adds one, and one that leaves a function takes one away unless there is none. A run has as
many frames, so it fails exactly at a stray declaration, one that comes while no call is open, and
the first of them is what it reports.
-/

namespace TraceReplay

namespace Item

def depthAfter (depth : Nat) (item : Item) : Nat :=
  match item.event? with
  | some e => e.depthAfter depth
  | none => depth

/-- The number of open calls after elements that start with so many. -/
def depthFrom (depth : Nat) (items : List Item) : Nat := items.foldl depthAfter depth

/-- The element at a position declares a local while no call is open. -/
def StrayFrom (start : Nat) (items : List Item) (i : Nat) (d : Declaration) : Prop :=
  items[i]?.bind event? = some (.declare d) ∧ depthFrom start (items.take i) = 0

/-- The element at a position declares a local while no call is open, and is the first to do so. -/
structure FirstStrayFrom (start : Nat) (items : List Item) (i : Nat) (d : Declaration) : Prop where
  stray : StrayFrom start items i d
  first : ∀ j < i, ∀ d', ¬ StrayFrom start items j d'

theorem effect_depth {format : Format} {m m' : Memory} {item : Item}
    (h : item.effect format m = .ok m') : m'.frames.length = item.depthAfter m.frames.length := by
  unfold depthAfter
  cases he : item.event? with
  | none =>
    rw [effect_of_event?_eq_none he] at h
    cases h
    rfl
  | some e =>
    rw [effect_of_event?_eq_some he] at h
    exact Event.effect_depth h

theorem effect_eq_error_iff {format : Format} {m : Memory} {item : Item} {x : NoActiveFrame} :
    item.effect format m = .error x ↔
      ∃ d, item.event? = some (.declare d) ∧ m.frames.length = 0 ∧ x = ⟨d.name⟩ := by
  cases he : item.event? with
  | none =>
    rw [effect_of_event?_eq_none he]
    simp
  | some e =>
    rw [effect_of_event?_eq_some he, Event.effect_eq_error_iff]
    simp

theorem strayFrom_zero {start : Nat} {item : Item} {rest : List Item} {d : Declaration} :
    StrayFrom start (item :: rest) 0 d ↔ item.event? = some (.declare d) ∧ start = 0 := Iff.rfl

theorem strayFrom_succ {start : Nat} {item : Item} {rest : List Item} {i : Nat}
    {d : Declaration} :
    StrayFrom start (item :: rest) (i + 1) d ↔ StrayFrom (item.depthAfter start) rest i d := Iff.rfl

theorem not_strayFrom_zero {format : Format} {item : Item} {rest : List Item} {m m' : Memory}
    (h : item.effect format m = .ok m') (d : Declaration) :
    ¬ StrayFrom m.frames.length (item :: rest) 0 d := by
  rw [strayFrom_zero]
  rintro ⟨hd, hstart⟩
  have herror : item.effect format m = .error ⟨d.name⟩ :=
    effect_eq_error_iff.2 ⟨d, hd, hstart, rfl⟩
  rw [h] at herror
  cases herror

/-- Effects that succeed have no stray declaration among them. -/
theorem not_strayFrom_of_effects_ok {format : Format} {items : List Item} {m m' : Memory}
    (h : effects format items m = .ok m') (i : Nat) (d : Declaration) :
    ¬ StrayFrom m.frames.length items i d := by
  induction items generalizing m i with
  | nil => simp [StrayFrom]
  | cons item rest ih =>
    obtain ⟨after, he, hrest⟩ := effects_cons_eq_ok_iff.1 h
    cases i with
    | zero => exact not_strayFrom_zero he d
    | succ i =>
      rw [strayFrom_succ, ← effect_depth he]
      exact ih hrest i

/-- Effects that fail do so at the first stray declaration. -/
theorem exists_firstStrayFrom_of_effects_error {format : Format} {items : List Item} {m : Memory}
    {x : NoActiveFrame} (h : effects format items m = .error x) :
    ∃ i d, FirstStrayFrom m.frames.length items i d ∧ x = ⟨d.name⟩ := by
  induction items generalizing m with
  | nil => cases h
  | cons item rest ih =>
    rcases effects_cons_eq_error_iff.1 h with he | ⟨after, he, hrest⟩
    · obtain ⟨d, hd, hstart, hx⟩ := effect_eq_error_iff.1 he
      exact ⟨0, d, ⟨strayFrom_zero.2 ⟨hd, hstart⟩, fun j hj => absurd hj (Nat.not_lt_zero j)⟩, hx⟩
    · obtain ⟨i, d, ⟨hstray, hfirst⟩, hx⟩ := ih hrest
      rw [effect_depth he] at hstray hfirst
      refine ⟨i + 1, d, ⟨strayFrom_succ.2 hstray, fun j hj d' => ?_⟩, hx⟩
      cases j with
      | zero => exact not_strayFrom_zero he d'
      | succ j =>
        rw [strayFrom_succ]
        exact hfirst j (Nat.lt_of_succ_lt_succ hj) d'

theorem FirstStrayFrom.unique {start : Nat} {items : List Item} {i j : Nat} {d d' : Declaration}
    (h : FirstStrayFrom start items i d) (h' : FirstStrayFrom start items j d') : d = d' := by
  have hij : i = j := by
    rcases Nat.lt_trichotomy i j with hlt | heq | hgt
    · exact absurd h.stray (h'.first i hlt d)
    · exact heq
    · exact absurd h'.stray (h.first j hgt d')
  subst hij
  have hd := h.stray.1.symm.trans h'.stray.1
  simpa using hd

end Item

end TraceReplay
