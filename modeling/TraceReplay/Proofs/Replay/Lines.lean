import TraceReplay.Proofs.Event.Line
import TraceReplay.Proofs.Replay.Prefixes

/-! # Highlighted lines

An element of a trace may be an event that is carried out, an event whose data are malformed, an
object with an unknown tag, or no object at all. Its step highlights the line that the element has,
whichever of these it is, and no line is a reason for being malformed.
-/

namespace TraceReplay

namespace Item

def faults? : Item → Option (List Checked.Fault)
  | malformed _ _ faults => some faults
  | _ => none

/-- The line that an element is read with is the line of its data, on every path of reading. -/
theorem line_read (format : Format) (x : Json) : (read format x).line = Field.line? x := by
  unfold read
  split
  · split
    · split
      · next e he => exact Event.line_of_ofJson he
      · rfl
    · rfl
  · rfl
  · rfl

/-- Elements that differ in their lines alone are malformed alike. -/
theorem faults?_read (format : Format) {x y : Json} (hobject : y.isObject = x.isObject)
    (hfields : ∀ name, name ≠ "line" → y.field? name = x.field? name) :
    (read format y).faults? = (read format x).faults? := by
  have htag : y.field? format.tagField = x.field? format.tagField :=
    hfields _ (by cases format <;> decide)
  have hsame : x.SameBesideLine y := ⟨hobject, fun name _ hname => hfields name hname⟩
  simp only [read, htag]
  split
  · split
    · next operation _ =>
      rw [hsame.event_ofJson operation]
      cases Event.ofJson operation x <;> rfl
    · rfl
  · rfl
  · rfl

end Item

/-- If a list of events is replayed, there is a step for each of them, which highlights the line of
the event if it has one and nothing otherwise. Whether an event is malformed, and for which faults,
does not depend on its line. -/
theorem Replayer.replay_lines (r : Replayer) (payload : Json) (xs : List Json) (steps : List Step)
    (htrace : r.format.trace payload = .ok (.events xs)) (h : (r.replay payload).1 = .ok steps) :
    steps.length = xs.length ∧
      (∀ (i : ℕ) x, xs[i]? = some x → ∃ s, steps[i]? = some s ∧
        (∀ n, x.HasLine n → s.lines = [n]) ∧ ((¬ ∃ n, x.HasLine n) → s.lines = [])) ∧
      ∀ x y : Json, y.isObject = x.isObject →
        (∀ name, name ≠ "line" → y.field? name = x.field? name) →
          (Item.read r.format y).faults? = (Item.read r.format x).faults? := by
  rw [replay_events htrace, Run.mapError_outcome_eq_ok_iff] at h
  obtain ⟨hstopped, rfl⟩ := h
  refine ⟨?_, ?_, fun x y => Item.faults?_read r.format⟩
  · obtain ⟨-, hlength, -⟩ := Run.ofItems_part (rfl : r.format.replay r.locale xs = _)
    exact (hlength hstopped).trans (List.length_map _)
  · intro i x hx
    have hitem : (xs.map (Item.read r.format))[i]? = some (Item.read r.format x) := by
      rw [List.getElem?_map, hx]
      rfl
    obtain ⟨-, hstep⟩ := Run.ofItems_getElem? hstopped hitem
    refine ⟨_, hstep, ?_⟩
    change (∀ n, x.HasLine n → (Item.read r.format x).line.toList = [n]) ∧
      ((¬ ∃ n, x.HasLine n) → (Item.read r.format x).line.toList = [])
    rw [Item.line_read]
    constructor
    · intro n hn
      rw [Field.line?_eq_some_iff.2 hn, Option.toList_some]
    · intro hnone
      have hline : Field.line? x = none := by
        apply Option.eq_none_iff_forall_ne_some.2
        exact fun n hn => hnone ⟨n, Field.line?_eq_some_iff.1 hn⟩
      rw [hline, Option.toList_none]

/-- A call, a declaration without a name, an unknown tag with a line beyond 64 bits, a number, and a
note at half a line. -/
def linedTrace : List Json :=
  [.object [("type", .text "function_enter"), ("line", .int 3)],
    .object [("line", .real (.finite false 1 2)), ("type", .text "local_alloc")],
    .object [("type", .text "jump"), ("line", .real (.finite true 1 70))],
    .int 5,
    .object [("type", .text "note"), ("line", .real (.finite false 1 (-1)))]]

theorem Replayer.replay_lines_linedTrace :
    let r : Replayer := ⟨.clang, .en, .initial⟩
    ∃ steps, (r.replay (.list linedTrace)).1 = .ok steps ∧ steps.length = 5 ∧
      (∃ s, steps[0]? = some s ∧ s.lines = [3]) ∧ (∃ s, steps[1]? = some s ∧ s.lines = [4]) ∧
      (∃ s, steps[2]? = some s ∧ s.lines = [-0x400000000000000000]) ∧
      (∃ s, steps[3]? = some s ∧ s.lines = []) ∧ (∃ s, steps[4]? = some s ∧ s.lines = []) ∧
      (Item.read .clang (.object [("line", .text "7"), ("type", .text "local_alloc")])).faults? =
        some [⟨[.field "name"], .missing⟩] := by
  intro r
  have hstopped : (Format.clang.replay .en linedTrace).stopped = none := by decide +kernel
  have hsteps := replay_list_of_not_stopped (r := r) hstopped
  obtain ⟨hlength, hlines, hfaults⟩ := Replayer.replay_lines r (.list linedTrace) linedTrace _
    (Format.trace_eq_events (.inl rfl)) hsteps
  have hnone {x : Json} (hx : Field.line? x = none) : ¬ ∃ n, x.HasLine n := by
    rintro ⟨n, hn⟩
    rw [Field.line?_eq_some_iff.2 hn] at hx
    cases hx
  refine ⟨_, hsteps, hlength, ?_, ?_, ?_, ?_, ?_, ?_⟩
  · obtain ⟨s, hs, hline, -⟩ := hlines 0 _ rfl
    exact ⟨s, hs, hline 3 (.int rfl)⟩
  · obtain ⟨s, hs, hline, -⟩ := hlines 1 _ rfl
    exact ⟨s, hs, hline 4 (.real rfl (Binary64.toInt?_eq_some_iff.1 (by decide)))⟩
  · obtain ⟨s, hs, hline, -⟩ := hlines 2 _ rfl
    exact ⟨s, hs, hline _ (.real rfl (Binary64.toInt?_eq_some_iff.1 (by decide)))⟩
  · obtain ⟨s, hs, -, hno⟩ := hlines 3 _ rfl
    exact ⟨s, hs, hno (hnone rfl)⟩
  · obtain ⟨s, hs, -, hno⟩ := hlines 4 _ rfl
    exact ⟨s, hs, hno (hnone (by decide))⟩
  · have hsame := hfaults
      (.object [("line", .real (.finite false 1 2)), ("type", .text "local_alloc")])
      (.object [("line", .text "7"), ("type", .text "local_alloc")]) rfl
    refine (hsame ?_).trans (by decide +kernel)
    intro name hname
    have hbeside : (name == "line") = false := by simpa using hname
    simp [Json.field?, List.lookup_cons, hbeside]

end TraceReplay
