import TraceReplay.Proofs.Precedence
import TraceReplay.Proofs.Replay.Outcome

/-! # Counts

A tally grows by one with each element that is counted, at the tag of that element alone. The
counts of a list therefore add up to its length, and each of them is the number of elements with
the tag. A payload is counted by looking for its format and its events apart from its replay, and
what is found is the same: there is a count for every step.
-/

namespace TraceReplay

namespace Tally

def times (tally : Tally) (tag : String) : Nat := (tally.lookup tag).getD 0

/-- All counts together. -/
def total : Tally → Nat
  | [] => 0
  | (_, n) :: rest => n + total rest

theorem times_cons (t tag : String) (n : Nat) (tally : Tally) :
    times ((t, n) :: tally) tag = if tag = t then n else tally.times tag := by
  unfold times
  rw [List.lookup_cons]
  by_cases h : tag = t
  · rw [if_pos h, beq_iff_eq.2 h, Option.getD_some]
  · rw [if_neg h, beq_eq_false_iff_ne.2 h]

theorem total_count (tag : String) (tally : Tally) : (tally.count tag).total = tally.total + 1 := by
  induction tally with
  | nil => rfl
  | cons entry rest ih =>
    obtain ⟨t, n⟩ := entry
    by_cases h : t = tag
    · rw [count, if_pos h, total, total]
      omega
    · rw [count, if_neg h, total, total, ih]
      omega

theorem times_count (tag other : String) (tally : Tally) :
    (tally.count tag).times other = tally.times other + if other = tag then 1 else 0 := by
  induction tally with
  | nil =>
    rw [count, times_cons]
    exact (Nat.zero_add _).symm
  | cons entry rest ih =>
    obtain ⟨t, n⟩ := entry
    by_cases h : t = tag
    · subst h
      rw [count, if_pos rfl, times_cons, times_cons]
      by_cases hother : other = t <;> simp [hother]
    · rw [count, if_neg h, times_cons, times_cons, ih]
      by_cases hother : other = t
      · simp [hother, h]
      · simp [hother]

def countAll (tagField : String) (tally : Tally) (xs : List Json) : Tally :=
  xs.foldl (fun tally x => tally.count (tagOf tagField x)) tally

theorem total_countAll (tagField : String) (tally : Tally) (xs : List Json) :
    (tally.countAll tagField xs).total = tally.total + xs.length := by
  induction xs generalizing tally with
  | nil => rfl
  | cons x rest ih =>
    change (countAll tagField (tally.count (tagOf tagField x)) rest).total = _
    rw [ih, total_count, List.length_cons]
    omega

theorem times_countAll (tagField tag : String) (tally : Tally) (xs : List Json) :
    (tally.countAll tagField xs).times tag =
      tally.times tag + xs.countP fun x => tag = tagOf tagField x := by
  induction xs generalizing tally with
  | nil => rfl
  | cons x rest ih =>
    change (countAll tagField (tally.count (tagOf tagField x)) rest).times tag = _
    rw [ih, times_count, List.countP_cons]
    by_cases h : tag = tagOf tagField x
    · simp only [h, if_true, decide_true]
      omega
    · simp [h]

theorem total_ofEvents (tagField : String) (xs : List Json) :
    (ofEvents tagField xs).total = xs.length :=
  (total_countAll tagField [] xs).trans (Nat.zero_add _)

theorem times_ofEvents_tagOf (tagField tag : String) (xs : List Json) :
    (ofEvents tagField xs).times tag = xs.countP fun x => tag = tagOf tagField x :=
  (times_countAll tagField tag [] xs).trans (Nat.zero_add _)

/-- Whether an element is no object, or has no text in the field for tags. -/
def lacksTag (tagField : String) : Json → Bool
  | .object fields =>
    match fields.lookup tagField with
    | some (.text _) => false
    | _ => true
  | _ => true

theorem lacksTag_eq_false {tagField : String} {x : Json} (h : lacksTag tagField x = false) :
    x.field? tagField = some (.text (tagOf tagField x)) := by
  cases x with
  | object fields =>
    rw [lacksTag] at h
    split at h
    · next tag hfound =>
      have hfield : (Json.object fields).field? tagField = some (.text tag) := hfound
      rw [tagOf, hfield]
    · cases h
  | _ => cases h

theorem lacksTag_eq_true {tagField : String} {x : Json} (h : lacksTag tagField x = true) :
    tagOf tagField x = missingTag ∧ ∀ tag, x.field? tagField ≠ some (.text tag) := by
  cases x with
  | object fields =>
    rw [lacksTag] at h
    split at h
    · cases h
    · next hno =>
      refine ⟨?_, hno⟩
      rw [tagOf]
      split
      · next tag hfound => exact absurd hfound (hno tag)
      · rfl
  | _ => exact ⟨rfl, fun _ => (Option.some_ne_none _).symm⟩

/-- A tag has been counted for the elements that have it, and the tag that stands for a missing one
for those without a tag as well. -/
theorem times_ofEvents_eq (tagField tag : String) (xs : List Json) :
    (ofEvents tagField xs).times tag =
      xs.countP (fun x => x.field? tagField = some (.text tag)) +
        if tag = missingTag then xs.countP (lacksTag tagField) else 0 := by
  rw [times_ofEvents_tagOf]
  induction xs with
  | nil => simp
  | cons x rest ih =>
    rw [List.countP_cons, List.countP_cons, List.countP_cons, ih]
    cases hlacks : lacksTag tagField x with
    | false =>
      have hfield : x.field? tagField = some (.text tag) ↔ tag = tagOf tagField x := by
        simp [lacksTag_eq_false hlacks, eq_comm]
      simp only [hfield, Bool.false_eq_true, if_false, Nat.add_zero, decide_eq_true_eq]
      omega
    | true =>
      obtain ⟨hmissing, hno⟩ := lacksTag_eq_true hlacks
      simp only [hmissing, hno tag, decide_false, Bool.false_eq_true, if_false, if_true,
        Nat.add_zero, decide_eq_true_eq]
      split <;> omega

theorem times_ofEvents {tag : String} (h : tag ≠ missingTag) (tagField : String)
    (xs : List Json) :
    (ofEvents tagField xs).times tag =
      xs.countP fun x => x.field? tagField = some (.text tag) := by
  rw [times_ofEvents_eq, if_neg h, Nat.add_zero]

end Tally

/-- The list of events that a payload is or has in its field for them. -/
def heldEvents (payload : Json) : List Json :=
  match payload, payload.field? "events" with
  | .list xs, _ => xs
  | _, some (.list xs) => xs
  | _, _ => []

theorem eq_heldEvents_of_countable {payload : Json} {xs : List Json}
    (h : countable payload = .ok xs) : xs = heldEvents payload := by
  cases payload with
  | null =>
    cases h
    rfl
  | list ys =>
    cases h
    rfl
  | object fields =>
    simp only [countable, eventsField] at h
    unfold heldEvents
    cases hevents : (Json.object fields).field? "events" with
    | none =>
      simp only [hevents, Option.getD_none, Except.ok.injEq] at h
      exact h.symm
    | some events =>
      simp only [hevents, Option.getD_some] at h
      cases events with
      | null =>
        cases h
        rfl
      | list ys =>
        cases h
        rfl
      | _ => cases h
  | _ => cases h

theorem Format.eq_heldEvents_of_trace {format : Format} {payload : Json} {trace : Trace}
    (htree : isSyntaxTree payload = false) (h : format.trace payload = .ok trace) :
    trace = .events (heldEvents payload) := by
  have hno : ¬ (decide (format = .clang) && isSyntaxTree payload) = true := by simp [htree]
  unfold Format.trace at h
  rw [if_neg hno] at h
  cases payload with
  | null =>
    cases h
    rfl
  | list ys =>
    cases h
    rfl
  | object fields =>
    simp only [eventsField] at h
    unfold heldEvents
    cases hevents : (Json.object fields).field? "events" with
    | none =>
      simp only [hevents, Except.ok.injEq] at h
      exact h.symm
    | some events =>
      simp only [hevents] at h
      cases events with
      | list ys =>
        cases h
        rfl
      | _ => cases h
  | _ => cases h

/-- There is a step for each event. -/
theorem length_of_interpret {payload mode locale : Json} {steps : List Step}
    (htree : isSyntaxTree payload = false)
    (h : (interpret payload mode locale).outcome = .ok steps) :
    steps.length = (heldEvents payload).length := by
  obtain ⟨⟨format, locale, trace⟩, hq, hstopped, rfl⟩ := interpret_eq_ok h
  obtain rfl := Format.eq_heldEvents_of_trace htree (Request.trace_of_ofNames hq)
  have hlength := (Run.ofItems_part (rfl : format.replay locale (heldEvents payload) = _)).2.1
  exact (hlength hstopped).trans (List.length_map _)

theorem eq_ofEvents_of_eventStats {payload mode : Json} {counts : Tally}
    (htree : isSyntaxTree payload = false) (h : (eventStats payload mode).outcome = .ok counts) :
    counts = Tally.ofEvents (formatOf mode payload).tagField (heldEvents payload) := by
  by_cases hmode : mode ∈ modeNames
  · obtain ⟨m, rfl⟩ := Mode.exists_name_of_mem hmode
    rw [outcome_eventStats, m.format_eq] at h
    split at h
    · cases h
    cases hevents : countable payload with
    | error e => simp [htree, hevents, Except.bind, Except.map, Except.mapError] at h
    | ok xs =>
      simp only [htree, hevents, Except.bind, Except.map, Except.mapError, Bool.false_eq_true,
        if_false, Except.ok.injEq] at h
      rw [← h, eq_heldEvents_of_countable hevents]
  · simp [eventStats, Mode.ofJson_of_not_mem hmode, Except.bind] at h

/-- If a payload without a syntax tree can both be replayed and counted in a mode, there is a count
for every step. Each tag has been counted as often as there are events with the tag in the field
that the format of the mode has for it, leaving aside the tag that stands for a missing one. -/
theorem eventStats_counts_steps (payload mode locale : Json) (steps : List Step) (counts : Tally)
    (htree : isSyntaxTree payload = false)
    (hsteps : (interpret payload mode locale).outcome = .ok steps)
    (hcounts : (eventStats payload mode).outcome = .ok counts) :
    let tagField := (formatOf mode payload).tagField
    counts.total = steps.length ∧
      ∀ tag, tag ≠ "<missing>" → counts.times tag =
        (heldEvents payload).countP fun x => x.field? tagField = some (.text tag) := by
  intro tagField
  obtain rfl := eq_ofEvents_of_eventStats htree hcounts
  refine ⟨?_, ?_⟩
  · rw [Tally.total_ofEvents, length_of_interpret htree hsteps]
  · intro tag htag
    exact Tally.times_ofEvents htag tagField (heldEvents payload)

/-- Two notes among elements that have no tag, have it in the field of the other format, or have the
tag that stands for a missing one. -/
def mixedTrace : List Json :=
  [.object [("kind", .text "note")], .object [("type", .text "note")], .null,
    .object [("kind", .text "note"), ("type", .text "malloc")], .object [("kind", .int 3)],
    .object [("kind", .text "<missing>")]]

theorem eventStats_counts_steps_mixedTrace :
    let replay := interpret (.list mixedTrace) (.text "auto") (.text "bn")
    let count := eventStats (.list mixedTrace) (.text "auto")
    ∃ steps counts, replay.outcome = .ok steps ∧ count.outcome = .ok counts ∧
      counts.total = steps.length ∧ counts.times "note" = 2 ∧ counts.times "malloc" = 0 := by
  intro replay count
  have hreplayed : replay.outcome.isOk = true := by decide +kernel
  have hcounts : count.outcome = .ok [("note", 2), ("<missing>", 4)] := by rfl
  cases hsteps : replay.outcome with
  | error e =>
    rw [hsteps] at hreplayed
    cases hreplayed
  | ok steps =>
    obtain ⟨htotal, htimes⟩ := eventStats_counts_steps _ _ _ steps _ (by decide) hsteps hcounts
    refine ⟨steps, _, rfl, hcounts, htotal, ?_, ?_⟩
    · exact (htimes "note" (by decide)).trans (by decide)
    · exact (htimes "malloc" (by decide)).trans (by decide)

end TraceReplay
