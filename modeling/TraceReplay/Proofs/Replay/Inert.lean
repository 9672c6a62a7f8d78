import TraceReplay.Proofs.Replay.Outcome

/-! # Inert elements

An element of a trace is inert if it is a note, or no valid event at all. It has no effect, and what
is said of other elements does not depend on it. So inert elements can be deleted from a trace
anywhere: their steps disappear, and everything else is as it was.
-/

namespace TraceReplay

/-- The elements at the positions that are kept. -/
def keepAt {α : Type} (keep : Nat → Bool) (xs : List α) : List α :=
  (xs.zipIdx.filter fun p => keep p.2).map Prod.fst

theorem keepAt_map {α β : Type} (keep : Nat → Bool) (f : α → β) (xs : List α) :
    keepAt keep (xs.map f) = (keepAt keep xs).map f := by
  simp only [keepAt, List.zipIdx_map, List.filter_map, List.map_map]
  rfl

theorem keepAt_cons {α : Type} (keep : Nat → Bool) (x : α) (xs : List α) :
    keepAt keep (x :: xs) =
      if keep 0 then x :: keepAt (fun i => keep (i + 1)) xs
      else keepAt (fun i => keep (i + 1)) xs := by
  have hrest : ((xs.zipIdx 1).filter fun p => keep p.2).map Prod.fst =
      keepAt (fun i => keep (i + 1)) xs := by
    rw [keepAt, List.zipIdx_succ, List.filter_map, List.map_map]
    rfl
  rw [keepAt, List.zipIdx_cons, List.filter_cons, ← hrest]
  cases keep 0 <;> rfl

/-- A value that is a note as an element of a trace, or no valid event. -/
inductive Format.Inert (format : Format) (x : Json) : Prop
  | notObject (h : x.isObject = false)
  | noTag (h : x.field? format.tagField = none)
  | tagNotText {tag : Json} (h : x.field? format.tagField = some tag)
      (htext : ∀ s, tag ≠ .text s)
  | unknownTag {tag : String} (h : x.field? format.tagField = some (.text tag))
      (hoperation : format.operation? tag = none)
  | malformed {tag : String} {operation : Operation} {faults : List Checked.Fault}
      (h : x.field? format.tagField = some (.text tag))
      (hoperation : format.operation? tag = some operation)
      (hdata : Event.ofJson operation x = .refused faults)
  | note {tag : String} {e : Event} (h : x.field? format.tagField = some (.text tag))
      (hoperation : format.operation? tag = some .note)
      (hdata : Event.ofJson .note x = .accepted e)

def Item.isInert : Item → Bool
  | event _ (.note _) => true
  | event _ _ => false
  | _ => true

theorem Event.ofJson_isNote {operation : Operation} {x : Json} {e : Event}
    (h : Event.ofJson operation x = .accepted e) :
    (∃ n, e = .note n) ↔ operation = .note := by
  cases operation <;> obtain ⟨data, -, rfl⟩ := Checked.map_eq_accepted_iff.1 h <;> simp

theorem Item.isInert_event {tag : String} {e : Event} :
    (Item.event tag e).isInert = true ↔ ∃ n, e = .note n := by
  cases e <;> simp [isInert]

theorem Format.inert_iff {format : Format} {x : Json} :
    format.Inert x ↔ (Item.read format x).isInert = true := by
  constructor
  · intro h
    cases h with
    | notObject h =>
      cases x with
      | object fields => cases h
      | _ => rfl
    | noTag h =>
      simp only [Item.read, h]
      rfl
    | @tagNotText tag h htext =>
      cases tag with
      | text s => exact absurd rfl (htext s)
      | _ =>
        simp only [Item.read, h]
        rfl
    | unknownTag h hoperation =>
      simp only [Item.read, h, hoperation]
      rfl
    | malformed h hoperation hdata =>
      simp only [Item.read, h, hoperation, hdata]
      rfl
    | note h hoperation hdata =>
      simp only [Item.read, h, hoperation, hdata]
      exact Item.isInert_event.2 ((Event.ofJson_isNote hdata).2 rfl)
  · intro h
    cases htag : x.field? format.tagField with
    | none => exact .noTag htag
    | some value =>
      cases value with
      | text tag =>
        cases hoperation : format.operation? tag with
        | none => exact .unknownTag htag hoperation
        | some operation =>
          cases hdata : Event.ofJson operation x with
          | refused faults => exact .malformed htag hoperation hdata
          | accepted e =>
            simp only [Item.read, htag, hoperation, hdata] at h
            obtain rfl := (Event.ofJson_isNote hdata).1 (Item.isInert_event.1 h)
            exact .note htag hoperation hdata
      | _ => exact .tagNotText htag (by simp)

instance (format : Format) : DecidablePred format.Inert :=
  fun _ => decidable_of_iff _ Format.inert_iff.symm

theorem Item.effect_of_isInert {item : Item} (h : item.isInert = true) (format : Format)
    (m : Memory) : item.effect format m = .ok m := by
  cases item with
  | event tag e =>
    obtain ⟨n, rfl⟩ := isInert_event.1 h
    rfl
  | _ => rfl

/-- Without some of its inert elements a run is stopped alike and leaves the same memory, and it has
the steps of the elements that are kept. -/
theorem Run.ofItems_keepAt (format : Format) (locale : Locale) (items : List Item)
    (keep : Nat → Bool) (m : Memory)
    (h : ∀ (i : Nat) item, items[i]? = some item → keep i = false → item.isInert = true) :
    (ofItems format locale (keepAt keep items) m).stopped =
        (ofItems format locale items m).stopped ∧
      (ofItems format locale (keepAt keep items) m).memory =
        (ofItems format locale items m).memory ∧
      (ofItems format locale (keepAt keep items) m).steps =
        keepAt keep (ofItems format locale items m).steps := by
  induction items generalizing keep m with
  | nil => exact ⟨rfl, rfl, rfl⟩
  | cons item rest ih =>
    have hrest := fun m => ih (fun i => keep (i + 1)) m fun i => h (i + 1)
    rw [keepAt_cons]
    cases hkeep : keep 0 with
    | true =>
      simp only [if_true, ofItems]
      cases he : item.effect format m with
      | error e => exact ⟨rfl, rfl, rfl⟩
      | ok after =>
        obtain ⟨hstopped, hmemory, hsteps⟩ := hrest after
        refine ⟨hstopped, hmemory, ?_⟩
        simp only [hsteps, keepAt_cons, hkeep, if_true]
    | false =>
      have he := Item.effect_of_isInert (h 0 item rfl hkeep) format m
      obtain ⟨hstopped, hmemory, hsteps⟩ := hrest m
      simp only [Bool.false_eq_true, if_false, ofItems, he]
      refine ⟨hstopped, hmemory, ?_⟩
      simp only [hsteps, keepAt_cons, hkeep, Bool.false_eq_true, if_false]

/-- When inert elements are deleted from a trace, at any positions, a replayer fails as before or
returns the steps of the other elements exactly as before, and in either case it keeps the same
memory. -/
theorem Replayer.replay_keepAt (r : Replayer) (xs : List Json) (keep : Nat → Bool)
    (h : ∀ (i : Nat) x, xs[i]? = some x → keep i = false → r.format.Inert x) :
    r.replay (.list (keepAt keep xs)) =
      ((r.replay (.list xs)).1.map (keepAt keep), (r.replay (.list xs)).2) := by
  have hitems : ∀ (i : Nat) item, (xs.map (Item.read r.format))[i]? = some item →
      keep i = false → item.isInert = true := by
    intro i item hitem hkeep
    rw [List.getElem?_map, Option.map_eq_some_iff] at hitem
    obtain ⟨x, hx, rfl⟩ := hitem
    exact Format.inert_iff.1 (h i x hx hkeep)
  obtain ⟨hstopped, hmemory, hsteps⟩ :=
    Run.ofItems_keepAt r.format r.locale (xs.map (Item.read r.format)) keep .initial hitems
  rw [keepAt_map] at hstopped hmemory hsteps
  rw [r.replay_list_eq, r.replay_list_eq, Format.replay, Format.replay, Run.outcome, Run.outcome,
    hstopped, hmemory, hsteps]
  cases (Run.ofItems r.format r.locale (xs.map (Item.read r.format)) .initial).stopped <;> rfl

/-- A trace with an element that is no object, one without a tag, one with a tag that is no text, an
unknown tag, a malformed allocation and two notes. -/
def idleTrace : List Json :=
  [.object [("kind", .text "call")], .int 7, .object [("kind", .text "note")],
    .object [("line", .int 3)], .object [("kind", .text "alloc_local"), ("name", .text "x")],
    .object [("kind", .list [])], .object [("kind", .text "local_alloc"), ("name", .text "y")],
    .object [("kind", .text "malloc"), ("bytes", .text "1"), ("sym", .text "x")],
    .object [("kind", .text "malloc"), ("sym", .text "x")],
    .object [("kind", .text "note"), ("text", .text "end")]]

theorem Replayer.replay_keepAt_idleTrace :
    let keep := fun i => i ∉ [1, 3, 5, 7, 9]
    let r : Replayer := ⟨.wasm, .en, .initial⟩
    (keepAt keep idleTrace).length = 5 ∧
      r.replay (.list (keepAt keep idleTrace)) =
        ((r.replay (.list idleTrace)).1.map (keepAt keep), (r.replay (.list idleTrace)).2) := by
  intro keep r
  refine ⟨by decide, Replayer.replay_keepAt r idleTrace keep fun i x hx hkeep => ?_⟩
  have hinert : ∀ i ∈ [1, 3, 5, 7, 9], ∀ x ∈ idleTrace[i]?, Format.wasm.Inert x := by
    decide +kernel
  exact hinert i (Decidable.not_not.1 (of_decide_eq_false hkeep)) x hx

end TraceReplay
