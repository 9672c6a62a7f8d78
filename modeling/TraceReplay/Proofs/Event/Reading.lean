import TraceReplay.Event.Basic

/-! # Reading events

What is known of the data of an event once they are accepted. An event of a kind comes from the
operation of that kind; a field that may be absent or null has passed its check if it has a value,
and so the size of an allocation is within its limit.
-/

namespace TraceReplay

namespace Checked

variable {α β : Type}

theorem within_eq_accepted_iff {step : PathStep} {x : Checked α} {a : α} :
    x.within step = .accepted a ↔ x = .accepted a := by
  cases x <;> simp [within]

theorem andThen_eq_accepted_iff {x : Checked α} {f : α → Checked β} {b : β} :
    x.andThen f = .accepted b ↔ ∃ a, x = .accepted a ∧ f a = .accepted b := by
  cases x <;> simp [andThen]

end Checked

namespace Field

variable {α : Type} {check : Json → Checked α} {x : Json}

theorem naturalUpTo_le {limit n : Nat} (h : naturalUpTo limit x = .accepted n) : n ≤ limit := by
  obtain ⟨m, -, hm⟩ := Checked.andThen_eq_accepted_iff.1 h
  by_cases hlt : limit < m
  · rw [if_pos hlt] at hm
    cases hm
  · rw [if_neg hlt] at hm
    cases hm
    exact Nat.not_lt.1 hlt

theorem nullable_eq_some {a : α} (h : nullable check x = .accepted (some a)) :
    check x = .accepted a := by
  cases x with
  | null => cases h
  | _ =>
    obtain ⟨b, hb, hsome⟩ := Checked.map_eq_accepted_iff.1 h
    cases hsome
    exact hb

theorem firstOf_eq_accepted {names : List String} {value a : α}
    (h : firstOf names value check x = .accepted a) :
    a = value ∨ ∃ name ∈ names, ∃ v, x.field? name = some v ∧ check v = .accepted a := by
  induction names with
  | nil =>
    cases h
    exact .inl rfl
  | cons name rest ih =>
    rw [firstOf] at h
    cases hv : x.field? name with
    | some v =>
      rw [hv] at h
      exact .inr ⟨name, List.mem_cons_self, v, hv, Checked.within_eq_accepted_iff.1 h⟩
    | none =>
      rw [hv] at h
      rcases ih h with hvalue | ⟨other, hother, found⟩
      · exact .inl hvalue
      · exact .inr ⟨other, List.mem_cons_of_mem name hother, found⟩

end Field

namespace Event

variable {operation : Operation} {x : Json}

theorem ofJson_eq_exit {c : Call} :
    ofJson operation x = .accepted (.exit c) ↔ operation = .exit ∧ Call.ofJson x = .accepted c := by
  cases operation <;> simp [ofJson, Checked.map_eq_accepted_iff]

theorem ofJson_eq_declare {d : Declaration} :
    ofJson operation x = .accepted (.declare d) ↔
      operation = .declare ∧ Declaration.ofJson x = .accepted d := by
  cases operation <;> simp [ofJson, Checked.map_eq_accepted_iff]

theorem ofJson_eq_allocate {a : Allocation} :
    ofJson operation x = .accepted (.allocate a) ↔
      operation = .allocate ∧ Allocation.ofJson x = .accepted a := by
  cases operation <;> simp [ofJson, Checked.map_eq_accepted_iff]

end Event

theorem Allocation.size_le {x : Json} {a : Allocation} (h : Allocation.ofJson x = .accepted a)
    {n : Nat} (hn : a.size = some n) : n ≤ maxBlockSize := by
  have hfields := (Field.object_eq_accepted h).2
  simp only [Checked.seq_eq_accepted_iff, Checked.map_eq_accepted_iff] at hfields
  obtain ⟨_, bytes, ⟨_, label, ⟨_, sym, ⟨size, hsize, rfl⟩, -, rfl⟩, -, rfl⟩, -, rfl⟩ := hfields
  rcases Field.firstOf_eq_accepted hsize with rfl | ⟨name, -, v, -, hv⟩
  · cases hn
  · cases hn
    exact Field.naturalUpTo_le (Field.nullable_eq_some hv)

end TraceReplay
