import Mathlib.Algebra.Order.Field.Rat
import Mathlib.Tactic.NormNum
import TraceReplay.Proofs.Event.Reading

/-! # Source lines

The source line of an event is its `line`, if that is an integer or a floating-point number that is
exactly an integer, and is absent otherwise. It is read by itself: data that differ in their `line`
alone are accepted or refused alike, with the same faults, and what is read from them differs in
nothing but the line.
-/

namespace TraceReplay

namespace Binary64

/-- The number that a finite one is, exactly. -/
def toRat? : Binary64 → Option ℚ
  | finite negative significand exponent =>
    some ((if negative then -(significand : ℚ) else significand) * 2 ^ exponent)
  | _ => none

/-- A quotient is an integer exactly if there is no remainder. -/
theorem div_eq_intCast_iff {num den : ℕ} (h : 0 < den) {n : ℤ} :
    (num : ℚ) / den = n ↔ num % den = 0 ∧ ((num / den : ℕ) : ℤ) = n := by
  have hden : (den : ℚ) ≠ 0 := by exact_mod_cast h.ne'
  rw [div_eq_iff hden]
  constructor
  · intro heq
    have hmul : (num : ℤ) = n * den := by exact_mod_cast heq
    have hdvd : den ∣ num := Int.natCast_dvd_natCast.1 ⟨n, by rw [hmul, mul_comm]⟩
    refine ⟨Nat.mod_eq_zero_of_dvd hdvd, ?_⟩
    rw [Int.natCast_ediv, hmul]
    exact Int.mul_ediv_cancel n (by omega)
  · rintro ⟨hmod, rfl⟩
    exact_mod_cast (Nat.div_mul_cancel (Nat.dvd_of_mod_eq_zero hmod)).symm

theorem descale_magnitude (significand : ℕ) (exponent : ℤ) :
    0 < (descale 2 significand 1 (-exponent)).2 ∧
      ((descale 2 significand 1 (-exponent)).1 : ℚ) / (descale 2 significand 1 (-exponent)).2 =
        significand * 2 ^ exponent := by
  unfold descale
  split
  · next h =>
    obtain ⟨k, rfl⟩ : ∃ k : ℕ, exponent = -k := ⟨(-exponent).toNat, by omega⟩
    simp [div_eq_mul_inv]
  · next h =>
    obtain ⟨k, rfl⟩ : ∃ k : ℕ, exponent = k := ⟨exponent.toNat, by omega⟩
    simp

theorem toInt?_eq_some_iff {x : Binary64} {n : ℤ} :
    x.toInt? = some n ↔ x.toRat? = some (n : ℚ) := by
  cases x with
  | nan => simp [toInt?, toRat?]
  | infinite negative => simp [toInt?, toRat?]
  | finite negative significand exponent =>
    obtain ⟨hden, hvalue⟩ := descale_magnitude significand exponent
    have hquotient (m : ℤ) : (significand : ℚ) * 2 ^ exponent = m ↔ _ :=
      hvalue ▸ div_eq_intCast_iff hden
    cases negative with
    | false => simp [toInt?, toRat?, hquotient]
    | true =>
      have hnegated := hquotient (-n)
      rw [Int.cast_neg] at hnegated
      simp [toInt?, toRat?, neg_eq_iff_eq_neg, hnegated]

end Binary64

namespace Checked

variable {α β γ : Type}

theorem map_map (f : β → γ) (g : α → β) (x : Checked α) : f <$> g <$> x = (f ∘ g) <$> x := by
  cases x <;> rfl

theorem map_seq (f : β → γ) (g : Checked (α → β)) (x : Checked α) :
    f <$> (g <*> x) = ((f ∘ ·) <$> g) <*> x := by
  cases g <;> cases x <;> rfl

end Checked

/-- The event with another line. -/
def Event.withLine (line : Option Int) : Event → Event
  | enter e => enter { e with line }
  | exit e => exit { e with line }
  | declare e => declare { e with line }
  | assign e => assign { e with line }
  | allocate e => allocate { e with line }
  | release e => release { e with line }
  | store e => store { e with line }
  | storeByte e => storeByte { e with line }
  | output e => output { e with line }
  | note e => note { e with line }

@[simp] theorem Event.line_withLine (line : Option Int) (e : Event) :
    (e.withLine line).line = line := by
  cases e <;> rfl

def Event.fieldNames : List String :=
  ["line", "fn", "name", "vtype", "size", "value", "sizeBytes", "sym", "label", "bytes", "addr",
    "offset", "byte", "text"]

theorem Field.object_eq {α : Type} (check : Json → Checked α) (x : Json) :
    object check x = if x.isObject then check x else .refuse .notObject := by
  cases x <;> rfl

theorem Event.ofJson_of_not_isObject {operation : Operation} {x : Json}
    (h : x.isObject = false) : ofJson operation x = .refuse .notObject := by
  cases x with
  | object fields => cases h
  | _ => cases operation <;> rfl

/-- Two values agree in all fields from which events are read, but maybe in the line. -/
structure Json.SameBesideLine (x y : Json) : Prop where
  isObject : y.isObject = x.isObject
  field? : ∀ name ∈ Event.fieldNames, name ≠ "line" → y.field? name = x.field? name

namespace Json.SameBesideLine

variable {x y : Json} {α : Type}

theorem refl (x : Json) : SameBesideLine x x := ⟨rfl, fun _ _ _ => rfl⟩

theorem address? (h : SameBesideLine x y) : Field.address? y = Field.address? x := by
  rw [Field.address?, Field.address?, h.field? "addr" (by decide) (by decide)]

theorem firstOf (h : SameBesideLine x y) {names : List String}
    (hnames : ∀ name ∈ names, name ∈ Event.fieldNames ∧ name ≠ "line") (value : α)
    (check : Json → Checked α) :
    Field.firstOf names value check y = Field.firstOf names value check x := by
  induction names with
  | nil => rfl
  | cons name rest ih =>
    obtain ⟨⟨hname, hline⟩, hrest⟩ := List.forall_mem_cons.1 hnames
    rw [Field.firstOf, Field.firstOf, h.field? name hname hline, ih hrest]

theorem withDefault (h : SameBesideLine x y) {name : String}
    (hname : name ∈ Event.fieldNames ∧ name ≠ "line") (value : α) (check : Json → Checked α) :
    Field.withDefault name value check y = Field.withDefault name value check x :=
  h.firstOf (fun _ hn => List.mem_singleton.1 hn ▸ hname) value check

theorem required (h : SameBesideLine x y) {name : String}
    (hname : name ∈ Event.fieldNames ∧ name ≠ "line") (check : Json → Checked α) :
    Field.required name check y = Field.required name check x := by
  rw [Field.required, Field.required, h.field? name hname.1 hname.2]

/-- What is read is the same event with the other line, or refused for the same faults. -/
theorem event_ofJson (h : SameBesideLine x y) (operation : Operation) :
    Event.ofJson operation y = Event.withLine (Field.line? y) <$> Event.ofJson operation x := by
  by_cases hx : x.isObject = true
  · cases operation <;>
      simp (disch := decide) only [Event.ofJson, Call.ofJson, Declaration.ofJson,
        Assignment.ofJson, Allocation.ofJson, Release.ofJson, Store.ofJson, ByteStore.ofJson,
        Output.ofJson, Note.ofJson, Field.object_eq, h.isObject, hx, if_true, h.address?,
        h.required, h.withDefault, h.firstOf, Checked.map_map, Checked.map_seq] <;>
      rfl
  · have hy : y.isObject = false := h.isObject.trans (Bool.eq_false_iff.2 hx)
    rw [Event.ofJson_of_not_isObject hy, Event.ofJson_of_not_isObject (Bool.eq_false_iff.2 hx)]
    rfl

end Json.SameBesideLine

/-- The line that has been read with an event is the line of the data. -/
theorem Event.line_of_ofJson {operation : Operation} {x : Json} {e : Event}
    (h : ofJson operation x = .accepted e) : e.line = Field.line? x := by
  have hread := (Json.SameBesideLine.refl x).event_ofJson operation
  rw [h, Checked.map_accepted] at hread
  rw [Checked.accepted.inj hread, line_withLine]

/-- The `line` of a value is an integer, or a floating-point number that is exactly an integer. -/
inductive Json.HasLine (x : Json) (n : ℤ) : Prop
  | int (h : x.field? "line" = some (.int n))
  | real {r : Binary64} (h : x.field? "line" = some (.real r)) (hr : r.toRat? = some (n : ℚ))

theorem Field.line?_eq_some_iff {x : Json} {n : ℤ} : line? x = some n ↔ x.HasLine n := by
  constructor
  · intro h
    obtain ⟨v, hv, hline⟩ := Option.bind_eq_some_iff.1 h
    cases v with
    | int m =>
      cases hline
      exact .int hv
    | real r => exact .real hv (Binary64.toInt?_eq_some_iff.1 hline)
    | _ => cases hline
  · rintro (h | ⟨h, hr⟩)
    · rw [line?, h]
      rfl
    · rw [line?, h]
      exact Binary64.toInt?_eq_some_iff.2 hr

end TraceReplay
