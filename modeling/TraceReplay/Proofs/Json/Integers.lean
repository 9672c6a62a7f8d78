import Mathlib.Data.List.Basic
import Mathlib.Data.List.TakeDrop
import TraceReplay.Json.Reader

/-! # Integers in JSON text

An integer is written as its decimal numeral, which is read back as the integer, provided that what
follows cannot continue a number: the end of the text, or any character but a digit, a point and
the mark of an exponent.
-/

namespace TraceReplay.Json

def continuesNumber (c : Char) : Bool := c.isDigit || c == '.' || c == 'e' || c == 'E'

/-- Whether a text cannot continue a number. -/
def EndsNumber (cs : List Char) : Prop := ∀ c ∈ cs.head?, continuesNumber c = false

namespace EndsNumber

variable {rest : List Char}

theorem not_isDigit {c : Char} (h : EndsNumber (c :: rest)) : c.isDigit = false := by
  have hc := h c rfl
  simp only [continuesNumber, Bool.or_eq_false_iff] at hc
  exact hc.1.1.1

theorem takeWhile_isDigit (h : EndsNumber rest) : rest.takeWhile Char.isDigit = [] := by
  cases rest with
  | nil => rfl
  | cons c cs => exact List.takeWhile_cons_of_neg (by simp [h.not_isDigit])

theorem dropWhile_isDigit (h : EndsNumber rest) : rest.dropWhile Char.isDigit = rest := by
  cases rest with
  | nil => rfl
  | cons c cs => exact List.dropWhile_cons_of_neg (by simp [h.not_isDigit])

theorem fractionDigits?_eq_none (h : EndsNumber rest) : fractionDigits? rest = none := by
  unfold fractionDigits?
  split
  · next cs => exact absurd (h '.' rfl) (by decide)
  · rfl

theorem exponent?_eq_none (h : EndsNumber rest) : exponent? rest = none := by
  cases rest with
  | nil => rfl
  | cons c cs =>
    have hc := h c rfl
    simp only [continuesNumber, Bool.or_eq_false_iff] at hc
    simp [exponent?, hc.1.2, hc.2]

end EndsNumber

theorem isDigit_of_mem_toDigits {n : Nat} {c : Char} (h : c ∈ Nat.toDigits 10 n) :
    c.isDigit = true :=
  Nat.isDigit_of_mem_toDigits (by decide) (by decide) h

theorem decimalValue_toDigits (n : Nat) : decimalValue (Nat.toDigits 10 n) = n := by
  rw [decimalValue, Numeral.plain?_toDigits (by decide) (by decide)]
  rfl

theorem wholeDigits?_toDigits (n : Nat) {rest : List Char} (h : EndsNumber rest) :
    wholeDigits? (Nat.toDigits 10 n ++ rest) = some (Nat.toDigits 10 n, rest) := by
  by_cases hn : n = 0
  · subst hn
    rfl
  · have hspan : (Nat.toDigits 10 n ++ rest).span Char.isDigit = (Nat.toDigits 10 n, rest) := by
      have hdigits : ∀ c ∈ Nat.toDigits 10 n, c.isDigit = true := fun _ => isDigit_of_mem_toDigits
      rw [List.span_eq_takeWhile_dropWhile, List.takeWhile_append_of_pos hdigits,
        List.dropWhile_append_of_pos hdigits, h.takeWhile_isDigit, h.dropWhile_isDigit,
        List.append_nil]
    have hhead : (Nat.toDigits 10 n).head? ≠ some '0' :=
      Numeral.head?_toDigits_ne (by decide) hn
    cases hds : Nat.toDigits 10 n with
    | nil => exact absurd hds Nat.toDigits_ne_nil
    | cons d ds =>
      have hzero : d ≠ '0' := by simpa [hds] using hhead
      rw [hds, List.cons_append] at hspan
      rw [List.cons_append, wholeDigits?, hspan]
      intro cs hcs
      exact hzero (List.cons.inj hcs).1

theorem unsigned?_toDigits (negative : Bool) (n : Nat) {rest : List Char} (h : EndsNumber rest) :
    unsigned? negative (Nat.toDigits 10 n ++ rest) =
      some (.int (if negative then -(n : Int) else n), rest) := by
  rw [unsigned?, wholeDigits?_toDigits n h]
  simp [h.fractionDigits?_eq_none, h.exponent?_eq_none, decimalValue_toDigits]

theorem scalar_digit {d : Char} {cs : List Char} (hd : d.isDigit = true)
    {result : Json × List Char} (hread : unsigned? false (d :: cs) = some result) :
    scalar (d :: cs) = .ok result := by
  unfold scalar
  split <;> simp_all

theorem scalar_minus {d : Char} {cs : List Char} (hd : d.isDigit = true)
    {result : Json × List Char} (hread : unsigned? true (d :: cs) = some result) :
    scalar ('-' :: d :: cs) = .ok result := by
  unfold scalar
  split <;> simp_all

/-- The numeral of an integer: a minus sign if it is negative, and the numeral of its magnitude,
which starts with a digit. -/
theorem toList_repr (n : Int) : ∃ d ds, d.isDigit = true ∧ Nat.toDigits 10 n.natAbs = d :: ds ∧
    n.repr.toList = if n < 0 then '-' :: d :: ds else d :: ds := by
  cases hds : Nat.toDigits 10 n.natAbs with
  | nil => exact absurd hds Nat.toDigits_ne_nil
  | cons d ds =>
    refine ⟨d, ds, isDigit_of_mem_toDigits (hds ▸ List.mem_cons_self), rfl, ?_⟩
    rw [Int.repr_eq_if]
    by_cases hn : n < 0
    · have hnat : (-n).toNat = n.natAbs := by omega
      rw [if_neg (by omega), if_pos hn, String.toList_append, Nat.toList_repr, hnat, hds]
      rfl
    · have hnat : n.toNat = n.natAbs := by omega
      rw [if_pos (by omega), if_neg hn, Nat.toList_repr, hnat, hds]

/-- The numeral of an integer is read back. -/
theorem scalar_repr (n : Int) {rest : List Char} (h : EndsNumber rest) :
    scalar (n.repr.toList ++ rest) = .ok (.int n, rest) := by
  obtain ⟨d, ds, hd, hds, hrepr⟩ := toList_repr n
  have hread := fun negative => unsigned?_toDigits negative n.natAbs h
  simp only [hds, List.cons_append] at hread
  rw [hrepr]
  by_cases hn : n < 0
  · have hvalue : -(n.natAbs : Int) = n := by omega
    rw [if_pos hn]
    exact (scalar_minus hd (hread true)).trans (by simp only [if_true, hvalue])
  · have hvalue : (n.natAbs : Int) = n := by omega
    rw [if_neg hn]
    refine (scalar_digit hd (hread false)).trans ?_
    simp only [Bool.false_eq_true, if_false, hvalue]

end TraceReplay.Json
