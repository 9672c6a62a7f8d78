import TraceReplay.Json.Basic

/-! # Equality of JSON values

Equality is decided by comparing constructors and, below them, elements and fields in order.
-/

namespace TraceReplay.Json

mutual

def decEq : (x y : Json) → Decidable (x = y)
  | .null, y =>
    match y with
    | .null => isTrue rfl
    | .bool _ | .int _ | .real _ | .text _ | .list _ | .object _ => isFalse nofun
  | .bool a, y =>
    match y with
    | .bool b => decidable_of_iff (a = b) (bool.injEq a b ▸ Iff.rfl)
    | .null | .int _ | .real _ | .text _ | .list _ | .object _ => isFalse nofun
  | .int a, y =>
    match y with
    | .int b => decidable_of_iff (a = b) (int.injEq a b ▸ Iff.rfl)
    | .null | .bool _ | .real _ | .text _ | .list _ | .object _ => isFalse nofun
  | .real a, y =>
    match y with
    | .real b => decidable_of_iff (a = b) (real.injEq a b ▸ Iff.rfl)
    | .null | .bool _ | .int _ | .text _ | .list _ | .object _ => isFalse nofun
  | .text a, y =>
    match y with
    | .text b => decidable_of_iff (a = b) (text.injEq a b ▸ Iff.rfl)
    | .null | .bool _ | .int _ | .real _ | .list _ | .object _ => isFalse nofun
  | .list xs, y =>
    match y with
    | .list ys =>
      have := decEqElements xs ys
      decidable_of_iff (xs = ys) (list.injEq xs ys ▸ Iff.rfl)
    | .null | .bool _ | .int _ | .real _ | .text _ | .object _ => isFalse nofun
  | .object xs, y =>
    match y with
    | .object ys =>
      have := decEqFields xs ys
      decidable_of_iff (xs = ys) (object.injEq xs ys ▸ Iff.rfl)
    | .null | .bool _ | .int _ | .real _ | .text _ | .list _ => isFalse nofun

def decEqElements : (xs ys : List Json) → Decidable (xs = ys)
  | [], [] => isTrue rfl
  | [], _ :: _ | _ :: _, [] => isFalse nofun
  | x :: xs, y :: ys =>
    have := decEq x y
    have := decEqElements xs ys
    decidable_of_iff (x = y ∧ xs = ys) (List.cons.injEq x xs y ys ▸ Iff.rfl)

def decEqFields : (xs ys : List (String × Json)) → Decidable (xs = ys)
  | [], [] => isTrue rfl
  | [], _ :: _ | _ :: _, [] => isFalse nofun
  | (m, x) :: xs, (n, y) :: ys =>
    have := decEq x y
    have := decEqFields xs ys
    decidable_of_iff ((m = n ∧ x = y) ∧ xs = ys) (by simp)

end

instance : DecidableEq Json := decEq

end TraceReplay.Json
