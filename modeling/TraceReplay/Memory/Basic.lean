import TraceReplay.Value

/-! # Simulated memory

The memory of a traced program: a stack of frames with local variables, a heap of blocks, the text
written so far, and the two cursors from which addresses are handed out. The stack cursor only
moves down and the heap cursor only moves up. The innermost frame comes first in the list.
-/

namespace TraceReplay

structure Variable where
  name : String
  type : String
  address : Int
  size : Int
  value : Value
  deriving DecidableEq

structure Frame where
  name : String
  locals : List Variable
  deriving DecidableEq

/-- A block of the heap. A byte is `none` once it has been erased. -/
structure HeapBlock where
  address : Int
  size : Int
  bytes : List (Option Int)
  freed : Bool
  label : String
  deriving DecidableEq

structure Memory where
  frames : List Frame
  heap : List HeapBlock
  output : String
  stackCursor : Int
  heapCursor : Int
  deriving DecidableEq

/-- What can be seen of a memory: its frames from the outermost to the innermost, its heap and its
output. -/
structure Snapshot where
  stack : List Frame
  heap : List HeapBlock
  output : String
  deriving DecidableEq

namespace Memory

/-- The address below which the stack grows. -/
def stackTop : Int := 0x7fffe000

/-- The address from which the heap grows. -/
def heapBase : Int := 0x10000000

/-- The least distance between two addresses handed out by one cursor. -/
def minSlot : Int := 4

def initial : Memory := ⟨[], [], "", stackTop, heapBase⟩

instance : Inhabited Memory := ⟨initial⟩

def slot (size : Int) : Int := max minSlot size

def snapshot (m : Memory) : Snapshot := ⟨m.frames.reverse, m.heap, m.output⟩

def emit (text : String) (m : Memory) : Memory := { m with output := m.output ++ text }

end Memory

/-- Change the first element that satisfies a predicate. -/
def updateFirst {α : Type} (p : α → Bool) (f : α → α) : List α → List α
  | [] => []
  | x :: xs => if p x then f x :: xs else x :: updateFirst p f xs

theorem updateFirst_of_forall_not {α : Type} {p : α → Bool} (f : α → α) {xs : List α}
    (h : ∀ x ∈ xs, p x = false) : updateFirst p f xs = xs := by
  induction xs with
  | nil => rfl
  | cons x xs ih =>
    simp [updateFirst, h x (by simp), ih fun y hy => h y (by simp [hy])]

/-- The element that was found is the one that is changed. -/
theorem find?_updateFirst {α : Type} {p : α → Bool} {f : α → α}
    (hf : ∀ x, p x = true → p (f x) = true) (xs : List α) :
    (updateFirst p f xs).find? p = (xs.find? p).map f := by
  induction xs with
  | nil => rfl
  | cons x xs ih =>
    by_cases h : p x
    · simp [updateFirst, h, hf x h]
    · simp [updateFirst, h, ih]

/-- What another predicate looks for is found as before, if the change concerns none of it. -/
theorem find?_updateFirst_of_apart {α : Type} {p q : α → Bool} {f : α → α}
    (hp : ∀ x, p x = true → q x = false) (hf : ∀ x, p x = true → q (f x) = false) (xs : List α) :
    (updateFirst p f xs).find? q = xs.find? q := by
  induction xs with
  | nil => rfl
  | cons x xs ih =>
    by_cases h : p x
    · simp [updateFirst, h, hp x h, hf x h]
    · simp [updateFirst, h, List.find?_cons, ih]

theorem forall_mem_updateFirst {α : Type} {p : α → Bool} {f : α → α} {P : α → Prop} {xs : List α}
    (hf : ∀ x, p x = true → P x → P (f x)) (h : ∀ x ∈ xs, P x) : ∀ x ∈ updateFirst p f xs, P x := by
  induction xs with
  | nil => exact h
  | cons x xs ih =>
    have hx : P x := h x (by simp)
    have hxs : ∀ y ∈ xs, P y := fun y hy => h y (by simp [hy])
    by_cases hp : p x
    · rw [updateFirst, if_pos hp]
      exact List.forall_mem_cons.2 ⟨hf x hp hx, hxs⟩
    · rw [updateFirst, if_neg hp]
      exact List.forall_mem_cons.2 ⟨hx, ih hxs⟩

/-- Every element stays in its place, and at most one that satisfies the predicate is changed. -/
theorem getElem?_updateFirst {α : Type} {p : α → Bool} (f : α → α) {xs : List α} {i : Nat} {x : α}
    (h : xs[i]? = some x) :
    (updateFirst p f xs)[i]? = some x ∨ p x = true ∧ (updateFirst p f xs)[i]? = some (f x) := by
  induction xs generalizing i with
  | nil => cases h
  | cons y ys ih =>
    by_cases hp : p y
    · rw [updateFirst, if_pos hp]
      cases i with
      | zero =>
        cases h
        exact .inr ⟨hp, rfl⟩
      | succ i => exact .inl h
    · rw [updateFirst, if_neg hp]
      cases i with
      | zero => exact .inl h
      | succ i => exact ih h

theorem map_updateFirst {α β : Type} {f : α → α} {g : α → β} (hf : ∀ x, g (f x) = g x)
    (p : α → Bool) (xs : List α) : (updateFirst p f xs).map g = xs.map g := by
  induction xs with
  | nil => rfl
  | cons x xs ih => by_cases hp : p x <;> simp [updateFirst, hp, hf, ih]

/-- Only the change of the element that is found matters. -/
theorem updateFirst_congr {α : Type} {p : α → Bool} {f g : α → α} {xs : List α}
    (h : ∀ x, xs.find? p = some x → f x = g x) : updateFirst p f xs = updateFirst p g xs := by
  induction xs with
  | nil => rfl
  | cons x xs ih =>
    by_cases hp : p x
    · simp [updateFirst, hp, h x (by simp [hp])]
    · have hxs : updateFirst p f xs = updateFirst p g xs := ih fun y hy => h y (by simp [hp, hy])
      simp [updateFirst, hp, hxs]

theorem updateFirst_id {α : Type} (p : α → Bool) (xs : List α) : updateFirst p id xs = xs := by
  induction xs with
  | nil => rfl
  | cons x xs ih => by_cases hp : p x <;> simp [updateFirst, hp, ih]

theorem updateFirst_updateFirst {α : Type} {p : α → Bool} {f : α → α}
    (hf : ∀ x, p x = true → p (f x) = true) (g : α → α) (xs : List α) :
    updateFirst p g (updateFirst p f xs) = updateFirst p (g ∘ f) xs := by
  induction xs with
  | nil => rfl
  | cons x xs ih =>
    by_cases hp : p x
    · simp [updateFirst, hp, hf x hp]
    · simp [updateFirst, hp, ih]

/-- An element that is looked for by a key is found if no two elements share the key. -/
theorem find?_eq_some_of_nodup {α β : Type} {key : α → β} {p : α → Bool} {x : α} {xs : List α}
    (hn : (xs.map key).Nodup) (hx : x ∈ xs) (hp : p x = true)
    (hk : ∀ y ∈ xs, p y = true → key y = key x) : xs.find? p = some x := by
  induction xs with
  | nil => cases hx
  | cons y ys ih =>
    rw [List.map_cons, List.nodup_cons] at hn
    rcases List.mem_cons.1 hx with rfl | hys
    · exact List.find?_cons_of_pos hp
    · have hy : ¬ p y = true := by
        intro h
        apply hn.1
        rw [hk y (by simp) h]
        exact List.mem_map_of_mem hys
      rw [List.find?_cons_of_neg hy]
      exact ih hn.2 hys fun z hz => hk z (by simp [hz])

theorem find?_updateFirst_eq_none {α β : Type} {key : α → β} {p : α → Bool} {f : α → α}
    {xs : List α} (hn : (xs.map key).Nodup) (hf : ∀ x, p (f x) = false)
    (hkey : ∀ x y, p x = true → p y = true → key x = key y) :
    (updateFirst p f xs).find? p = none := by
  induction xs with
  | nil => rfl
  | cons x xs ih =>
    rw [List.map_cons, List.nodup_cons] at hn
    by_cases hx : p x = true
    · have hxs : ∀ y ∈ xs, ¬ p y = true := by
        intro y hy hp
        apply hn.1
        rw [hkey x y hx hp]
        exact List.mem_map_of_mem hy
      rw [updateFirst, if_pos hx, List.find?_cons_of_neg (by simp [hf x])]
      exact List.find?_eq_none.2 hxs
    · rw [updateFirst, if_neg hx, List.find?_cons_of_neg hx]
      exact ih hn.2

/-- If no two elements share the key, the change is made at the position of the element that is
looked for. -/
theorem updateFirst_eq_set {α β : Type} {key : α → β} {p : α → Bool} (f : α → α) {x : α}
    {xs : List α} {k : Nat} (hn : (xs.map key).Nodup) (hk : xs[k]? = some x) (hp : p x = true)
    (hkey : ∀ y ∈ xs, p y = true → key y = key x) : updateFirst p f xs = xs.set k (f x) := by
  induction xs generalizing k with
  | nil => cases hk
  | cons y ys ih =>
    rw [List.map_cons, List.nodup_cons] at hn
    cases k with
    | zero =>
      cases hk
      rw [updateFirst, if_pos hp, List.set_cons_zero]
    | succ k =>
      have hxs : x ∈ ys := List.mem_of_getElem? hk
      have hy : ¬ p y = true := by
        intro h
        apply hn.1
        rw [hkey y (by simp) h]
        exact List.mem_map_of_mem hxs
      rw [updateFirst, if_neg hy, List.set_cons_succ]
      rw [ih hn.2 hk fun z hz => hkey z (by simp [hz])]

end TraceReplay
