/-! # Checked values

Checking data yields either a value or the faults of the data, each with its place. Two checks
side by side report the faults of both, in order; a place is the path of field names and list
positions that leads to it.
-/

namespace TraceReplay

namespace Checked

inductive PathStep where
  | field (name : String)
  | position (index : Nat)
  deriving DecidableEq

inductive Defect where
  | missing
  | notObject
  | notText
  | notList
  | notInteger
  | notNumeral
  | tooLarge
  | hasFraction
  | notFinite
  | belowMinimum
  | aboveMaximum
  deriving DecidableEq

structure Fault where
  path : List PathStep
  defect : Defect
  deriving DecidableEq

end Checked

inductive Checked (α : Type) where
  | accepted (value : α)
  | refused (faults : List Checked.Fault)
  deriving DecidableEq

namespace Checked

variable {α β : Type}

def refuse (defect : Defect) : Checked α := .refused [⟨[], defect⟩]

def faults : Checked α → List Fault
  | accepted _ => []
  | refused fs => fs

/-- Apply a checked function; the faults of the function come first. -/
def seq (f : Checked (α → β)) (x : Unit → Checked α) : Checked β :=
  match f, x () with
  | accepted g, accepted a => accepted (g a)
  | f, x => refused (f.faults ++ x.faults)

instance : Applicative Checked where
  pure := accepted
  seq := seq

def andThen (x : Checked α) (f : α → Checked β) : Checked β :=
  match x with
  | accepted a => f a
  | refused fs => refused fs

def within (step : PathStep) : Checked α → Checked α
  | accepted a => accepted a
  | refused fs => refused (fs.map fun f => { f with path := step :: f.path })

/-- Check all elements of a list, the first of which has position `index`. -/
def elements (check : α → Checked β) (index : Nat) : List α → Checked (List β)
  | [] => pure []
  | x :: xs =>
    (List.cons <$> (check x).within (.position index)) <*> elements check (index + 1) xs

@[simp] theorem map_accepted (f : α → β) (a : α) : f <$> accepted a = accepted (f a) := rfl

@[simp] theorem map_refused (f : α → β) (fs : List Fault) : f <$> (refused fs) = refused fs := rfl

@[simp] theorem seq_accepted (f : α → β) (a : α) : accepted f <*> accepted a = accepted (f a) := rfl

theorem map_eq_accepted_iff {f : α → β} {x : Checked α} {b : β} :
    f <$> x = accepted b ↔ ∃ a, x = accepted a ∧ f a = b := by
  cases x <;> simp

theorem seq_eq_accepted_iff {f : Checked (α → β)} {x : Checked α} {b : β} :
    f <*> x = accepted b ↔ ∃ g a, f = accepted g ∧ x = accepted a ∧ g a = b := by
  cases f <;> cases x <;> simp [Seq.seq, seq]

end Checked

end TraceReplay
