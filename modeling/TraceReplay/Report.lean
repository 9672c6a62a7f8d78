import TraceReplay.Failure
import TraceReplay.Journal

/-! # Reports

A computation that keeps a journal and may fail. The journal of a failed computation holds what
happened up to the failure.
-/

namespace TraceReplay

structure Report (α : Type) where
  journal : List Journal.Entry
  outcome : Except Failure α

namespace Report

variable {α β : Type}

def ofExcept (outcome : Except Failure α) : Report α := ⟨[], outcome⟩

def log (entry : Journal.Entry) : Report Unit := ⟨[entry], .ok ()⟩

def andThen (r : Report α) (f : α → Report β) : Report β :=
  match r.outcome with
  | .error e => ⟨r.journal, .error e⟩
  | .ok a => ⟨r.journal ++ (f a).journal, (f a).outcome⟩

instance : Monad Report where
  pure a := ⟨[], .ok a⟩
  bind := andThen

@[simp] theorem outcome_pure (a : α) : (pure a : Report α).outcome = .ok a := rfl

@[simp] theorem outcome_ofExcept (x : Except Failure α) : (ofExcept x).outcome = x := rfl

@[simp] theorem outcome_log (e : Journal.Entry) : (log e).outcome = .ok () := rfl

/-- The outcome of a sequence does not depend on the journals. -/
@[simp] theorem outcome_bind (r : Report α) (f : α → Report β) :
    (r >>= f).outcome = r.outcome.bind fun a => (f a).outcome := by
  change (andThen r f).outcome = _
  unfold andThen
  cases r.outcome <;> rfl

@[simp] theorem outcome_map (f : α → β) (r : Report α) : (f <$> r).outcome = f <$> r.outcome := by
  change (andThen r fun a => pure (f a)).outcome = _
  unfold andThen
  cases r.outcome <;> rfl

end Report

end TraceReplay
