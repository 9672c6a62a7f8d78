import TraceReplay.Proofs.GuardedRequests
import TraceReplay.Tally

/-! # How requests fail

A request fails as one of its parts does: a name without a meaning, a payload without a trace, a
declaration without a frame, a recipe with faults. What holds of these failures holds of all the
failures of the request.
-/

namespace TraceReplay

theorem mapError_map {ε ε' α β : Type} (f : ε → ε') (g : α → β) (x : Except ε α) :
    (g <$> x).mapError f = g <$> x.mapError f := by cases x <;> rfl

theorem mapError_bind {ε ε' α β : Type} (f : ε → ε') (x : Except ε α) (g : α → Except ε β) :
    (x >>= g).mapError f = x.mapError f >>= fun a => (g a).mapError f := by cases x <;> rfl

/-- A computation all of whose failures have a property. -/
def FailsOnly {α : Type} (p : Failure → Prop) (x : Except Failure α) : Prop :=
  ∀ e, x = .error e → p e

namespace FailsOnly

variable {α β : Type} {p : Failure → Prop}

theorem ok (a : α) : FailsOnly p (.ok a) := nofun

theorem error {e : Failure} (h : p e) : FailsOnly p (.error e : Except Failure α) := by
  rintro _ ⟨⟩
  exact h

theorem bind {x : Except Failure α} {f : α → Except Failure β} (hx : FailsOnly p x)
    (hf : ∀ a, FailsOnly p (f a)) : FailsOnly p (x >>= f) := by
  cases x with
  | error e => exact error (hx e rfl)
  | ok a => exact hf a

theorem map {x : Except Failure α} (hx : FailsOnly p x) (f : α → β) : FailsOnly p (f <$> x) := by
  cases x with
  | error e => exact error (hx e rfl)
  | ok a => exact ok (f a)

theorem mapError {ε : Type} {f : ε → Failure} (hf : ∀ e, p (f e)) (x : Except ε α) :
    FailsOnly p (x.mapError f) := by
  cases x with
  | error e => exact error (hf e)
  | ok a => exact ok a

end FailsOnly

variable {p : Failure → Prop}

theorem Mode.failsOnly_ofJson {x : Json} (h : p (.badMode x)) : FailsOnly p (Mode.ofJson x) := by
  cases x with
  | text s =>
    cases hname : all.find? (·.name = s) with
    | none => simpa only [Mode.ofJson, hname] using .error h
    | some mode => simpa only [Mode.ofJson, hname] using .ok mode
  | _ => exact .error h

theorem Locale.failsOnly_ofJson {x : Json} (hunknown : p (.unknownLocale x))
    (hno : p (.noName x.typeName)) : FailsOnly p (Locale.ofJson x) := by
  cases x with
  | text s =>
    cases hcode : all.find? (·.code = s) with
    | none => simpa only [Locale.ofJson, Json.named, hcode] using .error hunknown
    | some locale => simpa only [Locale.ofJson, Json.named, hcode] using .ok locale
  | list xs => exact .error hno
  | object fields => exact .error hno
  | _ => exact .error hunknown

theorem interpret_failsOnly {mode locale : Json} (hmode : p (.badMode mode))
    (hlocale : FailsOnly p (Locale.ofJson locale)) (hpayload : ∀ e, p (.payload e))
    (hframe : ∀ e, p (.noActiveFrame e)) (payload : Json) :
    FailsOnly p (interpret payload mode locale).outcome := by
  rw [outcome_interpret]
  have hrequest : FailsOnly p (Request.ofNames payload mode locale) := by
    unfold Request.ofNames
    apply (Mode.failsOnly_ofJson hmode).bind
    intro mode
    apply (FailsOnly.mapError hpayload _).bind
    intro format
    apply hlocale.bind
    intro locale
    apply (FailsOnly.mapError hpayload _).bind
    intro trace
    exact .ok _
  apply hrequest.bind
  intro request
  exact .mapError hframe _

theorem Recipe.failsOnly_ofValue (h : ∀ faults, p (.invalid faults)) (x : Json) :
    FailsOnly p (Recipe.ofValue x) := by
  cases x with
  | null => exact .ok _
  | _ =>
    simp only [ofValue, check]
    split
    · exact .ok _
    · exact .error (h _)

theorem Recipe.report_failsOnly (hframe : ∀ e, p (.noActiveFrame e)) (locale : Locale)
    (r : Recipe) : FailsOnly p (r.report locale).outcome := by
  rw [outcome_report]
  exact .mapError hframe _

theorem synthesize_failsOnly {locale : Json} (hlocale : FailsOnly p (Locale.ofJson locale))
    (hinvalid : ∀ faults, p (.invalid faults)) (hframe : ∀ e, p (.noActiveFrame e)) (x : Json) :
    FailsOnly p (synthesize x locale).outcome := by
  unfold synthesize
  simp only [Report.outcome_bind, Report.outcome_ofExcept]
  apply (Recipe.failsOnly_ofValue hinvalid x).bind
  intro recipe
  apply hlocale.bind
  intro locale
  exact recipe.report_failsOnly hframe locale

theorem eventStats_failsOnly {mode : Json} (hmode : p (.badMode mode))
    (hpayload : ∀ e, p (.payload e)) (payload : Json) :
    FailsOnly p (eventStats payload mode).outcome := by
  unfold eventStats Mode.stats
  simp only [Report.outcome_bind, Report.outcome_ofExcept]
  apply (Mode.failsOnly_ofJson hmode).bind
  intro mode
  apply (FailsOnly.mapError hpayload _).bind
  intro format
  by_cases htree : isSyntaxTree payload = true
  · rw [if_pos htree]
    exact .ok _
  · rw [if_neg htree]
    simp only [Report.outcome_bind, Report.outcome_ofExcept]
    apply (FailsOnly.mapError hpayload _).bind
    intro xs
    exact .ok _

end TraceReplay
