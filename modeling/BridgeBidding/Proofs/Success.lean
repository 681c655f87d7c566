import BridgeBidding.Value

/-!
# Steps that succeed

A chain of steps that can fail succeeds exactly when every step does, and renaming the error of a
step changes nothing about its success.  A chain fails only as one of its steps does.
-/

set_option autoImplicit false
set_option relaxedAutoImplicit false

namespace BridgeBidding.Success

variable {ε δ α β : Type}

theorem bind_eq_ok_iff {step : Except ε α} {next : α → Except ε β} {result : β} :
    (step >>= next) = .ok result ↔ ∃ value, step = .ok value ∧ next value = .ok result := by
  cases step <;> simp [bind, Except.bind]

@[simp] theorem ok_bind (value : α) (next : α → Except ε β) :
    (Except.ok value >>= next) = next value := rfl

@[simp] theorem error_bind (error : ε) (next : α → Except ε β) :
    (Except.error error >>= next) = .error error := rfl

@[simp] theorem pure_eq_ok (value : α) : (pure value : Except ε α) = .ok value := rfl

@[simp] theorem ok_mapError (value : α) (rename : ε → δ) :
    (Except.ok value).mapError rename = .ok value := rfl

@[simp] theorem error_mapError (error : ε) (rename : ε → δ) :
    (Except.error error : Except ε α).mapError rename = .error (rename error) := rfl

theorem mapError_eq_ok_iff {step : Except ε α} {rename : ε → δ} {value : α} :
    step.mapError rename = .ok value ↔ step = .ok value := by
  cases step with
  | ok other => rw [ok_mapError]; simp
  | error error => rw [error_mapError]; simp

theorem bind_eq_error_iff {step : Except ε α} {next : α → Except ε β} {error : ε} :
    (step >>= next) = .error error ↔
      step = .error error ∨ ∃ value, step = .ok value ∧ next value = .error error := by
  cases step <;> simp [bind, Except.bind]

theorem mapError_eq_error_iff {step : Except ε α} {rename : ε → δ} {error : δ} :
    step.mapError rename = .error error ↔ ∃ inner, step = .error inner ∧ rename inner = error := by
  cases step with
  | ok other => rw [ok_mapError]; simp
  | error other => rw [error_mapError]; simp

/-- A chain of steps fails in no way in which no step fails. -/
theorem bind_ne_error {step : Except ε α} {next : α → Except ε β} {error : ε}
    (hstep : step ≠ .error error) (hnext : ∀ value, next value ≠ .error error) :
    (step >>= next) ≠ .error error := by
  cases step with
  | ok value => exact hnext value
  | error other => exact fun h ↦ hstep (congrArg Except.error (Except.error.inj h))

theorem mapError_ne_error {step : Except ε α} {rename : ε → δ} {error : δ}
    (hrename : ∀ inner, rename inner ≠ error) : step.mapError rename ≠ .error error := by
  cases step with
  | ok value => exact nofun
  | error inner => exact fun h ↦ hrename inner (Except.error.inj h)

end BridgeBidding.Success
