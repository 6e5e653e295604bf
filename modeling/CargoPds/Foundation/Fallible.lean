import Mathlib.Algebra.Order.Ring.Int
import Mathlib.Logic.Basic

/-!
# Fallible computations

The code reports failure by an early `return err`.  It is modelled in
`Except`, with `rejectIf` for the guard `if refused { return err }`.  The
lemmas below invert a successful computation one statement at a time, so that
no later proof unfolds the monad.
-/

namespace CargoPds
namespace Fallible

variable {ε ε' α β : Type}
variable {x : Except ε α} {refused : Prop} {f : α → Except ε β} {err : ε}

/-- The guard `if refused { return err }`. -/
def rejectIf (refused : Prop) [Decidable refused] (err : ε) : Except ε Unit :=
  if refused then .error err else .ok ()

/-- Replace the error of a failed computation, as `if err != nil { return other }`. -/
def orElseError (x : Except ε α) (err : ε') : Except ε' α :=
  match x with
  | .ok value => .ok value
  | .error _ => .error err

@[simp] theorem rejectIf_eq_ok [Decidable refused] {u : Unit} :
    rejectIf refused err = .ok u ↔ ¬ refused := by
  unfold rejectIf
  split <;> simp_all

theorem rejectIf_of_not [Decidable refused] (err : ε) (h : ¬ refused) :
    rejectIf refused err = .ok () :=
  rejectIf_eq_ok.mpr h

theorem rejectIf_of [Decidable refused] (err : ε) (h : refused) :
    rejectIf refused err = .error err :=
  if_pos h

@[simp] theorem orElseError_eq_ok {err : ε'} {value : α} :
    orElseError x err = .ok value ↔ x = .ok value := by
  cases x <;> simp [orElseError]

/-- A sequence succeeds exactly when both of its parts do. -/
@[simp] theorem bind_eq_ok {b : β} :
    (x >>= f) = .ok b ↔ ∃ a, x = .ok a ∧ f a = .ok b := by
  cases x with
  | error err => simp [bind, Except.bind]
  | ok value => simp [bind, Except.bind]

/-- A sequence fails with the error of the first part that fails. -/
theorem bind_eq_error :
    (x >>= f) = .error err ↔ x = .error err ∨ ∃ a, x = .ok a ∧ f a = .error err := by
  cases x with
  | error err => simp [bind, Except.bind]
  | ok value => simp [bind, Except.bind]

theorem rejectIf_eq_error [Decidable refused] {err' : ε} :
    rejectIf refused err = .error err' ↔ refused ∧ err = err' := by
  unfold rejectIf
  split <;> simp_all

@[simp] theorem pure_eq_ok {a b : α} : (pure a : Except ε α) = .ok b ↔ a = b := by
  simp [pure, Except.pure]

theorem map_eq_ok {f : α → β} {b : β} :
    x.map f = .ok b ↔ ∃ a, x = .ok a ∧ f a = b := by
  cases x <;> simp [Except.map]

@[simp] theorem mapError_eq_ok {f : ε → ε'} {value : α} :
    x.mapError f = .ok value ↔ x = .ok value := by
  cases x <;> simp [Except.mapError]

@[simp] theorem ok_bind (a : α) (f : α → Except ε β) : (Except.ok a >>= f) = f a := rfl

@[simp] theorem error_bind (err : ε) (f : α → Except ε β) :
    (Except.error err >>= f) = .error err := rfl

end Fallible
end CargoPds
