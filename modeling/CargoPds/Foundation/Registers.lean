import Mathlib.Data.List.Basic
import Mathlib.Logic.Function.Basic

/-!
# Independent registers

A map in which every call reads and writes the register under one key is a family of
independent machines: the register under a key is what its own calls make of it, in
their order, and their answers are the ones they get without the calls for other keys.
-/

namespace CargoPds
namespace Registers

variable {κ ρ γ ω : Type} [DecidableEq κ] (key : γ → κ) (act : γ → ρ → ω × ρ)

/-- A call acts on the register under its key. -/
def step (m : κ → ρ) (call : γ) : ω × (κ → ρ) :=
  ((act call (m (key call))).1, Function.update m (key call) (act call (m (key call))).2)

/-- The registers after a sequence of calls. -/
def after (m : κ → ρ) (calls : List γ) : κ → ρ :=
  calls.foldl (fun m call => (step key act m call).2) m

/-- The calls with their answers. -/
def answers (m : κ → ρ) : List γ → List (γ × ω)
  | [] => []
  | call :: rest => (call, (step key act m call).1) :: answers (step key act m call).2 rest

/-- One register after a sequence of calls. -/
def replay (r : ρ) (calls : List γ) : ρ := calls.foldl (fun r call => (act call r).2) r

/-- The calls with the answers of one register. -/
def replies (r : ρ) : List γ → List (γ × ω)
  | [] => []
  | call :: rest => (call, (act call r).1) :: replies (act call r).2 rest

theorem replay_append (r : ρ) (calls more : List γ) :
    replay act r (calls ++ more) = replay act (replay act r calls) more :=
  List.foldl_append

theorem replies_append (r : ρ) (calls more : List γ) :
    replies act r (calls ++ more) =
      replies act r calls ++ replies act (replay act r calls) more := by
  induction calls generalizing r with
  | nil => rfl
  | cons call rest ih =>
      simp only [List.cons_append, replies, ih]
      rfl

theorem step_self (m : κ → ρ) (call : γ) :
    (step key act m call).2 (key call) = (act call (m (key call))).2 :=
  Function.update_self ..

theorem step_of_ne {m : κ → ρ} {call : γ} {k : κ} (h : key call ≠ k) :
    (step key act m call).2 k = m k :=
  Function.update_of_ne (Ne.symm h) ..

/-- A register is what its own calls make of it. -/
theorem after_apply (m : κ → ρ) (calls : List γ) (k : κ) :
    after key act m calls k = replay act (m k) (calls.filter fun call => key call = k) := by
  induction calls generalizing m with
  | nil => rfl
  | cons call rest ih =>
      change after key act (step key act m call).2 rest k = _
      rw [ih]
      by_cases hkey : key call = k
      · rw [List.filter_cons_of_pos (by simpa using hkey), ← hkey, step_self]
        rfl
      · rw [List.filter_cons_of_neg (by simpa using hkey), step_of_ne key act hkey]

/-- The calls under a key get the answers of its register. -/
theorem answers_filter (m : κ → ρ) (calls : List γ) (k : κ) :
    (answers key act m calls).filter (fun answer => key answer.1 = k) =
      replies act (m k) (calls.filter fun call => key call = k) := by
  induction calls generalizing m with
  | nil => rfl
  | cons call rest ih =>
      rw [answers]
      by_cases hkey : key call = k
      · rw [List.filter_cons_of_pos (by simpa using hkey),
          List.filter_cons_of_pos (by simpa using hkey), replies, ih, ← hkey, step_self]
        rfl
      · rw [List.filter_cons_of_neg (by simpa using hkey),
          List.filter_cons_of_neg (by simpa using hkey), ih, step_of_ne key act hkey]

/-- What every call keeps holds of the register afterwards. -/
theorem replay_invariant (P : ρ → Prop) (hact : ∀ call r, P r → P (act call r).2) {r : ρ}
    (hr : P r) (calls : List γ) : P (replay act r calls) := by
  induction calls generalizing r with
  | nil => exact hr
  | cons call rest ih => exact ih (hact call r hr)

end Registers
end CargoPds
