import CargoPds.Concurrency.Program

/-!
# One call among other clients

`Program.execute` runs a client alone and under one input.  Here other clients may act
before each of its operations, and the surroundings supply a new input to each of them.
What the others do is a function on the state of the object for each operation, so that
a statement can say which of their actions it tolerates.
-/

namespace CargoPds
namespace Concurrency
namespace Program

variable {I : Interface} {α β σ ι ε : Type}

section
variable (handle : (op : I.Op) → ι → σ → I.Resp op × σ) (inputs : Nat → ι)
  (others : Nat → σ → σ)

/-- Run a program from its operation number `count` on. -/
def executeAmid : Program I α → Nat → σ → α × σ
  | done value, _, state => (value, state)
  | call op next, count, state =>
      let reply := handle op (inputs count) (others count state)
      (next reply.1).executeAmid (count + 1) reply.2

end

variable {handle : (op : I.Op) → ι → σ → I.Resp op × σ} {inputs : Nat → ι}
  {others : Nat → σ → σ} {f : α → ExceptT ε (Program I) β} {count : Nat} {state : σ}
  {value : α}

instance : LawfulMonad (Program I) :=
  LawfulMonad.mk' _ bind_done (fun _ _ => rfl) bind_assoc

/-- The rule for a step without an operation. -/
theorem executeAmid_compute_bind {x : Except ε α} (h : x = .ok value) :
    (compute x >>= f).run.executeAmid handle inputs others count state =
      (f value).run.executeAmid handle inputs others count state := by
  rw [h]
  rfl

/-- The rule for an operation. -/
theorem executeAmid_perform_bind (op : I.Op) (decode : I.Resp op → Except ε α)
    {program : Program I (Except ε α)}
    (hprogram : program = .call op fun response => .done (decode response))
    (h : decode (handle op (inputs count) (others count state)).1 = .ok value) :
    (attempt program >>= f).run.executeAmid handle inputs others count state =
      (f value).run.executeAmid handle inputs others (count + 1)
        (handle op (inputs count) (others count state)).2 := by
  rw [hprogram]
  change (ExceptT.bindCont f (decode (handle op (inputs count) (others count state)).1)
    ).executeAmid handle inputs others (count + 1)
      (handle op (inputs count) (others count state)).2 = _
  rw [h]
  rfl

end Program
end Concurrency
end CargoPds
