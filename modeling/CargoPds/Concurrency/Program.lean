import Mathlib.Algebra.Order.Ring.Int
import Mathlib.Data.List.Basic

/-!
# Programs over a shared object

A client of a shared store does not run in one piece.  It reads, computes, and
writes back, and other clients run between any two of its accesses.  This file
gives such a client the shape in which its accesses are visible: a
`Program I α` is either finished with a value, or waits at one operation of
the interface `I` and continues with whatever the object answers.

One text of a client then has three readings, all defined here:

* `answer`: every operation is answered by a fixed oracle.  This is the view of
  a component that must be right whatever the object behind it does;
* `execute`: the client runs alone on an object with a state;
* `Pool.run`: any number of clients run on one object, in any order of their
  accesses, under an explicit schedule.

Nothing in this file mentions a particular store.
-/

namespace CargoPds
namespace Concurrency

/-- The operations an object offers, with the type of answer to each. -/
structure Interface where
  Op : Type
  Resp : Op → Type

/-- A client of `I`: finished, or waiting for the answer to one operation. -/
inductive Program (I : Interface) (α : Type) : Type
  | done (value : α) : Program I α
  | call (op : I.Op) (next : I.Resp op → Program I α) : Program I α

namespace Program

variable {I : Interface} {α β γ : Type}

/-- Sequential composition. -/
def bind : Program I α → (α → Program I β) → Program I β
  | done value, f => f value
  | call op next, f => call op fun response => (next response).bind f

instance : Monad (Program I) where
  pure := done
  bind := bind

/-- The client that performs one operation and returns its answer. -/
def perform (op : I.Op) : Program I (I.Resp op) :=
  call op done

/-- A client whose value may be an error, as a step of a fallible client. -/
def attempt {ε : Type} (program : Program I (Except ε α)) : ExceptT ε (Program I) α :=
  ExceptT.mk program

/-- A computation that touches no shared object, as a step of a fallible client. -/
def compute {ε : Type} (x : Except ε α) : ExceptT ε (Program I) α :=
  ExceptT.mk (done x)

/-- Run a fallible client on every element of a list and collect the values. -/
def forEach {ε : Type} (f : α → ExceptT ε (Program I) β) :
    List α → ExceptT ε (Program I) (List β)
  | [] => pure []
  | item :: rest => do
      let value ← f item
      let values ← forEach f rest
      return value :: values

/-- Run `action`; on an error that `recoverable` accepts, ask `fallback` for a
value and report the original error when it has none. -/
def orElse {ε : Type} (recoverable : ε → Bool) (action : ExceptT ε (Program I) α)
    (fallback : ExceptT ε (Program I) (Option α)) : ExceptT ε (Program I) α :=
  ExceptT.mk do
    match ← action.run with
    | .ok value => return .ok value
    | .error err =>
        if recoverable err then
          match ← fallback.run with
          | .ok (some value) => return .ok value
          | _ => return .error err
        else return .error err

@[simp] theorem pure_eq_done (value : α) :
    (pure value : Program I α) = done value := rfl

@[simp] theorem done_bind (value : α) (f : α → Program I β) :
    (done value >>= f) = f value := rfl

@[simp] theorem call_bind (op : I.Op) (next : I.Resp op → Program I α)
    (f : α → Program I β) :
    (call op next >>= f) = call op fun response => next response >>= f := rfl

theorem bind_done (program : Program I α) : (program >>= done) = program := by
  induction program with
  | done value => rfl
  | call op next ih =>
      rw [call_bind]
      congr 1
      funext response
      exact ih response

theorem bind_assoc (program : Program I α) (f : α → Program I β)
    (g : β → Program I γ) :
    (program >>= f >>= g) = (program >>= fun value => f value >>= g) := by
  induction program with
  | done value => rfl
  | call op next ih =>
      simp only [call_bind]
      congr 1
      funext response
      exact ih response

/-- The value a program returns when every operation is answered by `oracle`. -/
def answer (oracle : (op : I.Op) → I.Resp op) : Program I α → α
  | done value => value
  | call op next => (next (oracle op)).answer oracle

@[simp] theorem answer_done (oracle : (op : I.Op) → I.Resp op) (value : α) :
    (done value : Program I α).answer oracle = value := rfl

@[simp] theorem answer_call (oracle : (op : I.Op) → I.Resp op) (op : I.Op)
    (next : I.Resp op → Program I α) :
    (call op next).answer oracle = (next (oracle op)).answer oracle := rfl

@[simp] theorem answer_bind (oracle : (op : I.Op) → I.Resp op) (program : Program I α)
    (f : α → Program I β) :
    (program >>= f).answer oracle = (f (program.answer oracle)).answer oracle := by
  induction program with
  | done value => rfl
  | call op next ih => exact ih (oracle op)

/-- Run a program alone on an object.  `input` is what the object's
surroundings (a clock, a source of identifiers) supply to each operation. -/
def execute {σ ι : Type} (handle : (op : I.Op) → ι → σ → I.Resp op × σ)
    (input : ι) : Program I α → σ → α × σ
  | done value, state => (value, state)
  | call op next, state =>
      let reply := handle op input state
      (next reply.1).execute handle input reply.2

section
variable {σ ι : Type} (handle : (op : I.Op) → ι → σ → I.Resp op × σ) (input : ι)

@[simp] theorem execute_done (value : α) (state : σ) :
    (done value : Program I α).execute handle input state = (value, state) := rfl

@[simp] theorem execute_call (op : I.Op) (next : I.Resp op → Program I α) (state : σ) :
    (call op next).execute handle input state =
      (next (handle op input state).1).execute handle input (handle op input state).2 := rfl

@[simp] theorem execute_bind (program : Program I α) (f : α → Program I β) (state : σ) :
    (program >>= f).execute handle input state =
      (f (program.execute handle input state).1).execute handle input
        (program.execute handle input state).2 := by
  induction program generalizing state with
  | done value => rfl
  | call op next ih => exact ih _ _

end

end Program

/-! ## Pools of clients -/

/-- A shared object together with the clients at work on it.  `finished` lists
the calls that returned, in the order in which they did. -/
structure Pool (I : Interface) (Cmd α σ : Type) where
  shared : σ
  running : List (Cmd × Program I α)
  finished : List (Cmd × α)

/-- One decision of a scheduler: a client invokes a command, or the running
client at position `thread` performs the operation it waits at. -/
inductive Action (Cmd ι : Type)
  | invoke (cmd : Cmd)
  | advance (thread : Nat) (input : ι)

namespace Pool

variable {I : Interface} {Cmd α σ ι : Type}

/-- No client has started yet. -/
def initial (shared : σ) : Pool I Cmd α σ :=
  ⟨shared, [], []⟩

/-- File a program under the calls that returned, or among the running ones. -/
def settle (pool : Pool I Cmd α σ) (cmd : Cmd) : Program I α → Pool I Cmd α σ
  | .done value => { pool with finished := pool.finished ++ [(cmd, value)] }
  | .call op next => { pool with running := pool.running ++ [(cmd, .call op next)] }

variable (handle : (op : I.Op) → ι → σ → I.Resp op × σ)
variable (program : Cmd → Program I α)

/-- One scheduled action.  An operation and the code after it, up to the next
operation, form one atomic step. -/
def step (pool : Pool I Cmd α σ) : Action Cmd ι → Pool I Cmd α σ
  | .invoke cmd => pool.settle cmd (program cmd)
  | .advance thread input =>
      match pool.running[thread]? with
      | some (cmd, .call op next) =>
          let reply := handle op input pool.shared
          let rest : Pool I Cmd α σ :=
            { pool with shared := reply.2, running := pool.running.eraseIdx thread }
          rest.settle cmd (next reply.1)
      | _ => pool

/-- What an action does: nothing, the invocation of a command, or the operation
that one running client waits at. -/
theorem step_cases (pool : Pool I Cmd α σ) (action : Action Cmd ι) :
    pool.step handle program action = pool ∨
      (∃ cmd, pool.step handle program action = pool.settle cmd (program cmd)) ∨
      ∃ (cmd : Cmd) (op : I.Op) (next : I.Resp op → Program I α) (thread : Nat) (input : ι),
        (cmd, .call op next) ∈ pool.running ∧
          pool.step handle program action =
            ({ pool with
              shared := (handle op input pool.shared).2
              running := pool.running.eraseIdx thread } : Pool I Cmd α σ).settle cmd
                (next (handle op input pool.shared).1) := by
  cases action with
  | invoke cmd => exact Or.inr (Or.inl ⟨cmd, rfl⟩)
  | advance thread input =>
      cases hentry : pool.running[thread]? with
      | none =>
          refine Or.inl ?_
          simp only [Pool.step, hentry]
      | some entry =>
          obtain ⟨cmd, rest⟩ := entry
          cases rest with
          | done value =>
              refine Or.inl ?_
              simp only [Pool.step, hentry]
          | call op next =>
              refine Or.inr (Or.inr ⟨cmd, op, next, thread, input,
                List.mem_of_getElem? hentry, ?_⟩)
              simp only [Pool.step, hentry]

@[simp] theorem shared_settle (pool : Pool I Cmd α σ) (cmd : Cmd) (rest : Program I α) :
    (pool.settle cmd rest).shared = pool.shared := by
  cases rest <;> rfl

theorem mem_running_settle {pool : Pool I Cmd α σ} {cmd : Cmd} {rest : Program I α}
    {entry : Cmd × Program I α} (h : entry ∈ (pool.settle cmd rest).running) :
    entry ∈ pool.running ∨ entry = (cmd, rest) := by
  cases rest with
  | done value => exact Or.inl h
  | call op next =>
      rcases List.mem_append.mp h with hold | hnew
      · exact Or.inl hold
      · exact Or.inr (List.mem_singleton.mp hnew)

/-- The pool after a whole schedule. -/
def run (pool : Pool I Cmd α σ) (schedule : List (Action Cmd ι)) : Pool I Cmd α σ :=
  schedule.foldl (step handle program) pool

end Pool

end Concurrency
end CargoPds
