import CargoPds.Concurrency.Rely
import CargoPds.Concurrency.Protocol

/-!
# Calling a command again

A client whose call has returned may call the same command once more.  Two things are
to be known for that:

* what holds of the shared object at the moment at which a call returns
  (`Pool.Awaits.step`).  Other clients have run during the call, but none between its
  last operation and its return;
* that a program, alone on an object in such a state, returns a certain value and leaves
  the object as it is (`Yields`), whatever its surroundings supply meanwhile.
-/

namespace CargoPds
namespace Concurrency

variable {I : Interface} {Cmd α β σ ι ε : Type}

/-- Run a program alone, with one input for each operation.  There is no result
when the inputs run out. -/
def Program.runAlone (handle : (op : I.Op) → ι → σ → I.Resp op × σ) :
    Program I α → List ι → σ → Option (α × List ι × σ)
  | .done value, inputs, state => some (value, inputs, state)
  | .call _ _, [], _ => none
  | .call op next, input :: inputs, state =>
      (next (handle op input state).1).runAlone handle inputs (handle op input state).2

variable (handle : (op : I.Op) → ι → σ → I.Resp op × σ)

/-! ## The moment of the return -/

namespace Program

/-- Operations that keep the invariant and are tolerated can be performed by any client. -/
theorem wp_of_handle {inv : σ → Prop} {rely : σ → σ → Prop}
    (hkeep : ∀ op input state, inv state →
      inv (handle op input state).2 ∧ rely state (handle op input state).2)
    (program : Program I α) (state : σ) :
    wp handle inv rely program (fun _ _ => True) state := by
  induction program generalizing state with
  | done value => trivial
  | call op next ih =>
      intro state' _ hinv input
      obtain ⟨hinv', hrely⟩ := hkeep op input state' hinv
      exact ⟨hinv', hrely, ih _ _⟩

end Program

namespace Pool

open Program

/-- Every running client will end with its postcondition. -/
def Awaits (inv : σ → Prop) (rely : σ → σ → Prop) (post : Cmd → α → σ → Prop)
    (pool : Pool I Cmd α σ) : Prop :=
  inv pool.shared ∧ ∀ cmd op next, (cmd, .call op next) ∈ pool.running →
    wp handle inv rely (.call op next) (post cmd) pool.shared

variable {inv : σ → Prop} {rely : σ → σ → Prop} {post : Cmd → α → σ → Prop}

/-- Filing a client: it waits at an operation, or has returned with its postcondition. -/
theorem Awaits.settle {pool : Pool I Cmd α σ} {cmd : Cmd} {rest : Program I α}
    (h : Awaits handle inv rely post pool)
    (hrest : wp handle inv rely rest (post cmd) pool.shared) :
    Awaits handle inv rely post (pool.settle cmd rest) ∧
      ∀ cmd' value, (pool.settle cmd rest).finished = pool.finished ++ [(cmd', value)] →
        post cmd' value (pool.settle cmd rest).shared := by
  cases rest with
  | done value =>
      refine ⟨h, ?_⟩
      intro cmd' value' hfinished
      obtain ⟨hlast, -⟩ := List.cons.inj (List.append_cancel_left hfinished)
      obtain ⟨rfl, rfl⟩ := Prod.mk.inj hlast
      exact hrest
  | call op next =>
      refine ⟨⟨h.1, ?_⟩, ?_⟩
      · intro cmd' op' next' hmem
        rcases List.mem_append.mp hmem with hold | hnew
        · exact h.2 cmd' op' next' hold
        · obtain ⟨rfl, heq⟩ := Prod.mk.inj (List.mem_singleton.mp hnew)
          rw [heq]
          exact hrest
      · intro cmd' value hfinished
        exact absurd (congrArg List.length hfinished) (by simp [Pool.settle])

/-- A tolerated step of another client does not matter to the clients that wait. -/
theorem Awaits.move [IsTrans σ rely] {pool : Pool I Cmd α σ}
    (h : Awaits handle inv rely post pool) {state : σ} (hinv : inv state)
    (hrely : rely pool.shared state) {running : List (Cmd × Program I α)}
    (hrunning : running ⊆ pool.running) :
    Awaits handle inv rely post ⟨state, running, pool.finished⟩ := by
  refine ⟨hinv, ?_⟩
  intro cmd op next hmem state' hlater hinv' input
  exact h.2 cmd op next (hrunning hmem) state' (IsTrans.trans _ _ _ hrely hlater) hinv' input

variable [Std.Refl rely] [IsTrans σ rely] {program : Cmd → Program I α}

/-- **Step lemma.**  An action with which a call returns leaves the shared object in a
state of the postcondition. -/
theorem Awaits.step
    (hcmd : ∀ cmd state, inv state → wp handle inv rely (program cmd) (post cmd) state)
    {pool : Pool I Cmd α σ} (h : Awaits handle inv rely post pool) (action : Action Cmd ι) :
    Awaits handle inv rely post (pool.step handle program action) ∧
      ∀ cmd value,
        (pool.step handle program action).finished = pool.finished ++ [(cmd, value)] →
          post cmd value (pool.step handle program action).shared := by
  rcases pool.step_cases handle program action with
    hstep | ⟨cmd, hstep⟩ | ⟨cmd, op, next, thread, input, hmem, hstep⟩
  · rw [hstep]
    refine ⟨h, ?_⟩
    intro cmd value hfinished
    exact absurd (congrArg List.length hfinished) (by simp)
  · rw [hstep]
    exact h.settle handle (hcmd cmd _ h.1)
  · rw [hstep]
    obtain ⟨hinv, hrely, hnext⟩ := h.2 cmd op next hmem pool.shared (Std.Refl.refl _) h.1 input
    exact (h.move handle hinv hrely (List.eraseIdx_subset ..)).settle handle hnext

/-- **Run lemma.** -/
theorem Awaits.run
    (hcmd : ∀ cmd state, inv state → wp handle inv rely (program cmd) (post cmd) state)
    {shared : σ} (hinit : inv shared) (schedule : List (Action Cmd ι)) :
    Awaits handle inv rely post
      ((Pool.initial shared : Pool I Cmd α σ).run handle program schedule) := by
  have hstart : Awaits handle inv rely post (Pool.initial shared : Pool I Cmd α σ) :=
    ⟨hinit, fun _ _ _ hmem => absurd hmem List.not_mem_nil⟩
  generalize (Pool.initial shared : Pool I Cmd α σ) = pool at hstart
  induction schedule generalizing pool with
  | nil => exact hstart
  | cons action rest ih => exact ih _ (hstart.step handle hcmd action).1

end Pool

/-! ## Programs that change nothing -/

namespace Program

/-- Alone in the state, the program returns the value and leaves the state as it is. -/
def Settles (state : σ) (value : α) : Program I α → Prop
  | done result => result = value
  | call op next => ∀ input, (handle op input state).2 = state ∧
      (next (handle op input state).1).Settles state value

/-- Whatever its surroundings supply, a program that settles returns after finitely many
operations. -/
theorem Settles.runAlone {state : σ} {value : α} {program : Program I α}
    (h : program.Settles handle state value) (inputs : Nat → ι) :
    ∃ count, program.runAlone handle ((List.range count).map inputs) state =
      some (value, [], state) := by
  induction program generalizing inputs with
  | done result =>
      refine ⟨0, ?_⟩
      rw [show result = value from h]
      rfl
  | call op next ih =>
      obtain ⟨hstate, hnext⟩ := h (inputs 0)
      obtain ⟨count, hcount⟩ := ih _ hnext fun index => inputs (index + 1)
      refine ⟨count + 1, ?_⟩
      rw [List.range_succ_eq_map, List.map_cons, List.map_map]
      change (next (handle op (inputs 0) state).1).runAlone handle _
        (handle op (inputs 0) state).2 = _
      rw [hstate]
      exact hcount

theorem Settles.bind {state : σ} {value : α} {result : β} {program : Program I α}
    {f : α → Program I β} (h : program.Settles handle state value)
    (hnext : (f value).Settles handle state result) :
    (program >>= f).Settles handle state result := by
  induction program with
  | done other =>
      rw [show other = value from h]
      exact hnext
  | call op next ih =>
      intro input
      obtain ⟨hstate, hrest⟩ := h input
      exact ⟨hstate, ih _ hrest⟩

/-- A fallible client that returns the value and leaves the state as it is.  Proofs go
through the rules below. -/
@[irreducible] def Yields (state : σ) (client : ExceptT ε (Program I) α) (value : α) : Prop :=
  client.run.Settles handle state (.ok value)

section
variable {handle} {state : σ} {value : α} {result : β} {f : α → ExceptT ε (Program I) β}

theorem yields_iff_settles {client : ExceptT ε (Program I) α} :
    Yields handle state client value ↔ client.run.Settles handle state (.ok value) := by
  unfold Yields
  exact Iff.rfl

theorem Yields.pure : Yields handle state (pure value : ExceptT ε (Program I) α) value :=
  yields_iff_settles.mpr rfl

theorem Yields.compute {x : Except ε α} (h : x = .ok value) :
    Yields handle state (Program.compute x : ExceptT ε (Program I) α) value :=
  yields_iff_settles.mpr h

theorem Yields.bind {client : ExceptT ε (Program I) α} (h : Yields handle state client value)
    (hnext : Yields handle state (f value) result) :
    Yields handle state (client >>= f) result := by
  rw [yields_iff_settles] at h hnext ⊢
  exact Settles.bind handle h hnext

/-- The rule for an operation at the end of a client. -/
theorem Yields.perform (op : I.Op) (decode : I.Resp op → Except ε α)
    {program : Program I (Except ε α)}
    (hprogram : program = .call op fun response => .done (decode response))
    (h : ∀ input, (handle op input state).2 = state ∧
      decode (handle op input state).1 = .ok value) :
    Yields handle state (Program.attempt program) value := by
  rw [yields_iff_settles, hprogram]
  exact h

/-- The rule for an operation whose answer may differ from call to call. -/
theorem Yields.perform_bind (op : I.Op) (decode : I.Resp op → Except ε α)
    {program : Program I (Except ε α)}
    (hprogram : program = .call op fun response => .done (decode response))
    (h : ∀ input, (handle op input state).2 = state ∧
      ∃ value, decode (handle op input state).1 = .ok value ∧
        Yields handle state (f value) result) :
    Yields handle state (Program.attempt program >>= f) result := by
  rw [yields_iff_settles, hprogram]
  intro input
  obtain ⟨hstate, value, hvalue, hnext⟩ := h input
  refine ⟨hstate, ?_⟩
  change Settles handle state (.ok result)
    (ExceptT.bindCont f (decode (handle op input state).1))
  rw [hvalue]
  exact yields_iff_settles.mp hnext

/-- The rule for a loop of which only the success matters. -/
theorem Yields.forEach {items : List α}
    (h : ∀ item ∈ items, ∃ value, Yields handle state (f item) value) :
    ∃ values, Yields handle state (Program.forEach f items) values := by
  induction items with
  | nil => exact ⟨[], Yields.pure⟩
  | cons item rest ih =>
      obtain ⟨value, hvalue⟩ := h item List.mem_cons_self
      obtain ⟨values, hvalues⟩ := ih fun other hother => h other (List.mem_cons_of_mem _ hother)
      exact ⟨value :: values, hvalue.bind (hvalues.bind Yields.pure)⟩

end

end Program

end Concurrency
end CargoPds
