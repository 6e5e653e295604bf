import CargoPds.Concurrency.Program

/-!
# Answers that make no difference

A relation `Same` on the answers to each operation says which answers are two forms of
one.  A program that goes on in the same way after such answers is `Indifferent`.  Objects
that answer indifferent clients in different forms, but change their state in the same
way, cannot be told apart by any schedule (`Pool.run_eq_of_indifferent`).
-/

namespace CargoPds
namespace Concurrency

variable {I : Interface} {Cmd α β σ ι ε : Type}
variable {Same : (op : I.Op) → I.Resp op → I.Resp op → Prop}

namespace Program

/-- The program continues in the same way after answers that are the same. -/
def Indifferent (Same : (op : I.Op) → I.Resp op → I.Resp op → Prop) : Program I α → Prop
  | done _ => True
  | call op next =>
      (∀ left right, Same op left right → next left = next right) ∧
        ∀ response, (next response).Indifferent Same

theorem Indifferent.bind {program : Program I α} {f : α → Program I β}
    (h : program.Indifferent Same) (hnext : ∀ value, (f value).Indifferent Same) :
    (program >>= f).Indifferent Same := by
  induction program with
  | done value => exact hnext value
  | call op next ih =>
      refine ⟨?_, fun response => ih response (h.2 response)⟩
      intro left right hsame
      exact congrArg (Program.bind · f) (h.1 left right hsame)

/-! ### Fallible clients -/

/-- The form for fallible clients.  Proofs go through the rules below. -/
@[irreducible] def Steady (Same : (op : I.Op) → I.Resp op → I.Resp op → Prop)
    (program : ExceptT ε (Program I) α) : Prop :=
  program.run.Indifferent Same

theorem steady_iff {program : ExceptT ε (Program I) α} :
    Steady Same program ↔ program.run.Indifferent Same := by
  unfold Steady
  exact Iff.rfl

/-- An operation whose answers come in one form. -/
theorem Steady.perform (op : I.Op) (decode : I.Resp op → Except ε α)
    {program : Program I (Except ε α)}
    (hprogram : program = .call op fun response => .done (decode response))
    (hop : ∀ left right, Same op left right → left = right) :
    Steady Same (Program.attempt program) := by
  rw [steady_iff, hprogram]
  refine ⟨?_, fun _ => trivial⟩
  intro left right hsame
  rw [hop left right hsame]

theorem Steady.compute (x : Except ε α) :
    Steady Same (Program.compute x : ExceptT ε (Program I) α) :=
  steady_iff.mpr trivial

theorem Steady.pure (value : α) : Steady Same (pure value : ExceptT ε (Program I) α) :=
  steady_iff.mpr trivial

theorem Steady.bind {program : ExceptT ε (Program I) α} {f : α → ExceptT ε (Program I) β}
    (h : Steady Same program) (hnext : ∀ value, Steady Same (f value)) :
    Steady Same (program >>= f) := by
  rw [steady_iff] at h ⊢
  refine Indifferent.bind h ?_
  rintro (err | value)
  · exact trivial
  · exact steady_iff.mp (hnext value)

theorem Steady.forEach {f : α → ExceptT ε (Program I) β} (h : ∀ item, Steady Same (f item))
    (items : List α) : Steady Same (Program.forEach f items) := by
  induction items with
  | nil => exact Steady.pure []
  | cons item rest ih =>
      exact (h item).bind fun _ => ih.bind fun _ => Steady.pure _

theorem Steady.orElse {recoverable : ε → Bool} {action : ExceptT ε (Program I) α}
    {fallback : ExceptT ε (Program I) (Option α)} (haction : Steady Same action)
    (hfallback : Steady Same fallback) :
    Steady Same (Program.orElse recoverable action fallback) := by
  rw [steady_iff] at haction hfallback ⊢
  refine Indifferent.bind haction ?_
  rintro (err | value)
  · cases hrecoverable : recoverable err with
    | false =>
        simp only [hrecoverable]
        exact trivial
    | true =>
        simp only [hrecoverable]
        refine Indifferent.bind hfallback ?_
        rintro (err' | _ | value)
        · exact trivial
        · exact trivial
        · exact trivial
  · exact trivial

end Program

/-! ## Pools -/

namespace Pool

variable {handle handle' : (op : I.Op) → ι → σ → I.Resp op × σ}
variable {program : Cmd → Program I α} {inv : σ → Prop}

/-- All running clients are indifferent. -/
def Indifferent (Same : (op : I.Op) → I.Resp op → I.Resp op → Prop)
    (pool : Pool I Cmd α σ) : Prop :=
  ∀ entry ∈ pool.running, entry.2.Indifferent Same

theorem Indifferent.settle {pool : Pool I Cmd α σ} (h : pool.Indifferent Same) {cmd : Cmd}
    {rest : Program I α} (hrest : rest.Indifferent Same) :
    (pool.settle cmd rest).Indifferent Same := by
  intro entry hentry
  rcases mem_running_settle hentry with hold | rfl
  · exact h entry hold
  · exact hrest

/-- **Step lemma.** -/
theorem Indifferent.step
    (hobject : ∀ op input state, inv state → inv (handle op input state).2 ∧
      (handle' op input state).2 = (handle op input state).2 ∧
      Same op (handle' op input state).1 (handle op input state).1)
    (hprogram : ∀ cmd, (program cmd).Indifferent Same) {pool : Pool I Cmd α σ}
    (h : pool.Indifferent Same) (hinv : inv pool.shared) (action : Action Cmd ι) :
    pool.step handle' program action = pool.step handle program action ∧
      (pool.step handle program action).Indifferent Same ∧
      inv (pool.step handle program action).shared := by
  cases action with
  | invoke cmd =>
      refine ⟨rfl, h.settle (hprogram cmd), ?_⟩
      change inv (pool.settle cmd (program cmd)).shared
      rw [shared_settle]
      exact hinv
  | advance thread input =>
      cases hentry : pool.running[thread]? with
      | none =>
          simp only [Pool.step, hentry]
          exact ⟨trivial, h, hinv⟩
      | some entry =>
          obtain ⟨cmd, rest⟩ := entry
          cases rest with
          | done value =>
              simp only [Pool.step, hentry]
              exact ⟨trivial, h, hinv⟩
          | call op next =>
              obtain ⟨hkept, hstate, hsame⟩ := hobject op input pool.shared hinv
              obtain ⟨hform, hnext⟩ := h _ (List.mem_of_getElem? hentry)
              simp only [Pool.step, hentry]
              rw [hstate, hform _ _ hsame]
              refine ⟨rfl, Indifferent.settle ?_ (hnext _), ?_⟩
              · intro entry hmem
                exact h entry (List.mem_of_mem_eraseIdx hmem)
              · rw [shared_settle]
                exact hkept

/-- **Run lemma.**  The two objects go through the same run. -/
theorem run_eq_of_indifferent (Same : (op : I.Op) → I.Resp op → I.Resp op → Prop)
    (inv : σ → Prop)
    (hobject : ∀ op input state, inv state → inv (handle op input state).2 ∧
      (handle' op input state).2 = (handle op input state).2 ∧
      Same op (handle' op input state).1 (handle op input state).1)
    (hprogram : ∀ cmd, (program cmd).Indifferent Same) {pool : Pool I Cmd α σ}
    (h : pool.Indifferent Same) (hinv : inv pool.shared) (schedule : List (Action Cmd ι)) :
    pool.run handle' program schedule = pool.run handle program schedule := by
  induction schedule generalizing pool with
  | nil => rfl
  | cons action rest ih =>
      obtain ⟨hstep, hnext, hkept⟩ := h.step hobject hprogram hinv action
      change (pool.step handle' program action).run handle' program rest =
        (pool.step handle program action).run handle program rest
      rw [hstep]
      exact ih hnext hkept

end Pool

end Concurrency
end CargoPds
