import Mathlib.Data.List.Forall2
import CargoPds.Concurrency.Program

/-!
# Invariants of pools of clients

Two rules that turn a check of one client into a fact about every schedule.

`Pool.run_safe` is the general rule.  Its invariant speaks about the shared
state and the list of calls that returned, so it can relate what was stored to
what was answered.  A client is `Safe` when each of its steps, started in any
state that the other clients may have left behind, keeps the invariant and is a
step the other clients tolerate.  `Safe` follows the tree of the program, and
the relation `Rely` of tolerated steps carries it over the steps of the others.

`Pool.run_returned` is the compositional rule for invariants of the shared state and
stable facts about what was answered.  There the obligation is a weakest precondition
`wp` which distributes over sequential composition, so commands are checked along their
text.
-/

namespace CargoPds
namespace Concurrency

variable {I : Interface} {Cmd α β σ ι ε : Type}
variable (handle : (op : I.Op) → ι → σ → I.Resp op × σ)

/-- What an observer sees of a pool: the shared state and the returned calls. -/
abbrev Observation (Cmd α σ : Type) := σ × List (Cmd × α)

namespace Program

variable {program : ExceptT ε (Program I) α} {state : σ} {P post : α → σ → Prop}
variable {f : α → ExceptT ε (Program I) β} {E : ε → σ → Prop} {Q : β → σ → Prop} {x : Except ε α}

/-- The observation after a program has been filed. -/
def observe (cmd : Cmd) (seen : Observation Cmd α σ) : Program I α → Observation Cmd α σ
  | done value => (seen.1, seen.2 ++ [(cmd, value)])
  | call _ _ => seen

@[simp] theorem observe_fst (cmd : Cmd) (seen : Observation Cmd α σ) (rest : Program I α) :
    (observe cmd seen rest).1 = seen.1 := by
  cases rest <;> rfl

/-- Each remaining step of the program keeps `inv` and is tolerated by the other
clients, whatever they did before it. -/
def Safe (inv : Observation Cmd α σ → Prop)
    (rely : Observation Cmd α σ → Observation Cmd α σ → Prop) (cmd : Cmd) :
    Program I α → Observation Cmd α σ → Prop
  | done _, _ => True
  | call op next, seen =>
      ∀ seen', rely seen seen' → inv seen' → ∀ input,
        let reply := handle op input seen'.1
        let after := observe cmd (reply.2, seen'.2) (next reply.1)
        inv after ∧ rely seen' after ∧ Safe inv rely cmd (next reply.1) after

/-- A step of another client does not invalidate what was checked. -/
theorem Safe.of_rely {inv : Observation Cmd α σ → Prop}
    {rely : Observation Cmd α σ → Observation Cmd α σ → Prop}
    (htrans : ∀ a b c, rely a b → rely b c → rely a c)
    {cmd : Cmd} {program : Program I α} {seen seen' : Observation Cmd α σ}
    (hrely : rely seen seen') (hsafe : program.Safe handle inv rely cmd seen) :
    program.Safe handle inv rely cmd seen' := by
  cases program with
  | done value => trivial
  | call op next =>
      intro later hlater hinv input
      exact hsafe later (htrans _ _ _ hrely hlater) hinv input

/-- Weakest precondition under interference: between any two operations the
shared state may move along `rely` to another state satisfying `inv`. -/
def wp (inv : σ → Prop) (rely : σ → σ → Prop) :
    Program I α → (α → σ → Prop) → σ → Prop
  | done value, post, state => post value state
  | call op next, post, state =>
      ∀ state', rely state state' → inv state' → ∀ input,
        let reply := handle op input state'
        inv reply.2 ∧ rely state' reply.2 ∧ wp inv rely (next reply.1) post reply.2

section
variable {inv : σ → Prop} {rely : σ → σ → Prop}

@[simp] theorem wp_done (value : α) (post : α → σ → Prop) (state : σ) :
    wp handle inv rely (done value : Program I α) post state ↔ post value state :=
  Iff.rfl

theorem wp_mono {program : Program I α} {post' : α → σ → Prop}
    (hpost : ∀ value state, post value state → post' value state)
    (h : wp handle inv rely program post state) :
    wp handle inv rely program post' state := by
  induction program generalizing state with
  | done value => exact hpost value state h
  | call op next ih =>
      intro state' hrely hinv input
      obtain ⟨hinv', hrely', hnext⟩ := h state' hrely hinv input
      exact ⟨hinv', hrely', ih _ hnext⟩

theorem wp_bind {program : Program I α} {f : α → Program I β} {post : β → σ → Prop}
    (h : wp handle inv rely program (fun value state' => wp handle inv rely (f value) post state')
      state) :
    wp handle inv rely (program >>= f) post state := by
  induction program generalizing state with
  | done value => exact h
  | call op next ih =>
      intro state' hrely hinv input
      obtain ⟨hinv', hrely', hnext⟩ := h state' hrely hinv input
      exact ⟨hinv', hrely', ih _ hnext⟩

/-- The rule for one command of a fallible program: an error ends the program,
a value is passed on. -/
theorem wp_except_bind {post : Except ε β → σ → Prop}
    (h : wp handle inv rely program.run
      (fun result state' =>
        match result with
        | .ok value => wp handle inv rely (f value).run post state'
        | .error err => post (.error err) state') state) :
    wp handle inv rely (program >>= f).run post state := by
  refine wp_bind handle (wp_mono handle ?_ h)
  intro result state' hresult
  cases result with
  | ok value => exact hresult
  | error err => exact hresult

/-- A fact that no step of any client destroys may be assumed afterwards. -/
theorem wp_frame {program : Program I α} (Q : σ → Prop) (hstable : ∀ s s', rely s s' → Q s → Q s')
    (hQ : Q state) (h : wp handle inv rely program post state) :
    wp handle inv rely program (fun value state' => post value state' ∧ Q state') state := by
  induction program generalizing state with
  | done value => exact ⟨h, hQ⟩
  | call op next ih =>
      intro state' hrely hinv input
      obtain ⟨hinv', hrely', hnext⟩ := h state' hrely hinv input
      exact ⟨hinv', hrely', ih _ (hstable _ _ hrely' (hstable _ _ hrely hQ)) hnext⟩

/-- What held when a program started may be used afterwards in the form of the
steps that were tolerated meanwhile. -/
theorem wp_rely [Std.Refl rely] [IsTrans σ rely] {program : Program I α}
    (h : wp handle inv rely program post state) :
    wp handle inv rely program (fun value state' => post value state' ∧ rely state state')
      state :=
  wp_frame handle (rely state) (fun _ _ hstep hpast => IsTrans.trans _ _ _ hpast hstep)
    (Std.Refl.refl state) h

/-- A fact that no step destroys may be added to the invariant. -/
theorem wp_strengthen {program : Program I α} (Q : σ → Prop)
    (hstable : ∀ s s', rely s s' → Q s → Q s') (h : wp handle inv rely program post state) :
    wp handle (fun s => inv s ∧ Q s) rely program post state := by
  induction program generalizing state with
  | done value => exact h
  | call op next ih =>
      rintro state' hrely ⟨hinv, hQ⟩ input
      obtain ⟨hinv', hrely', hnext⟩ := h state' hrely hinv input
      exact ⟨⟨hinv', hstable _ _ hrely' hQ⟩, hrely', ih _ hnext⟩

/-! ### Fallible clients

A fallible client ends with a value or with an error; `Ends` says what is known in
either case.  The usual statement is about the value alone: `Returns` admits every
error, so a client that fails has only kept the invariant. -/

/-- If the client returns a value, `P` holds of it and of the state then; if it returns
an error, `E` does.  Proofs go through the rules below. -/
@[irreducible] def Ends (inv : σ → Prop) (rely : σ → σ → Prop) (program : ExceptT ε (Program I) α)
    (P : α → σ → Prop) (E : ε → σ → Prop) (state : σ) : Prop :=
  wp handle inv rely program.run
    (fun result s => (∀ value, result = .ok value → P value s) ∧
      ∀ err, result = .error err → E err s) state

theorem ends_iff_wp :
    Ends handle inv rely program P E state ↔ wp handle inv rely program.run
      (fun result s => (∀ value, result = .ok value → P value s) ∧
        ∀ err, result = .error err → E err s) state := by
  unfold Ends
  exact Iff.rfl

/-- The rule for a computation at the end of a client. -/
theorem Ends.compute (h : ∀ value, x = .ok value → P value state)
    (herr : ∀ err, x = .error err → E err state) :
    Ends handle inv rely (Program.compute x) P E state :=
  (ends_iff_wp handle).mpr ⟨h, herr⟩

theorem Ends.pure {value : α} (h : P value state) :
    Ends handle inv rely (pure value : ExceptT ε (Program I) α) P E state := by
  refine Ends.compute handle ?_ ?_
  · intro other hother
    obtain rfl := Except.ok.inj hother
    exact h
  · intro err herr
    exact absurd herr (by simp)

theorem Ends.mono {Q : α → σ → Prop} {E' : ε → σ → Prop} (hPQ : ∀ value s, P value s → Q value s)
    (hE : ∀ err s, E err s → E' err s) (h : Ends handle inv rely program P E state) :
    Ends handle inv rely program Q E' state := by
  rw [ends_iff_wp] at h ⊢
  exact wp_mono handle (fun _ s hresult =>
    ⟨fun value hvalue => hPQ value s (hresult.1 value hvalue),
      fun err herr => hE err s (hresult.2 err herr)⟩) h

/-- Sequential composition: the rest runs from any later state in which the first
part returned a value. -/
theorem Ends.bind [Std.Refl rely] [IsTrans σ rely] (h : Ends handle inv rely program P E state)
    (hnext : ∀ value s, rely state s → P value s → Ends handle inv rely (f value) Q E s) :
    Ends handle inv rely (program >>= f) Q E state := by
  rw [ends_iff_wp] at h ⊢
  refine wp_except_bind handle (wp_mono handle ?_ (wp_rely handle h))
  rintro (err | value) s ⟨⟨hvalue, herr⟩, hpast⟩
  · refine ⟨fun other hother => absurd hother (by simp), ?_⟩
    intro other hother
    obtain rfl := Except.error.inj hother
    exact herr err rfl
  · exact (ends_iff_wp handle).mp (hnext value s hpast (hvalue value rfl))

/-- A computation between two operations. -/
theorem Ends.compute_bind (herr : ∀ err, x = .error err → E err state)
    (hnext : ∀ value, x = .ok value → Ends handle inv rely (f value) Q E state) :
    Ends handle inv rely (Program.compute x >>= f) Q E state := by
  rw [ends_iff_wp]
  cases hx : x with
  | error err =>
      refine ⟨fun other hother => absurd hother (by simp), ?_⟩
      intro other hother
      obtain rfl := Except.error.inj hother
      exact herr err hx
  | ok value => exact (ends_iff_wp handle).mp (hnext value hx)

/-- The rule for a loop: a stable fact about each element and its value holds of
all of them at the end. -/
theorem Ends.forEach [Std.Refl rely] [IsTrans σ rely] {items : List α} (P : α → β → σ → Prop)
    (hstable : ∀ item value s s', rely s s' → P item value s → P item value s')
    (hstep : ∀ item ∈ items, ∀ s, rely state s → Ends handle inv rely (f item) (P item) E s) :
    Ends handle inv rely (forEach f items)
      (fun values s => List.Forall₂ (fun item value => P item value s) items values) E state := by
  induction items generalizing state with
  | nil => exact Ends.pure handle List.Forall₂.nil
  | cons item rest ih =>
      refine Ends.bind handle (hstep item List.mem_cons_self state (Std.Refl.refl state)) ?_
      intro value s hpast hvalue
      have hrest : Ends handle inv rely (Program.forEach f rest) _ E s :=
        ih fun other hother s' hlater =>
          hstep other (List.mem_cons_of_mem _ hother) s' (IsTrans.trans _ _ _ hpast hlater)
      refine Ends.bind handle hrest ?_
      intro values s' hlater hvalues
      -- the fact about the first element is carried over the rest of the loop
      exact Ends.pure handle
        (List.Forall₂.cons (hstable item value s s' hlater hvalue) hvalues)

/-- The rule for a client with a fallback.  The error of the action is reported after the
fallback has run, so what is known of it has to be stable. -/
theorem Ends.orElse [Std.Refl rely] [IsTrans σ rely] {recoverable : ε → Bool}
    {action : ExceptT ε (Program I) α} {fallback : ExceptT ε (Program I) (Option α)}
    {E' : ε → σ → Prop} (hstable : ∀ err s s', rely s s' → E err s → E err s')
    (haction : Ends handle inv rely action P E state)
    (hfallback : ∀ s, Ends handle inv rely fallback (fun found s' => ∀ value, found = some value → P
      value s') E' s) :
    Ends handle inv rely (orElse recoverable action fallback) P E state := by
  rw [ends_iff_wp] at haction ⊢
  refine wp_bind handle (wp_mono handle ?_ haction)
  rintro (err | value) s ⟨hvalue, herr⟩
  · -- the original error is reported unless the fallback has a value
    have hreport : ∀ s', rely s s' →
        (∀ value, (.error err : Except ε α) = .ok value → P value s') ∧
        ∀ other, (.error err : Except ε α) = .error other → E other s' := by
      intro s' hpast
      refine ⟨fun value hvalue => absurd hvalue (by simp), ?_⟩
      intro other hother
      exact hstable other s s' hpast (herr other hother)
    cases hrecoverable : recoverable err with
    | false =>
        simp only [hrecoverable]
        exact hreport s (Std.Refl.refl s)
    | true =>
        simp only [hrecoverable]
        refine wp_bind handle (wp_mono handle ?_
          (wp_rely handle ((ends_iff_wp handle).mp (hfallback s))))
        rintro (err' | _ | value) s' ⟨⟨hfound, -⟩, hpast⟩
        · exact hreport s' hpast
        · exact hreport s' hpast
        · refine ⟨?_, fun other hother => absurd hother (by simp)⟩
          intro other hother
          obtain rfl := Except.ok.inj hother
          exact hfound (some value) rfl value rfl
  · exact ⟨hvalue, herr⟩

/-- If the client returns a value, `P` holds of it and of the state then. -/
@[irreducible] def Returns (inv : σ → Prop) (rely : σ → σ → Prop)
    (program : ExceptT ε (Program I) α) (P : α → σ → Prop) (state : σ) : Prop :=
  wp handle inv rely program.run
    (fun result s => ∀ value, result = .ok value → P value s) state

theorem returns_iff_wp :
    Returns handle inv rely program P state ↔ wp handle inv rely program.run
      (fun result s => ∀ value, result = .ok value → P value s) state := by
  unfold Returns
  exact Iff.rfl

/-- Returning is ending with any error. -/
theorem returns_iff_ends :
    Returns handle inv rely program P state ↔
      Ends handle inv rely program P (fun _ _ => True) state := by
  rw [returns_iff_wp, ends_iff_wp]
  simp only [implies_true, and_true]

/-- The rule for a computation at the end of a client. -/
theorem Returns.compute (h : ∀ value, x = .ok value → P value state) :
    Returns handle inv rely (Program.compute x) P state :=
  (returns_iff_ends handle).mpr (Ends.compute handle h fun _ _ => trivial)

theorem Returns.pure {value : α} (h : P value state) :
    Returns handle inv rely (pure value : ExceptT ε (Program I) α) P state :=
  (returns_iff_ends handle).mpr (Ends.pure handle h)

theorem Returns.mono {Q : α → σ → Prop} (hPQ : ∀ value s, P value s → Q value s)
    (h : Returns handle inv rely program P state) :
    Returns handle inv rely program Q state := by
  rw [returns_iff_ends] at h ⊢
  exact Ends.mono handle hPQ (fun _ _ _ => trivial) h

/-- Sequential composition. -/
theorem Returns.bind [Std.Refl rely] [IsTrans σ rely] (h : Returns handle inv rely program P state)
    (hnext : ∀ value s, rely state s → P value s → Returns handle inv rely (f value) Q s) :
    Returns handle inv rely (program >>= f) Q state := by
  rw [returns_iff_ends] at h ⊢
  exact Ends.bind handle h fun value s hpast hvalue =>
    (returns_iff_ends handle).mp (hnext value s hpast hvalue)

/-- A computation between two operations. -/
theorem Returns.compute_bind
    (hnext : ∀ value, x = .ok value → Returns handle inv rely (f value) Q state) :
    Returns handle inv rely (Program.compute x >>= f) Q state :=
  (returns_iff_ends handle).mpr (Ends.compute_bind handle (fun _ _ => trivial)
    fun value hvalue => (returns_iff_ends handle).mp (hnext value hvalue))

/-- The rule for a loop. -/
theorem Returns.forEach [Std.Refl rely] [IsTrans σ rely] {items : List α} (P : α → β → σ → Prop)
    (hstable : ∀ item value s s', rely s s' → P item value s → P item value s')
    (hstep : ∀ item ∈ items, ∀ s, rely state s → Returns handle inv rely (f item) (P item) s) :
    Returns handle inv rely (forEach f items)
      (fun values s => List.Forall₂ (fun item value => P item value s) items values) state :=
  (returns_iff_ends handle).mpr (Ends.forEach handle P hstable fun item hitem s hpast =>
    (returns_iff_ends handle).mp (hstep item hitem s hpast))

/-- The rule for a client with a fallback. -/
theorem Returns.orElse [Std.Refl rely] [IsTrans σ rely] {recoverable : ε → Bool}
    {action : ExceptT ε (Program I) α} {fallback : ExceptT ε (Program I) (Option α)}
    (haction : Returns handle inv rely action P state)
    (hfallback : ∀ s, Returns handle inv rely fallback (fun found s' => ∀ value, found = some value
      → P value s') s) :
    Returns handle inv rely (orElse recoverable action fallback) P state := by
  rw [returns_iff_ends] at haction ⊢
  exact Ends.orElse handle (fun _ _ _ _ _ => trivial) haction
    fun s => (returns_iff_ends handle).mp (hfallback s)

end

end Program

namespace Pool

open Program

variable (program : Cmd → Program I α)
variable {shared : σ}

/-- The observation of a pool. -/
def seen (pool : Pool I Cmd α σ) : Observation Cmd α σ :=
  (pool.shared, pool.finished)

theorem seen_settle (pool : Pool I Cmd α σ) (cmd : Cmd) (rest : Program I α) :
    (pool.settle cmd rest).seen = observe cmd pool.seen rest := by
  cases rest <;> rfl

/-- Every running client is safe from the present observation on. -/
def AllSafe (inv : Observation Cmd α σ → Prop)
    (rely : Observation Cmd α σ → Observation Cmd α σ → Prop)
    (pool : Pool I Cmd α σ) : Prop :=
  inv pool.seen ∧
    ∀ entry ∈ pool.running, entry.2.Safe handle inv rely entry.1 pool.seen

section
variable {inv : Observation Cmd α σ → Prop}
variable {rely : Observation Cmd α σ → Observation Cmd α σ → Prop}

/-- Filing a safe program keeps every client safe, provided the filing itself is
a tolerated step. -/
theorem AllSafe.settle
    (htrans : ∀ a b c, rely a b → rely b c → rely a c)
    {pool : Pool I Cmd α σ} (before : Observation Cmd α σ)
    {cmd : Cmd} {rest : Program I α}
    (hothers : ∀ entry ∈ pool.running, entry.2.Safe handle inv rely entry.1 before)
    (hinv : inv (observe cmd pool.seen rest))
    (hrely : rely before (observe cmd pool.seen rest))
    (hrest : rest.Safe handle inv rely cmd (observe cmd pool.seen rest)) :
    AllSafe handle inv rely (pool.settle cmd rest) := by
  refine ⟨?_, ?_⟩
  · rw [seen_settle]
    exact hinv
  · intro entry hentry
    rw [seen_settle]
    rcases mem_running_settle hentry with hold | rfl
    · exact (hothers entry hold).of_rely handle htrans hrely
    · exact hrest

/-- One action keeps every client safe. -/
theorem AllSafe.step
    (htrans : ∀ a b c, rely a b → rely b c → rely a c)
    (hinvoke : ∀ cmd seen, inv seen →
      inv (observe cmd seen (program cmd)) ∧
        rely seen (observe cmd seen (program cmd)) ∧
        (program cmd).Safe handle inv rely cmd (observe cmd seen (program cmd)))
    (hrefl : ∀ a, rely a a)
    {pool : Pool I Cmd α σ} (hpool : AllSafe handle inv rely pool)
    (action : Action Cmd ι) :
    AllSafe handle inv rely (pool.step handle program action) := by
  obtain ⟨hinv, hsafe⟩ := hpool
  rcases pool.step_cases handle program action with
    hstep | ⟨cmd, hstep⟩ | ⟨cmd, op, next, thread, input, hmem, hstep⟩
  · rw [hstep]
    exact ⟨hinv, hsafe⟩
  · rw [hstep]
    obtain ⟨hinv', hrely, hrest⟩ := hinvoke cmd pool.seen hinv
    exact AllSafe.settle handle htrans pool.seen hsafe hinv' hrely hrest
  · rw [hstep]
    obtain ⟨hinv', hrely', hnext⟩ := hsafe _ hmem pool.seen (hrefl _) hinv input
    refine AllSafe.settle handle htrans pool.seen ?_ hinv' hrely' hnext
    intro other hother
    exact hsafe other (List.mem_of_mem_eraseIdx hother)

/-- **The general rule.**  If every command is safe when it is invoked, the
invariant holds after every schedule. -/
theorem run_safe (inv : Observation Cmd α σ → Prop)
    (rely : Observation Cmd α σ → Observation Cmd α σ → Prop) (hrefl : ∀ a, rely a a)
    (htrans : ∀ a b c, rely a b → rely b c → rely a c)
    (hinvoke : ∀ cmd seen, inv seen → inv (observe cmd seen (program cmd)) ∧ rely seen (observe cmd
      seen (program cmd)) ∧ (program cmd).Safe handle inv rely cmd (observe cmd seen (program cmd)))
    (hinit : inv (shared, [])) (schedule : List (Action Cmd ι)) :
    AllSafe handle inv rely ((Pool.initial shared).run handle program schedule) := by
  have hstart : AllSafe handle inv rely (Pool.initial shared : Pool I Cmd α σ) :=
    ⟨hinit, by intro entry hentry; exact absurd hentry List.not_mem_nil⟩
  generalize (Pool.initial shared : Pool I Cmd α σ) = pool at hstart
  induction schedule generalizing pool with
  | nil => exact hstart
  | cons action rest ih =>
      exact ih _ (AllSafe.step handle program htrans hinvoke hrefl hstart action)

end

/-! ## Invariants of the shared state alone -/

section
variable {inv : σ → Prop} {rely : σ → σ → Prop}

/-- Filing a program that meets its weakest precondition. -/
theorem Returned.observe {post : Cmd → α → σ → Prop} {cmd : Cmd} {rest : Program I α}
    {seen : Observation Cmd α σ} (hinv : inv seen.1)
    (hreturned : ∀ entry ∈ seen.2, post entry.1 entry.2 seen.1)
    (h : wp handle inv rely rest (post cmd) seen.1) :
    inv (Program.observe cmd seen rest).1 ∧
      ∀ entry ∈ (Program.observe cmd seen rest).2,
        post entry.1 entry.2 (Program.observe cmd seen rest).1 := by
  cases rest with
  | done value =>
      refine ⟨hinv, ?_⟩
      intro entry hentry
      rcases List.mem_append.mp hentry with hold | hlast
      · exact hreturned entry hold
      · rw [List.mem_singleton.mp hlast]
        exact h
  | call op next => exact ⟨hinv, hreturned⟩

/-- A client that meets its weakest precondition is safe, and what it ends with is known of
every call that returned. -/
theorem Safe.of_wp {post : Cmd → α → σ → Prop}
    (hstable : ∀ cmd value s s', rely s s' → post cmd value s → post cmd value s')
    {cmd : Cmd} {rest : Program I α} {seen : Observation Cmd α σ}
    (h : wp handle inv rely rest (post cmd) seen.1) :
    rest.Safe handle (fun seen : Observation Cmd α σ =>
        inv seen.1 ∧ ∀ entry ∈ seen.2, post entry.1 entry.2 seen.1)
      (fun a b => rely a.1 b.1) cmd seen := by
  induction rest generalizing seen with
  | done value => trivial
  | call op next ih =>
      rintro seen' hrely ⟨hinv, hreturned⟩ input
      obtain ⟨hinv', hrely', hnext⟩ := h seen'.1 hrely hinv input
      have hold : ∀ entry ∈ seen'.2, post entry.1 entry.2 (handle op input seen'.1).2 :=
        fun entry hentry => hstable _ _ _ _ hrely' (hreturned entry hentry)
      refine ⟨Returned.observe handle hinv' hold hnext, ?_, ih _ ?_⟩
      · simpa only [observe_fst] using hrely'
      · simpa only [observe_fst] using hnext

/-- **The compositional rule.**  If every command meets its weakest precondition from every
state of the invariant, the invariant holds after every schedule, the shared state has
moved along `rely`, and each call that has returned ended as its command is to end. -/
theorem run_returned (post : Cmd → α → σ → Prop) (hrefl : ∀ a, rely a a)
    (htrans : ∀ a b c, rely a b → rely b c → rely a c)
    (hstable : ∀ cmd value s s', rely s s' → post cmd value s → post cmd value s')
    (hcmd : ∀ cmd state, inv state → wp handle inv rely (program cmd) (post cmd) state)
    (hinit : inv shared) (schedule : List (Action Cmd ι)) :
    let after := (Pool.initial shared : Pool I Cmd α σ).run handle program schedule
    inv after.shared ∧ rely shared after.shared ∧
      ∀ entry ∈ after.finished, post entry.1 entry.2 after.shared := by
  let moved : σ → Prop := fun s => inv s ∧ rely shared s
  have hwp : ∀ cmd state, inv state →
      wp handle moved rely (program cmd) (post cmd) state := fun cmd state hstate =>
    wp_strengthen handle _ (fun _ _ hstep hpast => htrans _ _ _ hpast hstep)
      (hcmd cmd state hstate)
  have hsafe := run_safe handle program
    (fun seen : Observation Cmd α σ => moved seen.1 ∧
      ∀ entry ∈ seen.2, post entry.1 entry.2 seen.1)
    (fun a b => rely a.1 b.1) (fun a => hrefl a.1) (fun a b c => htrans a.1 b.1 c.1)
    (fun cmd seen hseen => by
      have hprogram := hwp cmd seen.1 hseen.1.1
      refine ⟨Returned.observe handle hseen.1 hseen.2 hprogram, ?_, Safe.of_wp handle hstable ?_⟩
      · simpa only [observe_fst] using hrefl seen.1
      · simpa only [observe_fst] using hprogram)
    ⟨⟨hinit, hrefl shared⟩, fun _ hentry => absurd hentry List.not_mem_nil⟩ schedule
  exact ⟨hsafe.1.1.1, hsafe.1.1.2, hsafe.1.2⟩

/-- The rule for an invariant of the shared state alone. -/
theorem run_invariant (post : α → σ → Prop) (hrefl : ∀ a, rely a a)
    (htrans : ∀ a b c, rely a b → rely b c → rely a c)
    (hcmd : ∀ cmd state, inv state → wp handle inv rely (program cmd) post state)
    (hinit : inv shared) (schedule : List (Action Cmd ι)) :
    inv ((Pool.initial shared : Pool I Cmd α σ).run handle program schedule).shared := by
  refine (run_returned handle program (fun _ _ _ => True) hrefl htrans
    (fun _ _ _ _ _ _ => trivial) ?_ hinit schedule).1
  intro cmd state hstate
  exact wp_mono handle (fun _ _ _ => trivial) (hcmd cmd state hstate)

end

end Pool

end Concurrency
end CargoPds
