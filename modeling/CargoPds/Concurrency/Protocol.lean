import Mathlib.Data.List.Forall2
import CargoPds.Concurrency.Program

/-!
# Clients that follow a protocol

The steps of a client depend on the answers it has seen.  A `Protocol` says
which operations a client with a given knowledge may perform and what it learns
from the answers, and `Obeys` says that a program keeps to it and ends with a
value that fits what it knows then.  This is a property of the text of a client
alone: it mentions neither the state of the object nor the other clients.

* `Complies` is the form for fallible clients, with one rule for each way of
  putting them together;
* `Pool.Obedient.step` and `Pool.Obedient.run`: if knowledge that is true stays
  true when others perform allowed operations, then all knowledge is true in
  every pool of obedient clients, and every step of it is an allowed one.
-/

namespace CargoPds
namespace Concurrency

variable {I : Interface} {Cmd κ α β σ ι ε : Type}

/-- What a client may do and what it learns from the answers. -/
structure Protocol (I : Interface) (κ : Type) where
  Allows : κ → I.Op → Prop
  learn : κ → (op : I.Op) → I.Resp op → κ

/-- The protocol with a further condition on the operations. -/
def Protocol.restrict (protocol : Protocol I κ) (Extra : κ → I.Op → Prop) : Protocol I κ where
  Allows known op := protocol.Allows known op ∧ Extra known op
  learn := protocol.learn

namespace Program

variable (protocol : Protocol I κ)
variable {P : α → κ → Prop} {f : α → ExceptT ε (Program I) β} {program : ExceptT ε (Program I) α}
variable {Q : β → κ → Prop}

/-- Every operation of the program is allowed, and at the end `P` holds. -/
def Obeys : Program I α → (α → κ → Prop) → κ → Prop
  | done value, P, known => P value known
  | call op next, P, known =>
      protocol.Allows known op ∧
        ∀ response, (next response).Obeys P (protocol.learn known op response)

theorem Obeys.mono {program : Program I α} {Q : α → κ → Prop} {known : κ}
    (hPQ : ∀ value k, P value k → Q value k) (h : program.Obeys protocol P known) :
    program.Obeys protocol Q known := by
  induction program generalizing known with
  | done value => exact hPQ value known h
  | call op next ih => exact ⟨h.1, fun response => ih response (h.2 response)⟩

theorem Obeys.bind {program : Program I α} {f : α → Program I β} {known : κ}
    (h : program.Obeys protocol P known)
    (hnext : ∀ value k, P value k → (f value).Obeys protocol Q k) :
    (program >>= f).Obeys protocol Q known := by
  induction program generalizing known with
  | done value => exact hnext value known h
  | call op next ih => exact ⟨h.1, fun response => ih response (h.2 response)⟩

/-- A client that keeps to the protocol and to a further condition. -/
theorem Obeys.restrict {Extra : κ → I.Op → Prop} {program : Program I α} {Q : α → κ → Prop}
    {known : κ} (h : program.Obeys protocol P known)
    (hextra : program.Obeys ⟨Extra, protocol.learn⟩ Q known) :
    program.Obeys (protocol.restrict Extra) P known := by
  induction program generalizing known with
  | done value => exact h
  | call op next ih =>
      exact ⟨⟨h.1, hextra.1⟩, fun response => ih response (h.2 response) (hextra.2 response)⟩

/-- Every client keeps to a protocol that allows everything. -/
theorem Obeys.of_allows (hallows : ∀ known op, protocol.Allows known op)
    (hP : ∀ value known, P value known) (program : Program I α) (known : κ) :
    program.Obeys protocol P known := by
  induction program generalizing known with
  | done value => exact hP value known
  | call op next ih => exact ⟨hallows known op, fun response => ih response _⟩

theorem Obeys.of_restrict {Extra : κ → I.Op → Prop} {program : Program I α} {known : κ}
    (h : program.Obeys (protocol.restrict Extra) P known) :
    program.Obeys protocol P known := by
  induction program generalizing known with
  | done value => exact h
  | call op next ih => exact ⟨h.1.1, fun response => ih response (h.2 response)⟩

/-! ### Fallible clients -/

/-- The program keeps to the protocol, with `P` at the end when it returns a
value and `E` when it fails.  Proofs go through the rules below. -/
@[irreducible] def Complies (program : ExceptT ε (Program I) α) (P : α → κ → Prop)
    (E : κ → Prop) (known : κ) : Prop :=
  program.run.Obeys protocol
    (fun result k => match result with
      | .ok value => P value k
      | .error _ => E k) known

theorem complies_iff_obeys {E : κ → Prop} {known : κ} :
    Complies protocol program P E known ↔ program.run.Obeys protocol
      (fun result k => match result with
        | .ok value => P value k
        | .error _ => E k) known := by
  unfold Complies
  exact Iff.rfl

variable {protocol} {E : κ → Prop} {known : κ}

/-- The rule for one operation. -/
theorem Complies.perform (op : I.Op) (decode : I.Resp op → Except ε α)
    {program : Program I (Except ε α)}
    (hprogram : program = .call op fun response => .done (decode response))
    (hallows : protocol.Allows known op)
    (hok : ∀ response value, decode response = .ok value → P value (protocol.learn known op
      response))
    (herror : ∀ response err, decode response = .error err → E (protocol.learn known op response)) :
    Complies protocol (Program.attempt program) P E known := by
  rw [complies_iff_obeys, hprogram]
  refine ⟨hallows, fun response => ?_⟩
  change match decode response with
    | .ok value => P value (protocol.learn known op response)
    | .error _ => E (protocol.learn known op response)
  cases hresponse : decode response with
  | ok value => exact hok response value hresponse
  | error err => exact herror response err hresponse

theorem Complies.compute {x : Except ε α} (hok : ∀ value, x = .ok value → P value known)
    (herror : E known) :
    Complies protocol (Program.compute x) P E known := by
  rw [complies_iff_obeys]
  cases x with
  | ok value => exact hok value rfl
  | error err => exact herror

theorem Complies.pure {value : α} (h : P value known) :
    Complies protocol (pure value : ExceptT ε (Program I) α) P E known :=
  (complies_iff_obeys protocol).mpr h

theorem Complies.bind (h : Complies protocol program P E known)
    (hnext : ∀ value k, P value k → Complies protocol (f value) Q E k) :
    Complies protocol (program >>= f) Q E known := by
  rw [complies_iff_obeys] at h ⊢
  refine Obeys.bind protocol h ?_
  rintro (err | value) k hresult
  · exact hresult
  · exact (complies_iff_obeys protocol).mp (hnext value k hresult)

/-- A computation between two operations. -/
theorem Complies.compute_bind {x : Except ε α} (herror : E known)
    (hnext : ∀ value, x = .ok value → Complies protocol (f value) Q E known) :
    Complies protocol (Program.compute x >>= f) Q E known := by
  refine Complies.bind (P := fun value k => x = .ok value ∧ k = known)
    (Complies.compute (fun value hvalue => ⟨hvalue, rfl⟩) herror) ?_
  rintro value k ⟨hvalue, rfl⟩
  exact hnext value hvalue

theorem Complies.mono {Q : α → κ → Prop} (hPQ : ∀ value k, P value k → Q value k)
    (h : Complies protocol program P E known) :
    Complies protocol program Q E known := by
  rw [complies_iff_obeys] at h ⊢
  refine Obeys.mono protocol ?_ h
  rintro (err | value) k hresult
  · exact hresult
  · exact hPQ value k hresult

/-- The rule for a loop.  The invariant speaks about the items that are done, their
values and the knowledge. -/
theorem Complies.forEach {items : List α} (J : List α → List β → κ → Prop) (hstart : J [] [] known)
    (hstep : ∀ finished values item k, J finished values k → Complies protocol (f item) (fun value
      k' => J (finished ++ [item]) (values ++ [value]) k') E k) :
    Complies protocol (Program.forEach f items) (fun values k => J items values k) E known := by
  -- the induction is on the items that are left
  have hloop : ∀ finished values, J finished values known →
      Complies protocol (Program.forEach f items)
        (fun rest k => J (finished ++ items) (values ++ rest) k) E known := by
    clear hstart
    induction items generalizing known with
    | nil =>
        intro finished values h
        refine Complies.pure ?_
        simpa using h
    | cons item rest ih =>
        intro finished values h
        refine Complies.bind (hstep finished values item known h) ?_
        intro value k hvalue
        refine Complies.bind (ih (finished ++ [item]) (values ++ [value]) hvalue) ?_
        intro others k' hothers
        refine Complies.pure ?_
        simpa using hothers
  simpa using hloop [] [] hstart

/-- The rule for a client with a fallback. -/
theorem Complies.orElse {recoverable : ε → Bool} {action : ExceptT ε (Program I) α}
    {fallback : ExceptT ε (Program I) (Option α)} (haction : Complies protocol action P E known)
    (hfallback : ∀ k, E k → Complies protocol fallback (fun found k' => E k' ∧ ∀ value, found = some
      value → P value k') E k) :
    Complies protocol (orElse recoverable action fallback) P E known := by
  rw [complies_iff_obeys] at haction ⊢
  refine Obeys.bind protocol haction ?_
  rintro (err | value) k hresult
  · cases hrecoverable : recoverable err with
    | false =>
        simp only [hrecoverable]
        exact hresult
    | true =>
        simp only [hrecoverable]
        refine Obeys.bind protocol ((complies_iff_obeys protocol).mp (hfallback k hresult)) ?_
        rintro (err' | _ | value) k' hfound
        · exact hfound
        · exact hfound.1
        · exact hfound.2 value rfl
  · exact hresult

end Program

/-! ## Pools -/

namespace Pool

open Program

variable (handle : (op : I.Op) → ι → σ → I.Resp op × σ)
variable (protocol : Cmd → Protocol I κ) (inv : σ → Prop) (Valid : κ → σ → Prop)
variable (rely : σ → σ → Prop) (post : α → κ → Prop)

/-- Allowed operations keep the invariant, and what a client knows stays true. -/
structure Sustains : Prop where
  step : ∀ cmd known state op input,
    inv state → Valid known state → (protocol cmd).Allows known op →
      inv (handle op input state).2 ∧ rely state (handle op input state).2 ∧
        Valid ((protocol cmd).learn known op (handle op input state).1) (handle op input state).2
  stable : ∀ known state state', rely state state' → Valid known state → Valid known state'
  refl : ∀ state, rely state state
  trans : ∀ a b c, rely a b → rely b c → rely a c

theorem Sustains.restrict {handle : (op : I.Op) → ι → σ → I.Resp op × σ}
    {protocol : Cmd → Protocol I κ} {inv : σ → Prop} {Valid : κ → σ → Prop}
    {rely : σ → σ → Prop} (h : Sustains handle protocol inv Valid rely)
    (Extra : Cmd → κ → I.Op → Prop) :
    Sustains handle (fun cmd => (protocol cmd).restrict (Extra cmd)) inv Valid rely :=
  { h with
    step := fun cmd known state op input hinv hvalid hallows =>
      h.step cmd known state op input hinv hvalid hallows.1 }

/-- What clients have learnt may be known to have a form that no later step can change. -/
theorem Sustains.remember {handle : (op : I.Op) → ι → σ → I.Resp op × σ}
    {protocol : Cmd → Protocol I κ} {inv : σ → Prop} {Valid : κ → σ → Prop}
    {rely : σ → σ → Prop} (h : Sustains handle protocol inv Valid rely) {Form : κ → Prop}
    (hform : ∀ cmd known state op input, inv state → Form known →
      Form ((protocol cmd).learn known op (handle op input state).1)) :
    Sustains handle protocol inv (fun known state => Valid known state ∧ Form known) rely :=
  { h with
    stable := fun known state state' hrely hvalid =>
      ⟨h.stable known state state' hrely hvalid.1, hvalid.2⟩
    step := fun cmd known state op input hinv hvalid hallows =>
      have hstep := h.step cmd known state op input hinv hvalid.1 hallows
      ⟨hstep.1, hstep.2.1, hstep.2.2, hform cmd known state op input hinv hvalid.2⟩ }

/-- Every running client obeys the protocol of its command with knowledge that is
true. -/
def Obedient (pool : Pool I Cmd α σ) : Prop :=
  inv pool.shared ∧ ∀ entry ∈ pool.running,
    ∃ known, Valid known pool.shared ∧ entry.2.Obeys (protocol entry.1) post known

/-- One client has performed an allowed operation. -/
def Performs (pool pool' : Pool I Cmd α σ) : Prop :=
  ∃ (cmd : Cmd) (op : I.Op) (next : I.Resp op → Program I α) (known : κ) (input : ι)
    (others : List (Cmd × Program I α)),
    inv pool.shared ∧ Valid known pool.shared ∧ (protocol cmd).Allows known op ∧
      (next (handle op input pool.shared).1).Obeys (protocol cmd) post
        ((protocol cmd).learn known op (handle op input pool.shared).1) ∧
      pool' = (⟨(handle op input pool.shared).2, others, pool.finished⟩ :
        Pool I Cmd α σ).settle cmd (next (handle op input pool.shared).1)

variable {handle protocol inv Valid rely post} {program : Cmd → Program I α}

/-- **Step lemma.**  An action leaves the shared state alone or performs an
allowed operation, and every client stays obedient. -/
theorem Obedient.step (hsustains : Sustains handle protocol inv Valid rely)
    (hprogram : ∀ cmd state, inv state → ∃ known, Valid known state ∧
      (program cmd).Obeys (protocol cmd) post known)
    {pool : Pool I Cmd α σ} (h : Obedient protocol inv Valid post pool)
    (action : Action Cmd ι) :
    Obedient protocol inv Valid post (pool.step handle program action) ∧
      ((pool.step handle program action).shared = pool.shared ∨
        Performs handle protocol inv Valid post pool (pool.step handle program action)) := by
  rcases pool.step_cases handle program action with
    hstep | ⟨cmd, hstep⟩ | ⟨cmd, op, next, thread, input, hmem, hstep⟩
  · rw [hstep]
    exact ⟨h, Or.inl rfl⟩
  · rw [hstep]
    refine ⟨⟨?_, ?_⟩, Or.inl (shared_settle _ _ _)⟩
    · rw [shared_settle]
      exact h.1
    · intro entry hentry
      rw [shared_settle]
      rcases mem_running_settle hentry with hold | rfl
      · exact h.2 entry hold
      · exact hprogram cmd _ h.1
  · rw [hstep]
    obtain ⟨known, hvalid, hallows, hnext⟩ := h.2 _ hmem
    obtain ⟨hinv, hrely, hlearnt⟩ :=
      hsustains.step cmd known pool.shared op input h.1 hvalid hallows
    refine ⟨⟨?_, ?_⟩, Or.inr ⟨cmd, op, next, known, input, _, h.1, hvalid, hallows, hnext _, rfl⟩⟩
    · rw [shared_settle]
      exact hinv
    · intro other hother
      rw [shared_settle]
      rcases mem_running_settle hother with hold | rfl
      · -- the other clients keep what they knew
        obtain ⟨known', hvalid', hobeys⟩ := h.2 other (List.mem_of_mem_eraseIdx hold)
        exact ⟨known', hsustains.stable _ _ _ hrely hvalid', hobeys⟩
      · exact ⟨_, hlearnt, hnext _⟩

theorem Performs.tolerated (hsustains : Sustains handle protocol inv Valid rely)
    {pool pool' : Pool I Cmd α σ} (h : Performs handle protocol inv Valid post pool pool') :
    rely pool.shared pool'.shared := by
  obtain ⟨cmd, op, next, known, input, others, hinv, hvalid, hallows, -, rfl⟩ := h
  rw [shared_settle]
  exact (hsustains.step cmd known pool.shared op input hinv hvalid hallows).2.1

/-- **Run lemma.** -/
theorem Obedient.run (hsustains : Sustains handle protocol inv Valid rely)
    (hprogram : ∀ cmd state, inv state → ∃ known, Valid known state ∧
      (program cmd).Obeys (protocol cmd) post known)
    {pool : Pool I Cmd α σ} (h : Obedient protocol inv Valid post pool)
    (schedule : List (Action Cmd ι)) :
    Obedient protocol inv Valid post (pool.run handle program schedule) ∧
      rely pool.shared (pool.run handle program schedule).shared := by
  induction schedule generalizing pool with
  | nil => exact ⟨h, hsustains.refl _⟩
  | cons action rest ih =>
      obtain ⟨hstep, hcases⟩ := h.step hsustains hprogram action
      obtain ⟨hrun, hlater⟩ := ih hstep
      refine ⟨hrun, hsustains.trans _ _ _ ?_ hlater⟩
      rcases hcases with hsame | hperforms
      · rw [hsame]
        exact hsustains.refl _
      · exact hperforms.tolerated hsustains

theorem Obedient.initial {state : σ} (h : inv state) :
    Obedient protocol inv Valid post (Pool.initial state : Pool I Cmd α σ) :=
  ⟨h, fun _ hentry => absurd hentry List.not_mem_nil⟩

end Pool

end Concurrency
end CargoPds
