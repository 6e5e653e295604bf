import CargoPds.Evaluation.Edits

/-!
# Rules for runs

The results about an aggregate are about every client.  This file turns what
`Edits` says about one operation into rules for whole scripts:

* `Script.run_relates_of_guard`: a reflexive and transitive relation that every
  operation respects, and that survives an atomic mutation, holds between the
  aggregate before a script and the aggregate after it;
* `Script.moments_pairwise_of_guard`: it then holds between any two moments of a
  run;
* `Script.states_invariant`: what every operation keeps under a condition on the
  call holds in all states of a run whose calls meet the condition;
* `Script.follows`: the identity of an aggregate stays and its version does not
  go back, failed mutations included.
-/

namespace CargoPds
namespace Evaluation

open Fallible

variable {client : Script} {e : EvaluationAggregate}

namespace Script

/-- Every operation that the script may call satisfies `allowed`. -/
def Calls (allowed : Operation → Prop) : Script → Prop
  | finish _ => True
  | call op next => allowed op ∧ ∀ reply, (next reply).Calls allowed
  | applyAtomicMutation _ mutation next =>
      mutation.Calls allowed ∧ ∀ reply, (next reply).Calls allowed

theorem calls_any (client : Script) : client.Calls fun _ => True := by
  induction client with
  | finish result => trivial
  | call op next ih => exact ⟨trivial, ih⟩
  | applyAtomicMutation occurredAt mutation next ihmutation ih => exact ⟨ihmutation, ih⟩

/-- The last moment of a run is what it leaves behind. -/
theorem run_mem_moments (client : Script) (e : EvaluationAggregate) :
    (client.run e).2 ∈ client.moments e := by
  induction client generalizing e with
  | finish result => exact List.mem_singleton_self e
  | call op next ih => exact List.mem_cons_of_mem _ (ih _ _)
  | applyAtomicMutation occurredAt mutation next ihmutation ih =>
      exact List.mem_cons_of_mem _ (ih _ _)

section
variable (R : EvaluationAggregate → EvaluationAggregate → Prop)
variable (hrefl : ∀ e, R e e) (htrans : ∀ a b c, R a b → R b c → R a c)

section
variable (Guard : Script → EvaluationAggregate → Prop)
variable (hcall : ∀ op next e, Guard (.call op next) e →
  R e (op.apply e).2 ∧ Guard (next (op.apply e)) (op.apply e).2)
variable (hmutate : ∀ occurredAt mutation next e,
  Guard (.applyAtomicMutation occurredAt mutation next) e →
    (Guard mutation e → R e (mutation.run e).2) →
    R e (e.applyAtomicMutation occurredAt mutation.run).2 ∧
      Guard (next (e.applyAtomicMutation occurredAt mutation.run))
        (e.applyAtomicMutation occurredAt mutation.run).2)

include hrefl htrans hcall hmutate

/-- **The rule for runs**, for the scripts and states of a guard that is inherited by
what is left to do. -/
theorem run_relates_of_guard (hguard : Guard client e) : R e (client.run e).2 := by
  induction client generalizing e with
  | finish result => exact hrefl e
  | call op next ih =>
      obtain ⟨hop, hnext⟩ := hcall op next e hguard
      exact htrans _ _ _ hop (ih _ hnext)
  | applyAtomicMutation occurredAt mutation next ihmutation ih =>
      obtain ⟨hatomic, hnext⟩ := hmutate occurredAt mutation next e hguard ihmutation
      exact htrans _ _ _ hatomic (ih _ hnext)

/-- The first moment of a run is related to all of them. -/
theorem moments_related_of_guard {moment : EvaluationAggregate} (hguard : Guard client e)
    (hmoment : moment ∈ client.moments e) : R e moment := by
  induction client generalizing e with
  | finish result =>
      rw [List.mem_singleton.mp hmoment]
      exact hrefl e
  | call op next ih =>
      rcases List.mem_cons.mp hmoment with rfl | hlater
      · exact hrefl moment
      · obtain ⟨hop, hnext⟩ := hcall op next e hguard
        exact htrans _ _ _ hop (ih _ hnext hlater)
  | applyAtomicMutation occurredAt mutation next ihmutation ih =>
      rcases List.mem_cons.mp hmoment with rfl | hlater
      · exact hrefl moment
      · obtain ⟨hatomic, hnext⟩ := hmutate occurredAt mutation next e hguard
          (run_relates_of_guard R hrefl htrans Guard hcall hmutate)
        exact htrans _ _ _ hatomic (ih _ hnext hlater)

/-- Every moment of a run is related to the later ones. -/
theorem moments_pairwise_of_guard (hguard : Guard client e) : (client.moments e).Pairwise R := by
  induction client generalizing e with
  | finish result => exact List.pairwise_singleton R e
  | call op next ih =>
      obtain ⟨hop, hnext⟩ := hcall op next e hguard
      refine List.pairwise_cons.mpr ⟨?_, ih _ hnext⟩
      intro moment hmoment
      exact htrans _ _ _ hop
        (moments_related_of_guard R hrefl htrans Guard hcall hmutate hnext hmoment)
  | applyAtomicMutation occurredAt mutation next ihmutation ih =>
      obtain ⟨hatomic, hnext⟩ := hmutate occurredAt mutation next e hguard
        (run_relates_of_guard R hrefl htrans Guard hcall hmutate)
      refine List.pairwise_cons.mpr ⟨?_, ih _ hnext⟩
      intro moment hmoment
      exact htrans _ _ _ hatomic
        (moments_related_of_guard R hrefl htrans Guard hcall hmutate hnext hmoment)

end

/-! The guard of most results is the set of operations a script may call. -/

variable {allowed : Operation → Prop}
variable (hop : ∀ op e, allowed op → R e (op.apply e).2)
variable (hatomic : ∀ (e : EvaluationAggregate) occurredAt mutation, R e (mutation e).2 →
  R e (e.applyAtomicMutation occurredAt mutation).2)

include hrefl htrans hop hatomic

theorem run_relates (hcalls : client.Calls allowed) (e : EvaluationAggregate) :
    R e (client.run e).2 :=
  run_relates_of_guard R hrefl htrans (fun client _ => client.Calls allowed)
    (fun op _ e h => ⟨hop op e h.1, h.2 _⟩)
    (fun occurredAt mutation _ e h hrun =>
      ⟨hatomic e occurredAt mutation.run (hrun h.1), h.2 _⟩) hcalls

theorem moments_related (hcalls : client.Calls allowed) {moment : EvaluationAggregate}
    (hmoment : moment ∈ client.moments e) : R e moment :=
  moments_related_of_guard R hrefl htrans (fun client _ => client.Calls allowed)
    (fun op _ e h => ⟨hop op e h.1, h.2 _⟩)
    (fun occurredAt mutation _ e h hrun =>
      ⟨hatomic e occurredAt mutation.run (hrun h.1), h.2 _⟩) hcalls hmoment

theorem moments_pairwise (hcalls : client.Calls allowed) (e : EvaluationAggregate) :
    (client.moments e).Pairwise R :=
  moments_pairwise_of_guard R hrefl htrans (fun client _ => client.Calls allowed)
    (fun op _ e h => ⟨hop op e h.1, h.2 _⟩)
    (fun occurredAt mutation _ e h hrun =>
      ⟨hatomic e occurredAt mutation.run (hrun h.1), h.2 _⟩) hcalls

end

/-! ## All states of a run -/

section
variable (R : EvaluationAggregate → EvaluationAggregate → Prop)
variable (hrefl : ∀ e, R e e) (htrans : ∀ a b c, R a b → R b c → R a c)
variable (hop : ∀ (op : Operation) (e : EvaluationAggregate), R e (op.apply e).2)
variable (hatomic : ∀ (e : EvaluationAggregate) occurredAt mutation,
  R (mutation e).2 (e.applyAtomicMutation occurredAt mutation).2)

include hrefl htrans hop hatomic

/-- A state of a run lies between the first one and the last one. -/
theorem states_related {state : EvaluationAggregate} (hstate : state ∈ client.states e) :
    R e state ∧ R state (client.run e).2 := by
  have hrun (client : Script) (e : EvaluationAggregate) : R e (client.run e).2 :=
    run_relates R hrefl htrans (fun op e _ => hop op e)
      (fun e occurredAt mutation h => htrans _ _ _ h (hatomic e occurredAt mutation))
      client.calls_any e
  induction client generalizing e with
  | finish result =>
      rw [List.mem_singleton.mp hstate]
      exact ⟨hrefl e, hrefl e⟩
  | call op next ih =>
      rcases List.mem_cons.mp hstate with rfl | hlater
      · exact ⟨hrefl state, hrun _ state⟩
      · obtain ⟨hfirst, hlast⟩ := ih _ hlater
        exact ⟨htrans _ _ _ (hop op e) hfirst, hlast⟩
  | applyAtomicMutation occurredAt mutation next ihmutation ih =>
      have hsettled := hatomic e occurredAt mutation.run
      rcases List.mem_append.mp hstate with hinner | hlater
      · obtain ⟨hfirst, hlast⟩ := ihmutation hinner
        exact ⟨hfirst, htrans _ _ _ hlast (htrans _ _ _ hsettled (hrun _ _))⟩
      · obtain ⟨hfirst, hlast⟩ := ih _ hlater
        exact ⟨htrans _ _ _ (hrun mutation e) (htrans _ _ _ hsettled hfirst), hlast⟩

/-- Every state of a run is related to the later ones, if this is so for what a
mutation function leaves behind and what its mutation makes of it. -/
theorem states_pairwise (client : Script) (e : EvaluationAggregate) :
    (client.states e).Pairwise R := by
  induction client generalizing e with
  | finish result => exact List.pairwise_singleton R e
  | call op next ih =>
      refine List.pairwise_cons.mpr ⟨?_, ih _ _⟩
      intro state hstate
      exact htrans _ _ _ (hop op e) (states_related R hrefl htrans hop hatomic hstate).1
  | applyAtomicMutation occurredAt mutation next ihmutation ih =>
      refine List.pairwise_append.mpr ⟨ihmutation e, ih _ _, ?_⟩
      intro inner hinner later hlater
      have hleft := (states_related R hrefl htrans hop hatomic hinner).2
      have hright := (states_related R hrefl htrans hop hatomic hlater).1
      exact htrans _ _ _ hleft (htrans _ _ _ (hatomic e occurredAt mutation.run) hright)

end

/-! ## Conditions on calls -/

/-- Every call of a run that is not refused, those of its mutation functions included,
meets a condition on the operation and on the aggregate it finds. -/
def Meets (condition : Operation → EvaluationAggregate → Prop) :
    Script → EvaluationAggregate → Prop
  | finish _, _ => True
  | call op next, e =>
      (op.Succeeds e → condition op e) ∧ (next (op.apply e)).Meets condition (op.apply e).2
  | applyAtomicMutation occurredAt mutation next, e =>
      mutation.Meets condition e ∧
        (next (e.applyAtomicMutation occurredAt mutation.run)).Meets condition
          (e.applyAtomicMutation occurredAt mutation.run).2

instance decidableMeets (condition : Operation → EvaluationAggregate → Prop)
    [∀ op e, Decidable (condition op e)] :
    (client : Script) → (e : EvaluationAggregate) → Decidable (client.Meets condition e)
  | finish _, _ => inferInstanceAs (Decidable True)
  | call op next, e =>
      @instDecidableAnd _ _ inferInstance
        (decidableMeets condition (next (op.apply e)) (op.apply e).2)
  | applyAtomicMutation occurredAt mutation next, e =>
      @instDecidableAnd _ _ (decidableMeets condition mutation e)
        (decidableMeets condition (next (e.applyAtomicMutation occurredAt mutation.run))
          (e.applyAtomicMutation occurredAt mutation.run).2)

section
variable (Inv : EvaluationAggregate → Prop)
variable {condition : Operation → EvaluationAggregate → Prop}
variable (hop : ∀ (op : Operation) e, (op.Succeeds e → condition op e) → Inv e →
  Inv (op.apply e).2)
variable (hatomic : ∀ (e : EvaluationAggregate) occurredAt mutation, Inv e →
  Inv (mutation e).2 → Inv (e.applyAtomicMutation occurredAt mutation).2)

include hop hatomic

theorem run_invariant (hmeets : client.Meets condition e) (he : Inv e) : Inv (client.run e).2 := by
  refine run_relates_of_guard (fun before after => Inv before → Inv after) (fun _ h => h)
    (fun _ _ _ hab hbc h => hbc (hab h)) (Meets condition) ?_ ?_ hmeets he
  · intro op next e hguard
    exact ⟨hop op e hguard.1, hguard.2⟩
  · intro occurredAt mutation next e hguard hrun
    exact ⟨fun h => hatomic e occurredAt mutation.run h (hrun hguard.1 h), hguard.2⟩

/-- **The rule for invariants** that need a condition on the calls: they hold in
every state of the run, also inside its mutation functions. -/
theorem states_invariant {state : EvaluationAggregate} (hmeets : client.Meets condition e)
    (he : Inv e) (hstate : state ∈ client.states e) :
    Inv state := by
  induction client generalizing e with
  | finish result =>
      rw [List.mem_singleton.mp hstate]
      exact he
  | call op next ih =>
      rcases List.mem_cons.mp hstate with rfl | hlater
      · exact he
      · exact ih _ hmeets.2 (hop op e hmeets.1 he) hlater
  | applyAtomicMutation occurredAt mutation next ihmutation ih =>
      rcases List.mem_append.mp hstate with hinner | hlater
      · exact ihmutation hmeets.1 he hinner
      · have hrun := run_invariant Inv hop hatomic hmeets.1 he
        exact ih _ hmeets.2 (hatomic e occurredAt mutation.run he hrun) hlater

end

end Script

/-- An atomic mutation files history after its function, or puts the copies
back. -/
theorem EvaluationAggregate.applyAtomicMutation_cases (e : EvaluationAggregate)
    (occurredAt : Time)
    (mutation : EvaluationAggregate → Except Error Unit × EvaluationAggregate) :
    ((e.applyAtomicMutation occurredAt mutation).1 = .ok () ∧
      (mutation e).2.recordHistory occurredAt =
        .ok (e.applyAtomicMutation occurredAt mutation).2) ∨
    ((∃ err, (e.applyAtomicMutation occurredAt mutation).1 = .error err) ∧
      (e.applyAtomicMutation occurredAt mutation).2 =
        (mutation e).2.restoreMutableState e.captureMutableState) := by
  unfold EvaluationAggregate.applyAtomicMutation
  cases hreply : (mutation e).1 with
  | error err =>
      simp only [hreply]
      exact Or.inr ⟨⟨err, rfl⟩, trivial⟩
  | ok value =>
      cases hrecord : (mutation e).2.recordHistory occurredAt with
      | error err =>
          simp only [hreply, hrecord]
          exact Or.inr ⟨⟨err, rfl⟩, trivial⟩
      | ok e' =>
          simp only [hreply, hrecord]
          exact Or.inl ⟨trivial, trivial⟩

/-- A function that succeeds, on an aggregate that can be filed, is not undone. -/
theorem EvaluationAggregate.applyAtomicMutation_isOk {occurredAt : Time}
    {mutation : EvaluationAggregate → Except Error Unit × EvaluationAggregate}
    (hreply : (mutation e).1.isOk) (hrecord : ((mutation e).2.recordHistory occurredAt).isOk) :
    (e.applyAtomicMutation occurredAt mutation).1 = .ok () := by
  unfold applyAtomicMutation
  cases hvalue : (mutation e).1 with
  | error err =>
      rw [hvalue] at hreply
      exact absurd hreply Bool.false_ne_true
  | ok value =>
      cases hfiled : (mutation e).2.recordHistory occurredAt with
      | error err =>
          rw [hfiled] at hrecord
          exact absurd hrecord Bool.false_ne_true
      | ok e' => simp only [hvalue, hfiled]

/-! ## What stays -/

/-- A later state of the same aggregate. -/
structure Follows (e e' : EvaluationAggregate) : Prop where
  evaluationID : e'.evaluationID = e.evaluationID
  sessionID : e'.sessionID = e.sessionID
  createdAt : e'.createdAt = e.createdAt
  version : e.version ≤ e'.version
  reason : e.cancellationReason ≠ "" → e'.cancellationReason ≠ ""

namespace Follows

variable {e e' e'' : EvaluationAggregate}

theorem refl (e : EvaluationAggregate) : Follows e e :=
  ⟨rfl, rfl, rfl, Nat.le_refl _, fun h => h⟩

theorem trans (first : Follows e e') (second : Follows e' e'') : Follows e e'' :=
  ⟨second.evaluationID.trans first.evaluationID, second.sessionID.trans first.sessionID,
    second.createdAt.trans first.createdAt, first.version.trans second.version,
    fun h => second.reason (first.reason h)⟩

/-- A change keeps the identity and the version; raising it adds one to the
version. -/
theorem of_edit (h : Edit e e') : Follows e e' ∧ e'.version = e.version + 1 := by
  obtain ⟨changed, body, hchange, rfl⟩ := h
  cases hchange with
  | cancelled _ _ hreason =>
      exact ⟨⟨rfl, rfl, rfl, Nat.le_succ _, fun _ => hreason⟩, rfl⟩
  | started | completed | expired | ruleRequired | evidenceBound | policyBound | edited
  | checkpointCreated | rolledBack =>
      exact ⟨⟨rfl, rfl, rfl, Nat.le_succ _, fun h => h⟩, rfl⟩

theorem of_edits (h : Edits e e') : Follows e e' := by
  induction h with
  | refl => exact refl e
  | tail _ hlast ih => exact ih.trans (of_edit hlast).1

theorem of_recordHistory {recordedAt : Time} (h : e.recordHistory recordedAt = .ok e') :
    Follows e e' := by
  obtain ⟨-, -, -, rfl⟩ := EvaluationAggregate.recordHistory_eq_ok h
  exact ⟨rfl, rfl, rfl, Nat.le_refl _, fun h => h⟩

theorem of_operation (op : Operation) (e : EvaluationAggregate) :
    Follows e (op.apply e).2 := by
  rcases op.apply_cases e with hedits | ⟨_, _, hrecord⟩ | ⟨_, hclear⟩
  · exact of_edits hedits
  · exact of_recordHistory hrecord
  · rw [hclear]
    exact ⟨rfl, rfl, rfl, Nat.le_refl _, fun h => h⟩

theorem of_atomic (e : EvaluationAggregate) (occurredAt : Time)
    (mutation : EvaluationAggregate → Except Error Unit × EvaluationAggregate)
    (h : Follows e (mutation e).2) :
    Follows e (e.applyAtomicMutation occurredAt mutation).2 := by
  rcases e.applyAtomicMutation_cases occurredAt mutation with ⟨-, hrecord⟩ | ⟨-, hrestore⟩
  · exact h.trans (of_recordHistory hrecord)
  · rw [hrestore]
    exact ⟨h.evaluationID, h.sessionID, h.createdAt, Nat.le_refl _, h.reason⟩

end Follows

/-- Changes raise the version. -/
theorem Edits.eq_or_version_lt {e' : EvaluationAggregate} (h : Edits e e') :
    e' = e ∨ e.version < e'.version := by
  rcases Relation.ReflTransGen.cases_tail h with rfl | ⟨middle, hmiddle, hlast⟩
  · exact Or.inl rfl
  · have hle := (Follows.of_edits hmiddle).version
    have hsucc := (Follows.of_edit hlast).2
    exact Or.inr (by omega)

/-- An ended evaluation stays as it is. -/
theorem Edits.eq_of_terminal {e' : EvaluationAggregate} (h : Edits e e')
    (hended : e.state.IsTerminal) : e' = e := by
  rcases Relation.ReflTransGen.cases_head h with hsame | ⟨middle, hfirst, -⟩
  · exact hsame.symm
  · obtain ⟨changed, body, hchange, -⟩ := hfirst
    exact absurd hended hchange.not_terminal

/-- A change adds the event of the next version. -/
theorem Edit.domainEvents {e' : EvaluationAggregate} (h : Edit e e') :
    ∃ body, e'.domainEvents =
      e.domainEvents ++ [⟨e.evaluationID, e.sessionID, e.version + 1, body⟩] := by
  obtain ⟨changed, body, hchange, rfl⟩ := h
  refine ⟨body, ?_⟩
  cases hchange <;> rfl

/-- Changes number their events with the versions they lead to. -/
theorem Edits.domainEvents {e' : EvaluationAggregate} (h : Edits e e') :
    ∃ news, e'.domainEvents = e.domainEvents ++ news ∧
      news.map (·.version) = List.range' (e.version + 1) (e'.version - e.version) ∧
      ∀ event ∈ news, event.evaluationID = e.evaluationID := by
  induction h with
  | refl => exact ⟨[], by simp, by simp, by simp⟩
  | @tail middle last hmiddle hlast ih =>
      obtain ⟨news, hevents, hversions, hids⟩ := ih
      obtain ⟨body, hadded⟩ := hlast.domainEvents
      have hfollows := Follows.of_edits hmiddle
      have hle := hfollows.version
      have hsucc := (Follows.of_edit hlast).2
      refine ⟨news ++ [⟨middle.evaluationID, middle.sessionID, middle.version + 1, body⟩], ?_,
        ?_, ?_⟩
      · rw [hadded, hevents, List.append_assoc]
      · have hcount : last.version - e.version = middle.version - e.version + 1 := by omega
        have hlastVersion : e.version + 1 + 1 * (middle.version - e.version) =
            middle.version + 1 := by omega
        rw [List.map_append, hversions, hcount, List.range'_concat, hlastVersion]
        rfl
      · intro event hevent
        rcases List.mem_append.mp hevent with hold | hnew
        · exact hids event hold
        · rw [List.mem_singleton.mp hnew]
          exact hfollows.evaluationID

theorem Script.follows (client : Script) (e : EvaluationAggregate) :
    Follows e (client.run e).2 :=
  Script.run_relates Follows Follows.refl (fun _ _ _ => Follows.trans)
    (fun op e _ => Follows.of_operation op e) Follows.of_atomic client.calls_any e

end Evaluation
end CargoPds
