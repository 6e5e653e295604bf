import CargoPds.Evaluation.Invariant

/-!
# Bindings come before outcomes

An evidence or a policy binding governs the outcomes that are recorded under it,
so it can be attached only while nothing is recorded.  The check looks at the
outcomes of the moment, and outcomes come and go: checkpoints keep them, resets
and removals take them away, rollbacks bring them back.

The aggregate does not keep the versions at which its bindings and outcomes came
in, but its events tell them.  `Provenance` follows the events and `Account` pairs
an aggregate with what they told so far.

* `Script.map_aggregate_accounts`: the accounts of a run are its states.
* `Account.Consistent`: what is recorded came after what is bound, and the same is
  so for a checkpoint and the bindings that are not younger than it.
* Two things can undo the order, and `Script.Orderly` is the condition that rules
  them out: a rollback to outcomes older than a binding, and a mutation that fails
  after it has attached a binding, since the outcomes are put back and the
  binding stays.
-/

namespace CargoPds
namespace Evaluation

open Fallible Text

variable {a : Account} {p : Provenance}

/-! ## What the events tell -/

/-- The versions at which things came in: the bindings, the outcome of each rule,
and the outcomes that each checkpoint keeps. -/
structure Provenance where
  evidenceBoundAt : Option Nat
  policyBoundAt : Option Nat
  recordedAt : String → Option Nat
  checkpointed : String → String → Option Nat

namespace Provenance

/-- Before the first event. -/
def unknown : Provenance := ⟨none, none, fun _ => none, fun _ _ => none⟩

/-- Outcomes are recorded or replaced. -/
def record (p : Provenance) (version : Nat) (outcomes : List RuleOutcome) : Provenance :=
  { p with
    recordedAt := fun ruleID =>
      if ruleID ∈ outcomes.map (·.ruleID) then some version else p.recordedAt ruleID }

/-- What is known after one more event. -/
def follow (p : Provenance) (event : DomainEvent) : Provenance :=
  match event.body with
  | .evidenceSetBound _ => { p with evidenceBoundAt := some event.version }
  | .verificationPolicyBound _ => { p with policyBoundAt := some event.version }
  | .evaluationCheckpointCreated name _ =>
      { p with checkpointed := Function.update p.checkpointed name p.recordedAt }
  | .evaluationRolledBack name _ => { p with recordedAt := p.checkpointed name }
  | body => p.record event.version body.recorded

/-- A binding was attached at the version. -/
def Bound (p : Provenance) (version : Nat) : Prop :=
  version ∈ p.evidenceBoundAt ∨ version ∈ p.policyBoundAt

/-- What was known about the bindings is still known. -/
structure Keeps (p p' : Provenance) : Prop where
  evidence : ∀ version ∈ p.evidenceBoundAt, version ∈ p'.evidenceBoundAt
  policy : ∀ version ∈ p.policyBoundAt, version ∈ p'.policyBoundAt

theorem Keeps.refl (p : Provenance) : p.Keeps p := ⟨fun _ h => h, fun _ h => h⟩

theorem Keeps.trans {p' p'' : Provenance} (first : p.Keeps p') (second : p'.Keeps p'') :
    p.Keeps p'' :=
  ⟨fun v h => second.evidence v (first.evidence v h),
    fun v h => second.policy v (first.policy v h)⟩

theorem record_nil (p : Provenance) (version : Nat) : p.record version [] = p := by
  simp only [record, List.map_nil, List.not_mem_nil, if_false]

theorem follow_of_edit {event : DomainEvent} {edit : List RuleOutcome → List RuleOutcome}
    (h : event.body.edit = some edit) :
    p.follow event = p.record event.version event.body.recorded := by
  unfold follow
  cases hbody : event.body <;> rw [hbody] at h <;> first | rfl | cases h

theorem follow_completion (p : Provenance) (evaluationID sessionID : UUID) (version : Nat)
    (result : VerificationResult) (reasons : List ReasonCode) (t : Time) :
    p.follow ⟨evaluationID, sessionID, version,
      EvaluationAggregate.completionEvent result reasons t⟩ = p := by
  unfold EvaluationAggregate.completionEvent
  split <;> exact p.record_nil version

end Provenance

/-- An aggregate and the provenance of what it holds. -/
structure Account where
  aggregate : EvaluationAggregate
  provenance : Provenance

namespace Account

/-- The account of an aggregate that was just created. -/
def opened (e : EvaluationAggregate) : Account := ⟨e, Provenance.unknown⟩

/-- One operation; the events that it adds are followed. -/
def call (a : Account) (op : Operation) : Account where
  aggregate := (op.apply a.aggregate).2
  provenance := ((op.apply a.aggregate).2.domainEvents.drop
    a.aggregate.domainEvents.length).foldl Provenance.follow a.provenance

/-- The end of an atomic mutation.  A mutation that fails puts the outcomes and the
checkpoints back and leaves the bindings as its function left them. -/
def settle (a inner : Account) (reply : Except Error Unit × EvaluationAggregate) : Account where
  aggregate := reply.2
  provenance :=
    match reply.1 with
    | .ok () => inner.provenance
    | .error _ =>
        { a.provenance with
          evidenceBoundAt := inner.provenance.evidenceBoundAt
          policyBoundAt := inner.provenance.policyBoundAt }

/-- Whenever a binding and an outcome are both present, the outcome was recorded or
replaced at a later version than the binding was attached. -/
def BoundFirst (a : Account) : Prop :=
  ∀ outcome ∈ a.aggregate.ruleOutcomes,
    ∃ recordedAt ∈ a.provenance.recordedAt outcome.ruleID,
      (a.aggregate.evidenceBinding ≠ none →
        ∃ boundAt ∈ a.provenance.evidenceBoundAt, boundAt < recordedAt) ∧
      (a.aggregate.policyBinding ≠ none →
        ∃ boundAt ∈ a.provenance.policyBoundAt, boundAt < recordedAt)
deriving Decidable

end Account

namespace Script

/-- The account that a client leaves behind. -/
def account : Script → Account → Account
  | finish _, a => a
  | call op next, a => (next (op.apply a.aggregate)).account (a.call op)
  | applyAtomicMutation occurredAt mutation next, a =>
      (next (a.aggregate.applyAtomicMutation occurredAt mutation.run)).account
        (a.settle (mutation.account a)
          (a.aggregate.applyAtomicMutation occurredAt mutation.run))

/-- The accounts of all states of a run. -/
def accounts : Script → Account → List Account
  | finish _, a => [a]
  | call op next, a => a :: (next (op.apply a.aggregate)).accounts (a.call op)
  | applyAtomicMutation occurredAt mutation next, a =>
      mutation.accounts a ++
        (next (a.aggregate.applyAtomicMutation occurredAt mutation.run)).accounts
          (a.settle (mutation.account a)
            (a.aggregate.applyAtomicMutation occurredAt mutation.run))

theorem aggregate_account (client : Script) (a : Account) :
    (client.account a).aggregate = (client.run a.aggregate).2 := by
  induction client generalizing a with
  | finish result => rfl
  | call op next ih => exact ih _ _
  | applyAtomicMutation occurredAt mutation next ihmutation ih => exact ih _ _

/-- The accounts follow the run and do not influence it. -/
theorem map_aggregate_accounts (client : Script) (a : Account) :
    (client.accounts a).map (·.aggregate) = client.states a.aggregate := by
  induction client generalizing a with
  | finish result => rfl
  | call op next ih => exact congrArg (a.aggregate :: ·) (ih _ _)
  | applyAtomicMutation occurredAt mutation next ihmutation ih =>
      rw [accounts, List.map_append, ihmutation, ih]
      rfl

end Script

/-! ## The condition -/

/-- A rollback goes to a checkpoint without outcomes, or to one that is not older
than the bindings. -/
def Operation.RestoresInOrder (op : Operation) (a : Account) : Prop :=
  match op with
  | rollbackToCheckpoint name _ =>
      ∀ checkpoint ∈ a.aggregate.checkpointByName (trimSpace name),
        checkpoint.ruleOutcomes = [] ∨
          (∀ version ∈ a.provenance.evidenceBoundAt, version ≤ checkpoint.version) ∧
          ∀ version ∈ a.provenance.policyBoundAt, version ≤ checkpoint.version
  | _ => True

instance (op : Operation) (a : Account) : Decidable (op.RestoresInOrder a) := by
  unfold Operation.RestoresInOrder
  split <;> infer_instance

/-- The function given to `ApplyAtomicMutation` attaches no binding, or it returns
no error and `RecordHistory` accepts what it leaves behind. -/
def EvaluationAggregate.BindsOnSuccess (e : EvaluationAggregate) (occurredAt : Time)
    (reply : Except Error Unit × EvaluationAggregate) : Prop :=
  (reply.2.evidenceBinding = e.evidenceBinding ∧ reply.2.policyBinding = e.policyBinding) ∨
    reply.1.isOk ∧ (reply.2.recordHistory occurredAt).isOk
deriving Decidable

/-- Every rollback that is not refused and every mutation of a run meets its condition,
those inside mutation functions included. -/
def Script.Orderly : Script → Account → Prop
  | finish _, _ => True
  | call op next, a =>
      (op.Succeeds a.aggregate → op.RestoresInOrder a) ∧
        (next (op.apply a.aggregate)).Orderly (a.call op)
  | applyAtomicMutation occurredAt mutation next, a =>
      mutation.Orderly a ∧
        a.aggregate.BindsOnSuccess occurredAt (mutation.run a.aggregate) ∧
        (next (a.aggregate.applyAtomicMutation occurredAt mutation.run)).Orderly
          (a.settle (mutation.account a)
            (a.aggregate.applyAtomicMutation occurredAt mutation.run))

instance Script.decidableOrderly : (client : Script) → (a : Account) → Decidable (client.Orderly a)
  | finish _, _ => inferInstanceAs (Decidable True)
  | call op next, a =>
      @instDecidableAnd _ _ inferInstance
        (decidableOrderly (next (op.apply a.aggregate)) (a.call op))
  | applyAtomicMutation occurredAt mutation next, a =>
      @instDecidableAnd _ _ (decidableOrderly mutation a)
        (@instDecidableAnd _ _ inferInstance
          (decidableOrderly (next (a.aggregate.applyAtomicMutation occurredAt mutation.run))
            (a.settle (mutation.account a)
              (a.aggregate.applyAtomicMutation occurredAt mutation.run))))

/-! ## The invariant -/

/-- What is recorded came after the bindings; what a checkpoint keeps came after the
bindings that are not younger than the checkpoint. -/
structure Account.Consistent (a : Account) : Prop where
  evidence : a.aggregate.evidenceBinding = none ↔ a.provenance.evidenceBoundAt = none
  policy : a.aggregate.policyBinding = none ↔ a.provenance.policyBoundAt = none
  bound : ∀ version, a.provenance.Bound version → version ≤ a.aggregate.version
  recorded : ∀ outcome ∈ a.aggregate.ruleOutcomes,
    ∃ recordedAt ∈ a.provenance.recordedAt outcome.ruleID,
      ∀ version, a.provenance.Bound version → version < recordedAt
  checkpoint_le : ∀ checkpoint ∈ a.aggregate.checkpoints,
    checkpoint.version ≤ a.aggregate.version
  checkpoint : ∀ checkpoint ∈ a.aggregate.checkpoints,
    ∀ outcome ∈ checkpoint.ruleOutcomes,
      ∃ recordedAt ∈ a.provenance.checkpointed checkpoint.name outcome.ruleID,
        ∀ version, a.provenance.Bound version → version ≤ checkpoint.version →
          version < recordedAt

namespace Account

variable {e e' : EvaluationAggregate} {p : Provenance}

/-- A present binding has a version, and present outcomes have later ones. -/
theorem Consistent.boundFirst (h : a.Consistent) : a.BoundFirst := by
  intro outcome hmem
  obtain ⟨recordedAt, hrecorded, hlater⟩ := h.recorded outcome hmem
  refine ⟨recordedAt, hrecorded, ?_, ?_⟩
  · intro hbinding
    obtain ⟨boundAt, hbound⟩ := Option.ne_none_iff_exists'.mp (mt h.evidence.mpr hbinding)
    exact ⟨boundAt, hbound, hlater boundAt (Or.inl hbound)⟩
  · intro hbinding
    obtain ⟨boundAt, hbound⟩ := Option.ne_none_iff_exists'.mp (mt h.policy.mpr hbinding)
    exact ⟨boundAt, hbound, hlater boundAt (Or.inr hbound)⟩

/-- What touches neither bindings nor outcomes nor checkpoints. -/
theorem Consistent.later (h : Consistent ⟨e, p⟩)
    (hevidence : e'.evidenceBinding = e.evidenceBinding)
    (hpolicy : e'.policyBinding = e.policyBinding)
    (houtcomes : e'.ruleOutcomes = e.ruleOutcomes)
    (hcheckpoints : e'.checkpoints = e.checkpoints) (hversion : e.version ≤ e'.version) :
    Consistent ⟨e', p⟩ where
  evidence := by
    rw [hevidence]
    exact h.evidence
  policy := by
    rw [hpolicy]
    exact h.policy
  bound version hbound := (h.bound version hbound).trans hversion
  recorded := by
    rw [houtcomes]
    exact h.recorded
  checkpoint_le := by
    rw [hcheckpoints]
    exact fun checkpoint hmem => (h.checkpoint_le checkpoint hmem).trans hversion
  checkpoint := by
    rw [hcheckpoints]
    exact h.checkpoint

/-- Recording and replacing happen at the next version, so after every binding. -/
theorem Consistent.edited {edit : List RuleOutcome → List RuleOutcome} {body : EventBody}
    (h : Consistent ⟨e, p⟩) (hedit : body.edit = some edit) :
    Consistent ⟨({ e with ruleOutcomes := edit e.ruleOutcomes } : EvaluationAggregate).raise body,
      p.record (e.version + 1) body.recorded⟩ where
  evidence := h.evidence
  policy := h.policy
  bound version hbound := (h.bound version hbound).trans (Nat.le_succ _)
  recorded outcome hmem := by
    by_cases hreported : outcome.ruleID ∈ body.recorded.map (·.ruleID)
    · refine ⟨e.version + 1, if_pos hreported, ?_⟩
      intro version hbound
      exact Nat.lt_succ_of_le (h.bound version hbound)
    · -- not reported by the event, so it was there before
      rcases EventBody.mem_edit hedit hmem with hold | hnew
      · obtain ⟨recordedAt, hrecorded, hlater⟩ := h.recorded outcome hold
        exact ⟨recordedAt, (if_neg hreported).trans hrecorded, hlater⟩
      · exact absurd (List.mem_map_of_mem hnew) hreported
  checkpoint_le checkpoint hmem := (h.checkpoint_le checkpoint hmem).trans (Nat.le_succ _)
  checkpoint := h.checkpoint

/-- A binding is attached at the next version, while nothing is recorded. -/
theorem Consistent.bind {p' : Provenance} (h : Consistent ⟨e, p⟩)
    (hempty : e.ruleOutcomes = []) (houtcomes : e'.ruleOutcomes = e.ruleOutcomes)
    (hcheckpoints : e'.checkpoints = e.checkpoints) (hversion : e'.version = e.version + 1)
    (hcheckpointed : p'.checkpointed = p.checkpointed)
    (hbound : ∀ version, p'.Bound version → version = e.version + 1 ∨ p.Bound version)
    (hevidence : e'.evidenceBinding = none ↔ p'.evidenceBoundAt = none)
    (hpolicy : e'.policyBinding = none ↔ p'.policyBoundAt = none) :
    Consistent ⟨e', p'⟩ where
  evidence := hevidence
  policy := hpolicy
  bound version hversion' := by
    have hle : version ≤ e.version + 1 := by
      rcases hbound version hversion' with rfl | hold
      · exact Nat.le_refl _
      · exact (h.bound version hold).trans (Nat.le_succ _)
    rw [← hversion] at hle
    exact hle
  recorded := by
    rw [houtcomes, hempty]
    exact fun _ hmem => absurd hmem List.not_mem_nil
  checkpoint_le := by
    rw [hcheckpoints, hversion]
    exact fun checkpoint hmem => (h.checkpoint_le checkpoint hmem).trans (Nat.le_succ _)
  checkpoint := by
    rw [hcheckpoints, hcheckpointed]
    intro checkpoint hcheckpoint outcome hmem
    obtain ⟨recordedAt, hrecorded, hlater⟩ := h.checkpoint checkpoint hcheckpoint outcome hmem
    refine ⟨recordedAt, hrecorded, ?_⟩
    intro version hversion' hle
    rcases hbound version hversion' with rfl | hold
    · -- the binding is younger than every checkpoint
      exact absurd (hle.trans (h.checkpoint_le checkpoint hcheckpoint)) (Nat.not_succ_le_self _)
    · exact hlater version hold hle

theorem Consistent.checkpointCreated {name : String} {t : Time} {body : EventBody}
    (h : Consistent ⟨e, p⟩) (hnew : e.checkpointByName name = none) :
    Consistent
      ⟨({ e with
          checkpoints := e.checkpoints.orderedInsert ByName (e.checkpoint name t) } :
            EvaluationAggregate).raise body,
        { p with checkpointed := Function.update p.checkpointed name p.recordedAt }⟩ where
  evidence := h.evidence
  policy := h.policy
  bound version hbound := (h.bound version hbound).trans (Nat.le_succ _)
  recorded := h.recorded
  checkpoint_le checkpoint hmem := by
    rcases (List.mem_orderedInsert ByName).mp hmem with rfl | hold
    · exact Nat.le_succ _
    · exact (h.checkpoint_le checkpoint hold).trans (Nat.le_succ _)
  checkpoint checkpoint hcheckpoint outcome hmem := by
    rcases (List.mem_orderedInsert ByName).mp hcheckpoint with rfl | hold
    · obtain ⟨recordedAt, hrecorded, hlater⟩ := h.recorded outcome hmem
      refine ⟨recordedAt, ?_, fun version hbound _ => hlater version hbound⟩
      exact (congrFun (Function.update_self name p.recordedAt p.checkpointed) _).trans hrecorded
    · obtain ⟨recordedAt, hrecorded, hlater⟩ := h.checkpoint checkpoint hold outcome hmem
      have hother : checkpoint.name ≠ name := fun hsame =>
        List.find?_eq_none.mp hnew checkpoint hold (decide_eq_true hsame)
      refine ⟨recordedAt, ?_, hlater⟩
      exact (congrFun (Function.update_of_ne hother p.recordedAt p.checkpointed) _).trans
        hrecorded

theorem Consistent.rolledBack {name : String} {t : Time} {checkpoint : EvaluationCheckpoint}
    (h : Consistent ⟨e, p⟩) (hfound : e.checkpointByName name = some checkpoint)
    (horder : checkpoint.ruleOutcomes = [] ∨
      ∀ version, p.Bound version → version ≤ checkpoint.version) :
    Consistent
      ⟨({ e with ruleOutcomes := checkpoint.ruleOutcomes } : EvaluationAggregate).raise
          (.evaluationRolledBack name t),
        { p with recordedAt := p.checkpointed name }⟩ where
  evidence := h.evidence
  policy := h.policy
  bound version hbound := (h.bound version hbound).trans (Nat.le_succ _)
  recorded outcome hmem := by
    have hname : checkpoint.name = name := by simpa using List.find?_some hfound
    obtain ⟨recordedAt, hrecorded, hlater⟩ :=
      h.checkpoint checkpoint (List.mem_of_find?_eq_some hfound) outcome hmem
    rw [hname] at hrecorded
    refine ⟨recordedAt, hrecorded, ?_⟩
    intro version hbound
    rcases horder with hempty | hle
    · exact absurd hmem (hempty ▸ List.not_mem_nil)
    · exact hlater version hbound (hle version hbound)
  checkpoint_le checkpoint hmem := (h.checkpoint_le checkpoint hmem).trans (Nat.le_succ _)
  checkpoint := h.checkpoint

end Account

/-! ## One operation -/

/-- A change other than a rollback. -/
theorem Change.consistent {e changed : EvaluationAggregate} {body : EventBody}
    (h : Change e changed body) (hplain : body.Plain) (hp : Account.Consistent ⟨e, p⟩) :
    ∃ event, (changed.raise body).domainEvents = e.domainEvents ++ [event] ∧
      Account.Consistent ⟨changed.raise body, p.follow event⟩ ∧ p.Keeps (p.follow event) := by
  refine ⟨⟨e.evaluationID, e.sessionID, e.version + 1, body⟩, ?_, ?_⟩
  · cases h <;> rfl
  cases h with
  | ruleRequired | rolledBack => exact hplain.elim
  | completed =>
      rw [Provenance.follow_completion]
      exact ⟨hp.later rfl rfl rfl rfl (Nat.le_succ _), Provenance.Keeps.refl p⟩
  | started | cancelled | expired =>
      -- the event reports no outcome
      have hsame := p.record_nil (e.version + 1)
      refine ⟨?_, ?_⟩
      · exact hsame.symm ▸ hp.later rfl rfl rfl rfl (Nat.le_succ _)
      · exact hsame.symm ▸ Provenance.Keeps.refl p
  | evidenceBound _ _ _ hfree hempty =>
      refine ⟨hp.bind hempty rfl rfl rfl rfl ?_ ?_ hp.policy, ?_, fun _ hv => hv⟩
      · rintro version (hnew | hold)
        · exact Or.inl (Option.some.inj hnew).symm
        · exact Or.inr (Or.inr hold)
      · exact iff_of_false (Option.some_ne_none _) (Option.some_ne_none _)
      · intro version hv
        rw [hp.evidence.mp hfree] at hv
        exact absurd hv (Option.not_mem_none version)
  | policyBound _ _ _ hfree hempty =>
      refine ⟨hp.bind hempty rfl rfl rfl rfl ?_ hp.evidence ?_, fun _ hv => hv, ?_⟩
      · rintro version (hold | hnew)
        · exact Or.inr (Or.inl hold)
        · exact Or.inl (Option.some.inj hnew).symm
      · exact iff_of_false (Option.some_ne_none _) (Option.some_ne_none _)
      · intro version hv
        rw [hp.policy.mp hfree] at hv
        exact absurd hv (Option.not_mem_none version)
  | edited _ hedit =>
      rw [Provenance.follow_of_edit hedit]
      exact ⟨hp.edited hedit, fun _ hv => hv, fun _ hv => hv⟩
  | checkpointCreated _ _ _ _ hnew =>
      exact ⟨hp.checkpointCreated hnew, fun _ hv => hv, fun _ hv => hv⟩

theorem PlainEdits.consistent {e e' : EvaluationAggregate} (h : PlainEdits e e')
    (hp : Account.Consistent ⟨e, p⟩) :
    ∃ news, e'.domainEvents = e.domainEvents ++ news ∧
      Account.Consistent ⟨e', news.foldl Provenance.follow p⟩ ∧
      p.Keeps (news.foldl Provenance.follow p) := by
  induction h with
  | refl => exact ⟨[], (List.append_nil _).symm, hp, Provenance.Keeps.refl p⟩
  | tail _ hlast ih =>
      obtain ⟨news, hevents, hmiddle, hkept⟩ := ih
      obtain ⟨changed, body, hchange, hplain, rfl⟩ := hlast
      obtain ⟨event, hadded, hconsistent, hkept'⟩ := hchange.consistent hplain hmiddle
      refine ⟨news ++ [event], ?_, ?_, ?_⟩
      · rw [hadded, hevents, List.append_assoc]
      · rw [List.foldl_append]
        exact hconsistent
      · rw [List.foldl_append]
        exact hkept.trans hkept'

/-- Following the events that an operation adds. -/
theorem Account.call_eq {op : Operation} {e' : EvaluationAggregate} {news : List DomainEvent}
    (happly : (op.apply a.aggregate).2 = e')
    (hevents : e'.domainEvents = a.aggregate.domainEvents ++ news) :
    a.call op = ⟨e', news.foldl Provenance.follow a.provenance⟩ := by
  unfold Account.call
  rw [happly, hevents, List.drop_left]

theorem Account.call_consistent {op : Operation}
    (hop : op.Succeeds a.aggregate → op.RestoresInOrder a) (ha : a.Consistent) :
    (a.call op).Consistent ∧ a.provenance.Keeps (a.call op).provenance := by
  have heffect := op.effect a.aggregate
  generalize happly : (op.apply a.aggregate).2 = e' at heffect
  cases heffect with
  | edits h =>
      obtain ⟨news, hevents, hconsistent, hkept⟩ := h.consistent ha
      rw [Account.call_eq happly hevents]
      exact ⟨hconsistent, hkept⟩
  | registered =>
      rw [Account.call_eq happly rfl]
      have hsame := a.provenance.record_nil (a.aggregate.version + 1)
      refine ⟨?_, ?_⟩
      · exact hsame.symm ▸ ha.later rfl rfl rfl rfl (Nat.le_succ _)
      · exact hsame.symm ▸ Provenance.Keeps.refl _
  | rolledBack _ hfound hdone =>
      rw [Account.call_eq happly rfl]
      refine ⟨ha.rolledBack hfound ?_, fun _ hv => hv, fun _ hv => hv⟩
      rcases hop hdone _ hfound with hempty | ⟨hevidence, hpolicy⟩
      · exact Or.inl hempty
      · exact Or.inr fun version hbound => hbound.elim (hevidence version) (hpolicy version)
  | filed h =>
      obtain ⟨-, -, -, rfl⟩ := EvaluationAggregate.recordHistory_eq_ok h
      rw [Account.call_eq happly rfl]
      have hsame := a.provenance.record_nil a.aggregate.version
      refine ⟨?_, ?_⟩
      · exact hsame.symm ▸ ha.later rfl rfl rfl rfl (Nat.le_refl _)
      · exact hsame.symm ▸ Provenance.Keeps.refl _
  | cleared =>
      have hcall : a.call .clearDomainEvents =
          ⟨a.aggregate.clearDomainEvents, a.provenance⟩ := by
        simp only [Account.call, Operation.apply, EvaluationAggregate.clearDomainEvents,
          List.drop_nil, List.foldl_nil]
      rw [hcall]
      exact ⟨ha.later rfl rfl rfl rfl (Nat.le_refl _), Provenance.Keeps.refl _⟩

/-! ## Mutations -/

/-- A binding that is there before and after was attached at the same version. -/
theorem Provenance.boundAt_eq {α : Type} {binding : Option α} {before after : Option Nat}
    (hbefore : binding = none ↔ before = none) (hafter : binding = none ↔ after = none)
    (hkept : ∀ version ∈ before, version ∈ after) : after = before := by
  cases before with
  | none => exact hafter.mp (hbefore.mpr rfl)
  | some version => exact hkept version rfl

theorem Account.settle_consistent {inner : Account} {occurredAt : Time}
    {mutation : EvaluationAggregate → Except Error Unit × EvaluationAggregate} (ha : a.Consistent)
    (hinner : inner.Consistent) (hkept : a.provenance.Keeps inner.provenance)
    (hrun : inner.aggregate = (mutation a.aggregate).2)
    (hbinds : a.aggregate.BindsOnSuccess occurredAt (mutation a.aggregate)) :
    (a.settle inner (a.aggregate.applyAtomicMutation occurredAt mutation)).Consistent ∧
      a.provenance.Keeps
        (a.settle inner (a.aggregate.applyAtomicMutation occurredAt mutation)).provenance := by
  rcases a.aggregate.applyAtomicMutation_cases occurredAt mutation with
    ⟨hok, hrecord⟩ | ⟨⟨err, herr⟩, hrestore⟩
  · obtain ⟨-, -, -, hfiled⟩ := EvaluationAggregate.recordHistory_eq_ok hrecord
    simp only [Account.settle, hok, hfiled, ← hrun]
    exact ⟨hinner.later rfl rfl rfl rfl (Nat.le_refl _), hkept⟩
  · rcases hbinds with ⟨hevidence, hpolicy⟩ | ⟨hreply, hrecord⟩
    · rw [← hrun] at hevidence hpolicy
      have hevidenceAt := Provenance.boundAt_eq ha.evidence (hevidence ▸ hinner.evidence)
        hkept.evidence
      have hpolicyAt := Provenance.boundAt_eq ha.policy (hpolicy ▸ hinner.policy) hkept.policy
      simp only [Account.settle, herr, hevidenceAt, hpolicyAt, hrestore, ← hrun]
      exact ⟨ha.later hevidence hpolicy rfl rfl (Nat.le_refl _), Provenance.Keeps.refl _⟩
    · rw [EvaluationAggregate.applyAtomicMutation_isOk hreply hrecord] at herr
      cases herr

/-! ## Whole runs -/

theorem Script.account_consistent {client : Script} (h : client.Orderly a) (ha : a.Consistent) :
    (client.account a).Consistent ∧ a.provenance.Keeps (client.account a).provenance := by
  induction client generalizing a with
  | finish result => exact ⟨ha, Provenance.Keeps.refl _⟩
  | call op next ih =>
      obtain ⟨hcall, hkept⟩ := Account.call_consistent h.1 ha
      obtain ⟨hlast, hkept'⟩ := ih _ h.2 hcall
      exact ⟨hlast, hkept.trans hkept'⟩
  | applyAtomicMutation occurredAt mutation next ihmutation ih =>
      obtain ⟨hinner, hkept⟩ := ihmutation h.1 ha
      obtain ⟨hsettled, hkept'⟩ := Account.settle_consistent ha hinner hkept
        (mutation.aggregate_account a) h.2.1
      obtain ⟨hlast, hkept''⟩ := ih _ h.2.2 hsettled
      exact ⟨hlast, hkept'.trans hkept''⟩

theorem Script.accounts_consistent {client : Script} {later : Account} (h : client.Orderly a)
    (ha : a.Consistent) (hlater : later ∈ client.accounts a) : later.Consistent := by
  induction client generalizing a with
  | finish result =>
      rw [List.mem_singleton.mp hlater]
      exact ha
  | call op next ih =>
      rcases List.mem_cons.mp hlater with rfl | hrest
      · exact ha
      · exact ih _ h.2 (Account.call_consistent h.1 ha).1 hrest
  | applyAtomicMutation occurredAt mutation next ihmutation ih =>
      rcases List.mem_append.mp hlater with hinside | hrest
      · exact ihmutation h.1 ha hinside
      · obtain ⟨hinner, hkept⟩ := Script.account_consistent h.1 ha
        exact ih _ h.2.2 (Account.settle_consistent ha hinner hkept
          (mutation.aggregate_account a) h.2.1).1 hrest

/-! ## Bindings stay -/

/-- What is bound stays bound to the same. -/
structure EvaluationAggregate.KeepsBindings (e e' : EvaluationAggregate) : Prop where
  evidence : ∀ binding ∈ e.evidenceBinding, binding ∈ e'.evidenceBinding
  policy : ∀ binding ∈ e.policyBinding, binding ∈ e'.policyBinding

namespace EvaluationAggregate.KeepsBindings

variable {e e' e'' : EvaluationAggregate}

theorem refl (e : EvaluationAggregate) : e.KeepsBindings e := ⟨fun _ h => h, fun _ h => h⟩

theorem trans (first : e.KeepsBindings e') (second : e'.KeepsBindings e'') :
    e.KeepsBindings e'' :=
  ⟨fun binding h => second.evidence binding (first.evidence binding h),
    fun binding h => second.policy binding (first.policy binding h)⟩

theorem of_edits (h : Edits e e') : e.KeepsBindings e' := by
  induction h with
  | refl => exact refl e
  | tail _ hlast ih =>
      obtain ⟨changed, body, hchange, rfl⟩ := hlast
      refine ih.trans ?_
      cases hchange with
      | evidenceBound _ _ _ hfree =>
          refine ⟨?_, fun _ h => h⟩
          intro binding hbound
          rw [hfree] at hbound
          exact absurd hbound (Option.not_mem_none binding)
      | policyBound _ _ _ hfree =>
          refine ⟨fun _ h => h, ?_⟩
          intro binding hbound
          rw [hfree] at hbound
          exact absurd hbound (Option.not_mem_none binding)
      | started | completed | cancelled | expired | ruleRequired | edited | checkpointCreated
      | rolledBack => exact ⟨fun _ h => h, fun _ h => h⟩

theorem of_recordHistory {recordedAt : Time} (h : e.recordHistory recordedAt = .ok e') :
    e.KeepsBindings e' := by
  obtain ⟨-, -, -, rfl⟩ := EvaluationAggregate.recordHistory_eq_ok h
  exact ⟨fun _ h => h, fun _ h => h⟩

theorem of_operation (op : Operation) (e : EvaluationAggregate) :
    e.KeepsBindings (op.apply e).2 := by
  rcases op.apply_cases e with hedits | ⟨_, _, hrecord⟩ | ⟨_, hclear⟩
  · exact of_edits hedits
  · exact of_recordHistory hrecord
  · rw [hclear]
    exact ⟨fun _ h => h, fun _ h => h⟩

/-- Also a mutation that fails leaves the bindings as its function left them. -/
theorem of_atomic (e : EvaluationAggregate) (occurredAt : Time)
    (mutation : EvaluationAggregate → Except Error Unit × EvaluationAggregate) :
    (mutation e).2.KeepsBindings (e.applyAtomicMutation occurredAt mutation).2 := by
  rcases e.applyAtomicMutation_cases occurredAt mutation with ⟨-, hrecord⟩ | ⟨-, hrestore⟩
  · exact of_recordHistory hrecord
  · rw [hrestore]
    exact ⟨fun _ h => h, fun _ h => h⟩

end EvaluationAggregate.KeepsBindings

/-! ## Reachable states -/

theorem newEvaluation_consistent {id sessionID : UUID} {createdAt : Time}
    {created : EvaluationAggregate} (hnew : newEvaluation id sessionID createdAt = .ok created) :
    (Account.opened created).Consistent := by
  simp only [newEvaluation, bind_eq_ok, rejectIf_eq_ok, pure_eq_ok, exists_const] at hnew
  obtain ⟨-, -, -, rfl⟩ := hnew
  refine ⟨iff_of_true rfl rfl, iff_of_true rfl rfl, ?_, ?_, ?_, ?_⟩
  · rintro version (hbound | hbound) <;> exact absurd hbound (Option.not_mem_none version)
  all_goals exact fun _ hmem => absurd hmem List.not_mem_nil

/-- A binding never changes once it is attached.  In a run that neither goes back to
outcomes older than a binding nor undoes a mutation that attached one, every
outcome came after the bindings that are present with it. -/
theorem bindings_precede_outcomes {id sessionID : UUID} {createdAt : Time}
    {created : EvaluationAggregate} (hnew : newEvaluation id sessionID createdAt = .ok created)
    (client : Script) :
    (client.accounts (.opened created)).map (·.aggregate) = client.states created ∧
      (client.states created).Pairwise EvaluationAggregate.KeepsBindings ∧
      (client.Orderly (.opened created) →
        ∀ a ∈ client.accounts (.opened created), a.BoundFirst) := by
  refine ⟨client.map_aggregate_accounts (.opened created), ?_, ?_⟩
  · exact Script.states_pairwise EvaluationAggregate.KeepsBindings
      EvaluationAggregate.KeepsBindings.refl
      (fun _ _ _ => EvaluationAggregate.KeepsBindings.trans)
      EvaluationAggregate.KeepsBindings.of_operation
      EvaluationAggregate.KeepsBindings.of_atomic client created
  · intro horderly a ha
    exact (Script.accounts_consistent horderly (newEvaluation_consistent hnew) ha).boundFirst

namespace Inspection

/-- A qualified set of one object. -/
def manifest : EvidenceSetBinding :=
  ⟨2, .qualified, "v1", clock 1400, [], [⟨3, .qualified, []⟩]⟩

def sealBroken : RuleOutcome := ⟨"seal", .fail, ["SEAL_BROKEN"], clock 2500⟩

/-- Outcomes of a draft are dropped, the manifest is bound in a mutation, and later
outcomes go away and come back. -/
def governed : Script :=
  .call (.start (clock 2000)) fun _ =>
  .call (.recordRuleOutcome sealBroken) fun _ =>
  .call (.createCheckpoint "draft" (clock 2550)) fun _ =>
  .call (.resetRuleOutcomes (clock 2560)) fun _ =>
  .applyAtomicMutation (clock 2570) (.sequence [.bindEvidenceSet manifest]) fun _ =>
  .sequence [.recordRuleOutcome onShelf, .createCheckpoint "shelved" (clock 2700),
    .removeRuleOutcome "presence" (clock 2800), .rollbackToCheckpoint "shelved" (clock 2900)]

/-- The draft comes back under the manifest. -/
def restoredDraft : Script := .sequence
  [.start (clock 2000), .recordRuleOutcome sealBroken, .createCheckpoint "draft" (clock 2550),
    .resetRuleOutcomes (clock 2560), .bindEvidenceSet manifest,
    .rollbackToCheckpoint "draft" (clock 2580)]

/-- The mutation that binds the manifest is undone, the binding is not. -/
def undoneReset : Script :=
  .call (.start (clock 2000)) fun _ =>
  .call (.recordRuleOutcome sealBroken) fun _ =>
  .applyAtomicMutation (clock 2570)
    (.call (.resetRuleOutcomes (clock 2560)) fun _ =>
      .call (.bindEvidenceSet manifest) fun _ => .finish (.error (.mutation "abort")))
    fun _ => .finish (.ok ())

end Inspection

theorem governed_outcomes_follow_manifest :
    newEvaluation 1 2 (Inspection.clock 1000) = .ok Inspection.created ∧
      Inspection.governed.Orderly (.opened Inspection.created) ∧
      ∃ a ∈ Inspection.governed.accounts (.opened Inspection.created),
        a.aggregate.evidenceBinding = some Inspection.manifest ∧
        a.aggregate.ruleOutcomes = [Inspection.onShelf] ∧ a.aggregate.version = 10 ∧
        a.BoundFirst := by
  have horderly : Inspection.governed.Orderly (.opened Inspection.created) := by decide
  have hreached : ∃ a ∈ Inspection.governed.accounts (.opened Inspection.created),
      a.aggregate.evidenceBinding = some Inspection.manifest ∧
      a.aggregate.ruleOutcomes = [Inspection.onShelf] ∧ a.aggregate.version = 10 := by
    decide
  obtain ⟨a, ha, hbinding, houtcomes, hversion⟩ := hreached
  exact ⟨rfl, horderly, a, ha, hbinding, houtcomes, hversion,
    (@bindings_precede_outcomes 1 2 (Inspection.clock 1000) Inspection.created rfl
      Inspection.governed).2.2 horderly a ha⟩

/-- In both runs an outcome of version 3 is under a manifest that was bound later. -/
theorem draft_outcome_precedes_manifest :
    newEvaluation 1 2 (Inspection.clock 1000) = .ok Inspection.created ∧
      (∃ a ∈ Inspection.restoredDraft.accounts (.opened Inspection.created),
        a.aggregate.evidenceBinding = some Inspection.manifest ∧
        a.aggregate.ruleOutcomes = [Inspection.sealBroken] ∧
        a.provenance.evidenceBoundAt = some 6 ∧ a.provenance.recordedAt "seal" = some 3 ∧
        ¬ a.BoundFirst) ∧
      ∃ a ∈ Inspection.undoneReset.accounts (.opened Inspection.created),
        a.aggregate.evidenceBinding = some Inspection.manifest ∧
        a.aggregate.ruleOutcomes = [Inspection.sealBroken] ∧
        a.provenance.evidenceBoundAt = some 5 ∧ a.provenance.recordedAt "seal" = some 3 ∧
        ¬ a.BoundFirst := by
  decide

end Evaluation
end CargoPds
