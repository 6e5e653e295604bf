import CargoPds.Evaluation.Invariant

/-!
# Outcomes and the rule plan

The required rules of an evaluation are its plan.  An outcome is held against
the plan when it is recorded or replaced, and while the plan is empty every rule
passes.  Later the outcome may come back by a rollback, which checks nothing,
and the plan may have grown in the meantime.

* A plan that has a rule only grows, so what was inside stays inside, and a
  checkpoint that was taken inside it is inside it when it is rolled back.
* The exception is the first rule.  It turns the empty plan, which lets every
  rule pass, into a plan of one rule, and `RegisterRequiredRuleAt` does not look
  at what has been recorded by then.  `Operation.RegistersInTime` is the
  condition that it leaves out.
-/

namespace CargoPds
namespace Evaluation

open Fallible Text

variable {e : EvaluationAggregate}

/-- Every outcome, recorded or kept in a checkpoint, is in the plan. -/
structure EvaluationAggregate.Planned (e : EvaluationAggregate) : Prop where
  outcomes : ∀ outcome ∈ e.ruleOutcomes, e.Plans outcome.ruleID
  checkpoints : ∀ checkpoint ∈ e.checkpoints, ∀ outcome ∈ checkpoint.ruleOutcomes,
    e.Plans outcome.ruleID

/-- The first rule of a plan is registered while no other rule has an outcome,
recorded or in a checkpoint. -/
def Operation.RegistersInTime (op : Operation) (e : EvaluationAggregate) : Prop :=
  match op with
  | registerRequiredRuleAt id _ =>
      e.requiredRuleIDs = [] →
        (∀ outcome ∈ e.ruleOutcomes, outcome.ruleID = trimSpace id) ∧
        ∀ checkpoint ∈ e.checkpoints, ∀ outcome ∈ checkpoint.ruleOutcomes,
          outcome.ruleID = trimSpace id
  | _ => True

instance (op : Operation) (e : EvaluationAggregate) : Decidable (op.RegistersInTime e) := by
  unfold Operation.RegistersInTime
  split <;> infer_instance

/-! ## One operation -/

/-- A change other than a registration or a rollback brings in outcomes of the plan
only. -/
theorem Change.planned {changed : EvaluationAggregate} {body : EventBody}
    (h : Change e changed body) (hplain : body.Plain) (he : e.Planned) :
    (changed.raise body).Planned := by
  cases h with
  | started | completed | cancelled | expired | evidenceBound | policyBound =>
      exact ⟨he.outcomes, he.checkpoints⟩
  | ruleRequired | rolledBack => exact hplain.elim
  | edited _ hedit _ hplan =>
      refine ⟨?_, he.checkpoints⟩
      intro outcome hmem
      rcases EventBody.mem_edit hedit hmem with hold | hnew
      · exact he.outcomes outcome hold
      · exact hplan outcome hnew
  | checkpointCreated =>
      refine ⟨he.outcomes, ?_⟩
      intro checkpoint hmem
      rcases (List.mem_orderedInsert ByName).mp hmem with rfl | hold
      · exact he.outcomes
      · exact he.checkpoints checkpoint hold

theorem PlainEdits.planned {e' : EvaluationAggregate} (h : PlainEdits e e') (he : e.Planned) :
    e'.Planned := by
  induction h with
  | refl => exact he
  | tail _ hlast ih =>
      obtain ⟨changed, body, hchange, hplain, rfl⟩ := hlast
      exact hchange.planned hplain ih

/-- A rule that was in the plan is in the longer plan; if there was none, the new
rule has to be the rule. -/
theorem EvaluationAggregate.Plans.append {ruleID id : String} (h : e.Plans ruleID)
    (hfirst : e.requiredRuleIDs = [] → ruleID = id) :
    ruleID ∈ e.requiredRuleIDs ++ [id] := by
  rcases h with hempty | hmem
  · rw [hfirst hempty]
    exact List.mem_append_right _ (List.mem_singleton_self id)
  · exact List.mem_append_left _ hmem

theorem Operation.apply_planned {op : Operation} (hop : op.Succeeds e → op.RegistersInTime e)
    (he : e.Planned) : (op.apply e).2.Planned := by
  have heffect := op.effect e
  generalize (op.apply e).2 = e' at heffect
  cases heffect with
  | edits h => exact h.planned he
  | registered _ _ _ hdone =>
      constructor
      · intro outcome hmem
        exact Or.inr ((he.outcomes outcome hmem).append fun hempty =>
          (hop hdone hempty).1 outcome hmem)
      · intro checkpoint hcheckpoint outcome hmem
        exact Or.inr ((he.checkpoints checkpoint hcheckpoint outcome hmem).append fun hempty =>
          (hop hdone hempty).2 checkpoint hcheckpoint outcome hmem)
  | rolledBack _ hfound =>
      exact ⟨he.checkpoints _ (List.mem_of_find?_eq_some hfound), he.checkpoints⟩
  | filed h =>
      obtain ⟨-, -, -, rfl⟩ := EvaluationAggregate.recordHistory_eq_ok h
      exact ⟨he.outcomes, he.checkpoints⟩
  | cleared => exact ⟨he.outcomes, he.checkpoints⟩

/-- A mutation that fails puts back the plan together with the outcomes and the
checkpoints. -/
theorem EvaluationAggregate.applyAtomicMutation_planned (e : EvaluationAggregate)
    (occurredAt : Time)
    (mutation : EvaluationAggregate → Except Error Unit × EvaluationAggregate)
    (he : e.Planned) (hmutation : (mutation e).2.Planned) :
    (e.applyAtomicMutation occurredAt mutation).2.Planned := by
  rcases e.applyAtomicMutation_cases occurredAt mutation with ⟨-, hrecord⟩ | ⟨-, hrestore⟩
  · obtain ⟨-, -, -, hfiled⟩ := EvaluationAggregate.recordHistory_eq_ok hrecord
    rw [hfiled]
    exact ⟨hmutation.outcomes, hmutation.checkpoints⟩
  · rw [hrestore]
    exact ⟨he.outcomes, he.checkpoints⟩

/-! ## Whole runs -/

theorem newEvaluation_planned {id sessionID : UUID} {createdAt : Time}
    {created : EvaluationAggregate} (hnew : newEvaluation id sessionID createdAt = .ok created) :
    created.Planned := by
  simp only [newEvaluation, bind_eq_ok, rejectIf_eq_ok, pure_eq_ok, exists_const] at hnew
  obtain ⟨-, -, -, rfl⟩ := hnew
  exact ⟨fun _ hmem => absurd hmem List.not_mem_nil, fun _ hmem => absurd hmem List.not_mem_nil⟩

/-- Outcomes stay inside the plan, and `DeriveResult` decides on the outcomes of the
plan alone, in every state of a run that does not begin a plan after outcomes of
other rules. -/
theorem outcomes_stay_in_plan {id sessionID : UUID} {createdAt : Time}
    {created e : EvaluationAggregate} (hnew : newEvaluation id sessionID createdAt = .ok created)
    (client : Script) (hmeets : client.Meets Operation.RegistersInTime created)
    (he : e ∈ client.states created) (hplan : e.requiredRuleIDs ≠ []) :
    (∀ outcome ∈ e.ruleOutcomes, outcome.ruleID ∈ e.requiredRuleIDs) ∧
      (∀ checkpoint ∈ e.checkpoints, ∀ outcome ∈ checkpoint.ruleOutcomes,
        outcome.ruleID ∈ e.requiredRuleIDs) ∧
      e.deriveResult = EvaluationSnapshot.deriveResult
        { e.snapshot with
          ruleOutcomes := e.ruleOutcomes.filter fun outcome =>
            outcome.ruleID ∈ e.requiredRuleIDs } := by
  have hplanned : e.Planned :=
    Script.states_invariant EvaluationAggregate.Planned (fun _ _ => Operation.apply_planned)
      EvaluationAggregate.applyAtomicMutation_planned hmeets (newEvaluation_planned hnew) he
  have houtcomes : ∀ outcome ∈ e.ruleOutcomes, outcome.ruleID ∈ e.requiredRuleIDs :=
    fun outcome hmem => (hplanned.outcomes outcome hmem).resolve_left hplan
  refine ⟨houtcomes, ?_, ?_⟩
  · intro checkpoint hcheckpoint outcome hmem
    exact (hplanned.checkpoints checkpoint hcheckpoint outcome hmem).resolve_left hplan
  · rw [List.filter_eq_self.mpr fun outcome hmem => decide_eq_true (houtcomes outcome hmem)]
    rfl

theorem inspection_stays_in_plan :
    ∃ e ∈ Inspection.client.states Inspection.created,
      e.requiredRuleIDs = ["weight", "presence"] ∧ e.ruleOutcomes.length = 2 ∧
      e.checkpoints.length = 1 ∧
      (∀ outcome ∈ e.ruleOutcomes, outcome.ruleID ∈ e.requiredRuleIDs) ∧
      ∀ checkpoint ∈ e.checkpoints, ∀ outcome ∈ checkpoint.ruleOutcomes,
        outcome.ruleID ∈ e.requiredRuleIDs := by
  have hreached : ∃ e ∈ Inspection.client.states Inspection.created,
      e.requiredRuleIDs = ["weight", "presence"] ∧ e.ruleOutcomes.length = 2 ∧
      e.checkpoints.length = 1 := by decide +kernel
  obtain ⟨e, he, hrules, houtcomes, hcheckpoints⟩ := hreached
  have hinside := @outcomes_stay_in_plan 1 2 (Inspection.clock 1000) Inspection.created e rfl
    Inspection.client (by decide +kernel) he (by rw [hrules]; decide)
  exact ⟨e, he, hrules, houtcomes, hcheckpoints, hinside.1, hinside.2.1⟩

namespace Inspection

/-- An outcome and a checkpoint before the plan, then a plan of another rule. -/
def latePlan : Script := .sequence
  [.start (clock 2000),
    .recordRuleOutcome ⟨"seal", .fail, ["SEAL_BROKEN"], clock 2500⟩,
    .createCheckpoint "sealed" (clock 2550),
    .registerRequiredRuleAt "presence" (clock 2560),
    .recordRuleOutcome onShelf]

end Inspection

/-- The only rule of the plan passes and the evaluation is rejected. -/
theorem late_plan_leaves_outcomes_outside :
    newEvaluation 1 2 (Inspection.clock 1000) = .ok Inspection.created ∧
      ∃ e ∈ Inspection.latePlan.states Inspection.created,
        e.requiredRuleIDs = ["presence"] ∧
        (∃ outcome ∈ e.ruleOutcomes, outcome.ruleID ∉ e.requiredRuleIDs) ∧
        (∃ checkpoint ∈ e.checkpoints, ∃ outcome ∈ checkpoint.ruleOutcomes,
          outcome.ruleID ∉ e.requiredRuleIDs) ∧
        e.deriveResult = .ok (.rejected, ["SEAL_BROKEN"]) ∧
        EvaluationSnapshot.deriveResult
          { e.snapshot with
            ruleOutcomes := e.ruleOutcomes.filter fun outcome =>
              outcome.ruleID ∈ e.requiredRuleIDs } = .ok (.verified, []) := by
  decide

end Evaluation
end CargoPds
