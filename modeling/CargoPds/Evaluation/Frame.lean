import CargoPds.Evaluation.Edits

/-!
# What the operations on rules leave alone

Start, the three ways to end and the two bindings write into the frame of an evaluation.
All other operations change rules, outcomes, checkpoints and the history, and the version
with them.  `Operation.apply_sameFrame` says this once for all of them.
-/

namespace CargoPds
namespace Evaluation

open Fallible Text

namespace EvaluationAggregate

variable {e e' : EvaluationAggregate}

/-- The part of an aggregate that operations on its rules, its checkpoints and its history
leave as it is: its identity, its lifecycle, its result and its bindings. -/
def frame (e : EvaluationAggregate) : EvaluationSnapshot :=
  { e.snapshot with
    version := 0
    requiredRuleIDs := []
    ruleOutcomes := []
    checkpoints := []
    history := [] }

def SameFrame (e e' : EvaluationAggregate) : Prop := e'.frame = e.frame

theorem SameFrame.trans {e'' : EvaluationAggregate} (first : e.SameFrame e')
    (second : e'.SameFrame e'') : e.SameFrame e'' :=
  Eq.trans second first

/-- What is read off the frame is the same. -/
theorem SameFrame.field {α : Type} (h : e.SameFrame e') (read : EvaluationSnapshot → α) :
    read e'.frame = read e.frame :=
  congrArg read h

theorem appendOutcome_sameFrame (e : EvaluationAggregate) (outcome : RuleOutcome) :
    e.SameFrame (e.appendOutcome outcome) :=
  rfl

theorem recordRuleOutcome_sameFrame {o : RuleOutcome} (h : e.recordRuleOutcome o = .ok e') :
    e.SameFrame e' := by
  simp only [recordRuleOutcome, bind_eq_ok] at h
  obtain ⟨-, -, normalized, -, -, -, -, -, hrecord⟩ := h
  split at hrecord
  · split at hrecord
    · obtain rfl := Except.ok.inj hrecord
      exact rfl
    · exact absurd hrecord (by simp)
  · obtain rfl := pure_eq_ok.mp hrecord
    exact e.appendOutcome_sameFrame normalized

theorem recordRuleOutcomes_sameFrame (e : EvaluationAggregate) (outcomes : List RuleOutcome) :
    e.SameFrame (e.recordRuleOutcomes outcomes).2 := by
  induction outcomes generalizing e with
  | nil => exact rfl
  | cons outcome rest ih =>
      unfold recordRuleOutcomes
      split
      · exact rfl
      · rename_i e' hrecord
        exact (recordRuleOutcome_sameFrame hrecord).trans (ih e')

theorem recordRuleOutcomesAtomic_sameFrame {outcomes : List RuleOutcome}
    (h : e.recordRuleOutcomesAtomic outcomes = .ok e') : e.SameFrame e' := by
  simp only [recordRuleOutcomesAtomic, bind_eq_ok, pure_eq_ok] at h
  obtain ⟨-, -, normalized, -, rfl⟩ := h
  induction normalized generalizing e with
  | nil => exact rfl
  | cons outcome rest ih =>
      rw [List.foldl_cons]
      split
      · exact ih
      · exact (e.appendOutcome_sameFrame outcome).trans ih

theorem recordRuleOutcomeBatch_sameFrame {outcomes : List RuleOutcome} {recordedAt : Time}
    (h : e.recordRuleOutcomeBatch outcomes recordedAt = .ok e') : e.SameFrame e' := by
  simp only [recordRuleOutcomeBatch, bind_eq_ok] at h
  obtain ⟨-, -, hbatch⟩ := h
  split at hbatch
  · obtain rfl := Except.ok.inj hbatch
    exact rfl
  · simp only [bind_eq_ok, pure_eq_ok] at hbatch
    obtain ⟨-, -, -, -, normalized, -, rfl⟩ := hbatch
    split <;> exact rfl

theorem replaceRuleOutcome_sameFrame {replacement : RuleOutcome} {replacedAt : Time}
    (h : e.replaceRuleOutcome replacement replacedAt = .ok e') : e.SameFrame e' := by
  simp only [replaceRuleOutcome, bind_eq_ok] at h
  obtain ⟨-, -, -, -, normalized, -, -, -, -, -, hreplace⟩ := h
  split at hreplace
  · exact absurd hreplace (by simp)
  · split at hreplace
    · obtain rfl := Except.ok.inj hreplace
      exact rfl
    · simp only [bind_eq_ok, pure_eq_ok] at hreplace
      obtain ⟨-, -, rfl⟩ := hreplace
      exact rfl

theorem replaceRuleOutcomesAtomic_sameFrame {replacements : List RuleOutcomeReplacement}
    {replacedAt : Time} (h : e.replaceRuleOutcomesAtomic replacements replacedAt = .ok e') :
    e.SameFrame e' := by
  simp only [replaceRuleOutcomesAtomic, bind_eq_ok] at h
  obtain ⟨-, -, hreplace⟩ := h
  split at hreplace
  · obtain rfl := Except.ok.inj hreplace
    exact rfl
  · simp only [bind_eq_ok, pure_eq_ok] at hreplace
    obtain ⟨-, -, -, -, accepted, -, rfl⟩ := hreplace
    split <;> exact rfl

theorem removeRuleOutcome_sameFrame {ruleID : String} {removedAt : Time}
    (h : e.removeRuleOutcome ruleID removedAt = .ok e') : e.SameFrame e' := by
  simp only [removeRuleOutcome, bind_eq_ok] at h
  obtain ⟨-, -, -, -, -, -, -, -, hremove⟩ := h
  split at hremove
  · exact absurd hremove (by simp)
  · obtain rfl := pure_eq_ok.mp hremove
    exact rfl

theorem removeRuleOutcomesAtomic_sameFrame {ruleIDs : List String} {removedAt : Time}
    (h : e.removeRuleOutcomesAtomic ruleIDs removedAt = .ok e') : e.SameFrame e' := by
  simp only [removeRuleOutcomesAtomic, bind_eq_ok] at h
  obtain ⟨-, -, hremove⟩ := h
  split at hremove
  · obtain rfl := Except.ok.inj hremove
    exact rfl
  · simp only [bind_eq_ok, pure_eq_ok] at hremove
    obtain ⟨-, -, -, -, ids, -, removed, -, rfl⟩ := hremove
    exact rfl

theorem resetRuleOutcomes_sameFrame {resetAt : Time}
    (h : e.resetRuleOutcomes resetAt = .ok e') : e.SameFrame e' := by
  simp only [resetRuleOutcomes, bind_eq_ok, pure_eq_ok] at h
  obtain ⟨-, -, -, -, -, -, rfl⟩ := h
  split <;> exact rfl

end EvaluationAggregate

/-- The operations that write into the frame. -/
def Operation.WritesFrame : Operation → Prop
  | start _ => True
  | completeAt _ _ _ => True
  | cancel _ _ => True
  | expire _ => True
  | bindEvidenceSet _ => True
  | bindVerificationPolicy _ => True
  | _ => False

theorem settleOperation_sameFrame {e : EvaluationAggregate}
    {x : Except Error EvaluationAggregate}
    (h : ∀ e', x = .ok e' → e.SameFrame e') : e.SameFrame (settleOperation e x).2 := by
  cases x with
  | error err => exact rfl
  | ok e' => exact h e' rfl

/-- All other operations leave it alone. -/
theorem Operation.apply_sameFrame {op : Operation} (hop : ¬ op.WritesFrame)
    (e : EvaluationAggregate) : e.SameFrame (op.apply e).2 := by
  cases op with
  | start | completeAt | cancel | expire | bindEvidenceSet | bindVerificationPolicy =>
      exact absurd trivial hop
  | registerRequiredRuleAt id registeredAt =>
      refine settleOperation_sameFrame fun e' h => ?_
      rcases EvaluationAggregate.registerRequiredRuleAt_cases h with rfl | ⟨-, -, -, rfl⟩
      · exact rfl
      · exact rfl
  | recordRuleOutcome outcome =>
      exact settleOperation_sameFrame fun e' =>
        EvaluationAggregate.recordRuleOutcome_sameFrame
  | recordRuleOutcomes outcomes => exact e.recordRuleOutcomes_sameFrame outcomes
  | recordRuleOutcomesAtomic outcomes =>
      exact settleOperation_sameFrame fun e' =>
        EvaluationAggregate.recordRuleOutcomesAtomic_sameFrame
  | recordRuleOutcomeBatch outcomes recordedAt =>
      exact settleOperation_sameFrame fun e' =>
        EvaluationAggregate.recordRuleOutcomeBatch_sameFrame
  | replaceRuleOutcome replacement replacedAt =>
      exact settleOperation_sameFrame fun e' =>
        EvaluationAggregate.replaceRuleOutcome_sameFrame
  | replaceRuleOutcomesAtomic replacements replacedAt =>
      exact settleOperation_sameFrame fun e' =>
        EvaluationAggregate.replaceRuleOutcomesAtomic_sameFrame
  | removeRuleOutcome ruleID removedAt =>
      exact settleOperation_sameFrame fun e' =>
        EvaluationAggregate.removeRuleOutcome_sameFrame
  | removeRuleOutcomeIfPresent ruleID removedAt =>
      refine settleOperation_sameFrame fun e' h => ?_
      simp only [EvaluationAggregate.removeRuleOutcomeIfPresent, bind_eq_ok] at h
      obtain ⟨-, -, hremove⟩ := h
      split at hremove
      · obtain rfl := Except.ok.inj hremove
        exact rfl
      · exact EvaluationAggregate.removeRuleOutcome_sameFrame hremove
  | removeRuleOutcomesAtomic ruleIDs removedAt =>
      exact settleOperation_sameFrame fun e' =>
        EvaluationAggregate.removeRuleOutcomesAtomic_sameFrame
  | removeRuleOutcomesIfPresent ruleIDs removedAt =>
      refine settleOperation_sameFrame fun e' h => ?_
      simp only [EvaluationAggregate.removeRuleOutcomesIfPresent, bind_eq_ok] at h
      obtain ⟨-, -, ids, -, hremove⟩ := h
      split at hremove
      · obtain rfl := Except.ok.inj hremove
        exact rfl
      · exact EvaluationAggregate.removeRuleOutcomesAtomic_sameFrame hremove
  | resetRuleOutcomes resetAt =>
      exact settleOperation_sameFrame fun e' =>
        EvaluationAggregate.resetRuleOutcomes_sameFrame
  | resetRuleOutcomesAtVersion expectedVersion resetAt =>
      refine settleOperation_sameFrame fun e' h => ?_
      simp only [EvaluationAggregate.resetRuleOutcomesAtVersion, bind_eq_ok] at h
      obtain ⟨-, -, hreset⟩ := h
      exact EvaluationAggregate.resetRuleOutcomes_sameFrame hreset
  | createCheckpoint name createdAt =>
      refine settleOperation_sameFrame fun e' h => ?_
      simp only [EvaluationAggregate.createCheckpoint, bind_eq_ok, pure_eq_ok] at h
      obtain ⟨-, -, -, -, -, -, -, -, -, -, rfl⟩ := h
      exact rfl
  | rollbackToCheckpoint name rolledBackAt =>
      refine settleOperation_sameFrame fun e' h => ?_
      obtain ⟨checkpoint, -, -, rfl⟩ := EvaluationAggregate.rollbackToCheckpoint_eq_ok h
      exact rfl
  | recordHistory recordedAt =>
      refine settleOperation_sameFrame fun e' h => ?_
      obtain ⟨-, -, -, rfl⟩ := EvaluationAggregate.recordHistory_eq_ok h
      exact rfl
  | clearDomainEvents => exact rfl

end Evaluation
end CargoPds
