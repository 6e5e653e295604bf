import Mathlib.Data.String.Basic
import CargoPds.Evaluation.Aggregate

/-!
# Recording a batch of outcomes

`RecordRuleOutcomeBatch` stores the outcomes of all rules in one change.  It
sorts them by rule identifier first, so the order of the plan is lost: the
stored list is the batch in the order of the identifiers.
-/

namespace CargoPds
namespace Evaluation

open Fallible Text

variable {outcomes : List RuleOutcome} {recordedAt : Time}

/-- The order in which a batch is stored. -/
def ByRuleID (left right : RuleOutcome) : Prop := left.ruleID ≤ right.ruleID
deriving Decidable

instance : Std.Total ByRuleID := ⟨fun left right => le_total left.ruleID right.ruleID⟩

instance : IsTrans RuleOutcome ByRuleID := ⟨fun _ _ _ => le_trans⟩

/-- A list ordered by rule identifier, without repeated identifiers, is strictly
ordered. -/
theorem pairwise_lt_of_byRuleID (hsorted : outcomes.Pairwise ByRuleID)
    (hnodup : (outcomes.map (·.ruleID)).Nodup) :
    (outcomes.map (·.ruleID)).Pairwise (· < ·) := by
  rw [List.pairwise_map]
  rw [List.Nodup, List.pairwise_map] at hnodup
  exact (hsorted.and hnodup).imp fun h => lt_of_le_of_ne h.1 h.2

theorem find?_eq_none_of_ruleID_not_mem {ruleID : String}
    (hnew : ruleID ∉ outcomes.map (·.ruleID)) :
    outcomes.find? (fun o => o.ruleID = ruleID) = none := by
  rw [List.find?_eq_none]
  intro outcome hmem hsame
  exact hnew (List.mem_map.mpr ⟨outcome, hmem, of_decide_eq_true hsame⟩)

namespace EvaluationAggregate

/-- One round of `validateRuleOutcomeBatch`.  The map from identifiers to the
outcomes of the batch so far is the list of these outcomes. -/
def validateBatchEntry (e : EvaluationAggregate) (accepted : List RuleOutcome)
    (outcome : RuleOutcome) : Except Error (List RuleOutcome) := do
  let value ← normalizeRuleOutcome outcome
  rejectIf (¬ e.StartedBy value.evaluatedAt) (.invalidRuleOutcomeTimestamp value.ruleID)
  rejectIf (e.requiredRuleIDs ≠ [] ∧ ¬ e.IsRuleRequired value.ruleID)
    (.unknownRule value.ruleID)
  match accepted.find? (fun previous => previous.ruleID = value.ruleID) with
  | some previous =>
      if RuleOutcomesEqual previous value then .ok accepted
      else .error (.ruleOutcomeConflict value.ruleID)
  | none => do
      rejectIf (∃ existing ∈ e.ruleOutcomeByID value.ruleID,
        ¬ RuleOutcomesEqual existing value) (.ruleOutcomeConflict value.ruleID)
      return accepted ++ [value]

def validateRuleOutcomeBatch (e : EvaluationAggregate) (outcomes : List RuleOutcome) :
    Except Error (List RuleOutcome) := do
  let normalized ← outcomes.foldlM e.validateBatchEntry []
  return normalized.insertionSort ByRuleID

/-- The outcomes of a batch that are not recorded yet. -/
def pendingOutcomes (e : EvaluationAggregate) (normalized : List RuleOutcome) :
    List RuleOutcome :=
  normalized.filter fun outcome =>
    ¬ ∃ existing ∈ e.ruleOutcomeByID outcome.ruleID, RuleOutcomesEqual existing outcome

def recordRuleOutcomeBatch (e : EvaluationAggregate) (outcomes : List RuleOutcome)
    (recordedAt : Time) : Except Error EvaluationAggregate := do
  rejectIf (e.state ≠ .running) .invalidStateTransition
  if outcomes = [] then .ok e
  else do
    rejectIf recordedAt.IsZero .ruleOutcomeTimestampRequired
    rejectIf (¬ e.StartedBy recordedAt.toUTC) (.invalidRuleOutcomeTimestamp none)
    let normalized ← e.validateRuleOutcomeBatch outcomes
    let pending := e.pendingOutcomes normalized
    let e' : EvaluationAggregate := { e with ruleOutcomes := e.ruleOutcomes ++ pending }
    return if pending = [] then e
      else e'.raise (.ruleOutcomeBatchRecorded pending recordedAt.toUTC)

/-! ## What a batch covers -/

section
variable {e e' : EvaluationAggregate}

/-- A round keeps what is accepted and sees to an outcome for its rule. -/
theorem validateBatchEntry_covers {accepted result : List RuleOutcome} {outcome : RuleOutcome}
    (h : e.validateBatchEntry accepted outcome = .ok result) :
    accepted ⊆ result ∧ trimSpace outcome.ruleID ∈ result.map (·.ruleID) := by
  simp only [validateBatchEntry, bind_eq_ok] at h
  obtain ⟨value, hvalue, -, -, -, -, hstep⟩ := h
  rw [← ruleID_of_normalizeRuleOutcome hvalue]
  cases hfind : accepted.find? (fun previous => previous.ruleID = value.ruleID) with
  | some previous =>
      simp only [hfind] at hstep
      have hsame := List.find?_some hfind
      split at hstep
      · rw [← Except.ok.inj hstep]
        exact ⟨fun _ hmem => hmem, List.mem_map.mpr ⟨previous, List.mem_of_find?_eq_some hfind,
          of_decide_eq_true hsame⟩⟩
      · exact absurd hstep (by simp)
  | none =>
      simp only [hfind, bind_eq_ok, pure_eq_ok] at hstep
      obtain ⟨-, -, rfl⟩ := hstep
      exact ⟨List.subset_append_left _ _, by simp⟩

/-- Every rule of a batch that is accepted has an outcome in it. -/
theorem validateRuleOutcomeBatch_covers {normalized : List RuleOutcome}
    (h : e.validateRuleOutcomeBatch outcomes = .ok normalized) :
    ∀ outcome ∈ outcomes, trimSpace outcome.ruleID ∈ normalized.map (·.ruleID) := by
  have hloop : ∀ accepted result : List RuleOutcome,
      outcomes.foldlM e.validateBatchEntry accepted = .ok result →
      accepted ⊆ result ∧
        ∀ outcome ∈ outcomes, trimSpace outcome.ruleID ∈ result.map (·.ruleID) := by
    clear h
    induction outcomes with
    | nil =>
        intro accepted result hresult
        obtain rfl := pure_eq_ok.mp hresult
        exact ⟨fun _ hmem => hmem, fun _ hmem => absurd hmem List.not_mem_nil⟩
    | cons outcome rest ih =>
        intro accepted result hresult
        rw [List.foldlM_cons] at hresult
        obtain ⟨middle, hmiddle, hrest⟩ := bind_eq_ok.mp hresult
        obtain ⟨hkept, hcovered⟩ := validateBatchEntry_covers hmiddle
        obtain ⟨hkept', hcovered'⟩ := ih middle result hrest
        refine ⟨List.Subset.trans hkept hkept', ?_⟩
        intro other hother
        rcases List.mem_cons.mp hother with rfl | hlater
        · exact List.map_subset _ hkept' hcovered
        · exact hcovered' other hlater
  simp only [validateRuleOutcomeBatch, bind_eq_ok, pure_eq_ok] at h
  obtain ⟨accepted, haccepted, rfl⟩ := h
  intro outcome houtcome
  have hperm := (List.perm_insertionSort ByRuleID accepted).map RuleOutcome.ruleID
  exact hperm.mem_iff.mpr ((hloop [] accepted haccepted).2 outcome houtcome)

/-- A checked batch is empty only if the batch is. -/
theorem validateRuleOutcomeBatch_ne_nil {normalized : List RuleOutcome} (hsome : outcomes ≠ [])
    (h : e.validateRuleOutcomeBatch outcomes = .ok normalized) :
    normalized ≠ [] := by
  obtain ⟨outcome, houtcome⟩ := List.exists_mem_of_ne_nil outcomes hsome
  rintro rfl
  exact absurd (validateRuleOutcomeBatch_covers h outcome houtcome) List.not_mem_nil

/-- As long as nothing is recorded, a whole batch is pending. -/
theorem pendingOutcomes_of_empty (hempty : e.ruleOutcomes = []) (normalized : List RuleOutcome) :
    e.pendingOutcomes normalized = normalized := by
  unfold pendingOutcomes EvaluationSnapshot.ruleOutcomeByID
  rw [hempty]
  simp

/-- The first batch of an evaluation is recorded as it was accepted. -/
theorem recordRuleOutcomeBatch_first (hempty : e.ruleOutcomes = []) (hsome : outcomes ≠ [])
    (h : e.recordRuleOutcomeBatch outcomes recordedAt = .ok e') :
    ∃ normalized, e.validateRuleOutcomeBatch outcomes = .ok normalized ∧
      e' = ({ e with ruleOutcomes := normalized } : EvaluationAggregate).raise
        (.ruleOutcomeBatchRecorded normalized recordedAt.toUTC) := by
  simp only [recordRuleOutcomeBatch, if_neg hsome, bind_eq_ok, rejectIf_eq_ok, exists_const,
    pure_eq_ok] at h
  obtain ⟨-, -, -, normalized, hnormalized, rfl⟩ := h
  refine ⟨normalized, hnormalized, ?_⟩
  rw [pendingOutcomes_of_empty hempty, if_neg (validateRuleOutcomeBatch_ne_nil hsome hnormalized),
    hempty, List.nil_append]

end

/-! ## A first batch with one outcome per rule -/

section
variable {e : EvaluationAggregate}

/-- A round that meets a new identifier appends the outcome. -/
theorem validateBatchEntry_of_new {accepted result : List RuleOutcome} {outcome : RuleOutcome}
    (hnormal : outcome.Normal) (hnew : outcome.ruleID ∉ accepted.map (·.ruleID))
    (h : e.validateBatchEntry accepted outcome = .ok result) :
    result = accepted ++ [outcome] := by
  have hfind := find?_eq_none_of_ruleID_not_mem hnew
  simp only [validateBatchEntry, hnormal.normalize, ok_bind, bind_eq_ok, rejectIf_eq_ok,
    exists_const, hfind, pure_eq_ok] at h
  exact h.2.2.2.symm

/-- A batch of normal outcomes with distinct identifiers is accepted as it
is, and put in order. -/
theorem validateRuleOutcomeBatch_of_nodup {normalized : List RuleOutcome}
    (hnormal : ∀ o ∈ outcomes, o.Normal) (hnodup : (outcomes.map (·.ruleID)).Nodup)
    (h : e.validateRuleOutcomeBatch outcomes = .ok normalized) :
    normalized = outcomes.insertionSort ByRuleID := by
  have hloop : ∀ accepted result : List RuleOutcome,
      ((accepted ++ outcomes).map (·.ruleID)).Nodup →
      outcomes.foldlM e.validateBatchEntry accepted = .ok result →
      result = accepted ++ outcomes := by
    clear h hnodup
    induction outcomes with
    | nil =>
        intro accepted result _ hresult
        rw [List.append_nil]
        exact (pure_eq_ok.mp hresult).symm
    | cons outcome rest ih =>
        intro accepted result hdistinct hresult
        rw [List.foldlM_cons] at hresult
        obtain ⟨middle, hmiddle, hrest⟩ := bind_eq_ok.mp hresult
        have hnew : outcome.ruleID ∉ accepted.map (·.ruleID) := by
          rw [List.map_append, List.map_cons] at hdistinct
          intro hmem
          exact List.disjoint_of_nodup_append hdistinct hmem List.mem_cons_self
        obtain rfl := validateBatchEntry_of_new (hnormal outcome List.mem_cons_self) hnew hmiddle
        have hshift : accepted ++ [outcome] ++ rest = accepted ++ outcome :: rest := by simp
        rw [← hshift] at hdistinct ⊢
        exact ih (fun o ho => hnormal o (List.mem_cons_of_mem _ ho)) _ _ hdistinct hrest
  simp only [validateRuleOutcomeBatch, bind_eq_ok, pure_eq_ok] at h
  obtain ⟨accepted, haccepted, rfl⟩ := h
  rw [hloop [] accepted (by simpa using hnodup) haccepted, List.nil_append]

theorem recordRuleOutcomeBatch_time {e' : EvaluationAggregate} (hsome : outcomes ≠ [])
    (h : e.recordRuleOutcomeBatch outcomes recordedAt = .ok e') : ¬ recordedAt.IsZero := by
  simp only [recordRuleOutcomeBatch, if_neg hsome, bind_eq_ok, rejectIf_eq_ok,
    exists_const] at h
  exact h.2.1

/-- The first batch of an evaluation is stored in the order of its
identifiers. -/
theorem recordRuleOutcomeBatch_eq_ok {e' : EvaluationAggregate} (hempty : e.ruleOutcomes = [])
    (hsome : outcomes ≠ []) (hnormal : ∀ o ∈ outcomes, o.Normal)
    (hnodup : (outcomes.map (·.ruleID)).Nodup)
    (h : e.recordRuleOutcomeBatch outcomes recordedAt = .ok e') :
    e' = ({ e with ruleOutcomes := outcomes.insertionSort ByRuleID } :
      EvaluationAggregate).raise
        (.ruleOutcomeBatchRecorded (outcomes.insertionSort ByRuleID) recordedAt.toUTC) := by
  obtain ⟨normalized, hnormalized, rfl⟩ := recordRuleOutcomeBatch_first hempty hsome h
  obtain rfl := validateRuleOutcomeBatch_of_nodup hnormal hnodup hnormalized
  rfl

end

end EvaluationAggregate

end Evaluation
end CargoPds
