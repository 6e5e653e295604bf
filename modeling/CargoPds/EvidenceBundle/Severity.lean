import CargoPds.EvidenceBundle.Soundness
import CargoPds.Evaluation.Invariant

/-!
# The worst status decides

`DeriveResult` and the replay of a bundle go through the outcomes one by one and correct
the result as they go.  Both compute the result of the most severe status, so the order
in which they meet the outcomes does not matter.

`RuleOutcomeStatus.severity` is the order of the statuses, `resultOf` the result that
belongs to each.  One round of a loop takes the worse of two statuses
(`updateVerificationResult_resultOf`), and the rest is about maxima of lists.

The reasons of a decision are those of all its outcomes; `Recorded` knows that exactly
the passed rules have none.  This is what `CompleteAt` checks, which therefore accepts
every derived result, at any time that is set and not before the start.
-/

namespace CargoPds
namespace EvidenceBundle

open Fallible Text Evaluation

variable {outcomes : List RuleOutcome}

/-! ## Severity -/

/-- How much a status weighs.  Outcomes of an unknown status are never recorded. -/
def severity : RuleOutcomeStatus → Nat
  | .pass => 0
  | .warning => 1
  | .inconclusive => 2
  | .fail => 3
  | .other _ => 0

/-- The result of an evaluation whose worst outcome has the status. -/
def resultOf : RuleOutcomeStatus → VerificationResult
  | .pass => .verified
  | .warning => .verifiedWithException
  | .inconclusive => .manualReview
  | .fail => .rejected
  | .other _ => .verified

/-- The worse of two statuses, the first of them if they weigh the same. -/
def worse (first second : RuleOutcomeStatus) : RuleOutcomeStatus :=
  if severity first < severity second then second else first

theorem worse_eq_or (first second : RuleOutcomeStatus) :
    worse first second = first ∨ worse first second = second := by
  unfold worse
  split
  · exact Or.inr rfl
  · exact Or.inl rfl

theorem severity_worse (first second : RuleOutcomeStatus) :
    severity (worse first second) = max (severity first) (severity second) := by
  unfold worse
  split <;> omega

theorem resultOf_eq_of_severity {first second : RuleOutcomeStatus}
    (h : severity first = severity second) : resultOf first = resultOf second := by
  cases first <;> cases second <;> first | rfl | exact absurd h (by simp [severity])

/-- One round of the replay. -/
theorem updateVerificationResult_resultOf (first second : RuleOutcomeStatus) :
    updateVerificationResult (resultOf first) second = resultOf (worse first second) := by
  cases first <;> cases second <;> rfl

/-- The whole replay: the result of the worst status there was. -/
theorem exists_worst (outcomes : List RuleOutcome) (start : RuleOutcomeStatus) :
    ∃ worst ∈ start :: outcomes.map (·.status),
      (∀ status ∈ start :: outcomes.map (·.status), severity status ≤ severity worst) ∧
      replayedResult (resultOf start) outcomes = resultOf worst := by
  -- the induction is on the outcomes, for any status that was the worst so far
  induction outcomes generalizing start with
  | nil => exact ⟨start, by simp, by simp, rfl⟩
  | cons outcome rest ih =>
      obtain ⟨worst, hworst, hbound, hresult⟩ := ih (worse start outcome.status)
      have hmax := severity_worse start outcome.status
      have hstep := hbound _ List.mem_cons_self
      refine ⟨worst, ?_, ?_, ?_⟩
      · rcases List.mem_cons.mp hworst with rfl | hrest
        · rcases worse_eq_or start outcome.status with heq | heq <;> simp [heq]
        · simp only [List.map_cons, List.mem_cons]
          exact Or.inr (Or.inr hrest)
      · intro status hstatus
        simp only [List.map_cons, List.mem_cons] at hstatus
        rcases hstatus with rfl | rfl | hrest
        · omega
        · omega
        · exact hbound status (List.mem_cons_of_mem _ hrest)
      · rw [← hresult, ← updateVerificationResult_resultOf]
        rfl

/-- An outcome of the list is as severe as all others. -/
def IsWorst (outcomes : List RuleOutcome) (worst : RuleOutcome) : Prop :=
  worst ∈ outcomes ∧ ∀ outcome ∈ outcomes, severity outcome.status ≤ severity worst.status

theorem exists_isWorst (hsome : outcomes ≠ []) :
    ∃ worst, IsWorst outcomes worst ∧
      replayedResult .verified outcomes = resultOf worst.status := by
  obtain ⟨status, hstatus, hbound, hresult⟩ := exists_worst outcomes .pass
  rcases List.mem_cons.mp hstatus with rfl | hmem
  · -- all outcomes weigh nothing, so that any of them is the worst
    obtain ⟨outcome, houtcome⟩ := List.exists_mem_of_ne_nil _ hsome
    have hzero : ∀ other ∈ outcomes, severity other.status = 0 := by
      intro other hother
      exact Nat.le_zero.mp (hbound _ (List.mem_cons_of_mem _ (List.mem_map_of_mem hother)))
    refine ⟨outcome, ⟨houtcome, ?_⟩, ?_⟩
    · intro other hother
      rw [hzero other hother]
      exact Nat.zero_le _
    · exact hresult.trans (resultOf_eq_of_severity (hzero outcome houtcome).symm)
  · obtain ⟨worst, hworst, rfl⟩ := List.mem_map.mp hmem
    refine ⟨worst, ⟨hworst, ?_⟩, hresult⟩
    intro outcome houtcome
    exact hbound _ (List.mem_cons_of_mem _ (List.mem_map_of_mem houtcome))

theorem replayedResult_of_isWorst {worst : RuleOutcome} (h : IsWorst outcomes worst) :
    replayedResult .verified outcomes = resultOf worst.status := by
  obtain ⟨other, hother, hresult⟩ := exists_isWorst (List.ne_nil_of_mem h.1)
  rw [hresult]
  exact resultOf_eq_of_severity (Nat.le_antisymm (h.2 other hother.1) (hother.2 worst h.1))

theorem IsWorst.perm {others : List RuleOutcome} {worst : RuleOutcome} (h : IsWorst outcomes worst)
    (hperm : others.Perm outcomes) : IsWorst others worst :=
  ⟨hperm.mem_iff.mpr h.1, fun outcome hmem => h.2 outcome (hperm.mem_iff.mp hmem)⟩

/-! ## Reasons -/

section
variable {outcomes : List RuleOutcome} (hnormal : ∀ outcome ∈ outcomes, outcome.Normal)

include hnormal

/-- Passed rules have no reasons, so that the loop collects the reasons of all rules. -/
theorem reasons_of_deriveStep (acc : VerificationResult × List ReasonCode) :
    (outcomes.foldl deriveStep acc).2 = acc.2 ++ outcomes.flatMap (·.reasonCodes) := by
  induction outcomes generalizing acc with
  | nil => simp
  | cons outcome rest ih =>
      have houtcome := hnormal outcome List.mem_cons_self
      have hstep : (deriveStep acc outcome).2 = acc.2 ++ outcome.reasonCodes := by
        cases hstatus : outcome.status with
        | fail | inconclusive | warning => simp only [deriveStep, hstatus]
        | pass => simp only [deriveStep, hstatus, houtcome.pass_iff.mp hstatus, List.append_nil]
        | other text =>
            have hvalid := houtcome.status_valid
            rw [hstatus] at hvalid
            exact hvalid.elim
      rw [List.foldl_cons, ih (fun other hmem => hnormal other (List.mem_cons_of_mem _ hmem)),
        hstep, List.append_assoc, List.flatMap_cons]

/-- There is nothing to say about an evaluation exactly when it is verified. -/
theorem reasons_eq_nil_iff (hsome : outcomes ≠ []) :
    outcomes.flatMap (·.reasonCodes) = [] ↔ replayedResult .verified outcomes = .verified := by
  obtain ⟨worst, hworst, hresult⟩ := exists_isWorst hsome
  have hpass : ∀ outcome ∈ outcomes, outcome.reasonCodes = [] ↔ severity outcome.status = 0 := by
    intro outcome hmem
    have houtcome := hnormal outcome hmem
    have hvalid := houtcome.status_valid
    rw [← houtcome.pass_iff]
    cases hstatus : outcome.status with
    | pass | warning | inconclusive | fail => simp [severity]
    | other text =>
        rw [hstatus] at hvalid
        exact hvalid.elim
  have hverified : resultOf worst.status = .verified ↔ severity worst.status = 0 := by
    cases worst.status <;> simp [resultOf, severity]
  rw [hresult, hverified, List.flatMap_eq_nil_iff]
  constructor
  · intro hall
    exact (hpass worst hworst.1).mp (hall worst hworst.1)
  · intro hzero outcome hmem
    exact (hpass outcome hmem).mpr (Nat.le_zero.mp (hzero ▸ hworst.2 outcome hmem))

end

/-- What `DeriveResult` returns for outcomes in normal form. -/
theorem deriveResult_of_normal {s : EvaluationSnapshot}
    (hnormal : ∀ outcome ∈ s.ruleOutcomes, outcome.Normal) (hcomplete : s.RequiredRulesComplete)
    (hsome : s.ruleOutcomes ≠ []) :
    s.deriveResult = .ok (replayedResult .verified s.ruleOutcomes,
      (s.ruleOutcomes.flatMap (·.reasonCodes)).foldl appendNew []) := by
  refine EvaluationSnapshot.deriveResult_eq_ok.mpr ⟨hcomplete, hsome, ?_, ?_⟩
  · rw [reasons_of_deriveStep hnormal, List.nil_append]
    refine normalizeReasonCodes_of_matches ?_
    intro code hcode
    obtain ⟨outcome, hmem, hcode⟩ := List.mem_flatMap.mp hcode
    exact (hnormal outcome hmem).reasons_normal.2 code hcode
  · exact (replayedResult_eq_deriveStep s.ruleOutcomes (.verified, [])).symm

theorem requiredRulesComplete_perm {s : EvaluationSnapshot} (hperm : outcomes.Perm s.ruleOutcomes)
    (h : s.RequiredRulesComplete) :
    EvaluationSnapshot.RequiredRulesComplete { s with ruleOutcomes := outcomes } := by
  unfold EvaluationSnapshot.RequiredRulesComplete EvaluationSnapshot.missingRequiredRuleIDs at *
  rw [← h]
  refine List.filter_congr fun id _ => ?_
  simp only [(hperm.map (·.ruleID)).mem_iff]

/-! ## Completion -/

/-- `CompleteAt` accepts a result that goes with its reasons. -/
theorem completeAt_of_reasons {e : EvaluationAggregate} {status : RuleOutcomeStatus}
    {reasons : List ReasonCode} {t : Time} (hstate : e.state = .running) (hset : ¬ t.IsZero)
    (hstarted : e.StartedBy t) (hcomplete : e.RequiredRulesComplete)
    (hreasons : NormalReasonCodes reasons)
    (hagree : reasons = [] ↔ resultOf status = .verified) :
    ∃ e', e.completeAt (resultOf status) reasons t = .ok e' := by
  have htransition : e.state.CanTransitionTo .completed :=
    EvaluationState.canTransitionTo_completed.mpr hstate
  have hvalid : (resultOf status).IsValid ∧ resultOf status ≠ .unknown := by
    cases status <;> exact ⟨trivial, by simp [resultOf]⟩
  simp only [EvaluationAggregate.completeAt, bind_eq_ok, rejectIf_eq_ok, pure_eq_ok,
    exists_const, not_or, not_not, not_and]
  refine ⟨_, htransition, ⟨hset, hstarted⟩, hvalid, hcomplete, reasons, hreasons.normalize, ?_,
    ?_, rfl⟩
  · intro hresult hnone
    rw [hagree.mp hnone] at hresult
    exact absurd hresult (by simp)
  · intro _ hverified
    exact hagree.mpr hverified

/-- The result of an evaluation with a complete plan is that of its worst outcome,
whichever way the outcomes are ordered, in the evaluation and in the replay; it has
reasons unless it is `VERIFIED`; and a running evaluation can be completed with it. -/
theorem result_of_worst_outcome {id sessionID : UUID} {createdAt : Time}
    {created e : EvaluationAggregate} (hnew : newEvaluation id sessionID createdAt = .ok created)
    (client : Script) (he : e ∈ client.states created)
    (hcomplete : e.RequiredRulesComplete) (hsome : e.ruleOutcomes ≠ []) :
    ∃ result reasons, e.deriveResult = .ok (result, reasons) ∧
      (∃ worst, IsWorst e.ruleOutcomes worst ∧ result = resultOf worst.status) ∧
      (∀ outcomes, outcomes.Perm e.ruleOutcomes →
        (∃ others, EvaluationSnapshot.deriveResult { e.snapshot with ruleOutcomes := outcomes } =
          .ok (result, others)) ∧
        outcomes.foldl (fun result outcome => updateVerificationResult result outcome.status)
          .verified = result) ∧
      (reasons = [] ↔ result = .verified) ∧
      (e.state = .running → ∀ t : Time, ¬ t.IsZero →
        (∀ startedAt ∈ e.startedAt, ¬ t.Before startedAt) →
          ∃ e', e.completeAt result reasons t = .ok e') := by
  have hsound := Script.states_sound (newEvaluation_sound hnew) he
  have hnormal : ∀ outcome ∈ e.ruleOutcomes, outcome.Normal := hsound.outcomes.normal
  obtain ⟨worst, hworst, hresult⟩ := exists_isWorst hsome
  have hderived : e.deriveResult = .ok (resultOf worst.status,
      (e.ruleOutcomes.flatMap (·.reasonCodes)).foldl appendNew []) := by
    rw [← hresult]
    exact deriveResult_of_normal hnormal hcomplete hsome
  have hagree : (e.ruleOutcomes.flatMap (·.reasonCodes)).foldl appendNew [] = [] ↔
      resultOf worst.status = .verified := by
    rw [foldl_appendNew_eq_nil, ← hresult]
    exact reasons_eq_nil_iff hnormal hsome
  refine ⟨_, _, hderived, ⟨worst, hworst, rfl⟩, ?_, hagree, ?_⟩
  · intro outcomes hperm
    have hreplayed := replayedResult_of_isWorst (hworst.perm hperm)
    have hordered := @deriveResult_of_normal { e.snapshot with ruleOutcomes := outcomes }
      (fun outcome hmem => hnormal outcome (hperm.mem_iff.mp hmem))
      (requiredRulesComplete_perm hperm hcomplete)
      (List.ne_nil_of_mem (hworst.perm hperm).1)
    rw [← hreplayed]
    exact ⟨⟨_, hordered⟩, rfl⟩
  · intro hstate t hset hlate
    obtain ⟨-, -, hcodes, -⟩ := EvaluationSnapshot.deriveResult_eq_ok.mp hderived
    have hstarted : e.StartedBy t := by
      have htimes := hsound.timely
      unfold EvaluationSnapshot.Timely at htimes
      rw [show e.snapshot.state = .running from hstate] at htimes
      obtain ⟨startedAt, hstartedAt⟩ := Option.ne_none_iff_exists'.mp htimes.1
      exact ⟨startedAt, hstartedAt, hlate startedAt hstartedAt⟩
    exact completeAt_of_reasons hstate hset hstarted hcomplete
      (normalizeReasonCodes_normal hcodes) hagree

namespace Weighing

open Inspection

/-- A warning before a failed rule. -/
def client : Script := .sequence
  [.start (clock 2000), .recordRuleOutcome nearLimit,
    .recordRuleOutcome ⟨"seal", .fail, ["SEAL_BROKEN", "NEAR_LIMIT"], clock 2500⟩,
    .recordRuleOutcome onShelf]

/-- The last state of the client. -/
def last : EvaluationAggregate := (client.run created).2

theorem last_reached : last ∈ client.states created := by decide +kernel

/-- An evaluation of the time before the year 1. -/
def ancient : EvaluationAggregate :=
  { created with
    createdAt := clock (-2000)
    domainEvents := [⟨1, 2, 1, .evaluationCreated (clock (-2000))⟩] }

/-- It has been started, and its only rule has passed. -/
def ancientClient : Script := .sequence
  [.start (clock (-1000)), .recordRuleOutcome ⟨"presence", .pass, [], clock (-500)⟩]

end Weighing

theorem broken_seal_rejected :
    ∃ result reasons, Weighing.last.deriveResult = .ok (result, reasons) ∧
      (∃ worst, IsWorst Weighing.last.ruleOutcomes worst ∧ result = resultOf worst.status) ∧
      (reasons = [] ↔ result = .verified) ∧
      ∃ completed, Weighing.last.completeAt result reasons (Inspection.clock 3000) =
        .ok completed := by
  obtain ⟨result, reasons, hderived, hworst, -, hreasons, hcompletes⟩ :=
    @result_of_worst_outcome 1 2 (Inspection.clock 1000) Inspection.created Weighing.last rfl
      Weighing.client Weighing.last_reached (by decide +kernel) (by decide +kernel)
  exact ⟨result, reasons, hderived, hworst, hreasons,
    hcompletes (by decide +kernel) (Inspection.clock 3000) (by decide) (by decide +kernel)⟩

/-- The unset time, which comes after the start of this evaluation, does not complete it. -/
theorem unset_time_completes_nothing :
    newEvaluation 1 2 (Inspection.clock (-2000)) = .ok Weighing.ancient ∧
      ∃ e ∈ Weighing.ancientClient.states Weighing.ancient,
        e.state = .running ∧ e.RequiredRulesComplete ∧ e.ruleOutcomes ≠ [] ∧
        e.deriveResult = .ok (.verified, []) ∧
        (∀ startedAt ∈ e.startedAt, ¬ Time.zero.Before startedAt) ∧
        e.completeAt .verified [] Time.zero = .error .invalidCompletionTime := by
  decide

end EvidenceBundle
end CargoPds
