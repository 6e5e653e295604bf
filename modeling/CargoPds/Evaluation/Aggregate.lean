import Mathlib.Data.List.Sort
import CargoPds.Evaluation.Normalize

/-!
# The evaluation aggregate

An evaluation is created with a plan of required rules, is started, records one
outcome per rule and is completed with the result these outcomes add up to, or
it expires.  Every change raises the version and emits an event.

The aggregate has the fields of its snapshot and the events that are not saved
yet.  A map of checkpoints is the list of its entries in the order of their
names, so `Snapshot` is a projection.
-/

namespace CargoPds
namespace Evaluation

open Fallible Text

structure EvaluationAggregate extends EvaluationSnapshot where
  domainEvents : List DomainEvent
deriving DecidableEq, Repr

namespace EvaluationAggregate

/-- `e.version++` and `addDomainEvent`, which end every change. -/
def raise (e : EvaluationAggregate) (body : EventBody) : EvaluationAggregate :=
  { e with
    version := e.version + 1
    domainEvents := e.domainEvents ++ [⟨e.evaluationID, e.sessionID, e.version + 1, body⟩] }

/-- `ClearDomainEvents`. -/
def clearDomainEvents (e : EvaluationAggregate) : EvaluationAggregate :=
  { e with domainEvents := [] }

section
variable (e : EvaluationAggregate) (body : EventBody)

@[simp] theorem raise_evaluationID : (e.raise body).evaluationID = e.evaluationID := rfl
@[simp] theorem raise_sessionID : (e.raise body).sessionID = e.sessionID := rfl
@[simp] theorem raise_state : (e.raise body).state = e.state := rfl
@[simp] theorem raise_result : (e.raise body).result = e.result := rfl
@[simp] theorem raise_reasonCodes : (e.raise body).reasonCodes = e.reasonCodes := rfl
@[simp] theorem raise_requiredRuleIDs :
    (e.raise body).requiredRuleIDs = e.requiredRuleIDs := rfl
@[simp] theorem raise_ruleOutcomes : (e.raise body).ruleOutcomes = e.ruleOutcomes := rfl
@[simp] theorem raise_evidenceBinding :
    (e.raise body).evidenceBinding = e.evidenceBinding := rfl
@[simp] theorem raise_policyBinding : (e.raise body).policyBinding = e.policyBinding := rfl

end

end EvaluationAggregate

/-! ## Rules -/

namespace EvaluationSnapshot

/-- `IsRuleRequired`. -/
def IsRuleRequired (s : EvaluationSnapshot) (ruleID : String) : Prop :=
  trimSpace ruleID ∈ s.requiredRuleIDs
deriving Decidable

def ruleOutcomeByID (s : EvaluationSnapshot) (ruleID : String) : Option RuleOutcome :=
  s.ruleOutcomes.find? fun o => o.ruleID = trimSpace ruleID

def missingRequiredRuleIDs (s : EvaluationSnapshot) : List String :=
  s.requiredRuleIDs.filter fun id => id ∉ s.ruleOutcomes.map (·.ruleID)

/-- `RequiredRulesComplete`. -/
def RequiredRulesComplete (s : EvaluationSnapshot) : Prop :=
  s.missingRequiredRuleIDs = []
deriving Decidable

/-- `e.startedAt == nil || t.Before(*e.startedAt)`, negated. -/
def StartedBy (s : EvaluationSnapshot) (t : Time) : Prop :=
  ∃ startedAt ∈ s.startedAt, ¬ t.Before startedAt
deriving Decidable

end EvaluationSnapshot

/-- One round of the loop of `DeriveResult`. -/
def deriveStep (acc : VerificationResult × List ReasonCode) (o : RuleOutcome) :
    VerificationResult × List ReasonCode :=
  match o.status with
  | .fail => (.rejected, acc.2 ++ o.reasonCodes)
  | .inconclusive =>
      (if acc.1 ≠ .rejected then .manualReview else acc.1, acc.2 ++ o.reasonCodes)
  | .warning =>
      (if acc.1 = .verified then .verifiedWithException else acc.1, acc.2 ++ o.reasonCodes)
  | _ => acc

def EvaluationSnapshot.deriveResult (s : EvaluationSnapshot) :
    Except Error (VerificationResult × List ReasonCode) := do
  rejectIf (¬ s.RequiredRulesComplete) .requiredRulesIncomplete
  rejectIf (s.ruleOutcomes = []) .invalidRuleOutcome
  let reasons ← normalizeReasonCodes (s.ruleOutcomes.foldl deriveStep (.verified, [])).2
  return ((s.ruleOutcomes.foldl deriveStep (.verified, [])).1, reasons)

theorem EvaluationSnapshot.deriveResult_eq_ok {s : EvaluationSnapshot}
    {result : VerificationResult} {reasons : List ReasonCode} :
    s.deriveResult = .ok (result, reasons) ↔
      s.RequiredRulesComplete ∧ s.ruleOutcomes ≠ [] ∧
        normalizeReasonCodes (s.ruleOutcomes.foldl deriveStep (.verified, [])).2 = .ok reasons ∧
        (s.ruleOutcomes.foldl deriveStep (.verified, [])).1 = result := by
  simp only [EvaluationSnapshot.deriveResult, bind_eq_ok, rejectIf_eq_ok, pure_eq_ok,
    exists_const, not_not, ne_eq, Prod.mk.injEq]
  constructor
  · rintro ⟨hcomplete, hsome, codes, hcodes, hresult, rfl⟩
    exact ⟨hcomplete, hsome, hcodes, hresult⟩
  · rintro ⟨hcomplete, hsome, hcodes, hresult⟩
    exact ⟨hcomplete, hsome, reasons, hcodes, hresult, rfl⟩

/-- The reasons of a decision are reasons of its outcomes. -/
theorem mem_reasons_of_deriveStep {outcomes : List RuleOutcome}
    {acc : VerificationResult × List ReasonCode} {code : ReasonCode}
    (h : code ∈ (outcomes.foldl deriveStep acc).2) :
    code ∈ acc.2 ∨ ∃ outcome ∈ outcomes, code ∈ outcome.reasonCodes := by
  induction outcomes generalizing acc with
  | nil => exact Or.inl h
  | cons outcome rest ih =>
      rw [List.foldl_cons] at h
      rcases ih h with hstep | ⟨other, hother, hcode⟩
      · have hsplit : code ∈ acc.2 ∨ code ∈ outcome.reasonCodes := by
          unfold deriveStep at hstep
          split at hstep
          · exact List.mem_append.mp hstep
          · exact List.mem_append.mp hstep
          · exact List.mem_append.mp hstep
          · exact Or.inl hstep
        rcases hsplit with hacc | hcode
        · exact Or.inl hacc
        · exact Or.inr ⟨outcome, List.mem_cons_self, hcode⟩
      · exact Or.inr ⟨other, List.mem_cons_of_mem _ hother, hcode⟩

/-! ## Lifecycle -/

def newEvaluation (id sessionID : UUID) (createdAt : Time) :
    Except Error EvaluationAggregate := do
  rejectIf (id = UUID.nil) .evaluationIDRequired
  rejectIf (sessionID = UUID.nil) .sessionIDRequired
  rejectIf createdAt.IsZero .invalidEvaluationSnapshot
  return {
    evaluationID := id
    sessionID := sessionID
    state := .created
    result := .unknown
    reasonCodes := []
    createdAt := createdAt.toUTC
    startedAt := none
    completedAt := none
    cancelledAt := none
    expiredAt := none
    cancellationReason := ""
    version := 1
    requiredRuleIDs := []
    ruleOutcomes := []
    checkpoints := []
    history := []
    evidenceBinding := none
    policyBinding := none
    domainEvents := [⟨id, sessionID, 1, .evaluationCreated createdAt.toUTC⟩] }

namespace EvaluationAggregate

def start (e : EvaluationAggregate) (startedAt : Time) : Except Error EvaluationAggregate := do
  rejectIf (¬ e.state.CanTransitionTo .running) .invalidStateTransition
  rejectIf (startedAt.IsZero ∨ startedAt.Before e.createdAt) .invalidStartTime
  let e' : EvaluationAggregate :=
    { e with state := .running, startedAt := some startedAt.toUTC }
  return e'.raise (.evaluationStarted startedAt.toUTC)

/-- The event that announces a completed evaluation. -/
def completionEvent (result : VerificationResult) (reasons : List ReasonCode)
    (completedAt : Time) : EventBody :=
  match result with
  | .rejected => .evaluationRejected reasons completedAt
  | .manualReview => .evaluationManualReviewRequired reasons completedAt
  | .systemException => .evaluationSystemException reasons completedAt
  | _ => .evaluationCompleted result completedAt

def completeAt (e : EvaluationAggregate) (result : VerificationResult)
    (reasons : List ReasonCode) (completedAt : Time) : Except Error EvaluationAggregate := do
  rejectIf (¬ e.state.CanTransitionTo .completed) .invalidStateTransition
  rejectIf (completedAt.IsZero ∨ ¬ e.StartedBy completedAt) .invalidCompletionTime
  rejectIf (¬ result.IsValid ∨ result = .unknown) .invalidCompletionResult
  rejectIf (¬ e.RequiredRulesComplete) .requiredRulesIncomplete
  let nr ← normalizeReasonCodes reasons
  rejectIf ((result = .rejected ∨ result = .manualReview ∨ result = .systemException ∨
    result = .verifiedWithException) ∧ nr = []) .invalidCompletionResult
  rejectIf ((result = .verified ∨ result = .verifiedWithException) ∧ result = .verified ∧
    nr ≠ []) .invalidCompletionResult
  let e' : EvaluationAggregate :=
    { e with
      state := .completed
      result := result
      reasonCodes := nr
      completedAt := some completedAt.toUTC }
  return e'.raise (completionEvent result nr completedAt.toUTC)

/-- `Cancel`; `now` is the time that it reads. -/
def cancel (e : EvaluationAggregate) (reason : String) (now : Time) :
    Except Error EvaluationAggregate := do
  rejectIf e.state.IsTerminal .invalidStateTransition
  rejectIf (trimSpace reason = "") .cancellationReasonRequired
  let e' : EvaluationAggregate :=
    { e with
      state := .cancelled
      cancelledAt := some now.toUTC
      cancellationReason := trimSpace reason }
  return e'.raise (.evaluationCancelled (trimSpace reason) now.toUTC)

def expire (e : EvaluationAggregate) (expiredAt : Time) : Except Error EvaluationAggregate := do
  rejectIf e.state.IsTerminal .invalidStateTransition
  rejectIf expiredAt.IsZero .invalidExpirationTime
  rejectIf (expiredAt.toUTC.Before e.createdAt) .invalidExpirationTime
  let e' : EvaluationAggregate :=
    { e with
      state := .expired
      result := .systemException
      reasonCodes := [reasonCodeEvaluationTimeout]
      expiredAt := some expiredAt.toUTC }
  return e'.raise (.evaluationExpired [reasonCodeEvaluationTimeout] expiredAt.toUTC)

variable {e e' : EvaluationAggregate}

theorem start_eq_ok {startedAt : Time} (h : e.start startedAt = .ok e') :
    e' = ({ e with state := .running, startedAt := some startedAt.toUTC } :
      EvaluationAggregate).raise (.evaluationStarted startedAt.toUTC) := by
  simp only [start, bind_eq_ok, rejectIf_eq_ok, pure_eq_ok, exists_const] at h
  exact h.2.2.symm

theorem completeAt_eq_ok {result : VerificationResult}
    {reasons : List ReasonCode} {completedAt : Time}
    (h : e.completeAt result reasons completedAt = .ok e') :
    e.state = .running ∧ result ≠ .unknown ∧
      ∃ nr, normalizeReasonCodes reasons = .ok nr ∧
        e' = ({ e with
          state := .completed
          result := result
          reasonCodes := nr
          completedAt := some completedAt.toUTC } : EvaluationAggregate).raise
            (completionEvent result nr completedAt.toUTC) := by
  simp only [completeAt, bind_eq_ok, rejectIf_eq_ok, pure_eq_ok, exists_const, not_or,
    not_not] at h
  obtain ⟨hstate, -, ⟨-, hresult⟩, -, nr, hnr, -, -, rfl⟩ := h
  exact ⟨EvaluationState.canTransitionTo_completed.mp hstate, hresult, nr, hnr, rfl⟩

theorem expire_eq_ok {expiredAt : Time} (h : e.expire expiredAt = .ok e') :
    e' = ({ e with
      state := .expired
      result := .systemException
      reasonCodes := [reasonCodeEvaluationTimeout]
      expiredAt := some expiredAt.toUTC } : EvaluationAggregate).raise
        (.evaluationExpired [reasonCodeEvaluationTimeout] expiredAt.toUTC) := by
  simp only [expire, bind_eq_ok, rejectIf_eq_ok, pure_eq_ok, exists_const] at h
  exact h.2.2.2.symm

/-! ## The rule plan -/

def registerRequiredRuleAt (e : EvaluationAggregate) (id : String) (registeredAt : Time) :
    Except Error EvaluationAggregate := do
  rejectIf e.state.IsTerminal .invalidStateTransition
  rejectIf (registeredAt.IsZero ∨ registeredAt.Before e.createdAt)
    (.invalidRuleOutcomeTimestamp none)
  rejectIf (trimSpace id = "") .ruleIDRequired
  let e' : EvaluationAggregate :=
    { e with requiredRuleIDs := e.requiredRuleIDs ++ [trimSpace id] }
  return if trimSpace id ∈ e.requiredRuleIDs then e
    else e'.raise (.requiredRuleRegistered (trimSpace id) registeredAt.toUTC)

/-- The loop that registers the whole plan of a policy. -/
def registerPlan (e : EvaluationAggregate) (plan : List String) (registeredAt : Time) :
    Except Error EvaluationAggregate :=
  plan.foldlM (fun e id => e.registerRequiredRuleAt id registeredAt) e

/-- An evaluation that has not been touched apart from its plan. -/
structure Fresh (e : EvaluationAggregate) : Prop where
  created : e.state = .created
  no_outcomes : e.ruleOutcomes = []
  no_evidence : e.evidenceBinding = none

theorem newEvaluation_eq_ok {id sessionID : UUID} {createdAt : Time} {e : EvaluationAggregate}
    (h : newEvaluation id sessionID createdAt = .ok e) :
    e.Fresh ∧ e.requiredRuleIDs = [] ∧ e.policyBinding = none := by
  simp only [newEvaluation, bind_eq_ok, rejectIf_eq_ok, pure_eq_ok, exists_const] at h
  obtain ⟨-, -, -, rfl⟩ := h
  exact ⟨⟨rfl, rfl, rfl⟩, rfl, rfl⟩

theorem registerRequiredRuleAt_eq_ok {ruleID : String}
    {registeredAt : Time} (h : e.registerRequiredRuleAt ruleID registeredAt = .ok e') :
    e'.requiredRuleIDs = appendNew e.requiredRuleIDs (trimSpace ruleID) ∧
      e'.sessionID = e.sessionID ∧ e'.policyBinding = e.policyBinding ∧
      (e.Fresh → e'.Fresh) := by
  simp only [registerRequiredRuleAt, bind_eq_ok, rejectIf_eq_ok, pure_eq_ok,
    exists_const] at h
  obtain ⟨-, -, -, rfl⟩ := h
  unfold appendNew
  split
  · exact ⟨rfl, rfl, rfl, id⟩
  · exact ⟨rfl, rfl, rfl, fun hfresh =>
      ⟨hfresh.created, hfresh.no_outcomes, hfresh.no_evidence⟩⟩

theorem registerPlan_eq_ok {plan : List String}
    {registeredAt : Time} (h : e.registerPlan plan registeredAt = .ok e') :
    e'.requiredRuleIDs = (plan.map trimSpace).foldl appendNew e.requiredRuleIDs ∧
      e'.sessionID = e.sessionID ∧ e'.policyBinding = e.policyBinding ∧
      (e.Fresh → e'.Fresh) := by
  unfold registerPlan at h
  induction plan generalizing e with
  | nil =>
      obtain rfl := pure_eq_ok.mp h
      exact ⟨rfl, rfl, rfl, id⟩
  | cons ruleID rest ih =>
      rw [List.foldlM_cons] at h
      obtain ⟨middle, hmiddle, hrest⟩ := bind_eq_ok.mp h
      obtain ⟨hplan, hsession, hpolicy, hfresh⟩ := registerRequiredRuleAt_eq_ok hmiddle
      obtain ⟨hplan', hsession', hpolicy', hfresh'⟩ := ih hrest
      refine ⟨?_, hsession'.trans hsession, hpolicy'.trans hpolicy, hfresh' ∘ hfresh⟩
      rw [hplan', hplan, List.map_cons, List.foldl_cons]

/-! ## Bindings -/

def bindEvidenceSet (e : EvaluationAggregate) (binding : EvidenceSetBinding) :
    Except Error EvaluationAggregate := do
  rejectIf e.state.IsTerminal .invalidStateTransition
  rejectIf (e.ruleOutcomes ≠ []) .evidenceBoundAfterRules
  let normalized ← normalizeEvidenceBinding binding
  rejectIf (normalized.sessionID ≠ e.sessionID) .evidenceSessionMismatch
  match e.evidenceBinding with
  | some bound =>
      if EvidenceBindingsEqual bound normalized then .ok e else .error .evidenceAlreadyBound
  | none =>
      let e' : EvaluationAggregate := { e with evidenceBinding := some normalized }
      return e'.raise (.evidenceSetBound normalized)

def bindVerificationPolicy (e : EvaluationAggregate) (binding : PolicyBinding) :
    Except Error EvaluationAggregate := do
  rejectIf e.state.IsTerminal .invalidStateTransition
  rejectIf (e.ruleOutcomes ≠ []) .policyBoundAfterRules
  let normalized ← orElseError (normalizePolicyBinding binding) Error.policyBindingRequired
  rejectIf (normalized.boundAt.Before e.createdAt) .policyBindingRequired
  match e.policyBinding with
  | some bound => if bound = normalized then .ok e else .error .policyAlreadyBound
  | none =>
      let e' : EvaluationAggregate := { e with policyBinding := some normalized }
      return e'.raise (.verificationPolicyBound normalized)

theorem bindEvidenceSet_eq_ok {binding : EvidenceSetBinding}
    (h : e.bindEvidenceSet binding = .ok e') :
    ¬ e.state.IsTerminal ∧ e.ruleOutcomes = [] ∧
      (e' = e ∨ ∃ normalized, normalizeEvidenceBinding binding = .ok normalized ∧
        normalized.sessionID = e.sessionID ∧ e.evidenceBinding = none ∧
        e' = ({ e with evidenceBinding := some normalized } : EvaluationAggregate).raise
          (.evidenceSetBound normalized)) := by
  simp only [bindEvidenceSet, bind_eq_ok, rejectIf_eq_ok, exists_const, ne_eq, not_not] at h
  obtain ⟨hstate, houtcomes, normalized, hnormalized, hsession, hbind⟩ := h
  refine ⟨hstate, houtcomes, ?_⟩
  cases hbound : e.evidenceBinding with
  | some bound =>
      simp only [hbound] at hbind
      split at hbind
      · exact Or.inl (Except.ok.inj hbind).symm
      · exact absurd hbind (by simp)
  | none =>
      simp only [hbound] at hbind
      exact Or.inr ⟨normalized, hnormalized, hsession, rfl, (pure_eq_ok.mp hbind).symm⟩

theorem bindVerificationPolicy_eq_ok {binding : PolicyBinding}
    (hunbound : e.policyBinding = none) (h : e.bindVerificationPolicy binding = .ok e') :
    ∃ normalized, normalizePolicyBinding binding = .ok normalized ∧
      e' = ({ e with policyBinding := some normalized } : EvaluationAggregate).raise
        (.verificationPolicyBound normalized) := by
  simp only [bindVerificationPolicy, bind_eq_ok, rejectIf_eq_ok, exists_const, ne_eq, not_not,
    orElseError_eq_ok, hunbound, pure_eq_ok] at h
  obtain ⟨-, -, normalized, hnormalized, -, rfl⟩ := h
  exact ⟨normalized, hnormalized, rfl⟩

end EvaluationAggregate

end Evaluation
end CargoPds
