import CargoPds.Foundation.Identity
import CargoPds.Foundation.Time

/-!
# The data of an evaluation

The enumerations of the source are string types.  A value that arrives in a
snapshot or in JSON need not be one of the declared constants, hence the
constructor `other` of each of them; the `IsValid` predicates of the source
single out the declared ones.
-/

namespace CargoPds
namespace Evaluation

/-- The errors of the package.  Where the source wraps an error with a rule
identifier, the constructor carries it; `mutation` is an error that a caller's
mutation function makes up. -/
inductive Error where
  | invalidStateTransition
  | invalidReasonCode
  | cancellationReasonRequired
  | invalidExpirationTime
  | evaluationIDRequired
  | sessionIDRequired
  | invalidEvaluationSnapshot
  | snapshotVersionRequired
  | invalidStartTime
  | invalidCompletionTime
  | invalidCompletionResult
  | ruleIDRequired
  | invalidRuleOutcome
  | requiredRulesIncomplete
  | ruleOutcomeConflict (ruleID : String)
  | invalidRuleOutcomeTimestamp (ruleID : Option String)
  | ruleOutcomeTimestampRequired
  | unknownRule (ruleID : String)
  | ruleOutcomeNotFound (ruleID : String)
  | staleRuleOutcomeReplacement (ruleID : String)
  | ruleOutcomeRemovalTimeRequired
  | ruleOutcomeResetTimeRequired
  | evaluationVersionConflict
  | evidenceBindingRequired
  | evidenceSessionMismatch
  | evidenceAlreadyBound
  | evidenceBoundAfterRules
  | policyBindingRequired
  | policyAlreadyBound
  | policyBoundAfterRules
  | checkpointNotFound
  | checkpointAlreadyExists
  | historyCaptureTimeRequired
  | evaluationHistoryVersionExists (version : Nat)
  | invalidEvaluationHistoryEntry
  | mutation (text : String)
  | outboxEventRequired
  | outboxTimestampRequired
  | outboxSerializationFailed
deriving DecidableEq, Repr

inductive EvaluationState where
  | created
  | running
  | completed
  | cancelled
  | expired
  | other (text : String)
deriving DecidableEq, Repr

namespace EvaluationState

/-- `CanTransitionTo`. -/
def CanTransitionTo : EvaluationState → EvaluationState → Prop
  | created, target => target = running ∨ target = cancelled ∨ target = expired
  | running, target => target = completed ∨ target = cancelled ∨ target = expired
  | _, _ => False

/-- `IsTerminal`. -/
def IsTerminal (s : EvaluationState) : Prop :=
  s = completed ∨ s = cancelled ∨ s = expired
deriving Decidable

instance (s target : EvaluationState) : Decidable (s.CanTransitionTo target) := by
  unfold CanTransitionTo
  split <;> infer_instance

theorem canTransitionTo_running {s : EvaluationState} :
    s.CanTransitionTo running ↔ s = created := by
  cases s <;> simp [CanTransitionTo]

theorem canTransitionTo_completed {s : EvaluationState} :
    s.CanTransitionTo completed ↔ s = running := by
  cases s <;> simp [CanTransitionTo]

end EvaluationState

inductive VerificationResult where
  | unknown
  | verified
  | verifiedWithException
  | rejected
  | manualReview
  | systemException
  | other (text : String)
deriving DecidableEq, Repr

/-- `IsValid`. -/
def VerificationResult.IsValid : VerificationResult → Prop
  | other _ => False
  | _ => True

instance (r : VerificationResult) : Decidable r.IsValid := by
  unfold VerificationResult.IsValid
  split <;> infer_instance

/-- A machine-readable reason; `NewReasonCode` checks its form. -/
abbrev ReasonCode := String

/-- `ReasonCodeEvaluationTimeout`. -/
def reasonCodeEvaluationTimeout : ReasonCode := "EVALUATION_TIMEOUT"

inductive RuleOutcomeStatus where
  | pass
  | warning
  | fail
  | inconclusive
  | other (text : String)
deriving DecidableEq, Repr

/-- `IsValid`. -/
def RuleOutcomeStatus.IsValid : RuleOutcomeStatus → Prop
  | other _ => False
  | _ => True

instance (s : RuleOutcomeStatus) : Decidable s.IsValid := by
  unfold RuleOutcomeStatus.IsValid
  split <;> infer_instance

/-- What one rule decided. -/
structure RuleOutcome where
  ruleID : String
  status : RuleOutcomeStatus
  reasonCodes : List ReasonCode
  evaluatedAt : Time
deriving DecidableEq, Repr

/-! ## Bindings -/

inductive EvidenceQualificationStatus where
  | qualified
  | rejected
  | unavailable
  | other (text : String)
deriving DecidableEq, Repr

/-- `IsValid`. -/
def EvidenceQualificationStatus.IsValid : EvidenceQualificationStatus → Prop
  | other _ => False
  | _ => True

instance (s : EvidenceQualificationStatus) : Decidable s.IsValid := by
  unfold EvidenceQualificationStatus.IsValid
  split <;> infer_instance

structure EvidenceReference where
  evidenceID : UUID
  status : EvidenceQualificationStatus
  reasons : List String
deriving DecidableEq, Repr

/-- The qualification result that an evaluation is bound to. -/
structure EvidenceSetBinding where
  sessionID : UUID
  status : EvidenceQualificationStatus
  policyVersion : String
  qualifiedAt : Time
  reasons : List String
  evidence : List EvidenceReference
deriving DecidableEq, Repr

/-- The policy version that an evaluation is bound to. -/
structure PolicyBinding where
  policyID : String
  version : String
  hash : String
  boundAt : Time
deriving DecidableEq, Repr

/-! ## Snapshots, traces and events -/

structure EvaluationCheckpoint where
  name : String
  ruleOutcomes : List RuleOutcome
  version : Nat
  createdAt : Time
deriving DecidableEq, Repr

structure EvaluationHistoryEntry where
  evaluationID : UUID
  sessionID : UUID
  version : Nat
  state : EvaluationState
  result : VerificationResult
  reasonCodes : List ReasonCode
  requiredRuleIDs : List String
  ruleOutcomes : List RuleOutcome
  recordedAt : Time
deriving DecidableEq, Repr

/-- What is stored of an evaluation.  The version counts its changes from 1 on; it is a `uint64`
in the source, so what is said here of versions is meant of those below `2 ^ 64`. -/
structure EvaluationSnapshot where
  evaluationID : UUID
  sessionID : UUID
  state : EvaluationState
  result : VerificationResult
  reasonCodes : List ReasonCode
  createdAt : Time
  startedAt : Option Time
  completedAt : Option Time
  cancelledAt : Option Time
  expiredAt : Option Time
  cancellationReason : String
  version : Nat
  requiredRuleIDs : List String
  ruleOutcomes : List RuleOutcome
  checkpoints : List EvaluationCheckpoint
  history : List EvaluationHistoryEntry
  evidenceBinding : Option EvidenceSetBinding
  policyBinding : Option PolicyBinding
deriving DecidableEq, Repr

/-- What is published of a decision. -/
structure DecisionTrace where
  evaluationID : UUID
  sessionID : UUID
  version : Nat
  state : EvaluationState
  result : VerificationResult
  reasonCodes : List ReasonCode
  requiredRuleIDs : List String
  missingRuleIDs : List String
  ruleOutcomes : List RuleOutcome
  createdAt : Time
  startedAt : Option Time
  completedAt : Option Time
  expiredAt : Option Time
  evidenceBinding : Option EvidenceSetBinding
  policyBinding : Option PolicyBinding
deriving DecidableEq, Repr

/-- The part of a domain event that depends on its kind. -/
inductive EventBody where
  | evaluationCreated (createdAt : Time)
  | evaluationStarted (startedAt : Time)
  | evaluationCompleted (result : VerificationResult) (completedAt : Time)
  | evaluationRejected (reasonCodes : List ReasonCode) (completedAt : Time)
  | evaluationManualReviewRequired (reasonCodes : List ReasonCode) (requiredAt : Time)
  | evaluationSystemException (reasonCodes : List ReasonCode) (occurredAt : Time)
  | evaluationCancelled (reason : String) (cancelledAt : Time)
  | evaluationExpired (reasonCodes : List ReasonCode) (expiredAt : Time)
  | requiredRuleRegistered (ruleID : String) (registeredAt : Time)
  | evidenceSetBound (binding : EvidenceSetBinding)
  | verificationPolicyBound (binding : PolicyBinding)
  | ruleOutcomeRecorded (ruleID : String) (status : RuleOutcomeStatus)
      (reasonCodes : List ReasonCode) (evaluatedAt : Time)
  | ruleOutcomeBatchRecorded (outcomes : List RuleOutcome) (recordedAt : Time)
  | ruleOutcomeReplaced (previous replacement : RuleOutcome) (replacedAt : Time)
  | ruleOutcomeBatchReplaced (previous replacements : List RuleOutcome) (replacedAt : Time)
  | ruleOutcomeRemoved (outcome : RuleOutcome) (removedAt : Time)
  | ruleOutcomeBatchRemoved (outcomes : List RuleOutcome) (removedAt : Time)
  | ruleOutcomesReset (outcomes : List RuleOutcome) (resetAt : Time)
  | evaluationCheckpointCreated (name : String) (createdAt : Time)
  | evaluationRolledBack (checkpoint : String) (rolledBackAt : Time)
  | evaluationHistoryRecorded (recordedAt : Time)
deriving DecidableEq, Repr

/-- A domain event.  Every event type of the source has the three identifying
fields, so they are kept apart from the body. -/
structure DomainEvent where
  evaluationID : UUID
  sessionID : UUID
  version : Nat
  body : EventBody
deriving DecidableEq, Repr

namespace EventBody

/-- `EventMetadata.EventType`. -/
def eventType : EventBody → String
  | evaluationCreated _ => "EvaluationCreatedEvent"
  | evaluationStarted _ => "EvaluationStartedEvent"
  | evaluationCompleted _ _ => "EvaluationCompletedEvent"
  | evaluationRejected _ _ => "EvaluationRejectedEvent"
  | evaluationManualReviewRequired _ _ => "EvaluationManualReviewRequiredEvent"
  | evaluationSystemException _ _ => "EvaluationSystemExceptionEvent"
  | evaluationCancelled _ _ => "EvaluationCancelledEvent"
  | evaluationExpired _ _ => "EvaluationExpiredEvent"
  | requiredRuleRegistered _ _ => "RequiredRuleRegisteredEvent"
  | evidenceSetBound _ => "EvidenceSetBoundEvent"
  | verificationPolicyBound _ => "VerificationPolicyBoundEvent"
  | ruleOutcomeRecorded _ _ _ _ => "RuleOutcomeRecordedEvent"
  | ruleOutcomeBatchRecorded _ _ => "RuleOutcomeBatchRecordedEvent"
  | ruleOutcomeReplaced _ _ _ => "RuleOutcomeReplacedEvent"
  | ruleOutcomeBatchReplaced _ _ _ => "RuleOutcomeBatchReplacedEvent"
  | ruleOutcomeRemoved _ _ => "RuleOutcomeRemovedEvent"
  | ruleOutcomeBatchRemoved _ _ => "RuleOutcomeBatchRemovedEvent"
  | ruleOutcomesReset _ _ => "RuleOutcomesResetEvent"
  | evaluationCheckpointCreated _ _ => "EvaluationCheckpointCreatedEvent"
  | evaluationRolledBack _ _ => "EvaluationRolledBackEvent"
  | evaluationHistoryRecorded _ => "EvaluationHistoryRecordedEvent"

/-- `EventMetadata.OccurredAt`. -/
def occurredAt : EventBody → Time
  | evaluationCreated createdAt => createdAt
  | evaluationStarted startedAt => startedAt
  | evaluationCompleted _ completedAt => completedAt
  | evaluationRejected _ completedAt => completedAt
  | evaluationManualReviewRequired _ requiredAt => requiredAt
  | evaluationSystemException _ occurredAt => occurredAt
  | evaluationCancelled _ cancelledAt => cancelledAt
  | evaluationExpired _ expiredAt => expiredAt
  | requiredRuleRegistered _ registeredAt => registeredAt
  | evidenceSetBound binding => binding.qualifiedAt
  | verificationPolicyBound binding => binding.boundAt
  | ruleOutcomeRecorded _ _ _ evaluatedAt => evaluatedAt
  | ruleOutcomeBatchRecorded _ recordedAt => recordedAt
  | ruleOutcomeReplaced _ _ replacedAt => replacedAt
  | ruleOutcomeBatchReplaced _ _ replacedAt => replacedAt
  | ruleOutcomeRemoved _ removedAt => removedAt
  | ruleOutcomeBatchRemoved _ removedAt => removedAt
  | ruleOutcomesReset _ resetAt => resetAt
  | evaluationCheckpointCreated _ createdAt => createdAt
  | evaluationRolledBack _ rolledBackAt => rolledBackAt
  | evaluationHistoryRecorded recordedAt => recordedAt

end EventBody

inductive OutboxStatus where
  | pending
  | publishing
  | published
  | retryScheduled
  | deadLettered
deriving DecidableEq, Repr

/-- One event waiting for delivery. -/
structure OutboxRecord where
  id : UUID
  aggregateType : String
  aggregateID : UUID
  sessionID : UUID
  aggregateVersion : Nat
  eventType : String
  payload : Bytes
  status : OutboxStatus
  occurredAt : Time
  createdAt : Time
  publishingStartedAt : Option Time
  publishedAt : Option Time
  nextAttemptAt : Option Time
  lastAttemptAt : Option Time
  deadLetteredAt : Option Time
  attempts : UInt32
  maxAttempts : UInt32
  lastError : String
  lockOwner : String
  lockUntil : Option Time
deriving DecidableEq, Repr

end Evaluation
end CargoPds
