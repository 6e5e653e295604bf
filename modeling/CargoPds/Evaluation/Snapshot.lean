import CargoPds.Evaluation.Batch
import CargoPds.Foundation.Platform

/-!
# Snapshots, traces and outbox records

`RehydrateEvaluation` checks a stored snapshot and turns it back into an
aggregate.  `DecisionTrace` is the published view of an aggregate, and
`NewOutboxRecord` the form in which an event waits for delivery.
-/

namespace CargoPds
namespace Evaluation

open Fallible Text

/-! ## Rehydration -/

def validateEvaluationHistoryEntry (h : EvaluationHistoryEntry) : Except Error Unit := do
  rejectIf (h.evaluationID = UUID.nil ∨ h.sessionID = UUID.nil ∨ h.version = 0 ∨
    h.recordedAt.IsZero ∨ ¬ h.result.IsValid) .invalidEvaluationHistoryEntry
  match h.state with
  | .other _ => .error .invalidEvaluationHistoryEntry
  | _ => .ok ()

/-- The timestamps that belong to each state. -/
def validateStateTimes (snapshot : EvaluationSnapshot) : Except Error Unit :=
  match snapshot.state with
  | .created =>
      rejectIf (snapshot.startedAt ≠ none ∨ snapshot.completedAt ≠ none ∨
        snapshot.cancelledAt ≠ none ∨ snapshot.expiredAt ≠ none) .invalidEvaluationSnapshot
  | .running =>
      rejectIf (snapshot.startedAt = none ∨ snapshot.completedAt ≠ none ∨
        snapshot.cancelledAt ≠ none ∨ snapshot.expiredAt ≠ none) .invalidEvaluationSnapshot
  | .completed =>
      rejectIf (snapshot.startedAt = none ∨ snapshot.completedAt = none ∨
        snapshot.result = .unknown) .invalidEvaluationSnapshot
  | .cancelled =>
      rejectIf (snapshot.cancelledAt = none ∨ snapshot.cancellationReason = "")
        .invalidEvaluationSnapshot
  | .expired => rejectIf (snapshot.expiredAt = none) .invalidEvaluationSnapshot
  | .other _ => .error .invalidEvaluationSnapshot

/-- The checks on the bindings of a snapshot. -/
def validateSnapshotBindings (snapshot : EvaluationSnapshot) : Except Error Unit := do
  match snapshot.evidenceBinding with
  | none => pure ()
  | some binding => do
      let binding ← orElseError (normalizeEvidenceBinding binding) Error.invalidEvaluationSnapshot
      rejectIf (binding.sessionID ≠ snapshot.sessionID) .invalidEvaluationSnapshot
  match snapshot.policyBinding with
  | none => pure ()
  | some binding => do
      let binding ← orElseError (normalizePolicyBinding binding) Error.invalidEvaluationSnapshot
      rejectIf (binding.boundAt.Before snapshot.createdAt) .invalidEvaluationSnapshot

def validateEvaluationSnapshot (snapshot : EvaluationSnapshot) : Except Error Unit := do
  rejectIf (snapshot.evaluationID = UUID.nil ∨ snapshot.sessionID = UUID.nil)
    .invalidEvaluationSnapshot
  rejectIf (snapshot.version = 0) .snapshotVersionRequired
  rejectIf (snapshot.createdAt.IsZero ∨ ¬ snapshot.result.IsValid) .invalidEvaluationSnapshot
  validateStateTimes snapshot
  let _ ← orElseError (snapshot.ruleOutcomes.mapM normalizeRuleOutcome)
    Error.invalidEvaluationSnapshot
  let _ ← orElseError (snapshot.history.mapM validateEvaluationHistoryEntry)
    Error.invalidEvaluationSnapshot
  validateSnapshotBindings snapshot

/-- The order of checkpoints in a snapshot. -/
def ByName (left right : EvaluationCheckpoint) : Prop := left.name ≤ right.name
deriving Decidable

/-- A snapshot after it went through an aggregate. -/
def EvaluationSnapshot.restored (snapshot : EvaluationSnapshot) : EvaluationSnapshot :=
  { snapshot with
    createdAt := snapshot.createdAt.toUTC
    checkpoints := snapshot.checkpoints.insertionSort ByName }

def rehydrateEvaluation (snapshot : EvaluationSnapshot) :
    Except Error EvaluationAggregate := do
  validateEvaluationSnapshot snapshot
  rejectIf (∃ checkpoint ∈ snapshot.checkpoints,
    checkpoint.name = "" ∨ checkpoint.createdAt.IsZero) .invalidEvaluationSnapshot
  rejectIf (¬ (snapshot.checkpoints.map (·.name)).Nodup) .invalidEvaluationSnapshot
  return { snapshot.restored with domainEvents := [] }

theorem rehydrateEvaluation_eq_ok {snapshot : EvaluationSnapshot} {e : EvaluationAggregate}
    (h : rehydrateEvaluation snapshot = .ok e) :
    e = { snapshot.restored with domainEvents := [] } := by
  simp only [rehydrateEvaluation, bind_eq_ok, rejectIf_eq_ok, pure_eq_ok, exists_const] at h
  obtain ⟨_, -, -, -, rfl⟩ := h
  rfl

/-- `Snapshot`. -/
def EvaluationAggregate.snapshot (e : EvaluationAggregate) : EvaluationSnapshot :=
  e.toEvaluationSnapshot

theorem snapshot_of_rehydrateEvaluation {snapshot : EvaluationSnapshot}
    {e : EvaluationAggregate} (h : rehydrateEvaluation snapshot = .ok e) :
    e.snapshot = snapshot.restored := by
  rw [rehydrateEvaluation_eq_ok h]
  rfl

/-! ## The decision trace -/

def EvaluationAggregate.decisionTrace (e : EvaluationAggregate) : DecisionTrace where
  evaluationID := e.evaluationID
  sessionID := e.sessionID
  version := e.version
  state := e.state
  result := e.result
  reasonCodes := e.reasonCodes
  requiredRuleIDs := e.requiredRuleIDs
  missingRuleIDs := e.missingRequiredRuleIDs
  ruleOutcomes := e.ruleOutcomes
  createdAt := e.createdAt
  startedAt := e.startedAt
  completedAt := e.completedAt
  expiredAt := e.expiredAt
  evidenceBinding := e.evidenceBinding
  policyBinding := e.policyBinding

/-! ## Outbox records -/

/-- `DefaultOutboxMaxAttempts`. -/
def defaultOutboxMaxAttempts : UInt32 := 10

/-- `NewOutboxRecord`; `id` is the fresh identifier it draws. -/
def newOutboxRecord (lib : Platform) (event : DomainEvent) (createdAt : Time) (id : UUID) :
    Except Error OutboxRecord := do
  rejectIf createdAt.IsZero .outboxTimestampRequired
  rejectIf (event.evaluationID = UUID.nil ∨ event.sessionID = UUID.nil ∨ event.version = 0)
    .outboxEventRequired
  rejectIf event.body.occurredAt.IsZero .outboxTimestampRequired
  match lib.marshalEvent event with
  | none => .error .outboxSerializationFailed
  | some payload =>
      return {
        id := id
        aggregateType := "evaluation"
        aggregateID := event.evaluationID
        sessionID := event.sessionID
        aggregateVersion := event.version
        eventType := event.body.eventType
        payload := payload
        status := .pending
        occurredAt := event.body.occurredAt.toUTC
        createdAt := createdAt.toUTC
        publishingStartedAt := none
        publishedAt := none
        nextAttemptAt := none
        lastAttemptAt := none
        deadLetteredAt := none
        attempts := 0
        maxAttempts := defaultOutboxMaxAttempts
        lastError := ""
        lockOwner := ""
        lockUntil := none }

/-- What an accepted record says of its event. -/
theorem newOutboxRecord_eq_ok {lib : Platform} {event : DomainEvent} {createdAt : Time}
    {id : UUID} {record : OutboxRecord}
    (h : newOutboxRecord lib event createdAt id = .ok record) :
    ¬ createdAt.IsZero ∧
      (event.evaluationID ≠ UUID.nil ∧ event.sessionID ≠ UUID.nil ∧ event.version ≠ 0) ∧
      ¬ event.body.occurredAt.IsZero ∧
      ∃ payload, lib.marshalEvent event = some payload ∧
        record = ⟨id, "evaluation", event.evaluationID, event.sessionID, event.version,
          event.body.eventType, payload, .pending, event.body.occurredAt.toUTC, createdAt.toUTC,
          none, none, none, none, none, 0, defaultOutboxMaxAttempts, "", "", none⟩ := by
  simp only [newOutboxRecord, bind_eq_ok, rejectIf_eq_ok, exists_const, not_or] at h
  obtain ⟨hcreated, hids, htime, hpayload⟩ := h
  cases hmarshal : lib.marshalEvent event with
  | none =>
      simp only [hmarshal] at hpayload
      exact absurd hpayload (by simp)
  | some payload =>
      simp only [hmarshal, pure_eq_ok] at hpayload
      exact ⟨hcreated, hids, htime, payload, rfl, hpayload.symm⟩

end Evaluation
end CargoPds
