import CargoPds.Evaluation.Outcomes
import CargoPds.Evaluation.Snapshot

/-!
# Checkpoints, history and atomic mutations

A checkpoint keeps the outcomes of the moment under a name, and a rollback
restores them.  `RecordHistory` files a copy of the present version.
`ApplyAtomicMutation` runs a function of the caller on the aggregate and undoes
it when the function or the filing fails; what it puts back is exactly what
`captureMutableState` copied.
-/

namespace CargoPds
namespace Evaluation

open Fallible Text

namespace EvaluationAggregate

/-! ## Checkpoints -/

def checkpointByName (e : EvaluationAggregate) (name : String) : Option EvaluationCheckpoint :=
  e.checkpoints.find? fun checkpoint => checkpoint.name = name

/-- The copy that a checkpoint keeps. -/
def checkpoint (e : EvaluationAggregate) (name : String) (createdAt : Time) :
    EvaluationCheckpoint :=
  ⟨name, e.ruleOutcomes, e.version, createdAt⟩

def createCheckpoint (e : EvaluationAggregate) (name : String) (createdAt : Time) :
    Except Error EvaluationAggregate := do
  rejectIf (e.state ≠ .running) .invalidStateTransition
  rejectIf (trimSpace name = "") .ruleIDRequired
  rejectIf createdAt.IsZero .historyCaptureTimeRequired
  rejectIf (¬ e.StartedBy createdAt.toUTC) .invalidEvaluationHistoryEntry
  rejectIf (e.checkpointByName (trimSpace name) ≠ none) .checkpointAlreadyExists
  let checkpoint := e.checkpoint (trimSpace name) createdAt.toUTC
  let e' : EvaluationAggregate :=
    { e with checkpoints := e.checkpoints.orderedInsert ByName checkpoint }
  return e'.raise (.evaluationCheckpointCreated (trimSpace name) createdAt.toUTC)

def rollbackToCheckpoint (e : EvaluationAggregate) (name : String) (rolledBackAt : Time) :
    Except Error EvaluationAggregate := do
  rejectIf (e.state ≠ .running) .invalidStateTransition
  match e.checkpointByName (trimSpace name) with
  | none => .error .checkpointNotFound
  | some checkpoint => do
      rejectIf rolledBackAt.IsZero .historyCaptureTimeRequired
      rejectIf (¬ e.StartedBy rolledBackAt.toUTC ∨
        rolledBackAt.toUTC.Before checkpoint.createdAt) .invalidEvaluationHistoryEntry
      let e' : EvaluationAggregate := { e with ruleOutcomes := checkpoint.ruleOutcomes }
      return e'.raise (.evaluationRolledBack (trimSpace name) rolledBackAt.toUTC)

/-! ## History -/

/-- The entry that describes the present version. -/
def historyEntry (e : EvaluationAggregate) (recordedAt : Time) : EvaluationHistoryEntry where
  evaluationID := e.evaluationID
  sessionID := e.sessionID
  version := e.version
  state := e.state
  result := e.result
  reasonCodes := e.reasonCodes
  requiredRuleIDs := e.requiredRuleIDs
  ruleOutcomes := e.ruleOutcomes
  recordedAt := recordedAt

/-- File an entry.  The version stays: the entry is part of the version it
describes. -/
def fileHistory (e : EvaluationAggregate) (recordedAt : Time) : EvaluationAggregate :=
  { e with
    history := e.history ++ [e.historyEntry recordedAt]
    domainEvents := e.domainEvents ++
      [⟨e.evaluationID, e.sessionID, e.version, .evaluationHistoryRecorded recordedAt⟩] }

def recordHistory (e : EvaluationAggregate) (recordedAt : Time) :
    Except Error EvaluationAggregate := do
  rejectIf recordedAt.IsZero .historyCaptureTimeRequired
  rejectIf (recordedAt.toUTC.Before e.createdAt) .invalidEvaluationHistoryEntry
  rejectIf (∃ entry ∈ e.history, entry.version = e.version)
    (.evaluationHistoryVersionExists e.version)
  validateEvaluationHistoryEntry (e.historyEntry recordedAt.toUTC)
  return e.fileHistory recordedAt.toUTC

/-! ## Atomic mutations -/

/-- What is put back when a mutation fails. -/
structure EvaluationMutableState where
  state : EvaluationState
  result : VerificationResult
  reasonCodes : List ReasonCode
  requiredRuleIDs : List String
  ruleOutcomes : List RuleOutcome
  startedAt : Option Time
  completedAt : Option Time
  cancelledAt : Option Time
  expiredAt : Option Time
  version : Nat
  checkpoints : List EvaluationCheckpoint
  history : List EvaluationHistoryEntry
  events : List DomainEvent
deriving DecidableEq, Repr

def captureMutableState (e : EvaluationAggregate) : EvaluationMutableState where
  state := e.state
  result := e.result
  reasonCodes := e.reasonCodes
  requiredRuleIDs := e.requiredRuleIDs
  ruleOutcomes := e.ruleOutcomes
  startedAt := e.startedAt
  completedAt := e.completedAt
  cancelledAt := e.cancelledAt
  expiredAt := e.expiredAt
  version := e.version
  checkpoints := e.checkpoints
  history := e.history
  events := e.domainEvents

-- the cancellation reason and the two bindings are not among the fields
def restoreMutableState (e : EvaluationAggregate) (s : EvaluationMutableState) :
    EvaluationAggregate :=
  { e with
    state := s.state
    result := s.result
    reasonCodes := s.reasonCodes
    requiredRuleIDs := s.requiredRuleIDs
    ruleOutcomes := s.ruleOutcomes
    startedAt := s.startedAt
    completedAt := s.completedAt
    cancelledAt := s.cancelledAt
    expiredAt := s.expiredAt
    version := s.version
    checkpoints := s.checkpoints
    history := s.history
    domainEvents := s.events }

/-- `ApplyAtomicMutation`. -/
def applyAtomicMutation (e : EvaluationAggregate) (occurredAt : Time)
    (mutation : EvaluationAggregate → Except Error Unit × EvaluationAggregate) :
    Except Error Unit × EvaluationAggregate :=
  let reply := mutation e
  match reply.1 with
  | .error err => (.error err, reply.2.restoreMutableState e.captureMutableState)
  | .ok () =>
      match reply.2.recordHistory occurredAt with
      | .error err => (.error err, reply.2.restoreMutableState e.captureMutableState)
      | .ok e' => (.ok (), e')

end EvaluationAggregate

end Evaluation
end CargoPds
