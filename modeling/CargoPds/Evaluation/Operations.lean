import CargoPds.Evaluation.History

/-!
# Clients of one aggregate

The public operations of an aggregate form the type `Operation`.  The variants
that end in `Now` are the operations with the time they read, and
`RequireManualReview` and `MarkSystemException` are `CompleteNow` with a fixed
result, so neither needs a constructor of its own.

A `Script` is a client: it calls operations one after the other, sees the reply
and the aggregate after each call, and decides what to do next.  The function
that is given to `ApplyAtomicMutation` is a script again, so mutations may be
nested and may go on after an error.
-/

namespace CargoPds
namespace Evaluation

inductive Operation where
  | start (startedAt : Time)
  | completeAt (result : VerificationResult) (reasons : List ReasonCode) (completedAt : Time)
  | cancel (reason : String) (now : Time)
  | expire (expiredAt : Time)
  | registerRequiredRuleAt (id : String) (registeredAt : Time)
  | bindEvidenceSet (binding : EvidenceSetBinding)
  | bindVerificationPolicy (binding : PolicyBinding)
  | recordRuleOutcome (outcome : RuleOutcome)
  | recordRuleOutcomes (outcomes : List RuleOutcome)
  | recordRuleOutcomesAtomic (outcomes : List RuleOutcome)
  | recordRuleOutcomeBatch (outcomes : List RuleOutcome) (recordedAt : Time)
  | replaceRuleOutcome (replacement : RuleOutcome) (replacedAt : Time)
  | replaceRuleOutcomesAtomic
      (replacements : List EvaluationAggregate.RuleOutcomeReplacement) (replacedAt : Time)
  | removeRuleOutcome (ruleID : String) (removedAt : Time)
  | removeRuleOutcomeIfPresent (ruleID : String) (removedAt : Time)
  | removeRuleOutcomesAtomic (ruleIDs : List String) (removedAt : Time)
  | removeRuleOutcomesIfPresent (ruleIDs : List String) (removedAt : Time)
  | resetRuleOutcomes (resetAt : Time)
  | resetRuleOutcomesAtVersion (expectedVersion : Nat) (resetAt : Time)
  | createCheckpoint (name : String) (createdAt : Time)
  | rollbackToCheckpoint (name : String) (rolledBackAt : Time)
  | recordHistory (recordedAt : Time)
  | clearDomainEvents
deriving DecidableEq, Repr

/-- The reply of an operation and the aggregate after it; an operation that
returns no aggregate leaves it as it was. -/
def settleOperation (e : EvaluationAggregate) :
    Except Error EvaluationAggregate → Except Error Unit × EvaluationAggregate
  | .ok e' => (.ok (), e')
  | .error err => (.error err, e)

/-- One operation on an aggregate. -/
def Operation.apply (op : Operation) (e : EvaluationAggregate) :
    Except Error Unit × EvaluationAggregate :=
  match op with
  | start startedAt => settleOperation e (e.start startedAt)
  | completeAt result reasons completedAt =>
      settleOperation e (e.completeAt result reasons completedAt)
  | cancel reason now => settleOperation e (e.cancel reason now)
  | expire expiredAt => settleOperation e (e.expire expiredAt)
  | registerRequiredRuleAt id registeredAt =>
      settleOperation e (e.registerRequiredRuleAt id registeredAt)
  | bindEvidenceSet binding => settleOperation e (e.bindEvidenceSet binding)
  | bindVerificationPolicy binding => settleOperation e (e.bindVerificationPolicy binding)
  | recordRuleOutcome outcome => settleOperation e (e.recordRuleOutcome outcome)
  | recordRuleOutcomes outcomes => e.recordRuleOutcomes outcomes
  | recordRuleOutcomesAtomic outcomes =>
      settleOperation e (e.recordRuleOutcomesAtomic outcomes)
  | recordRuleOutcomeBatch outcomes recordedAt =>
      settleOperation e (e.recordRuleOutcomeBatch outcomes recordedAt)
  | replaceRuleOutcome replacement replacedAt =>
      settleOperation e (e.replaceRuleOutcome replacement replacedAt)
  | replaceRuleOutcomesAtomic replacements replacedAt =>
      settleOperation e (e.replaceRuleOutcomesAtomic replacements replacedAt)
  | removeRuleOutcome ruleID removedAt =>
      settleOperation e (e.removeRuleOutcome ruleID removedAt)
  | removeRuleOutcomeIfPresent ruleID removedAt =>
      settleOperation e (e.removeRuleOutcomeIfPresent ruleID removedAt)
  | removeRuleOutcomesAtomic ruleIDs removedAt =>
      settleOperation e (e.removeRuleOutcomesAtomic ruleIDs removedAt)
  | removeRuleOutcomesIfPresent ruleIDs removedAt =>
      settleOperation e (e.removeRuleOutcomesIfPresent ruleIDs removedAt)
  | resetRuleOutcomes resetAt => settleOperation e (e.resetRuleOutcomes resetAt)
  | resetRuleOutcomesAtVersion expectedVersion resetAt =>
      settleOperation e (e.resetRuleOutcomesAtVersion expectedVersion resetAt)
  | createCheckpoint name createdAt => settleOperation e (e.createCheckpoint name createdAt)
  | rollbackToCheckpoint name rolledBackAt =>
      settleOperation e (e.rollbackToCheckpoint name rolledBackAt)
  | recordHistory recordedAt => settleOperation e (e.recordHistory recordedAt)
  | clearDomainEvents => (.ok (), e.clearDomainEvents)

/-- The operation is not refused. -/
def Operation.Succeeds (op : Operation) (e : EvaluationAggregate) : Prop :=
  (op.apply e).1 = .ok ()
deriving Decidable

/-- A client of one aggregate. -/
inductive Script where
  | finish (result : Except Error Unit)
  | call (op : Operation) (next : Except Error Unit × EvaluationAggregate → Script)
  | applyAtomicMutation (occurredAt : Time) (mutation : Script)
      (next : Except Error Unit × EvaluationAggregate → Script)

namespace Script

/-- The reply of a client and the aggregate it leaves behind. -/
def run : Script → EvaluationAggregate → Except Error Unit × EvaluationAggregate
  | finish result, e => (result, e)
  | call op next, e => (next (op.apply e)).run (op.apply e).2
  | applyAtomicMutation occurredAt mutation next, e =>
      (next (e.applyAtomicMutation occurredAt mutation.run)).run
        (e.applyAtomicMutation occurredAt mutation.run).2

/-- The aggregate before the first call of a client and after each of them. -/
def moments : Script → EvaluationAggregate → List EvaluationAggregate
  | finish _, e => [e]
  | call op next, e => e :: (next (op.apply e)).moments (op.apply e).2
  | applyAtomicMutation occurredAt mutation next, e =>
      e :: (next (e.applyAtomicMutation occurredAt mutation.run)).moments
        (e.applyAtomicMutation occurredAt mutation.run).2

/-- Every aggregate that is seen during a run: the moments of the client and those
of the functions it gives to `ApplyAtomicMutation`, which are undone when a
mutation fails. -/
def states : Script → EvaluationAggregate → List EvaluationAggregate
  | finish _, e => [e]
  | call op next, e => e :: (next (op.apply e)).states (op.apply e).2
  | applyAtomicMutation occurredAt mutation next, e =>
      mutation.states e ++ (next (e.applyAtomicMutation occurredAt mutation.run)).states
        (e.applyAtomicMutation occurredAt mutation.run).2

/-- The client that makes the given calls whatever the replies are. -/
def sequence : List Operation → Script
  | [] => finish (.ok ())
  | op :: rest => call op fun _ => sequence rest

end Script

end Evaluation
end CargoPds
