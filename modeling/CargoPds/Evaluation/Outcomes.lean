import CargoPds.Evaluation.Batch

/-!
# Recording, replacing and removing outcomes

Beside `RecordRuleOutcomeBatch` an aggregate offers a family of operations on
its rule outcomes: one at a time, in a loop that stops at the first error, or
as a batch that is checked before anything changes.  The texts below follow the
source; an operation that fails returns no aggregate, except for
`RecordRuleOutcomes`, which keeps what it recorded before the error.
-/

namespace CargoPds
namespace Evaluation

open Fallible Text

/-! ## Lists of outcomes -/

/-- `outcomes[index] = replacement` at the first outcome of the same rule. -/
def replaceOutcome (replacement : RuleOutcome) : List RuleOutcome → List RuleOutcome
  | [] => []
  | outcome :: rest =>
      if outcome.ruleID = replacement.ruleID then replacement :: rest
      else outcome :: replaceOutcome replacement rest

/-- Replace one outcome after the other. -/
def replaceOutcomes (replacements outcomes : List RuleOutcome) : List RuleOutcome :=
  replacements.foldl (fun outcomes replacement => replaceOutcome replacement outcomes) outcomes

/-- Take out the first outcome of a rule. -/
def removeOutcome (ruleID : String) (outcomes : List RuleOutcome) : List RuleOutcome :=
  outcomes.eraseP fun outcome => outcome.ruleID = ruleID

/-- Keep the outcomes of the other rules. -/
def removeOutcomes (ruleIDs : List String) (outcomes : List RuleOutcome) : List RuleOutcome :=
  outcomes.filter fun outcome => outcome.ruleID ∉ ruleIDs

theorem map_ruleID_replaceOutcome (replacement : RuleOutcome) (outcomes : List RuleOutcome) :
    (replaceOutcome replacement outcomes).map (·.ruleID) = outcomes.map (·.ruleID) := by
  induction outcomes with
  | nil => rfl
  | cons outcome rest ih =>
      unfold replaceOutcome
      split
      · rename_i hsame
        rw [List.map_cons, List.map_cons, hsame]
      · rw [List.map_cons, List.map_cons, ih]

theorem mem_replaceOutcome {replacement outcome : RuleOutcome} {outcomes : List RuleOutcome}
    (h : outcome ∈ replaceOutcome replacement outcomes) :
    outcome = replacement ∨ outcome ∈ outcomes := by
  induction outcomes with
  | nil => exact Or.inr h
  | cons head rest ih =>
      unfold replaceOutcome at h
      split at h
      · rcases List.mem_cons.mp h with rfl | hrest
        · exact Or.inl rfl
        · exact Or.inr (List.mem_cons_of_mem _ hrest)
      · rcases List.mem_cons.mp h with rfl | hrest
        · exact Or.inr List.mem_cons_self
        · rcases ih hrest with rfl | hmem
          · exact Or.inl rfl
          · exact Or.inr (List.mem_cons_of_mem _ hmem)

theorem mem_replaceOutcomes {replacements outcomes : List RuleOutcome} {outcome : RuleOutcome}
    (h : outcome ∈ replaceOutcomes replacements outcomes) :
    outcome ∈ replacements ∨ outcome ∈ outcomes := by
  unfold replaceOutcomes at h
  induction replacements generalizing outcomes with
  | nil => exact Or.inr h
  | cons replacement rest ih =>
      rcases ih h with hrest | hold
      · exact Or.inl (List.mem_cons_of_mem _ hrest)
      · rcases mem_replaceOutcome hold with rfl | hmem
        · exact Or.inl List.mem_cons_self
        · exact Or.inr hmem

namespace EvaluationAggregate

/-- Append one outcome and say so. -/
def appendOutcome (e : EvaluationAggregate) (outcome : RuleOutcome) : EvaluationAggregate :=
  ({ e with ruleOutcomes := e.ruleOutcomes ++ [outcome] } : EvaluationAggregate).raise
    (.ruleOutcomeRecorded outcome.ruleID outcome.status outcome.reasonCodes
      outcome.evaluatedAt)

/-- The outcome is recorded already. -/
def HasOutcome (e : EvaluationAggregate) (outcome : RuleOutcome) : Prop :=
  ∃ existing ∈ e.ruleOutcomeByID outcome.ruleID, RuleOutcomesEqual existing outcome
deriving Decidable

/-- `len(e.requiredRuleIDs) > 0 && !e.IsRuleRequired(ruleID)`. -/
def IsUnknownRule (e : EvaluationAggregate) (ruleID : String) : Prop :=
  e.requiredRuleIDs ≠ [] ∧ ¬ e.IsRuleRequired ruleID
deriving Decidable

/-! ## Recording -/

def recordRuleOutcome (e : EvaluationAggregate) (o : RuleOutcome) :
    Except Error EvaluationAggregate := do
  rejectIf (e.state ≠ .running) .invalidStateTransition
  let normalized ← normalizeRuleOutcome o
  rejectIf (¬ e.StartedBy normalized.evaluatedAt) (.invalidRuleOutcomeTimestamp none)
  rejectIf (e.IsUnknownRule normalized.ruleID) (.unknownRule normalized.ruleID)
  match e.ruleOutcomeByID normalized.ruleID with
  | some existing =>
      if RuleOutcomesEqual existing normalized then .ok e
      else .error (.ruleOutcomeConflict normalized.ruleID)
  | none => return e.appendOutcome normalized

/-- `RecordRuleOutcomes`: what was recorded before an error stays. -/
def recordRuleOutcomes (e : EvaluationAggregate) :
    List RuleOutcome → Except Error Unit × EvaluationAggregate
  | [] => (.ok (), e)
  | outcome :: rest =>
      match e.recordRuleOutcome outcome with
      | .error err => (.error err, e)
      | .ok e' => e'.recordRuleOutcomes rest

/-- `RecordRuleOutcomesAtomic`: one event for each new outcome of the batch. -/
def recordRuleOutcomesAtomic (e : EvaluationAggregate) (outcomes : List RuleOutcome) :
    Except Error EvaluationAggregate := do
  rejectIf (e.state ≠ .running) .invalidStateTransition
  let normalized ← e.validateRuleOutcomeBatch outcomes
  return normalized.foldl
    (fun e outcome => if e.HasOutcome outcome then e else e.appendOutcome outcome) e

/-! ## Replacing -/

def replaceRuleOutcome (e : EvaluationAggregate) (replacement : RuleOutcome)
    (replacedAt : Time) : Except Error EvaluationAggregate := do
  rejectIf (e.state ≠ .running) .invalidStateTransition
  rejectIf replacedAt.IsZero .ruleOutcomeTimestampRequired
  let normalized ← normalizeRuleOutcome replacement
  rejectIf (¬ e.StartedBy replacedAt.toUTC ∨ ¬ e.StartedBy normalized.evaluatedAt ∨
    normalized.evaluatedAt.After replacedAt.toUTC) (.invalidRuleOutcomeTimestamp none)
  rejectIf (e.IsUnknownRule normalized.ruleID) (.unknownRule normalized.ruleID)
  match e.ruleOutcomeByID normalized.ruleID with
  | none => .error (.ruleOutcomeNotFound normalized.ruleID)
  | some previous =>
      if RuleOutcomesEqual previous normalized then .ok e
      else do
        rejectIf (normalized.evaluatedAt.Before previous.evaluatedAt)
          (.staleRuleOutcomeReplacement normalized.ruleID)
        let e' : EvaluationAggregate :=
          { e with ruleOutcomes := replaceOutcome normalized e.ruleOutcomes }
        return e'.raise (.ruleOutcomeReplaced previous normalized replacedAt.toUTC)

structure RuleOutcomeReplacement where
  replacement : RuleOutcome
  replacedAt : Time
deriving DecidableEq, Repr

/-- One round of the first loop of `ReplaceRuleOutcomesAtomic`.  The map from
identifiers to replacements is the list of the replacements so far. -/
def validateReplacement (e : EvaluationAggregate) (replacedAt : Time)
    (accepted : List RuleOutcome) (item : RuleOutcomeReplacement) :
    Except Error (List RuleOutcome) := do
  let t := if item.replacedAt.IsZero then replacedAt else item.replacedAt
  rejectIf (t.toUTC.After replacedAt) (.invalidRuleOutcomeTimestamp none)
  let value ← normalizeRuleOutcome item.replacement
  rejectIf (value.evaluatedAt.After replacedAt ∨ ¬ e.StartedBy value.evaluatedAt)
    (.invalidRuleOutcomeTimestamp none)
  rejectIf (e.IsUnknownRule value.ruleID) (.unknownRule value.ruleID)
  match e.ruleOutcomeByID value.ruleID with
  | none => .error (.ruleOutcomeNotFound value.ruleID)
  | some current => do
      rejectIf (value.evaluatedAt.Before current.evaluatedAt)
        (.staleRuleOutcomeReplacement value.ruleID)
      match accepted.find? (fun old => old.ruleID = value.ruleID) with
      | some old =>
          if RuleOutcomesEqual old value then .ok (replaceOutcome value accepted)
          else .error (.ruleOutcomeConflict value.ruleID)
      | none => return accepted ++ [value]

def replaceRuleOutcomesAtomic (e : EvaluationAggregate)
    (replacements : List RuleOutcomeReplacement) (replacedAt : Time) :
    Except Error EvaluationAggregate := do
  rejectIf (e.state ≠ .running) .invalidStateTransition
  if replacements = [] then .ok e
  else do
    rejectIf replacedAt.IsZero .ruleOutcomeTimestampRequired
    rejectIf (¬ e.StartedBy replacedAt.toUTC) (.invalidRuleOutcomeTimestamp none)
    let accepted ← replacements.foldlM (e.validateReplacement replacedAt.toUTC) []
    let pending := e.pendingOutcomes (accepted.insertionSort ByRuleID)
    let previous := pending.filterMap fun replacement => e.ruleOutcomeByID replacement.ruleID
    let e' : EvaluationAggregate :=
      { e with ruleOutcomes := replaceOutcomes pending e.ruleOutcomes }
    return if pending = [] then e
      else e'.raise (.ruleOutcomeBatchReplaced previous pending replacedAt.toUTC)

/-! ## Removing -/

def removeRuleOutcome (e : EvaluationAggregate) (ruleID : String) (removedAt : Time) :
    Except Error EvaluationAggregate := do
  rejectIf (e.state ≠ .running) .invalidStateTransition
  rejectIf (trimSpace ruleID = "") .ruleIDRequired
  rejectIf removedAt.IsZero .ruleOutcomeRemovalTimeRequired
  rejectIf (¬ e.StartedBy removedAt.toUTC) (.invalidRuleOutcomeTimestamp none)
  match e.ruleOutcomeByID ruleID with
  | none => .error (.ruleOutcomeNotFound (trimSpace ruleID))
  | some outcome =>
      let e' : EvaluationAggregate :=
        { e with ruleOutcomes := removeOutcome (trimSpace ruleID) e.ruleOutcomes }
      return e'.raise (.ruleOutcomeRemoved outcome removedAt.toUTC)

/-- `RemoveRuleOutcomeIfPresent`. -/
def removeRuleOutcomeIfPresent (e : EvaluationAggregate) (ruleID : String) (removedAt : Time) :
    Except Error EvaluationAggregate := do
  rejectIf (trimSpace ruleID = "") .ruleIDRequired
  if e.ruleOutcomeByID ruleID = none then .ok e
  else e.removeRuleOutcome (trimSpace ruleID) removedAt

def normalizeRuleIDsForRemoval (ruleIDs : List String) : Except Error (List String) := do
  let ids ← ruleIDs.foldlM (fun out id => do
    rejectIf (trimSpace id = "") Error.ruleIDRequired
    return appendNew out (trimSpace id)) []
  return ids.insertionSort (· ≤ ·)

/-- One round of the loop that collects the outcomes to remove. -/
def recordedOutcome (e : EvaluationAggregate) (ruleID : String) : Except Error RuleOutcome :=
  match e.ruleOutcomeByID ruleID with
  | none => .error (.ruleOutcomeNotFound ruleID)
  | some outcome => .ok outcome

def removeRuleOutcomesAtomic (e : EvaluationAggregate) (ruleIDs : List String)
    (removedAt : Time) : Except Error EvaluationAggregate := do
  rejectIf (e.state ≠ .running) .invalidStateTransition
  if ruleIDs = [] then .ok e
  else do
    rejectIf removedAt.IsZero .ruleOutcomeRemovalTimeRequired
    rejectIf (¬ e.StartedBy removedAt.toUTC) (.invalidRuleOutcomeTimestamp none)
    let ids ← normalizeRuleIDsForRemoval ruleIDs
    let removed ← ids.mapM e.recordedOutcome
    let e' : EvaluationAggregate :=
      { e with ruleOutcomes := removeOutcomes ids e.ruleOutcomes }
    return e'.raise (.ruleOutcomeBatchRemoved removed removedAt.toUTC)

/-- `RemoveRuleOutcomesIfPresent`. -/
def removeRuleOutcomesIfPresent (e : EvaluationAggregate) (ruleIDs : List String)
    (removedAt : Time) : Except Error EvaluationAggregate := do
  rejectIf (e.state ≠ .running) .invalidStateTransition
  let ids ← normalizeRuleIDsForRemoval ruleIDs
  let existing := ids.filter fun id => e.ruleOutcomeByID id ≠ none
  if existing = [] then .ok e else e.removeRuleOutcomesAtomic existing removedAt

def resetRuleOutcomes (e : EvaluationAggregate) (resetAt : Time) :
    Except Error EvaluationAggregate := do
  rejectIf (e.state ≠ .running) .invalidStateTransition
  rejectIf resetAt.IsZero .ruleOutcomeResetTimeRequired
  rejectIf (¬ e.StartedBy resetAt.toUTC) (.invalidRuleOutcomeTimestamp none)
  let e' : EvaluationAggregate := { e with ruleOutcomes := [] }
  return if e.ruleOutcomes = [] then e
    else e'.raise (.ruleOutcomesReset e.ruleOutcomes resetAt.toUTC)

/-- `ResetRuleOutcomesAtVersion`. -/
def resetRuleOutcomesAtVersion (e : EvaluationAggregate) (expectedVersion : Nat)
    (resetAt : Time) : Except Error EvaluationAggregate := do
  rejectIf (e.version ≠ expectedVersion) .evaluationVersionConflict
  e.resetRuleOutcomes resetAt

end EvaluationAggregate

end Evaluation
end CargoPds
