import Mathlib.Data.List.Sort
import Mathlib.Data.String.Basic
import Mathlib.Algebra.Order.Ring.Rat
import CargoPds.RuleOperator.Selector

/-!
# Rule operators

There are five kinds of operators.  Each is made from the fields of a policy rule
by a constructor that checks them, and each decides on the evidence alone:
`Evaluate` of the source never returns an error for these operators.
-/

namespace CargoPds
namespace RuleOperator

open Fallible Text Evaluation

structure SequenceStep where
  selector : Selector
  expected : Bytes
deriving DecidableEq, Repr

/-- A compiled operator. -/
inductive Operator where
  | «match» (ruleID : String) (selector : Selector) (expected : Bytes)
  | range (ruleID : String) (selector : Selector) (minimum maximum : ℚ)
  | tolerance (ruleID : String) (selector : Selector) (expected tolerance : ℚ)
  | existence (ruleID : String) (evidenceType : Evidence.EvidenceType) (sourceID : String)
      (minimumCount : UInt32)
  | sequence (ruleID : String) (steps : List SequenceStep) (maxGap maxDuration : Int)
deriving DecidableEq, Repr

/-- `RuleID`. -/
def Operator.ruleID : Operator → String
  | «match» ruleID _ _ => ruleID
  | range ruleID _ _ _ => ruleID
  | tolerance ruleID _ _ _ => ruleID
  | existence ruleID _ _ _ => ruleID
  | sequence ruleID _ _ _ => ruleID

/-! ## Constructors -/

section
variable (lib : Platform)

/-- The canonical form of an expected value. -/
def expectedJSON (expected : Bytes) : Except Error Bytes :=
  match lib.canonicalJSON expected with
  | none => .error .invalidExpectedValue
  | some canonical => .ok canonical

/-- `decimal`: the text must be one JSON number. -/
def decimal (value : String) : Except Error ℚ :=
  match lib.decodeJSON (utf8 (trimSpace value)) with
  | some (.number text) =>
      match lib.setRat text with
      | some number => .ok number
      | none => .error .invalidNumericValue
  | _ => .error .invalidNumericValue

def newMatchOperator (ruleID : String) (selector : Selector) (expected : Bytes) :
    Except Error Operator := do
  let ruleID ← normalizeRuleID ruleID
  let selector ← normalizeSelector selector
  let canonical ← expectedJSON lib expected
  return .match ruleID selector canonical

def newRangeOperator (ruleID : String) (selector : Selector) (minimum maximum : String) :
    Except Error Operator := do
  let ruleID ← normalizeRuleID ruleID
  let selector ← normalizeSelector selector
  let min ← decimal lib minimum
  let max ← decimal lib maximum
  rejectIf (max < min) .invalidRange
  return .range ruleID selector min max

def newToleranceOperator (ruleID : String) (selector : Selector)
    (expected tolerance : String) : Except Error Operator := do
  let ruleID ← normalizeRuleID ruleID
  let selector ← normalizeSelector selector
  let target ← decimal lib expected
  let delta ← decimal lib tolerance
  rejectIf (delta < 0) .invalidTolerance
  return .tolerance ruleID selector target delta

def newExistenceOperator (ruleID : String) (evidenceType : Evidence.EvidenceType)
    (sourceID : String) (minimumCount : UInt32) : Except Error Operator := do
  let ruleID ← normalizeRuleID ruleID
  let selector ← normalizeSelector ⟨evidenceType, sourceID, ""⟩
  rejectIf (minimumCount = 0) .minimumCountRequired
  return .existence ruleID selector.evidenceType selector.sourceID minimumCount

def newSequenceOperator (ruleID : String) (steps : List SequenceStep)
    (maxGap maxDuration : Int) : Except Error Operator := do
  let ruleID ← normalizeRuleID ruleID
  rejectIf (steps.length < 2) .sequenceStepsRequired
  rejectIf (maxGap < 0 ∨ maxDuration < 0) .invalidSequenceWindow
  let normalized ← steps.mapM fun step => do
    let selector ← normalizeSelector step.selector
    let expected ← expectedJSON lib step.expected
    return (⟨selector, expected⟩ : SequenceStep)
  return .sequence ruleID normalized maxGap maxDuration

end

/-! ## Evaluation -/

/-- `numericValue`. -/
def numericValue (lib : Platform) : Json → Except Error ℚ
  | .number text => decimal lib text
  | _ => .error .invalidNumericValue

/-- Decide on the value that the selector points to. -/
def decideValue (lib : Platform) (input : RuleInput) (selector : Selector)
    (decideOn : Json → RuleDecision) : RuleDecision :=
  match selectValue lib input selector with
  | .error reason => inconclusive reason
  | .ok value => decideOn value

/-- Decide on a value that has to be a number. -/
def decideNumber (lib : Platform) (decideOn : ℚ → RuleDecision) (value : Json) :
    RuleDecision :=
  match numericValue lib value with
  | .error _ => inconclusive .invalidValue
  | .ok actual => decideOn actual

/-- The next object from `start` on that the selector matches, with its index. -/
def nextMatchingEvidence (ordered : List Evidence.Snapshot) (selector : Selector)
    (start : Nat) : Option (Evidence.Snapshot × Nat) :=
  (ordered.zipIdx.drop start).find? fun entry => SelectorMatches entry.1 selector

/-- Where a sequence has come to: the index and time of the previous step and
the time of the first one. -/
structure SequenceState where
  previousIndex : Nat
  firstAt : Time
  previousAt : Time
deriving DecidableEq, Repr

/-- The observation for the next step of a sequence. -/
def nextObservation (ordered : List Evidence.Snapshot) (state : Option SequenceState)
    (selector : Selector) : Except RuleDecision (Evidence.Snapshot × Nat) :=
  match nextMatchingEvidence ordered selector
      ((state.map fun previous => previous.previousIndex + 1).getD 0) with
  | some found => .ok found
  | none =>
      if (nextMatchingEvidence ordered selector 0).isSome then
        .error (fail .sequenceOrderInvalid)
      else .error (inconclusive .sequenceIncomplete)

/-- The canonical JSON of the value that a step looks at. -/
def observedJSON (lib : Platform) (snapshot : Evidence.Snapshot) (pointer : String) :
    Except RuleDecision Bytes :=
  match valueAtSnapshot lib snapshot pointer with
  | .error reason => .error (inconclusive reason)
  | .ok value =>
      match lib.marshalJSON value with
      | none => .error (inconclusive .invalidValue)
      | some actual => .ok actual

/-- One round of the loop over the steps of a sequence.  The state is `none`
before the first round, and an error is the decision with which the loop ends. -/
def advanceSequence (lib : Platform) (ordered : List Evidence.Snapshot)
    (maxGap maxDuration : Int) (state : Option SequenceState) (step : SequenceStep) :
    Except RuleDecision SequenceState := do
  let found ← nextObservation ordered state step.selector
  let actual ← observedJSON lib found.1 step.selector.jsonPointer
  rejectIf (actual ≠ step.expected) (fail .sequenceValueMismatch)
  let observedAt := found.1.observedAt.toUTC
  let firstAt := (state.map SequenceState.firstAt).getD observedAt
  rejectIf (∃ previous ∈ state, 0 < maxGap ∧ maxGap < observedAt.sub previous.previousAt)
    (fail .sequenceGapExceeded)
  rejectIf (0 < maxDuration ∧ maxDuration < observedAt.sub firstAt)
    (fail .sequenceDurationExceeded)
  return ⟨found.2, firstAt, observedAt⟩

/-- The loop over the steps of a sequence. -/
def evaluateSteps (lib : Platform) (ordered : List Evidence.Snapshot)
    (maxGap maxDuration : Int) : Option SequenceState → List SequenceStep → RuleDecision
  | _, [] => pass
  | state, step :: rest =>
      match advanceSequence lib ordered maxGap maxDuration state step with
      | .error decision => decision
      | .ok next => evaluateSteps lib ordered maxGap maxDuration (some next) rest

/-- `Evaluate` of each operator. -/
def Operator.evaluate (lib : Platform) (operator : Operator) (input : RuleInput) :
    RuleDecision :=
  match operator with
  | .match _ selector expected =>
      decideValue lib input selector fun value =>
        match lib.marshalJSON value with
        | none => inconclusive .invalidValue
        | some actual => if actual ≠ expected then fail .matchMismatch else pass
  | .range _ selector minimum maximum =>
      decideValue lib input selector <| decideNumber lib fun actual =>
        if actual < minimum ∨ maximum < actual then fail .outsideRange else pass
  | .tolerance _ selector expected delta =>
      decideValue lib input selector <| decideNumber lib fun actual =>
        if delta < |actual - expected| then fail .outsideTolerance else pass
  | .existence _ evidenceType sourceID minimumCount =>
      let count := UInt32.ofNat (input.evidence.filter fun snapshot =>
        SelectorMatches snapshot ⟨evidenceType, sourceID, ""⟩).length
      if count < minimumCount then fail .evidenceCountBelowMinimum else pass
  | .sequence _ steps maxGap maxDuration =>
      evaluateSteps lib (input.evidence.insertionSort fun left right =>
        ¬ Evidence.ObservedLess right left) maxGap maxDuration none steps

/-! ## Decisions are normal -/

section
variable (lib : Platform)

theorem decideValue_normal {input : RuleInput} {selector : Selector}
    {decideOn : Json → RuleDecision} (h : ∀ value, (decideOn value).Normal) :
    (decideValue lib input selector decideOn).Normal := by
  unfold decideValue
  split
  · exact inconclusive_normal _
  · exact h _

theorem decideNumber_normal {decideOn : ℚ → RuleDecision}
    (h : ∀ actual, (decideOn actual).Normal) (value : Json) :
    (decideNumber lib decideOn value).Normal := by
  unfold decideNumber
  split
  · exact inconclusive_normal _
  · exact h _

theorem ite_normal {condition : Prop} [Decidable condition] {reason : Reason} :
    (if condition then fail reason else pass).Normal := by
  split
  · exact fail_normal reason
  · exact pass_normal

/-- The decision that ends a sequence early can be recorded. -/
theorem advanceSequence_normal {ordered : List Evidence.Snapshot} {maxGap maxDuration : Int}
    {state : Option SequenceState} {step : SequenceStep} {decision : RuleDecision}
    (h : advanceSequence lib ordered maxGap maxDuration state step = .error decision) :
    decision.Normal := by
  simp only [advanceSequence, bind_eq_error, rejectIf_eq_error] at h
  rcases h with hnext | ⟨found, -, hjson | ⟨actual, -, ⟨-, rfl⟩ | ⟨_, -, ⟨-, rfl⟩ |
    ⟨_, -, ⟨-, rfl⟩ | ⟨_, -, hreturn⟩⟩⟩⟩⟩
  · unfold nextObservation at hnext
    split at hnext
    · exact absurd hnext (by simp)
    · split at hnext
      · exact Except.error.inj hnext ▸ fail_normal _
      · exact Except.error.inj hnext ▸ inconclusive_normal _
  · unfold observedJSON at hjson
    split at hjson
    · exact Except.error.inj hjson ▸ inconclusive_normal _
    · split at hjson
      · exact Except.error.inj hjson ▸ inconclusive_normal _
      · exact absurd hjson (by simp)
  · exact fail_normal _
  · exact fail_normal _
  · exact fail_normal _
  · exact absurd hreturn (by simp [pure, Except.pure])

theorem evaluateSteps_normal (ordered : List Evidence.Snapshot) (maxGap maxDuration : Int)
    (state : Option SequenceState) (steps : List SequenceStep) :
    (evaluateSteps lib ordered maxGap maxDuration state steps).Normal := by
  induction steps generalizing state with
  | nil => exact pass_normal
  | cons step rest ih =>
      unfold evaluateSteps
      split
      · rename_i decision hend
        exact advanceSequence_normal lib hend
      · exact ih _

/-- Every operator returns a decision that the evaluation records unchanged. -/
theorem Operator.evaluate_normal (operator : Operator) (input : RuleInput) :
    (operator.evaluate lib input).Normal := by
  cases operator with
  | «match» ruleID selector expected =>
      refine decideValue_normal lib fun value => ?_
      split
      · exact inconclusive_normal _
      · exact ite_normal
  | range ruleID selector minimum maximum =>
      exact decideValue_normal lib (decideNumber_normal lib fun actual => ite_normal)
  | tolerance ruleID selector expected delta =>
      exact decideValue_normal lib (decideNumber_normal lib fun actual => ite_normal)
  | existence ruleID evidenceType sourceID minimumCount => exact ite_normal
  | sequence ruleID steps maxGap maxDuration =>
      exact evaluateSteps_normal lib _ maxGap maxDuration none steps

/-- An operator looks at nothing but the evidence. -/
theorem Operator.evaluate_congr (operator : Operator) {left right : RuleInput}
    (h : left.evidence = right.evidence) :
    operator.evaluate lib left = operator.evaluate lib right := by
  cases operator <;> simp only [Operator.evaluate, decideValue, selectValue, h]

end

end RuleOperator
end CargoPds
