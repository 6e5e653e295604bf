import CargoPds.Evidence.Object
import CargoPds.Evaluation.Normalize

/-!
# Selectors and JSON pointers

An operator reads one value out of the evidence.  The selector says which
object, by type and source, and which part of its payload, by a JSON pointer.
Whatever stands in the way of a value is a reason for an inconclusive decision.
-/

namespace CargoPds
namespace RuleOperator

open Fallible Text Evaluation

/-- The errors of the package.  Errors that carry a text in the source carry it
here. -/
inductive Error where
  | ruleIDRequired
  | evidenceTypeRequired
  | invalidJSONPointer
  | invalidExpectedValue
  | invalidNumericValue
  | invalidRange
  | invalidTolerance
  | minimumCountRequired
  | sequenceStepsRequired
  | invalidSequenceWindow
  | unsupportedPolicySchema (schemaVersion : String)
  | invalidPolicyDocument
  | policyRuleNotFound (ruleID : String)
  | duplicatePolicyRule (ruleID : String)
  | unsupportedOperator (operator : String)
  | ruleOutsideQualificationScope (subject : String)
deriving DecidableEq, Repr

/-- What an operator is given: the qualified evidence of one evaluation. -/
structure RuleInput where
  evaluationID : UUID
  sessionID : UUID
  policyID : String
  policyVersion : String
  policyHash : String
  evidence : List Evidence.Snapshot
deriving DecidableEq, Repr

structure RuleDecision where
  status : RuleOutcomeStatus
  reasonCodes : List ReasonCode
deriving DecidableEq, Repr

/-- The reasons that operators give. -/
inductive Reason where
  | evidenceNotFound
  | evidenceAmbiguous
  | fieldNotFound
  | invalidValue
  | matchMismatch
  | outsideRange
  | outsideTolerance
  | evidenceCountBelowMinimum
  | sequenceIncomplete
  | sequenceOrderInvalid
  | sequenceValueMismatch
  | sequenceGapExceeded
  | sequenceDurationExceeded
deriving DecidableEq, Repr

/-- The reason code of a reason. -/
def Reason.code : Reason → ReasonCode
  | evidenceNotFound => "EVIDENCE_NOT_FOUND"
  | evidenceAmbiguous => "EVIDENCE_AMBIGUOUS"
  | fieldNotFound => "FIELD_NOT_FOUND"
  | invalidValue => "INVALID_VALUE"
  | matchMismatch => "MATCH_MISMATCH"
  | outsideRange => "VALUE_OUT_OF_RANGE"
  | outsideTolerance => "VALUE_OUTSIDE_TOLERANCE"
  | evidenceCountBelowMinimum => "EVIDENCE_COUNT_BELOW_MINIMUM"
  | sequenceIncomplete => "SEQUENCE_INCOMPLETE"
  | sequenceOrderInvalid => "SEQUENCE_ORDER_INVALID"
  | sequenceValueMismatch => "SEQUENCE_VALUE_MISMATCH"
  | sequenceGapExceeded => "SEQUENCE_GAP_EXCEEDED"
  | sequenceDurationExceeded => "SEQUENCE_DURATION_EXCEEDED"

theorem Reason.matches_code (reason : Reason) : MatchesCode 1 63 reason.code := by
  cases reason <;> decide

def inconclusive (reason : Reason) : RuleDecision := ⟨.inconclusive, [reason.code]⟩

def fail (reason : Reason) : RuleDecision := ⟨.fail, [reason.code]⟩

def pass : RuleDecision := ⟨.pass, []⟩

/-- A decision that can be recorded as it is. -/
structure RuleDecision.Normal (decision : RuleDecision) : Prop where
  status_valid : decision.status.IsValid
  reasons_normal : NormalReasonCodes decision.reasonCodes
  pass_iff : decision.status = .pass ↔ decision.reasonCodes = []

theorem normal_singleton (reason : Reason) : NormalReasonCodes [reason.code] := by
  refine ⟨List.nodup_singleton _, ?_⟩
  intro code hcode
  rw [List.mem_singleton.mp hcode]
  exact reason.matches_code

@[simp] theorem inconclusive_normal (reason : Reason) : (inconclusive reason).Normal :=
  ⟨trivial, normal_singleton reason, by simp [inconclusive]⟩

@[simp] theorem fail_normal (reason : Reason) : (fail reason).Normal :=
  ⟨trivial, normal_singleton reason, by simp [fail]⟩

@[simp] theorem pass_normal : pass.Normal :=
  ⟨trivial, ⟨List.nodup_nil, by simp [pass]⟩, by simp [pass]⟩

/-! ## Pointers -/

/-- Every tilde is followed by `0` or `1`. -/
def EscapesWellFormed : List Char → Bool
  | [] => true
  | '~' :: '0' :: rest => EscapesWellFormed rest
  | '~' :: '1' :: rest => EscapesWellFormed rest
  | '~' :: _ => false
  | _ :: rest => EscapesWellFormed rest

/-- `strings.ReplaceAll(token, "~" + escaped, plain)`. -/
def replaceEscape (escaped plain : Char) : List Char → List Char
  | [] => []
  | [c] => [c]
  | c :: d :: rest =>
      if c = '~' ∧ d = escaped then plain :: replaceEscape escaped plain rest
      else c :: replaceEscape escaped plain (d :: rest)

/-- The tokens of a pointer: `strings.Split(strings.TrimPrefix(pointer, "/"), "/")`. -/
def pointerTokens (pointer : String) : List (List Char) :=
  (match pointer.toList with
    | '/' :: rest => rest
    | chars => chars).splitOn '/'

/-- A token with its escapes replaced. -/
def unescapeToken (token : List Char) : List Char :=
  replaceEscape '0' '~' (replaceEscape '1' '/' token)

/-- The digits of a decimal number. -/
def decimalDigits : List Char → Option Nat
  | [] => none
  | digits =>
      if digits.all Char.isDigit then
        some (digits.foldl (fun n c => n * 10 + (c.toNat - '0'.toNat)) 0)
      else none

/-- `strconv.Atoi`.  Numbers beyond the range of `int` are no valid index, so the
error that the source gives for them makes no difference. -/
def atoi : List Char → Option Int
  | '-' :: rest => (decimalDigits rest).map fun n => -(n : Int)
  | '+' :: rest => (decimalDigits rest).map fun n => (n : Int)
  | digits => (decimalDigits digits).map fun n => (n : Int)

/-- Follow the tokens of a pointer into a value. -/
def valueAtTokens : List (List Char) → Json → Except Reason Json
  | [], value => .ok value
  | token :: rest, .object members =>
      match Json.member? members (String.ofList (unescapeToken token)) with
      | none => .error .fieldNotFound
      | some value => valueAtTokens rest value
  | token :: rest, .array items =>
      match atoi (unescapeToken token) with
      | none => .error .fieldNotFound
      | some index =>
          if index < 0 then .error .fieldNotFound
          else
            match items[index.toNat]? with
            | none => .error .fieldNotFound
            | some value => valueAtTokens rest value
  | _ :: _, _ => .error .fieldNotFound

/-! ## Selectors -/

structure Selector where
  evidenceType : Evidence.EvidenceType
  sourceID : String
  jsonPointer : String
deriving DecidableEq, Repr

def normalizeSelector (selector : Selector) : Except Error Selector := do
  rejectIf (trimSpace selector.evidenceType = "") .evidenceTypeRequired
  rejectIf (trimSpace selector.jsonPointer ≠ "" ∧
    (trimSpace selector.jsonPointer).toList.head? ≠ some '/') .invalidJSONPointer
  rejectIf ((pointerTokens (trimSpace selector.jsonPointer)).all EscapesWellFormed = false)
    .invalidJSONPointer
  return ⟨selector.evidenceType, trimSpace selector.sourceID, trimSpace selector.jsonPointer⟩

def normalizeRuleID (ruleID : String) : Except Error String := do
  rejectIf (trimSpace ruleID = "") .ruleIDRequired
  return trimSpace ruleID

/-- `selectorMatches`. -/
def SelectorMatches (snapshot : Evidence.Snapshot) (selector : Selector) : Prop :=
  snapshot.evidenceType = selector.evidenceType ∧
    (selector.sourceID = "" ∨ snapshot.sourceID = selector.sourceID)
deriving Decidable

variable (lib : Platform)

def valueAtSnapshot (snapshot : Evidence.Snapshot) (pointer : String) : Except Reason Json :=
  match lib.decodeJSON snapshot.payload with
  | none => .error .invalidValue
  | some value => if pointer = "" then .ok value else valueAtTokens (pointerTokens pointer) value

/-- `selectValue`: the one value that the selector points to, or why there is
none. -/
def selectValue (input : RuleInput) (selector : Selector) : Except Reason Json :=
  match input.evidence.filter fun snapshot => SelectorMatches snapshot selector with
  | [] => .error .evidenceNotFound
  | [snapshot] => valueAtSnapshot lib snapshot selector.jsonPointer
  | _ => .error .evidenceAmbiguous

end RuleOperator
end CargoPds
