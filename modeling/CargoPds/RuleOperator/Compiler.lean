import CargoPds.Evidence.Qualification
import CargoPds.Policy.Version
import CargoPds.RuleOperator.Operators

/-!
# The policy compiler

`PolicyDocumentCompiler` turns the document of a policy version into operators
and a qualification policy.  A rule may only have the fields of its operator,
and what a required rule looks at must be admitted by the qualification policy.
-/

namespace CargoPds
namespace RuleOperator

open Fallible Text Policy

/-- `PolicyDocumentSchemaV1`. -/
def policyDocumentSchemaV1 : String := "policy.document.v1"

section
variable (lib : Platform)

def decodePolicyDocument (version : Version lib) : Except Error PolicyDocumentV1 := do
  rejectIf (version.snapshot.schemaVersion ≠ policyDocumentSchemaV1)
    (.unsupportedPolicySchema version.snapshot.schemaVersion)
  match lib.decodePolicyDocument version.snapshot.document with
  | none => .error .invalidPolicyDocument
  | some document => .ok document

/-- `duration`: an absent or blank text is zero. -/
def duration (value : Option String) : Except Error Int :=
  match value with
  | none => .ok 0
  | some text =>
      if trimSpace text = "" then .ok 0
      else
        match lib.parseDuration text with
        | none => .error .invalidPolicyDocument
        | some result => if result < 0 then .error .invalidPolicyDocument else .ok result

/-- `stringSet` and the loop over the allowed types: distinct trimmed texts. -/
def stringSet (values : List String) : Except Error (List (String × Bool)) :=
  values.foldlM (fun set value => do
    rejectIf (trimSpace value = "" ∨ set.lookup (trimSpace value) = some true)
      .invalidPolicyDocument
    return set ++ [(trimSpace value, true)]) []

/-- `stringList`: the same texts as a list. -/
def stringList (values : List String) : Except Error (List String) := do
  let set ← stringSet values
  return set.map Prod.fst

def compileQualificationPolicy (version : Version lib) :
    Except Error Evidence.QualificationPolicy := do
  let document ← orElseError (decodePolicyDocument lib version) Error.invalidPolicyDocument
  match document.evidenceQualification with
  | none => .error .invalidPolicyDocument
  | some input => do
      let maxAge ← duration lib input.maxAge
      let futureTolerance ← duration lib input.futureTolerance
      let trustedSources ← stringSet input.trustedSources
      let acquisitionMethods ← stringSet input.allowedAcquisitionMethods
      let requiredProvenance ← stringList input.requiredProvenance
      let requiredPayloadFields ← stringList input.requiredPayloadFields
      let allowedTypes ← stringSet input.allowedTypes
      let compiled : Evidence.QualificationPolicy := {
        version := trimSpace input.version
        trustedSources := trustedSources
        allowedTypes := allowedTypes
        allowedAcquisitionMethods := acquisitionMethods
        maxAge := maxAge
        futureTolerance := futureTolerance
        requireConfidence := input.requireConfidence
        minimumConfidence := input.minimumConfidence
        requiredProvenance := requiredProvenance
        requiredPayloadFields := requiredPayloadFields }
      let _ ← orElseError (Evidence.newQualifier compiled) Error.invalidPolicyDocument
      return compiled

/-! ## Rules -/

def selector (value : SelectorV1) : Selector :=
  ⟨value.evidenceType, value.sourceID, value.jsonPointer⟩

/-- `hasNumericFieldsExceptMinimumCount`. -/
def HasNumericFieldsExceptMinimumCount (rule : PolicyRuleV1) : Prop :=
  rule.minimum ≠ none ∨ rule.maximum ≠ none ∨ rule.tolerance ≠ none
deriving Decidable

/-- `hasNumericFields`. -/
def HasNumericFields (rule : PolicyRuleV1) : Prop :=
  rule.minimum ≠ none ∨ rule.maximum ≠ none ∨ rule.tolerance ≠ none ∨ rule.minimumCount ≠ none
deriving Decidable

/-- The operators that a policy rule can name. -/
inductive OperatorName where
  | «match»
  | range
  | tolerance
  | existence
  | sequence
deriving DecidableEq, Repr

/-- The switch on `strings.ToUpper(strings.TrimSpace(rule.Operator))`. -/
def operatorName (operator : String) : Except Error OperatorName :=
  match toUpper (trimSpace operator) with
  | "MATCH" => .ok .match
  | "RANGE" => .ok .range
  | "TOLERANCE" => .ok .tolerance
  | "EXISTENCE" => .ok .existence
  | "SEQUENCE" => .ok .sequence
  | _ => .error (.unsupportedOperator operator)

/-- A field that the operator needs. -/
def required {α : Type} (field : Option α) : Except Error α :=
  match field with
  | none => .error .invalidPolicyDocument
  | some value => .ok value

def compilePolicyRule (rule : PolicyRuleV1) : Except Error Operator := do
  match ← operatorName rule.operator with
  | .match => do
      rejectIf (rule.expected = [] ∨ HasNumericFields rule ∨ rule.evidenceType ≠ none ∨
        rule.sourceID ≠ none ∨ rule.steps ≠ [] ∨ rule.maxGap ≠ none ∨ rule.maxDuration ≠ none)
        .invalidPolicyDocument
      newMatchOperator lib (trimSpace rule.ruleID) (selector (← required rule.selector))
        rule.expected
  | .range => do
      rejectIf (rule.expected ≠ [] ∨ rule.tolerance ≠ none ∨ rule.evidenceType ≠ none ∨
        rule.sourceID ≠ none ∨ rule.minimumCount ≠ none ∨ rule.steps ≠ [] ∨
        rule.maxGap ≠ none ∨ rule.maxDuration ≠ none) .invalidPolicyDocument
      newRangeOperator lib (trimSpace rule.ruleID) (selector (← required rule.selector))
        (← required rule.minimum) (← required rule.maximum)
  | .tolerance => do
      rejectIf (rule.selector = none ∨ rule.expected = [] ∨ rule.tolerance = none ∨
        rule.minimum ≠ none ∨ rule.maximum ≠ none ∨ rule.evidenceType ≠ none ∨
        rule.sourceID ≠ none ∨ rule.minimumCount ≠ none ∨ rule.steps ≠ [] ∨
        rule.maxGap ≠ none ∨ rule.maxDuration ≠ none) .invalidPolicyDocument
      newToleranceOperator lib (trimSpace rule.ruleID) (selector (← required rule.selector))
        (← required (lib.unmarshalNumber rule.expected)) (← required rule.tolerance)
  | .existence => do
      rejectIf (rule.selector ≠ none ∨ rule.expected ≠ [] ∨
        HasNumericFieldsExceptMinimumCount rule ∨ rule.steps ≠ [] ∨ rule.maxGap ≠ none ∨
        rule.maxDuration ≠ none) .invalidPolicyDocument
      newExistenceOperator (trimSpace rule.ruleID) (← required rule.evidenceType)
        (rule.sourceID.getD "") (← required rule.minimumCount)
  | .sequence => do
      rejectIf (rule.steps.length < 2 ∨ rule.selector ≠ none ∨ rule.expected ≠ [] ∨
        HasNumericFields rule ∨ rule.evidenceType ≠ none ∨ rule.sourceID ≠ none)
        .invalidPolicyDocument
      rejectIf (∃ step ∈ rule.steps, step.expected = []) .invalidPolicyDocument
      newSequenceOperator lib (trimSpace rule.ruleID)
        (rule.steps.map fun step => ⟨selector step.selector, step.expected⟩)
        (← duration lib rule.maxGap) (← duration lib rule.maxDuration)

/-- One round of the loop that checks the identifiers of a document. -/
def checkRuleID (seen : List String) (rule : PolicyRuleV1) : Except Error (List String) := do
  rejectIf (trimSpace rule.ruleID = "") .invalidPolicyDocument
  rejectIf (trimSpace rule.ruleID ∈ seen) (.duplicatePolicyRule (trimSpace rule.ruleID))
  return seen ++ [trimSpace rule.ruleID]

def compileRule (version : Version lib) (ruleID : String) : Except Error Operator := do
  let document ← decodePolicyDocument lib version
  rejectIf (trimSpace ruleID = "") .ruleIDRequired
  rejectIf (document.rules = []) .invalidPolicyDocument
  let _ ← document.rules.foldlM checkRuleID []
  match document.rules.find? fun rule => trimSpace rule.ruleID = trimSpace ruleID with
  | none => .error (.policyRuleNotFound (trimSpace ruleID))
  | some rule => compilePolicyRule lib rule

/-! ## Admission -/

def validateEvidenceQualificationScope (evidenceType : Evidence.EvidenceType)
    (sourceID : String) (qualification : Evidence.QualificationPolicy) :
    Except Error Unit := do
  rejectIf (Evidence.Denies qualification.allowedTypes (trimSpace evidenceType))
    (.ruleOutsideQualificationScope ("evidence_type=" ++ trimSpace evidenceType))
  rejectIf (trimSpace sourceID ≠ "" ∧
    Evidence.Denies qualification.trustedSources (trimSpace sourceID))
    (.ruleOutsideQualificationScope ("source_id=" ++ trimSpace sourceID))

def validateSelectorQualificationScope (selector : SelectorV1)
    (qualification : Evidence.QualificationPolicy) : Except Error Unit :=
  validateEvidenceQualificationScope selector.evidenceType selector.sourceID qualification

def validateRuleQualificationScope (rules : List PolicyRuleV1) (ruleID : String)
    (qualification : Evidence.QualificationPolicy) : Except Error Unit :=
  match rules.find? fun rule => trimSpace rule.ruleID = ruleID with
  | none => .error (.policyRuleNotFound ruleID)
  | some rule => do
      match ← operatorName rule.operator with
      | .match | .range | .tolerance => do
          validateSelectorQualificationScope (← required rule.selector) qualification
      | .existence => do
          validateEvidenceQualificationScope (← required rule.evidenceType)
            (rule.sourceID.getD "") qualification
      | .sequence => do
          let _ ← rule.steps.mapM fun step =>
            validateSelectorQualificationScope step.selector qualification
          return ()

/-- `ValidatePolicyDocument`. -/
def validatePolicyDocument (version : Version lib) : Except Error Unit := do
  let qualification ← compileQualificationPolicy lib version
  let document ← decodePolicyDocument lib version
  let _ ← version.snapshot.requiredRuleIDs.mapM fun ruleID => do
    let _ ← compileRule lib version ruleID
    validateRuleQualificationScope document.rules ruleID qualification
  return ()

end

end RuleOperator
end CargoPds
