import CargoPds.Evidence.Types

/-!
# The data of policies

A policy version names the rules an evaluation has to decide and carries the
document that defines them.  The document is JSON; `PolicyDocumentV1` is what a
strict decoder makes of it.
-/

namespace CargoPds
namespace Policy

/-- The errors of the package. -/
inductive Error where
  | policyIDRequired
  | versionRequired
  | schemaVersionRequired
  | effectiveFromRequired
  | invalidEffectivePeriod
  | requiredRulesMissing
  | duplicateRequiredRule (ruleID : String)
  | invalidDocument
  | nonCanonicalDocument
  | hashMismatch
  | versionConflict
  | effectiveOverlap
  | policyNotFound
  | ambiguousPolicy
  | invalidLifecycleChange
deriving DecidableEq, Repr

structure Input where
  policyID : String
  version : String
  schemaVersion : String
  effectiveFrom : Time
  effectiveUntil : Option Time
  requiredRuleIDs : List String
  document : Bytes
deriving DecidableEq, Repr

structure Snapshot where
  policyID : String
  version : String
  schemaVersion : String
  effectiveFrom : Time
  effectiveUntil : Option Time
  requiredRuleIDs : List String
  document : Bytes
  hash : String
deriving DecidableEq, Repr

/-- The envelope whose JSON is hashed: a snapshot without its hash. -/
structure Envelope where
  policyID : String
  version : String
  schemaVersion : String
  effectiveFrom : Time
  effectiveUntil : Option Time
  requiredRuleIDs : List String
  document : Bytes
deriving DecidableEq, Repr

inductive LifecycleStatus where
  | active
  | suspended
  | retired
deriving DecidableEq, Repr

/-! ## Documents -/

structure SelectorV1 where
  evidenceType : Evidence.EvidenceType
  sourceID : String
  jsonPointer : String
deriving DecidableEq, Repr

structure SequenceStepV1 where
  selector : SelectorV1
  expected : Bytes
deriving DecidableEq, Repr

structure PolicyRuleV1 where
  ruleID : String
  operator : String
  selector : Option SelectorV1
  expected : Bytes
  minimum : Option String
  maximum : Option String
  tolerance : Option String
  evidenceType : Option Evidence.EvidenceType
  sourceID : Option String
  minimumCount : Option UInt32
  steps : List SequenceStepV1
  maxGap : Option String
  maxDuration : Option String
deriving DecidableEq, Repr

structure EvidenceQualificationV1 where
  version : String
  trustedSources : List String
  allowedTypes : List Evidence.EvidenceType
  allowedAcquisitionMethods : List String
  maxAge : Option String
  futureTolerance : Option String
  requireConfidence : Bool
  minimumConfidence : Option Float64
  requiredProvenance : List String
  requiredPayloadFields : List String
deriving DecidableEq, Repr

structure PolicyDocumentV1 where
  evidenceQualification : Option EvidenceQualificationV1
  rules : List PolicyRuleV1
deriving DecidableEq, Repr

end Policy
end CargoPds
