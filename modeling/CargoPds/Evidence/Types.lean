import Mathlib.Data.Rat.Defs
import CargoPds.Foundation.Identity
import CargoPds.Foundation.Time

/-!
# The data of evidence

An evidence object is one observation of a source, with a canonical JSON
payload and the digest of that payload.
-/

namespace CargoPds

/-- A `float64` as far as the code looks at it: it only compares.  The
comparisons of the source are false when a side is not a number. -/
inductive Float64 where
  | nan
  | negativeInfinity
  | finite (value : ℚ)
  | infinity
deriving DecidableEq, Repr

/-- The operator `<`. -/
def Float64.Lt : Float64 → Float64 → Prop
  | finite x, finite y => x < y
  | negativeInfinity, finite _ => True
  | negativeInfinity, infinity => True
  | finite _, infinity => True
  | _, _ => False

instance (x y : Float64) : Decidable (x.Lt y) := by
  unfold Float64.Lt
  split <;> infer_instance

namespace Evidence

/-- The errors of the package. -/
inductive Error where
  | evidenceIDRequired
  | sessionIDRequired
  | sourceIDRequired
  | sourceTypeRequired
  | invalidEvidenceType
  | observedAtRequired
  | receivedAtRequired
  | invalidTimestampOrder
  | invalidPayload
  | invalidConfidence
  | schemaVersionRequired
  | runtimeVersionRequired
  | acquisitionRequired
  | integrityMismatch
  | nonCanonicalPayload
  | notFound
  | conflict
  | qualificationPolicyVersionRequired
  | invalidQualificationMaxAge
  | invalidQualificationTolerance
  | invalidQualificationConfidence
  | qualificationTimeRequired
deriving DecidableEq, Repr

/-- `evidence.Type`: any text of the form `[A-Z][A-Z0-9_]{0,63}`. -/
abbrev EvidenceType := String

structure IntegrityMetadata where
  algorithm : String
  payloadDigest : String
  schemaVersion : String
  runtimeVersion : String
  acquisitionMethod : String
deriving DecidableEq, Repr

/-- What is stored of an evidence object.  `provenance` is a map, given by its
entries. -/
structure Snapshot where
  evidenceID : UUID
  sessionID : UUID
  sourceID : String
  sourceType : String
  evidenceType : EvidenceType
  observedAt : Time
  receivedAt : Time
  payload : Bytes
  confidence : Option Float64
  provenance : List (String × String)
  integrity : IntegrityMetadata
deriving DecidableEq, Repr

/-- What a client submits. -/
structure Input where
  evidenceID : UUID
  sessionID : UUID
  sourceID : String
  sourceType : String
  evidenceType : EvidenceType
  observedAt : Time
  receivedAt : Time
  payload : Bytes
  confidence : Option Float64
  provenance : List (String × String)
  schemaVersion : String
  runtimeVersion : String
  acquisitionMethod : String
deriving DecidableEq, Repr

/-! ## Qualification -/

inductive QualificationStatus where
  | qualified
  | rejected
  | unavailable
deriving DecidableEq, Repr

inductive QualificationReasonCode where
  | evidenceUnavailable
  | integrityInvalid
  | sourceUntrusted
  | typeNotAllowed
  | timestampFuture
  | evidenceExpired
  | confidenceMissing
  | confidenceLow
  | provenanceMissing
  | payloadFieldMissing
  | acquisitionDenied
  | sessionMismatch
  | duplicateObservation
  | conflictingObservation
deriving DecidableEq, Repr

/-- The text of a reason code. -/
def QualificationReasonCode.text : QualificationReasonCode → String
  | evidenceUnavailable => "EVIDENCE_UNAVAILABLE"
  | integrityInvalid => "INTEGRITY_INVALID"
  | sourceUntrusted => "SOURCE_UNTRUSTED"
  | typeNotAllowed => "TYPE_NOT_ALLOWED"
  | timestampFuture => "TIMESTAMP_FUTURE"
  | evidenceExpired => "EVIDENCE_EXPIRED"
  | confidenceMissing => "CONFIDENCE_MISSING"
  | confidenceLow => "CONFIDENCE_LOW"
  | provenanceMissing => "PROVENANCE_MISSING"
  | payloadFieldMissing => "PAYLOAD_FIELD_MISSING"
  | acquisitionDenied => "ACQUISITION_DENIED"
  | sessionMismatch => "SESSION_MISMATCH"
  | duplicateObservation => "DUPLICATE_OBSERVATION"
  | conflictingObservation => "CONFLICTING_OBSERVATION"

structure QualificationReason where
  code : QualificationReasonCode
  field : String
deriving DecidableEq, Repr

/-- The verdict on one object.  The identifier of an absent object is nil. -/
structure QualificationResult where
  evidenceID : UUID
  status : QualificationStatus
  evaluatedAt : Time
  policyVersion : String
  reasons : List QualificationReason
deriving DecidableEq, Repr

/-- The verdict on all evidence of a session. -/
structure SessionQualificationResult where
  sessionID : UUID
  status : QualificationStatus
  evaluatedAt : Time
  policyVersion : String
  reasons : List QualificationReason
  evidence : List QualificationResult
deriving DecidableEq, Repr

/-- The sets of the source are maps to `bool`; they are given by their
entries. -/
structure QualificationPolicy where
  version : String
  trustedSources : List (String × Bool)
  allowedTypes : List (EvidenceType × Bool)
  allowedAcquisitionMethods : List (String × Bool)
  maxAge : Int
  futureTolerance : Int
  requireConfidence : Bool
  minimumConfidence : Option Float64
  requiredProvenance : List String
  requiredPayloadFields : List String
deriving DecidableEq, Repr

end Evidence
end CargoPds
