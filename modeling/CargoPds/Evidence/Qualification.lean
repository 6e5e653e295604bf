import Mathlib.Data.List.Sort
import CargoPds.Evidence.Object

/-!
# Qualification of evidence

A qualifier decides, under one policy, whether each object of a session may be
used.  Over a whole session it also rejects repeated and contradictory
observations: objects of one source and type that were observed at the same
instant.
-/

namespace CargoPds
namespace Evidence

open Fallible Text

structure Qualifier where
  policy : QualificationPolicy
deriving DecidableEq, Repr

/-- `normalizedKeys`: the distinct trimmed keys in order. -/
def normalizedKeys (values : List String) : List String :=
  ((values.map trimSpace).filter (· ≠ "")).dedup.insertionSort (· ≤ ·)

def newQualifier (policy : QualificationPolicy) : Except Error Qualifier := do
  rejectIf (trimSpace policy.version = "") .qualificationPolicyVersionRequired
  rejectIf (policy.maxAge < 0) .invalidQualificationMaxAge
  rejectIf (policy.futureTolerance < 0) .invalidQualificationTolerance
  rejectIf (∃ confidence ∈ policy.minimumConfidence,
    confidence.Lt (.finite 0) ∨ (Float64.finite 1).Lt confidence)
    .invalidQualificationConfidence
  return ⟨{ policy with
    version := trimSpace policy.version
    trustedSources := policy.trustedSources.map fun entry => (trimSpace entry.1, entry.2)
    allowedAcquisitionMethods :=
      policy.allowedAcquisitionMethods.map fun entry => (trimSpace entry.1, entry.2)
    requiredProvenance := normalizedKeys policy.requiredProvenance
    requiredPayloadFields := normalizedKeys policy.requiredPayloadFields }⟩

/-- `len(set) > 0 && !set[key]`. -/
def Denies (set : List (String × Bool)) (key : String) : Prop :=
  set ≠ [] ∧ set.lookup key ≠ some true
deriving Decidable

/-- A reason that applies under a condition. -/
def reasonIf (applies : Prop) [Decidable applies] (code : QualificationReasonCode)
    (field : String) : List QualificationReason :=
  if applies then [⟨code, field⟩] else []

/-- The payload has a member of this name that is not null. -/
def hasPayloadField (payload : Option Json) (key : String) : Bool :=
  match payload with
  | some (.object members) =>
      match Json.member? members key with
      | none => false
      | some .null => false
      | some _ => true
  | _ => false

namespace Qualifier

variable (lib : Platform) (q : Qualifier)

/-- The reasons against an intact object, in the order of the checks. -/
def objections (snapshot : Snapshot) (evaluatedAt : Time) : List QualificationReason :=
  reasonIf (Denies q.policy.trustedSources snapshot.sourceID) .sourceUntrusted "source_id" ++
  reasonIf (Denies q.policy.allowedTypes snapshot.evidenceType) .typeNotAllowed
    "evidence_type" ++
  (if snapshot.observedAt.After (evaluatedAt.add q.policy.futureTolerance) then
      [⟨.timestampFuture, "observed_at"⟩]
    else reasonIf (0 < q.policy.maxAge ∧
      q.policy.maxAge < evaluatedAt.sub snapshot.observedAt) .evidenceExpired "observed_at") ++
  (match snapshot.confidence with
    | none => reasonIf (q.policy.requireConfidence = true ∨ q.policy.minimumConfidence ≠ none)
        .confidenceMissing "confidence"
    | some confidence => reasonIf (∃ minimum ∈ q.policy.minimumConfidence,
        confidence.Lt minimum) .confidenceLow "confidence") ++
  q.policy.requiredProvenance.flatMap (fun key =>
    reasonIf (trimSpace ((snapshot.provenance.lookup key).getD "") = "") .provenanceMissing
      key) ++
  q.policy.requiredPayloadFields.flatMap (fun key =>
    reasonIf (hasPayloadField (lib.decodeJSON snapshot.payload) key = false)
      .payloadFieldMissing key) ++
  reasonIf (Denies q.policy.allowedAcquisitionMethods snapshot.integrity.acquisitionMethod)
    .acquisitionDenied "acquisition_method"

/-- `Qualify`; a nil object is `none`. -/
def qualify (object : Option Object) (evaluatedAt : Time) :
    Except Error QualificationResult := do
  rejectIf evaluatedAt.IsZero .qualificationTimeRequired
  return match object with
  | none => ⟨UUID.nil, .unavailable, evaluatedAt.toUTC, q.policy.version,
      [⟨.evidenceUnavailable, ""⟩]⟩
  | some object =>
      match verifySnapshot lib object.snapshot with
      | .error _ => ⟨object.snapshot.evidenceID, .rejected, evaluatedAt.toUTC,
          q.policy.version, [⟨.integrityInvalid, "integrity"⟩]⟩
      | .ok _ =>
          let reasons := q.objections lib object.snapshot evaluatedAt.toUTC
          ⟨object.snapshot.evidenceID, if reasons = [] then .qualified else .rejected,
            evaluatedAt.toUTC, q.policy.version, reasons⟩

end Qualifier

/-! ## Sessions -/

/-- The order in which `QualifySet` looks at objects: nil objects last. -/
def QualifiedLess : Option Object → Option Object → Prop
  | none, _ => False
  | some _, none => True
  | some left, some right => ObservedLess left.snapshot right.snapshot

instance (left right : Option Object) : Decidable (QualifiedLess left right) := by
  unfold QualifiedLess
  split <;> infer_instance

/-- What makes two objects observations of the same thing.  The source joins
the three parts with NUL characters, which the last two cannot contain. -/
structure ObservationKey where
  sourceID : String
  evidenceType : EvidenceType
  instant : Int
deriving DecidableEq, Repr

/-- The position of an object in the set, its key and its payload digest. -/
structure Observation where
  index : Nat
  key : ObservationKey
  digest : String
deriving DecidableEq, Repr

/-- The observations of a session: objects of other sessions take no part. -/
def observations (sessionID : UUID) (ordered : List (Option Object)) : List Observation :=
  ordered.zipIdx.filterMap fun entry =>
    match entry.1 with
    | none => none
    | some object =>
        if object.snapshot.sessionID ≠ sessionID then none
        else some ⟨entry.2, ⟨object.snapshot.sourceID, object.snapshot.evidenceType,
          object.snapshot.observedAt.instant⟩, object.snapshot.integrity.payloadDigest⟩

/-- The reason that the group of an observation gives against it. -/
def groupReasons (all : List Observation) (item : Observation) : List QualificationReason :=
  match all.filter fun other => other.key = item.key with
  | first :: second :: rest =>
      if ∃ other ∈ second :: rest, other.digest ≠ first.digest then
        [⟨.conflictingObservation, "payload"⟩]
      else if item.index = first.index then [] else [⟨.duplicateObservation, "evidence_id"⟩]
  | _ => []

/-- The reasons against an object that come from the session it is in. -/
def sessionReasons (sessionID : UUID) (all : List Observation) (object : Option Object)
    (index : Nat) : List QualificationReason :=
  match object with
  | none => []
  | some object =>
      if object.snapshot.sessionID ≠ sessionID then [⟨.sessionMismatch, "session_id"⟩]
      else (all.filter fun item => item.index = index).flatMap (groupReasons all)

/-- Add the reasons of the session to the verdict on one object. -/
def applySession (result : QualificationResult) (extra : List QualificationReason) :
    QualificationResult :=
  { result with
    reasons := result.reasons ++ extra
    status := if result.reasons ++ extra ≠ [] ∧ result.status = .qualified then .rejected
      else result.status }

def Qualifier.qualifySet (lib : Platform) (q : Qualifier) (sessionID : UUID)
    (objects : List (Option Object)) (evaluatedAt : Time) :
    Except Error SessionQualificationResult := do
  rejectIf (sessionID = UUID.nil) .sessionIDRequired
  rejectIf evaluatedAt.IsZero .qualificationTimeRequired
  let ordered := objects.insertionSort fun left right => ¬ QualifiedLess right left
  if ordered = [] then
    return ⟨sessionID, .unavailable, evaluatedAt.toUTC, q.policy.version,
      [⟨.evidenceUnavailable, ""⟩], []⟩
  else do
    let verdicts ← ordered.mapM fun object => q.qualify lib object evaluatedAt.toUTC
    let all := observations sessionID ordered
    let evidence := (verdicts.zip ordered.zipIdx).map fun entry =>
      applySession entry.1 (sessionReasons sessionID all entry.2.1 entry.2.2)
    return ⟨sessionID,
      if ∃ result ∈ evidence, result.status ≠ .qualified then .rejected else .qualified,
      evaluatedAt.toUTC, q.policy.version, [], evidence⟩

end Evidence
end CargoPds
