import CargoPds.Evaluation.Snapshot
import CargoPds.Evidence.Object
import CargoPds.Policy.Version
import CargoPds.RuleOperator.Selector

/-!
# Evidence bundles

A bundle carries a decision out of the system: the trace, the policy and the
evidence, each as a JSON object under a path, and a manifest with the digest of
every object.  `Build` makes a bundle from a trace; `Verify` checks the objects
against the manifest.  The texts below follow the source statement by statement.
-/

namespace CargoPds
namespace EvidenceBundle

open Fallible Text Evaluation

/-- The errors of the package, those of the packages it calls included. -/
inductive Error where
  | bundleIdentityRequired
  | finalDecisionRequired
  | policyBindingRequired
  | evidenceBindingRequired
  | evidenceObjectMismatch
  | objectPathInvalid
  | objectDigestMismatch (path : Option String)
  | bundleRootMismatch
  | policySnapshotRequired
  | policySnapshotMismatch
  | decisionTraceRequired
  | independentVerificationScope
  | independentVerificationFailed
  | recalculatedOutcomeMismatch (ruleID : String)
  | recalculatedDecisionMismatch (stored recalculated : VerificationResult)
  | marshal
  | evidence (err : Evidence.Error)
  | policy (err : Policy.Error)
  | operator (err : RuleOperator.Error)
deriving DecidableEq, Repr

structure Object where
  path : String
  mediaType : String
  payload : Bytes
deriving DecidableEq, Repr

structure ObjectDescriptor where
  path : String
  mediaType : String
  size : Nat
  digest : String
deriving DecidableEq, Repr

structure PolicyReference where
  policyID : String
  version : String
  hash : String
deriving DecidableEq, Repr

structure Manifest where
  schemaVersion : String
  bundleID : UUID
  evaluationID : UUID
  sessionID : UUID
  generatedAt : Time
  hashAlgorithm : String
  policy : PolicyReference
  objects : List ObjectDescriptor
  bundleRoot : String
deriving DecidableEq, Repr

/-- A bundle: its manifest and its objects. -/
structure Bundle where
  manifest : Manifest
  objects : List Object
deriving DecidableEq, Repr

structure BuildInput where
  bundleID : UUID
  generatedAt : Time
  trace : DecisionTrace
  evidence : List Evidence.Snapshot
deriving DecidableEq, Repr

/-- What the package calls in `encoding/json`; `none` stands for an error. -/
structure Encoding where
  /-- `json.Marshal` and `json.Unmarshal` of a decision trace. -/
  marshalTrace : DecisionTrace → Option Bytes
  unmarshalTrace : Bytes → Option DecisionTrace
  /-- `json.Marshal` and `json.Unmarshal` of a policy snapshot. -/
  marshalPolicy : Policy.Snapshot → Option Bytes
  unmarshalPolicy : Bytes → Option Policy.Snapshot
  /-- `json.Unmarshal` of an evidence snapshot. -/
  unmarshalEvidence : Bytes → Option Evidence.Snapshot
  /-- `json.Marshal` of a policy reference. -/
  marshalReference : PolicyReference → Option Bytes
  /-- `json.Marshal` of a manifest. -/
  marshalManifest : Manifest → Option Bytes
  /-- `json.Valid`. -/
  valid : Bytes → Bool

/-- `SchemaVersion`. -/
def schemaVersion : String := "cargoos.evidence-bundle.manifest.v1"

/-- `HashAlgorithm`. -/
def hashAlgorithm : String := "SHA-256"

/-- `PolicySnapshotPath`. -/
def policySnapshotPath : String := "policy/snapshot.json"

def decisionTracePath : String := "decision-trace.json"

def policyReferencePath : String := "policy/reference.json"

/-- The path of an evidence object. -/
def evidencePath (id : UUID) : String := "evidence/" ++ id.text ++ ".json"

/-- The order of objects in a manifest. -/
def ByPath (left right : Object) : Prop := left.path ≤ right.path
deriving Decidable

instance : Std.Total ByPath := ⟨fun left right => le_total left.path right.path⟩

instance : IsTrans Object ByPath := ⟨fun _ _ _ => le_trans⟩

/-- `strings.HasPrefix`. -/
def startsWith (text start : String) : Bool := start.toList.isPrefixOf text.toList

/-- `strings.Contains`, on characters. -/
def contains (part : List Char) : List Char → Bool
  | [] => part.isPrefixOf []
  | c :: rest => part.isPrefixOf (c :: rest) || contains part rest

section
variable (lib : Platform) (enc : Encoding)

def validateObject (object : Object) : Except Error Unit := do
  rejectIf (trimSpace object.path = "" ∨ trimSpace object.path ≠ object.path ∨
    startsWith (trimSpace object.path) "/" = true ∨
    contains ['.', '.'] (trimSpace object.path).toList = true ∨
    contains ['\\'] (trimSpace object.path).toList = true) .objectPathInvalid
  rejectIf (trimSpace object.mediaType = "" ∨ object.payload.length = 0 ∨
    enc.valid object.payload = false) (.objectDigestMismatch none)

def describe (object : Object) : ObjectDescriptor :=
  ⟨object.path, object.mediaType, object.payload.length, lib.digest object.payload⟩

/-- `calculateRoot`: the digest of the manifest without its root. -/
def calculateRoot (manifest : Manifest) : String :=
  lib.digest ((enc.marshalManifest { manifest with bundleRoot := "" }).getD [])

/-! ## Building -/

/-- The result of `json.Marshal`. -/
def marshalled (payload : Option Bytes) : Except Error Bytes :=
  match payload with
  | none => .error .marshal
  | some bytes => .ok bytes

/-- The entry of the map `byID`, which is kept as the list of its values. -/
def byID (snapshots : List Evidence.Snapshot) (id : UUID) : Option Evidence.Snapshot :=
  snapshots.find? fun snapshot => snapshot.evidenceID = id

/-- One round of the loop that collects the evidence of a trace. -/
def collectEvidence (trace : DecisionTrace) (collected : List Evidence.Snapshot)
    (snapshot : Evidence.Snapshot) : Except Error (List Evidence.Snapshot) := do
  let object ← (Evidence.rehydrate lib snapshot).mapError .evidence
  rejectIf (object.snapshot.sessionID ≠ trace.sessionID) .evidenceObjectMismatch
  rejectIf (byID collected object.snapshot.evidenceID ≠ none) .evidenceObjectMismatch
  return collected ++ [object.snapshot]

/-- One round of the loop that makes the evidence objects. -/
def evidenceObject (collected : List Evidence.Snapshot) (reference : EvidenceReference) :
    Except Error Object :=
  match byID collected reference.evidenceID with
  | none => .error .evidenceObjectMismatch
  | some snapshot => do
      let payload ← marshalled (lib.marshalEvidence snapshot)
      return ⟨evidencePath reference.evidenceID, "application/json", payload⟩

def buildObjects (trace : DecisionTrace) (policy : PolicyBinding)
    (binding : EvidenceSetBinding) (snapshots : List Evidence.Snapshot) :
    Except Error (List Object) := do
  let collected ← snapshots.foldlM (collectEvidence lib trace) []
  rejectIf (collected.length ≠ binding.evidence.length) .evidenceObjectMismatch
  let tracePayload ← marshalled (enc.marshalTrace trace)
  let policyPayload ← marshalled
    (enc.marshalReference ⟨policy.policyID, policy.version, policy.hash⟩)
  let evidenceObjects ← binding.evidence.mapM (evidenceObject lib collected)
  let objects := (⟨decisionTracePath, "application/json", tracePayload⟩ ::
    ⟨policyReferencePath, "application/json", policyPayload⟩ ::
    evidenceObjects).insertionSort ByPath
  let _ ← objects.mapM (validateObject enc)
  return objects

/-- The end of the decision, as far as its state has one. -/
def finalizedAt (trace : DecisionTrace) : Option Time :=
  if trace.state = .completed then trace.completedAt else trace.expiredAt

/-- The manifest of some objects, without and with its root. -/
def withRoot (manifest : Manifest) : Manifest :=
  { manifest with bundleRoot := calculateRoot lib enc manifest }

def build (input : BuildInput) : Except Error Bundle := do
  let trace := input.trace
  rejectIf (input.bundleID = UUID.nil ∨ input.generatedAt.IsZero) .bundleIdentityRequired
  rejectIf (trace.evaluationID = UUID.nil ∨ trace.sessionID = UUID.nil ∨
    (trace.state ≠ .completed ∧ trace.state ≠ .expired)) .finalDecisionRequired
  rejectIf (∀ t ∈ finalizedAt trace, input.generatedAt.Before t) .finalDecisionRequired
  match trace.policyBinding with
  | none => .error .policyBindingRequired
  | some policy => do
      rejectIf (trimSpace policy.policyID = "" ∨ trimSpace policy.version = "" ∨
        ¬ Digest.IsText policy.hash) .policyBindingRequired
      match trace.evidenceBinding with
      | none => .error .evidenceBindingRequired
      | some binding => do
          rejectIf (binding.sessionID ≠ trace.sessionID) .evidenceBindingRequired
          let objects ← buildObjects lib enc trace policy binding input.evidence
          return ⟨withRoot lib enc {
            schemaVersion := schemaVersion
            bundleID := input.bundleID
            evaluationID := trace.evaluationID
            sessionID := trace.sessionID
            generatedAt := input.generatedAt.toUTC
            hashAlgorithm := hashAlgorithm
            policy := ⟨policy.policyID, policy.version, policy.hash⟩
            objects := objects.map (describe lib)
            bundleRoot := "" }, objects⟩

/-! ## Verification of the objects -/

/-- One round of the loop of `Verify`. -/
def verifyObject (entry : Object × ObjectDescriptor) : Except Error Unit := do
  validateObject enc entry.1
  rejectIf (describe lib entry.1 ≠ entry.2) (.objectDigestMismatch (some entry.2.path))

def verify (bundle : Bundle) : Except Error Unit := do
  let manifest := bundle.manifest
  rejectIf (manifest.schemaVersion ≠ schemaVersion ∨ manifest.bundleID = UUID.nil ∨
    manifest.evaluationID = UUID.nil ∨ manifest.sessionID = UUID.nil ∨
    manifest.generatedAt.IsZero ∨ manifest.hashAlgorithm ≠ hashAlgorithm)
    .bundleIdentityRequired
  rejectIf (calculateRoot lib enc manifest ≠ manifest.bundleRoot) .bundleRootMismatch
  let objects := bundle.objects.insertionSort ByPath
  rejectIf (objects.length ≠ manifest.objects.length) (.objectDigestMismatch none)
  let _ ← (objects.zip manifest.objects).mapM (verifyObject lib enc)
  return ()

/-! ## The embedded policy -/

/-- One round of the loop that looks for the policy; a nil payload is empty. -/
def findPolicyPayload (found : Bytes) (object : Object) : Except Error Bytes :=
  if object.path = policySnapshotPath then do
    rejectIf (found ≠ []) .policySnapshotMismatch
    return object.payload
  else .ok found

/-- `PolicySnapshot`. -/
def policySnapshot (bundle : Bundle) : Except Error Policy.Snapshot := do
  verify lib enc bundle
  let payload ← bundle.objects.foldlM findPolicyPayload []
  rejectIf (payload = []) .policySnapshotRequired
  match enc.unmarshalPolicy payload with
  | none => .error .policySnapshotMismatch
  | some snapshot => do
      rejectIf (enc.marshalPolicy snapshot ≠ some payload) .policySnapshotMismatch
      let version ← (Policy.rehydrate lib snapshot).mapError .policy
      rejectIf (version.snapshot.policyID ≠ bundle.manifest.policy.policyID ∨
        version.snapshot.version ≠ bundle.manifest.policy.version ∨
        version.snapshot.hash ≠ bundle.manifest.policy.hash) .policySnapshotMismatch
      return version.snapshot

/-- Replace the first object under the path of the policy reference. -/
def replaceReference (object : Object) : List Object → Option (List Object)
  | [] => none
  | head :: rest =>
      if head.path = policyReferencePath then some (object :: rest)
      else (replaceReference object rest).map (head :: ·)

/-- `BuildWithPolicySnapshot`. -/
def buildWithPolicySnapshot (input : BuildInput) (snapshot : Policy.Snapshot) :
    Except Error Bundle := do
  let version ← (Policy.rehydrate lib snapshot).mapError Error.policy
  rejectIf (∀ binding ∈ input.trace.policyBinding,
    version.snapshot.policyID ≠ binding.policyID ∨ version.snapshot.version ≠ binding.version ∨
    version.snapshot.hash ≠ binding.hash) .policySnapshotMismatch
  let bundle ← build lib enc input
  let payload ← marshalled (enc.marshalPolicy version.snapshot)
  match replaceReference ⟨policySnapshotPath, "application/json", payload⟩ bundle.objects with
  | none => .error .policySnapshotRequired
  | some replaced => do
      let objects := replaced.insertionSort ByPath
      let complete : Bundle := ⟨withRoot lib enc
        { bundle.manifest with objects := objects.map (describe lib) }, objects⟩
      let _ ← policySnapshot lib enc complete
      return complete

end

end EvidenceBundle
end CargoPds
