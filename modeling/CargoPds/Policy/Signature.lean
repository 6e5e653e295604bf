import CargoPds.Policy.Registry
import CargoPds.Policy.Trust

/-!
# Signed and activated policies

A policy version reaches a registry by way of a signature and an approval.  `Verify`
checks the signature with a key of the trust store, `Activate` checks that the approval
names the version, and `Admit` does both, with a check of the document between them,
before it adds the version.

Only the two checks make the values that are passed on, so these carry what was checked:
`VerifiedVersion` has a complete signature and `Activation` an approval that belongs to
its version.
-/

namespace CargoPds
namespace Policy

open Fallible Text

inductive AdmissionError where
  | signatureRequired
  | signerIDRequired
  | keyIDRequired
  | algorithmRequired
  | signedAtRequired
  | verificationTimeRequired
  | invalidSignature
  | approverRequired
  | approvedAtRequired
  | activationTimeRequired
  | approvalIdentityMismatch
  | approvalAfterActivation
  | verificationAfterActivation
  | key (err : KeyError)
  | policy (err : Error)
deriving DecidableEq, Repr

structure Signature where
  signerID : String
  keyID : String
  algorithm : String
  signedAt : Time
  value : String
deriving DecidableEq, Repr

/-- No part of the signature is missing. -/
structure Signature.Complete (signature : Signature) : Prop where
  signerID : signature.signerID ≠ ""
  keyID : signature.keyID ≠ ""
  algorithm : signature.algorithm ≠ ""
  signedAt : ¬ signature.signedAt.IsZero
  value : signature.value ≠ ""

/-- What is signed for a policy. -/
structure SigningEnvelope where
  domain : String
  policyHash : String
  signerID : String
  keyID : String
  algorithm : String
  signedAt : Time
deriving DecidableEq, Repr

/-- What `Verify` calls in the standard library. -/
structure SigningLibrary extends Cryptography where
  /-- `json.Marshal` of the signed envelope. -/
  marshalSigningEnvelope : SigningEnvelope → Option Bytes

section
variable (lib : Platform)

/-- A version whose signature was verified. -/
structure VerifiedVersion where
  version : Version lib
  signature : Signature
  complete : signature.Complete

variable {lib}
variable (signing : SigningLibrary)

def policySignatureDomain : String := "cargoos:policy-signature:v1"

/-- `SigningPayload`; the error of `json.Marshal` is returned. -/
def signingPayload (version : Version lib) (signature : Signature) : Option Bytes :=
  (signing.marshalSigningEnvelope ⟨policySignatureDomain, version.snapshot.hash,
    trimSpace signature.signerID, trimSpace signature.keyID, trimSpace signature.algorithm,
    signature.signedAt.toUTC⟩).map fun payload => (lib.sha256 payload).bytes

/-- The signature with its texts trimmed and its time in UTC. -/
def Signature.normalized (signature : Signature) : Signature :=
  { signature with
    signerID := trimSpace signature.signerID
    keyID := trimSpace signature.keyID
    algorithm := trimSpace signature.algorithm
    signedAt := signature.signedAt.toUTC }

/-- The first part that is missing is reported. -/
def Signature.checkComplete (signature : Signature) :
    Except AdmissionError (PLift signature.Complete) :=
  if hsigner : signature.signerID = "" then .error .signerIDRequired
  else if hkey : signature.keyID = "" then .error .keyIDRequired
  else if halgorithm : signature.algorithm = "" then .error .algorithmRequired
  else if hsigned : signature.signedAt.IsZero then .error .signedAtRequired
  else if hvalue : signature.value = "" then .error .signatureRequired
  else .ok ⟨⟨hsigner, hkey, halgorithm, hsigned, hvalue⟩⟩

/-- `Verify`.  An error of `SigningPayload` is ignored: the empty message is verified
then. -/
def verify (store : TrustStore) (version : Version lib) (signature : Signature)
    (verifiedAt : Time) : Except AdmissionError (VerifiedVersion lib) := do
  let complete ← signature.normalized.checkComplete
  rejectIf verifiedAt.toUTC.IsZero .verificationTimeRequired
  let key ← (trustedKey store signature.normalized.signerID signature.normalized.keyID).mapError
    AdmissionError.key
  rejectIf (key.algorithm ≠ signature.normalized.algorithm ∨
    signature.normalized.algorithm ≠ algorithmEd25519) (.key .unsupportedAlgorithm)
  (key.notBefore signature.normalized.signedAt).mapError AdmissionError.key
  (key.withinLimits [signature.normalized.signedAt]).mapError AdmissionError.key
  (key.withinLimits [verifiedAt.toUTC]).mapError AdmissionError.key
  let payload := (signingPayload signing version signature.normalized).getD []
  rejectIf (¬ key.AcceptsBytes signing.toCryptography signature.value payload) .invalidSignature
  return ⟨version, signature.normalized, complete.down⟩

/-! ## Activation -/

structure ApprovalRecord where
  policyID : String
  version : String
  policyHash : String
  approvedBy : String
  approvedAt : Time
deriving DecidableEq, Repr

/-- The approval with its texts trimmed and its time in UTC. -/
def ApprovalRecord.normalized (approval : ApprovalRecord) : ApprovalRecord :=
  { approval with
    policyID := trimSpace approval.policyID
    version := trimSpace approval.version
    policyHash := trimSpace approval.policyHash
    approvedBy := trimSpace approval.approvedBy
    approvedAt := approval.approvedAt.toUTC }

/-- The approval names the version and was given no later than the activation. -/
structure ApprovalRecord.Approves (approval : ApprovalRecord) (snapshot : Snapshot)
    (activatedAt : Time) : Prop where
  approver : approval.approvedBy ≠ ""
  approved : ¬ approval.approvedAt.IsZero
  activated : ¬ activatedAt.IsZero
  policyID : approval.policyID = snapshot.policyID
  version : approval.version = snapshot.version
  policyHash : approval.policyHash = snapshot.hash
  order : ¬ approval.approvedAt.After activatedAt

variable (lib) in
/-- What `Activate` returns. -/
structure Activation where
  verified : VerifiedVersion lib
  approval : ApprovalRecord
  activatedAt : Time
  activatedAt_utc : activatedAt.IsUTC
  approves : approval.Approves verified.version.snapshot activatedAt

/-- What a registry in memory keeps of an activation. -/
def Activation.activatedVersion (activation : Activation lib) : ActivatedVersion lib :=
  ⟨activation.verified.version, activation.activatedAt⟩

def activate (verified : VerifiedVersion lib) (approval : ApprovalRecord) (activatedAt : Time) :
    Except AdmissionError (Activation lib) :=
  let approved := approval.normalized
  let snapshot := verified.version.snapshot
  if happrover : approved.approvedBy = "" then .error .approverRequired
  else if happroved : approved.approvedAt.IsZero then .error .approvedAtRequired
  else if hactivated : activatedAt.toUTC.IsZero then .error .activationTimeRequired
  else if hidentity : approved.policyID ≠ snapshot.policyID ∨
      approved.version ≠ snapshot.version ∨ approved.policyHash ≠ snapshot.hash then
    .error .approvalIdentityMismatch
  else if horder : approved.approvedAt.After activatedAt.toUTC then
    .error .approvalAfterActivation
  else
    have hsame : approved.policyID = snapshot.policyID ∧ approved.version = snapshot.version ∧
        approved.policyHash = snapshot.hash := by
      simpa only [ne_eq, not_or, not_not] using hidentity
    .ok ⟨verified, approved, activatedAt.toUTC, rfl,
      ⟨happrover, happroved, hactivated, hsame.1, hsame.2.1, hsame.2.2, horder⟩⟩

/-- `Admit` with a registry in memory.  The document is checked by a validator, whose
errors are its own. -/
def admitPolicy {ε : Type} (store : TrustStore)
    (validatePolicyDocument : Version lib → Except ε Unit) (registry : Registry lib)
    (version : Version lib) (signature : Signature) (approval : ApprovalRecord)
    (verifiedAt activatedAt : Time) :
    Except (AdmissionError ⊕ ε) (Activation lib) × Registry lib :=
  let checked : Except (AdmissionError ⊕ ε) (Activation lib) := do
    (rejectIf (¬ verifiedAt.toUTC.IsZero ∧ ¬ activatedAt.toUTC.IsZero ∧
      verifiedAt.toUTC.After activatedAt.toUTC)
      AdmissionError.verificationAfterActivation).mapError Sum.inl
    let verified ← (verify signing store version signature verifiedAt.toUTC).mapError Sum.inl
    (validatePolicyDocument verified.version).mapError Sum.inr
    (activate verified approval activatedAt.toUTC).mapError Sum.inl
  match checked with
  | .error err => (.error err, registry)
  | .ok activation =>
      match registry.add activation.activatedVersion with
      | (.error err, next) => (.error (.inl (.policy err)), next)
      | (.ok (), next) => (.ok activation, next)

end

/-! ## What is accepted -/

section
variable {lib : Platform} {signing : SigningLibrary} {store : TrustStore}

theorem Signature.checkComplete_eq_ok {signature : Signature}
    {complete : PLift signature.Complete} :
    signature.checkComplete = .ok complete ↔ signature.Complete := by
  constructor
  · intro
    exact complete.down
  · intro h
    unfold Signature.checkComplete
    rw [dif_neg h.signerID, dif_neg h.keyID, dif_neg h.algorithm, dif_neg h.signedAt,
      dif_neg h.value]

variable (signing store) in
/-- What `Verify` accepts. -/
structure Verified (version : Version lib) (signature : Signature) (verifiedAt : Time) :
    Prop where
  complete : signature.normalized.Complete
  moment : ¬ verifiedAt.IsZero
  attested : ∃ key,
    trustedKey store signature.normalized.signerID signature.normalized.keyID = .ok key ∧
    (key.algorithm = signature.normalized.algorithm ∧
      signature.normalized.algorithm = algorithmEd25519) ∧
    key.UsableAt signature.signedAt.toUTC [signature.signedAt.toUTC, verifiedAt.toUTC] ∧
    key.AcceptsBytes signing.toCryptography signature.value
      ((signingPayload signing version signature.normalized).getD [])

theorem verify_eq_ok {version : Version lib} {signature : Signature} {verifiedAt : Time}
    {verified : VerifiedVersion lib} :
    verify signing store version signature verifiedAt = .ok verified ↔
      Verified signing store version signature verifiedAt ∧ verified.version = version ∧
        verified.signature = signature.normalized := by
  simp only [verify, bind_eq_ok, rejectIf_eq_ok, mapError_eq_ok, pure_eq_ok, exists_const,
    ne_eq, not_or, not_not, VerificationKey.notBefore_eq_ok, VerificationKey.withinLimits_eq_ok,
    List.forall_mem_singleton, Signature.checkComplete_eq_ok]
  constructor
  · rintro ⟨complete, -, hmoment, key, hkey, halgorithm, hbegun, ⟨hexpired, hrevoked⟩,
      ⟨hexpired', hrevoked'⟩, haccepts, rfl⟩
    refine ⟨⟨complete.down, hmoment, key, hkey, halgorithm, ⟨hbegun, ?_, ?_⟩, haccepts⟩, rfl, rfl⟩
    · exact List.forall_mem_cons.mpr ⟨hexpired, List.forall_mem_singleton.mpr hexpired'⟩
    · exact List.forall_mem_cons.mpr ⟨hrevoked, List.forall_mem_singleton.mpr hrevoked'⟩
  · rintro ⟨⟨hcomplete, hmoment, key, hkey, halgorithm, ⟨hbegun, hexpired, hrevoked⟩, haccepts⟩,
      rfl, hsignature⟩
    simp only [List.forall_mem_cons, List.not_mem_nil, false_implies, implies_true,
      and_true] at hexpired hrevoked
    refine ⟨⟨hcomplete⟩, hcomplete, hmoment, key, hkey, halgorithm, hbegun,
      ⟨hexpired.1, hrevoked.1⟩, ⟨hexpired.2, hrevoked.2⟩, haccepts, ?_⟩
    cases verified
    subst hsignature
    rfl

end

end Policy
end CargoPds
