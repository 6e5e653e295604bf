import CargoPds.Audit.Chain
import CargoPds.EvidenceBundle.Attestation
import CargoPds.Responsibility.Aggregate

/-!
# Proofs of handover

A portable proof of handover carries a transfer, its entry in the audit ledger, an
attested evidence bundle and the signatures of both participants.
`VerifyPortableHandoverProof` verifies the artifacts one after the other.  The
participants sign a binding, which holds the fixed values of all other artifacts; its
times are cut to microseconds.

`verifyPortableHandoverProof_eq_ok` says what is accepted: `AcceptedProof` has one field
for each of the verifiers, and each verifier has its own description.
-/

namespace CargoPds
namespace Responsibility

open Fallible Text
open EvidenceBundle (AttestationError AttestationLibrary Bundle Encoding Manifest
  TrustedTimestamp VerificationCertificate)
open Policy (KeyError TrustStore VerificationKey)

variable {binding : HandoverProofBinding} {verifiedAt : Time}

/-! ## The source -/

inductive ProofError where
  | handoverProofBindingInvalid
  | handoverSignerRole
  | handoverSignerIdentity
  | handoverSignatureTime
  | handoverSignatureValue
  | handoverVerificationTime
  | attestation (err : AttestationError)
  | key (err : KeyError)
deriving DecidableEq, Repr

structure HandoverProofBinding where
  proofID : UUID
  objectID : PhysicalObjectID
  fromParticipantID : ParticipantID
  toParticipantID : ParticipantID
  transferVersion : UInt64
  transferredAt : Time
  transferRoot : Digest
  auditSequence : Nat
  auditPreviousRoot : Digest
  auditRoot : Digest
  bundleID : UUID
  evaluationID : UUID
  sessionID : UUID
  bundleRoot : Digest
  policyHash : String
  certificateID : UUID
  certificateRoot : Digest
  certificateIssuedAt : Time
  root : Digest
deriving DecidableEq, Repr

inductive HandoverSignerRole where
  | outgoing
  | incoming
  | other (text : String)
deriving DecidableEq, Repr

/-- The text of a role. -/
def HandoverSignerRole.text : HandoverSignerRole → String
  | outgoing => "OUTGOING_PARTICIPANT"
  | incoming => "INCOMING_PARTICIPANT"
  | other text => text

structure HandoverProofSignature where
  schemaVersion : String
  role : HandoverSignerRole
  participantID : ParticipantID
  signerID : String
  keyID : String
  signedAt : Time
  algorithm : String
  bindingRoot : Digest
  value : String
deriving DecidableEq, Repr

structure SignedHandoverProof where
  binding : HandoverProofBinding
  outgoing : HandoverProofSignature
  incoming : HandoverProofSignature
deriving DecidableEq, Repr

structure PortableHandoverProof where
  proofID : UUID
  transfer : TransferredEvent
  auditEntry : Audit.Entry
  bundle : Bundle
  bundleSignature : EvidenceBundle.Signature
  timestamp : TrustedTimestamp
  certificate : VerificationCertificate
  outgoingSignature : HandoverProofSignature
  incomingSignature : HandoverProofSignature
deriving DecidableEq, Repr

structure VerifiedPortableHandoverProof where
  proof : SignedHandoverProof
  certificate : VerificationCertificate
deriving DecidableEq, Repr

def transferRootDomain : String := "cargoos:responsibility-transfer:v1"
def handoverProofBindingDomain : String := "cargoos:handover-proof-binding:v1"
def handoverProofSignatureDomain : String := "cargoos:handover-proof-signature:v1"

/-- `HandoverProofSignatureSchema`. -/
def handoverProofSignatureSchema : String := "cargoos.handover-proof.signature.v1"

/-- What `writeRootString` writes. -/
def rootString (value : String) : Bytes := Audit.scalar (utf8 value).length ++ utf8 value

/-- What `writeProofUUID` writes. -/
def proofUUID (value : UUID) : Bytes := bigEndian 16 value.toNat

/-- What is hashed for a transfer. -/
def TransferredEvent.message (event : TransferredEvent) : Bytes :=
  utf8 transferRootDomain ++ rootString event.objectID ++ rootString event.fromParticipantID ++
    rootString event.toParticipantID ++ Audit.scalar event.version.toNat ++
    Audit.microScalar event.transferredAt

/-- What is hashed for a binding: every field but its root. -/
def HandoverProofBinding.message (binding : HandoverProofBinding) : Bytes :=
  utf8 handoverProofBindingDomain ++ proofUUID binding.proofID ++ rootString binding.objectID ++
    rootString binding.fromParticipantID ++ rootString binding.toParticipantID ++
    Audit.scalar binding.transferVersion.toNat ++ Audit.microScalar binding.transferredAt ++
    binding.transferRoot.bytes ++ Audit.scalar binding.auditSequence ++
    binding.auditPreviousRoot.bytes ++ binding.auditRoot.bytes ++ proofUUID binding.bundleID ++
    proofUUID binding.evaluationID ++ proofUUID binding.sessionID ++ binding.bundleRoot.bytes ++
    rootString binding.policyHash ++ proofUUID binding.certificateID ++
    binding.certificateRoot.bytes ++ Audit.microScalar binding.certificateIssuedAt

/-- What is hashed for a signature: every field but its value. -/
def HandoverProofSignature.message (signature : HandoverProofSignature) : Bytes :=
  utf8 handoverProofSignatureDomain ++ rootString signature.schemaVersion ++
    rootString signature.role.text ++ rootString signature.participantID ++
    rootString signature.signerID ++ rootString signature.keyID ++
    Audit.microScalar signature.signedAt ++ rootString signature.algorithm ++
    signature.bindingRoot.bytes

section
variable (lib : Platform) (enc : Encoding) (att : AttestationLibrary)

def transferredEventRoot (event : TransferredEvent) : Except Error Digest := do
  validateTransferredEvent event
  return lib.sha256 event.message

/-! ### The binding -/

def calculateHandoverProofBindingRoot (binding : HandoverProofBinding) : Digest :=
  lib.sha256 binding.message

/-- The binding of five artifacts, without and with its root. -/
def bindingOf (proofID : UUID) (event : TransferredEvent) (transferRoot : Digest)
    (entry : Audit.Entry) (manifest : Manifest) (record : EvidenceBundle.AuditRecord)
    (certificate : VerificationCertificate) (certificatePayload : Bytes) :
    HandoverProofBinding :=
  let binding : HandoverProofBinding := {
    proofID := proofID
    objectID := event.objectID
    fromParticipantID := event.fromParticipantID
    toParticipantID := event.toParticipantID
    transferVersion := event.version
    transferredAt := event.transferredAt.toUTC.truncate
    transferRoot := transferRoot
    auditSequence := entry.sequence
    auditPreviousRoot := entry.previousRoot
    auditRoot := entry.root
    bundleID := manifest.bundleID
    evaluationID := manifest.evaluationID
    sessionID := manifest.sessionID
    bundleRoot := record.bundleRoot
    policyHash := manifest.policy.hash
    certificateID := certificate.certificateID
    certificateRoot := lib.sha256 certificatePayload
    certificateIssuedAt := certificate.issuedAt.toUTC.truncate
    root := Digest.zero }
  { binding with root := calculateHandoverProofBindingRoot lib binding }

def newHandoverProofBinding (proofID : UUID) (event : TransferredEvent) (entry : Audit.Entry)
    (manifest : Manifest) (certificate : VerificationCertificate) :
    Except ProofError HandoverProofBinding := do
  let transferRoot ← orElseError (transferredEventRoot lib event) .handoverProofBindingInvalid
  rejectIf (proofID = UUID.nil) .handoverProofBindingInvalid
  orElseError (entry.validate lib) .handoverProofBindingInvalid
  rejectIf (entry.kind ≠ .responsibilityHandover ∨ entry.recordRoot ≠ transferRoot ∨
    ¬ entry.occurredAt.Equal event.transferredAt.toUTC.truncate) .handoverProofBindingInvalid
  let bundleRecord ←
    orElseError (EvidenceBundle.newAuditRecord lib enc manifest) .handoverProofBindingInvalid
  rejectIf (certificate.certificateID = UUID.nil ∨ certificate.bundleID ≠ manifest.bundleID ∨
    certificate.evaluationID ≠ manifest.evaluationID ∨
    certificate.bundleRoot ≠ manifest.bundleRoot ∨ certificate.policy ≠ manifest.policy ∨
    certificate.issuedAt.IsZero ∨ certificate.issuedAt.Before event.transferredAt)
    .handoverProofBindingInvalid
  let certificatePayload ←
    orElseError (EvidenceBundle.canonicalVerificationCertificate att certificate)
      .handoverProofBindingInvalid
  return bindingOf lib proofID event transferRoot entry manifest bundleRecord certificate
    certificatePayload

/-- `Validate`. -/
def HandoverProofBinding.validate (binding : HandoverProofBinding) :
    Except ProofError Unit := do
  rejectIf (binding.proofID = UUID.nil) .handoverProofBindingInvalid
  orElseError (validateObjectID binding.objectID) .handoverProofBindingInvalid
  orElseError (validateParticipantID binding.fromParticipantID) .handoverProofBindingInvalid
  orElseError (validateParticipantID binding.toParticipantID) .handoverProofBindingInvalid
  rejectIf (binding.fromParticipantID = binding.toParticipantID ∨ binding.transferVersion < 2 ∨
    binding.transferredAt.IsZero ∨ binding.transferredAt ≠ binding.transferredAt.toUTC.truncate ∨
    binding.transferRoot = Digest.zero ∨ binding.auditSequence = 0 ∨
    binding.auditRoot = Digest.zero ∨ binding.bundleID = UUID.nil ∨
    binding.evaluationID = UUID.nil ∨ binding.sessionID = UUID.nil ∨
    binding.bundleRoot = Digest.zero ∨ binding.policyHash = "" ∨
    binding.certificateID = UUID.nil ∨ binding.certificateRoot = Digest.zero ∨
    binding.certificateIssuedAt.IsZero ∨
    binding.certificateIssuedAt ≠ binding.certificateIssuedAt.toUTC.truncate ∨
    binding.certificateIssuedAt.Before binding.transferredAt ∨ binding.root = Digest.zero ∨
    binding.root ≠ calculateHandoverProofBindingRoot lib binding) .handoverProofBindingInvalid

/-! ### The signatures of the participants -/

def validateHandoverProofSignature (signature : HandoverProofSignature) (requireValue : Bool) :
    Except ProofError Unit := do
  rejectIf (signature.schemaVersion ≠ handoverProofSignatureSchema ∨
    (signature.role ≠ .outgoing ∧ signature.role ≠ .incoming)) .handoverSignerRole
  orElseError (validateParticipantID signature.participantID) .handoverSignerIdentity
  rejectIf (signature.signerID = "" ∨ signature.signerID ≠ trimSpace signature.signerID ∨
    signature.signerID ≠ signature.participantID ∨ signature.keyID = "" ∨
    signature.keyID ≠ trimSpace signature.keyID) .handoverSignerIdentity
  rejectIf (signature.signedAt.IsZero ∨ signature.signedAt ≠ signature.signedAt.toUTC.truncate)
    .handoverSignatureTime
  rejectIf (signature.algorithm ≠ Policy.algorithmEd25519 ∨ signature.bindingRoot = Digest.zero)
    .handoverSignatureValue
  rejectIf (requireValue = true ∧ signature.value = "") .handoverSignatureValue

def handoverProofSigningPayload (signature : HandoverProofSignature) :
    Except ProofError Digest := do
  validateHandoverProofSignature signature false
  return lib.sha256 signature.message

def handoverSignerParticipant (binding : HandoverProofBinding) (role : HandoverSignerRole) :
    Except ProofError ParticipantID :=
  match role with
  | .outgoing => .ok binding.fromParticipantID
  | .incoming => .ok binding.toParticipantID
  | .other _ => .error .handoverSignerRole

def verifyHandoverProofSignature (store : TrustStore) (binding : HandoverProofBinding)
    (wantRole : HandoverSignerRole) (signature : HandoverProofSignature) (verifiedAt : Time) :
    Except ProofError Unit := do
  validateHandoverProofSignature signature true
  let participantID ←
    orElseError (handoverSignerParticipant binding wantRole) .handoverSignerIdentity
  rejectIf (signature.role ≠ wantRole ∨ signature.participantID ≠ participantID ∨
    signature.signerID ≠ participantID ∨ signature.bindingRoot ≠ binding.root ∨
    signature.signedAt.Before binding.certificateIssuedAt) .handoverSignerIdentity
  let key ← (Policy.trustedKey store signature.signerID signature.keyID).mapError .key
  rejectIf (key.algorithm ≠ Policy.algorithmEd25519 ∨
    signature.algorithm ≠ Policy.algorithmEd25519) (.key .unsupportedAlgorithm)
  (key.notBefore signature.signedAt).mapError .key
  (key.withinLimits [signature.signedAt, verifiedAt]).mapError .key
  let payload ← orElseError (handoverProofSigningPayload lib signature) .handoverSignatureValue
  rejectIf (¬ key.Accepts att.toCryptography signature.value payload) .handoverSignatureValue

def verifyHandoverProofSignatures (store : TrustStore) (binding : HandoverProofBinding)
    (outgoing incoming : HandoverProofSignature) (verifiedAt : Time) :
    Except ProofError SignedHandoverProof := do
  binding.validate lib
  rejectIf (verifiedAt.toUTC.IsZero ∨ verifiedAt.toUTC.Before outgoing.signedAt ∨
    verifiedAt.toUTC.Before incoming.signedAt) .handoverSignatureTime
  verifyHandoverProofSignature lib att store binding .outgoing outgoing verifiedAt.toUTC
  verifyHandoverProofSignature lib att store binding .incoming incoming verifiedAt.toUTC
  return ⟨binding, outgoing, incoming⟩

/-! ### The portable proof -/

def verifyPortableHandoverProof (store : TrustStore) (portable : PortableHandoverProof)
    (verifiedAt : Time) : Except ProofError VerifiedPortableHandoverProof := do
  rejectIf verifiedAt.toUTC.IsZero .handoverVerificationTime
  let verifiedBundle ← (EvidenceBundle.verifySignature lib enc att store portable.bundle
    portable.bundleSignature verifiedAt.toUTC).mapError .attestation
  let timestamped ← (EvidenceBundle.verifyTrustedTimestamp lib att store verifiedBundle
    portable.timestamp verifiedAt.toUTC).mapError .attestation
  let certificate ← (EvidenceBundle.verifyVerificationCertificate lib enc att store timestamped
    portable.certificate verifiedAt.toUTC).mapError .attestation
  let binding ← newHandoverProofBinding lib enc att portable.proofID portable.transfer
    portable.auditEntry portable.bundle.manifest certificate
  let signed ← verifyHandoverProofSignatures lib att store binding portable.outgoingSignature
    portable.incomingSignature verifiedAt.toUTC
  return ⟨signed, certificate⟩

end

/-! ## What is accepted -/

section
variable {lib : Platform} {enc : Encoding} {att : AttestationLibrary} {store : TrustStore}

variable (lib) in
/-- An entry of the ledger that records a transfer. -/
structure Records (entry : Audit.Entry) (event : TransferredEvent) (root : Digest) : Prop where
  eventRoot : transferredEventRoot lib event = .ok root
  valid : entry.validate lib = .ok ()
  kind : entry.kind = .responsibilityHandover
  recordRoot : entry.recordRoot = root
  occurredAt : entry.occurredAt.Equal event.transferredAt.toUTC.truncate

/-- A certificate that belongs to a manifest and was not issued before a transfer. -/
structure Covers (certificate : VerificationCertificate) (manifest : Manifest)
    (event : TransferredEvent) : Prop where
  certificateID : certificate.certificateID ≠ UUID.nil
  bundleID : certificate.bundleID = manifest.bundleID
  evaluationID : certificate.evaluationID = manifest.evaluationID
  bundleRoot : certificate.bundleRoot = manifest.bundleRoot
  policy : certificate.policy = manifest.policy
  issued : ¬ certificate.issuedAt.IsZero
  transferred_issued : event.transferredAt.instant ≤ certificate.issuedAt.instant

theorem newHandoverProofBinding_eq_ok {proofID : UUID} {event : TransferredEvent}
    {entry : Audit.Entry} {manifest : Manifest} {certificate : VerificationCertificate} :
    newHandoverProofBinding lib enc att proofID event entry manifest certificate =
        .ok binding ↔
      ∃ transferRoot record payload, proofID ≠ UUID.nil ∧
        Records lib entry event transferRoot ∧
        EvidenceBundle.newAuditRecord lib enc manifest = .ok record ∧
        Covers certificate manifest event ∧
        EvidenceBundle.canonicalVerificationCertificate att certificate = .ok payload ∧
        binding = bindingOf lib proofID event transferRoot entry manifest record certificate
          payload := by
  simp only [newHandoverProofBinding, bind_eq_ok, rejectIf_eq_ok, orElseError_eq_ok, pure_eq_ok,
    exists_const, ne_eq, not_or, not_not]
  constructor
  · rintro ⟨root, hroot, hproof, _, hvalid, ⟨hkind, hrecord, htime⟩, record, haudit,
      ⟨hid, hbundle, hevaluation, hbundleRoot, hpolicy, hissued, hbefore⟩, payload, hpayload,
      rfl⟩
    exact ⟨root, record, payload, hproof, ⟨hroot, hvalid, hkind, hrecord, htime⟩, haudit,
      ⟨hid, hbundle, hevaluation, hbundleRoot, hpolicy, hissued, not_lt.mp hbefore⟩, hpayload,
      rfl⟩
  · rintro ⟨root, record, payload, hproof, ⟨hroot, hvalid, hkind, hrecord, htime⟩, haudit,
      ⟨hid, hbundle, hevaluation, hbundleRoot, hpolicy, hissued, hbefore⟩, hpayload, rfl⟩
    exact ⟨root, hroot, hproof, (), hvalid, ⟨hkind, hrecord, htime⟩, record, haudit,
      ⟨hid, hbundle, hevaluation, hbundleRoot, hpolicy, hissued, not_lt.mpr hbefore⟩, payload,
      hpayload, rfl⟩

variable (lib) in
/-- What `Validate` accepts. -/
@[mk_iff]
structure HandoverProofBinding.Valid (binding : HandoverProofBinding) : Prop where
  proofID : binding.proofID ≠ UUID.nil
  objectID : Canonical binding.objectID
  fromParticipantID : Canonical binding.fromParticipantID
  toParticipantID : Canonical binding.toParticipantID
  participants : binding.fromParticipantID ≠ binding.toParticipantID
  transferVersion : ¬ binding.transferVersion < 2
  transferred : ¬ binding.transferredAt.IsZero
  transferredAt : binding.transferredAt = binding.transferredAt.toUTC.truncate
  transferRoot : binding.transferRoot ≠ Digest.zero
  auditSequence : binding.auditSequence ≠ 0
  auditRoot : binding.auditRoot ≠ Digest.zero
  bundleID : binding.bundleID ≠ UUID.nil
  evaluationID : binding.evaluationID ≠ UUID.nil
  sessionID : binding.sessionID ≠ UUID.nil
  bundleRoot : binding.bundleRoot ≠ Digest.zero
  policyHash : binding.policyHash ≠ ""
  certificateID : binding.certificateID ≠ UUID.nil
  certificateRoot : binding.certificateRoot ≠ Digest.zero
  issued : ¬ binding.certificateIssuedAt.IsZero
  certificateIssuedAt :
    binding.certificateIssuedAt = binding.certificateIssuedAt.toUTC.truncate
  transferred_issued : ¬ binding.certificateIssuedAt.Before binding.transferredAt
  root_ne_zero : binding.root ≠ Digest.zero
  root : binding.root = calculateHandoverProofBindingRoot lib binding

theorem HandoverProofBinding.validate_eq_ok {u : Unit} :
    binding.validate lib = .ok u ↔ binding.Valid lib := by
  simp only [HandoverProofBinding.validate, bind_eq_ok, rejectIf_eq_ok, orElseError_eq_ok,
    validateObjectID_eq_ok, validateParticipantID_eq_ok, exists_const, ne_eq, not_or, not_not,
    HandoverProofBinding.valid_iff]

variable (lib att store) in
/-- A signature of the participant in some role. -/
structure SignedBy (binding : HandoverProofBinding) (role : HandoverSignerRole)
    (signature : HandoverProofSignature) (verifiedAt : Time) : Prop where
  valid : validateHandoverProofSignature signature true = .ok ()
  role_eq : signature.role = role
  participant : handoverSignerParticipant binding role = .ok signature.participantID
  signer : signature.signerID = signature.participantID
  root : signature.bindingRoot = binding.root
  certified_signed : binding.certificateIssuedAt.instant ≤ signature.signedAt.instant
  attested : ∃ payload, handoverProofSigningPayload lib signature = .ok payload ∧
    Policy.Attests att.toCryptography store signature.signerID signature.keyID signature.value
      payload signature.signedAt [signature.signedAt, verifiedAt]

/-- A valid signature names Ed25519. -/
theorem algorithm_of_validateHandoverProofSignature {signature : HandoverProofSignature}
    {requireValue : Bool} {u : Unit}
    (h : validateHandoverProofSignature signature requireValue = .ok u) :
    signature.algorithm = Policy.algorithmEd25519 := by
  simp only [validateHandoverProofSignature, bind_eq_ok, rejectIf_eq_ok, orElseError_eq_ok,
    exists_const, ne_eq, not_or, not_not] at h
  obtain ⟨-, _, -, -, -, ⟨halgorithm, -⟩, -⟩ := h
  exact halgorithm

theorem verifyHandoverProofSignature_eq_ok {role : HandoverSignerRole}
    {signature : HandoverProofSignature} {u : Unit} :
    verifyHandoverProofSignature lib att store binding role signature verifiedAt = .ok u ↔
      SignedBy lib att store binding role signature verifiedAt := by
  simp only [verifyHandoverProofSignature, bind_eq_ok, rejectIf_eq_ok, orElseError_eq_ok,
    mapError_eq_ok, exists_const, ne_eq, not_or, not_not, VerificationKey.notBefore_eq_ok,
    VerificationKey.withinLimits_eq_ok]
  constructor
  · rintro ⟨_, hvalid, participant, hparticipant, ⟨hrole, hid, hsigner, hroot, hbefore⟩, key,
      hkey, ⟨halgorithm, -⟩, hbegun, ⟨hexpired, hrevoked⟩, payload, hpayload, haccepts⟩
    subst hid
    exact ⟨hvalid, hrole, hparticipant, hsigner, hroot, not_lt.mp hbefore, payload, hpayload,
      key, hkey, halgorithm, ⟨hbegun, hexpired, hrevoked⟩, haccepts⟩
  · rintro ⟨hvalid, hrole, hparticipant, hsigner, hroot, hbefore, payload, hpayload, key, hkey,
      halgorithm, ⟨hbegun, hexpired, hrevoked⟩, haccepts⟩
    exact ⟨(), hvalid, signature.participantID, hparticipant,
      ⟨hrole, rfl, hsigner, hroot, not_lt.mpr hbefore⟩, key, hkey,
      ⟨halgorithm, algorithm_of_validateHandoverProofSignature hvalid⟩, hbegun,
      ⟨hexpired, hrevoked⟩, payload, hpayload, haccepts⟩

variable (lib att store) in
/-- A binding that both participants have signed. -/
structure Countersigned (binding : HandoverProofBinding)
    (outgoing incoming : HandoverProofSignature) (verifiedAt : Time) : Prop where
  valid : binding.validate lib = .ok ()
  moment : ¬ verifiedAt.IsZero
  outgoing_verified : outgoing.signedAt.instant ≤ verifiedAt.instant
  incoming_verified : incoming.signedAt.instant ≤ verifiedAt.instant
  outgoing : SignedBy lib att store binding .outgoing outgoing verifiedAt.toUTC
  incoming : SignedBy lib att store binding .incoming incoming verifiedAt.toUTC

theorem verifyHandoverProofSignatures_eq_ok {outgoing incoming : HandoverProofSignature}
    {signed : SignedHandoverProof} :
    verifyHandoverProofSignatures lib att store binding outgoing incoming verifiedAt =
        .ok signed ↔
      Countersigned lib att store binding outgoing incoming verifiedAt ∧
        signed = ⟨binding, outgoing, incoming⟩ := by
  simp only [verifyHandoverProofSignatures, bind_eq_ok, rejectIf_eq_ok, pure_eq_ok, exists_const,
    verifyHandoverProofSignature_eq_ok, not_or]
  constructor
  · rintro ⟨_, hvalid, ⟨hmoment, hout, hin⟩, houtgoing, hincoming, rfl⟩
    exact ⟨⟨hvalid, hmoment, not_lt.mp hout, not_lt.mp hin, houtgoing, hincoming⟩, rfl⟩
  · rintro ⟨⟨hvalid, hmoment, hout, hin, houtgoing, hincoming⟩, rfl⟩
    exact ⟨(), hvalid, ⟨hmoment, not_lt.mpr hout, not_lt.mpr hin⟩, houtgoing, hincoming, rfl⟩

variable (lib enc att store) in
/-- What `VerifyPortableHandoverProof` accepts, with the binding that it builds. -/
structure AcceptedProof (portable : PortableHandoverProof) (verifiedAt : Time)
    (binding : HandoverProofBinding) : Prop where
  moment : ¬ verifiedAt.IsZero
  signed : EvidenceBundle.Signed lib enc att store portable.bundle portable.bundleSignature
    verifiedAt.toUTC
  timestamped : EvidenceBundle.Timestamped lib att store
    ⟨portable.bundle, portable.bundleSignature⟩ portable.timestamp verifiedAt.toUTC
  certified : EvidenceBundle.Certified lib enc att store
    ⟨⟨portable.bundle, portable.bundleSignature⟩, portable.timestamp⟩ portable.certificate
    verifiedAt.toUTC
  binds : newHandoverProofBinding lib enc att portable.proofID portable.transfer
    portable.auditEntry portable.bundle.manifest portable.certificate = .ok binding
  countersigned : Countersigned lib att store binding portable.outgoingSignature
    portable.incomingSignature verifiedAt.toUTC

theorem verifyPortableHandoverProof_eq_ok {portable : PortableHandoverProof}
    {verified : VerifiedPortableHandoverProof} :
    verifyPortableHandoverProof lib enc att store portable verifiedAt = .ok verified ↔
      ∃ binding, AcceptedProof lib enc att store portable verifiedAt binding ∧
        verified = ⟨⟨binding, portable.outgoingSignature, portable.incomingSignature⟩,
          portable.certificate⟩ := by
  simp only [verifyPortableHandoverProof, bind_eq_ok, rejectIf_eq_ok, mapError_eq_ok, pure_eq_ok,
    exists_const, EvidenceBundle.verifySignature_eq_ok,
    EvidenceBundle.verifyTrustedTimestamp_eq_ok,
    EvidenceBundle.verifyVerificationCertificate_eq_ok, verifyHandoverProofSignatures_eq_ok]
  constructor
  · rintro ⟨hmoment, _, ⟨hsigned, rfl⟩, _, ⟨htimestamped, rfl⟩, _, ⟨hcertified, rfl⟩, binding,
      hbinds, _, ⟨hcountersigned, rfl⟩, rfl⟩
    exact ⟨binding, ⟨hmoment, hsigned, htimestamped, hcertified, hbinds, hcountersigned⟩, rfl⟩
  · rintro ⟨binding, ⟨hmoment, hsigned, htimestamped, hcertified, hbinds, hcountersigned⟩, rfl⟩
    exact ⟨hmoment, _, ⟨hsigned, rfl⟩, _, ⟨htimestamped, rfl⟩, _, ⟨hcertified, rfl⟩, binding,
      hbinds, _, ⟨hcountersigned, rfl⟩, rfl⟩

/-- The time of the certificate in the binding, and the transfer before it. -/
theorem AcceptedProof.certificate_times {portable : PortableHandoverProof}
    (h : AcceptedProof lib enc att store portable verifiedAt binding) :
    portable.transfer.transferredAt.instant ≤ portable.certificate.issuedAt.instant ∧
      binding.certificateIssuedAt = portable.certificate.issuedAt.toUTC.truncate := by
  obtain ⟨_, _, _, -, -, -, hcovers, -, rfl⟩ := newHandoverProofBinding_eq_ok.mp h.binds
  exact ⟨hcovers.transferred_issued, rfl⟩

end

end Responsibility
end CargoPds
