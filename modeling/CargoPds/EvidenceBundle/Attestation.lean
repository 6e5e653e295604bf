import CargoPds.EvidenceBundle.Root
import CargoPds.EvidenceBundle.Soundness
import CargoPds.Foundation.Layout
import CargoPds.Policy.Trust

/-!
# Signatures, timestamps and certificates

Three parties attest a bundle, one after the other.  A signer signs the manifest, a
timestamp authority signs the signature, and a verifier that has replayed the decision
signs a certificate with its report.  Each of the three verifiers checks the link to the
artifact before it, the key and the Ed25519 value.

`verifySignature_eq_ok`, `verifyTrustedTimestamp_eq_ok` and
`verifyVerificationCertificate_eq_ok` say what each of them accepts.  The certificate is
the only one that looks at the decision, and of the results it refuses `UNKNOWN` alone.
Which results remain is said by `Certified.allowed_iff`.
-/

namespace CargoPds
namespace EvidenceBundle

open Fallible Text Evaluation
open Policy (TrustStore VerificationKey KeyError)

variable {verifiedAt : Time} {timestamped : TimestampedBundle} {signature : Signature}
variable {bundle : Bundle}

/-! ## The source -/

/-- The errors of the three verifiers. -/
inductive AttestationError where
  | bundleSignatureRequired
  | bundleSignerRequired
  | bundleSigningTime
  | bundleSignatureBinding
  | bundleSignatureInvalid
  | bundleTimestampRequired
  | timestampAuthority
  | bundleTimestampTime
  | bundleTimestampBinding
  | bundleTimestampInvalid
  | verificationCertificateRequired
  | verificationCertificateBinding
  | verificationCertificateTime
  | verificationCertificateInvalid
  | marshal
  | bundle (err : Error)
  | key (err : KeyError)
deriving DecidableEq, Repr

/-- The signature of a bundle. -/
structure Signature where
  schemaVersion : String
  signatureAlgorithm : String
  hashAlgorithm : String
  keyID : String
  signerID : String
  signingTime : Time
  signedManifestHash : String
  bundleRootHash : String
  value : String
deriving DecidableEq, Repr

/-- What is signed for a bundle. -/
structure SignatureEnvelope where
  domain : String
  schemaVersion : String
  signatureAlgorithm : String
  hashAlgorithm : String
  keyID : String
  signerID : String
  signingTime : Time
  signedManifestHash : String
  bundleRootHash : String
deriving DecidableEq, Repr

structure VerifiedBundle where
  bundle : Bundle
  signature : Signature
deriving DecidableEq, Repr

structure TrustedTimestamp where
  schemaVersion : String
  signatureAlgorithm : String
  hashAlgorithm : String
  authorityID : String
  keyID : String
  serialNumber : String
  issuedAt : Time
  signatureHash : String
  bundleRootHash : String
  value : String
deriving DecidableEq, Repr

/-- What is signed for a timestamp. -/
structure TimestampEnvelope where
  domain : String
  schemaVersion : String
  signatureAlgorithm : String
  hashAlgorithm : String
  authorityID : String
  keyID : String
  serialNumber : String
  issuedAt : Time
  signatureHash : String
  bundleRootHash : String
deriving DecidableEq, Repr

structure TimestampedBundle where
  verified : VerifiedBundle
  timestamp : TrustedTimestamp
deriving DecidableEq, Repr

structure VerificationCertificate where
  schemaVersion : String
  certificateID : UUID
  bundleID : UUID
  evaluationID : UUID
  bundleRoot : String
  policy : PolicyReference
  storedResult : VerificationResult
  recalculatedResult : VerificationResult
  outcomes : List RecalculatedOutcome
  timestampHash : String
  timestampIssuedAt : Time
  verifierID : String
  keyID : String
  issuedAt : Time
  signatureAlgorithm : String
  hashAlgorithm : String
  value : String
deriving DecidableEq, Repr

/-- What is signed for a certificate. -/
structure CertificateEnvelope where
  domain : String
  certificate : VerificationCertificate
deriving DecidableEq, Repr

/-- What the verifiers call in the standard library: `json.Marshal` of each artifact, and
the cryptography. -/
structure AttestationLibrary extends Policy.Cryptography where
  marshalSignature : Signature → Option Bytes
  marshalSignatureEnvelope : SignatureEnvelope → Option Bytes
  marshalTimestamp : TrustedTimestamp → Option Bytes
  marshalTimestampEnvelope : TimestampEnvelope → Option Bytes
  marshalCertificate : VerificationCertificate → Option Bytes
  marshalCertificateEnvelope : CertificateEnvelope → Option Bytes

/-- `SignatureSchemaVersion`. -/
def signatureSchemaVersion : String := "cargoos.evidence-bundle.signature.v1"
def signatureDomain : String := "cargoos:evidence-bundle-signature:v1"

/-- `SignatureAlgorithm` and `TimestampAlgorithm`. -/
def signatureAlgorithm : String := Policy.algorithmEd25519

/-- `TimestampSchemaVersion`. -/
def timestampSchemaVersion : String := "cargoos.evidence-bundle.timestamp.v1"
def timestampDomain : String := "cargoos:evidence-bundle-timestamp:v1"

/-- `VerificationCertificateSchema`. -/
def verificationCertificateSchema : String :=
  "cargoos.evidence-bundle.verification-certificate.v1"
def verificationCertificateDomain : String :=
  "cargoos:evidence-bundle-verification-certificate:v1"

/-- The result of `json.Marshal` of an artifact. -/
def written (payload : Option Bytes) : Except AttestationError Bytes :=
  match payload with
  | none => .error .marshal
  | some bytes => .ok bytes

section
variable (lib : Platform) (enc : Encoding) (att : AttestationLibrary)

/-! ### The signature of a bundle -/

def canonicalManifest (manifest : Manifest) : Except Error Bytes := do
  rejectIf (manifest.schemaVersion ≠ schemaVersion) .bundleIdentityRequired
  marshalled (enc.marshalManifest manifest)

variable {enc} in
theorem canonicalManifest_eq_ok {manifest : Manifest} {payload : Bytes} :
    canonicalManifest enc manifest = .ok payload ↔
      manifest.schemaVersion = schemaVersion ∧ enc.marshalManifest manifest = some payload := by
  simp only [canonicalManifest, bind_eq_ok, rejectIf_eq_ok, exists_const, ne_eq, not_not]
  cases enc.marshalManifest manifest <;> simp [marshalled]

def validateSignatureBinding (bundle : Bundle) (signature : Signature) (requireValue : Bool) :
    Except AttestationError Unit := do
  (verify lib enc bundle).mapError .bundle
  rejectIf (signature.schemaVersion ≠ signatureSchemaVersion ∨
    signature.signatureAlgorithm ≠ signatureAlgorithm ∨
    signature.hashAlgorithm ≠ hashAlgorithm) .bundleSignatureBinding
  rejectIf (signature.signerID = "" ∨ signature.keyID = "" ∨
    signature.signerID ≠ trimSpace signature.signerID ∨
    signature.keyID ≠ trimSpace signature.keyID) .bundleSignerRequired
  rejectIf (signature.signingTime.IsZero ∨
    signature.signingTime.Before bundle.manifest.generatedAt) .bundleSigningTime
  let manifestPayload ← (canonicalManifest enc bundle.manifest).mapError .bundle
  rejectIf (signature.signedManifestHash ≠ lib.digest manifestPayload ∨
    signature.bundleRootHash ≠ bundle.manifest.bundleRoot) .bundleSignatureBinding
  rejectIf (requireValue = true ∧ signature.value = "") .bundleSignatureRequired

def Signature.envelope (signature : Signature) : SignatureEnvelope where
  domain := signatureDomain
  schemaVersion := signature.schemaVersion
  signatureAlgorithm := signature.signatureAlgorithm
  hashAlgorithm := signature.hashAlgorithm
  keyID := signature.keyID
  signerID := signature.signerID
  signingTime := signature.signingTime.toUTC
  signedManifestHash := signature.signedManifestHash
  bundleRootHash := signature.bundleRootHash

def signingPayload (bundle : Bundle) (signature : Signature) :
    Except AttestationError Digest := do
  validateSignatureBinding lib enc bundle signature false
  let payload ← written (att.marshalSignatureEnvelope signature.envelope)
  return lib.sha256 payload

def verifySignature (store : TrustStore) (bundle : Bundle) (signature : Signature)
    (verifiedAt : Time) : Except AttestationError VerifiedBundle := do
  rejectIf (verifiedAt.toUTC.IsZero ∨ verifiedAt.toUTC.Before signature.signingTime.toUTC)
    .bundleSigningTime
  validateSignatureBinding lib enc bundle signature true
  let key ← (Policy.trustedKey store signature.signerID signature.keyID).mapError .key
  rejectIf (key.algorithm ≠ signatureAlgorithm ∨
    signature.signatureAlgorithm ≠ signatureAlgorithm) (.key .unsupportedAlgorithm)
  (key.notBefore signature.signingTime).mapError .key
  (key.withinLimits [signature.signingTime]).mapError .key
  (key.withinLimits [verifiedAt.toUTC]).mapError .key
  let payload ← orElseError (signingPayload lib enc att bundle signature) .bundleSignatureInvalid
  rejectIf (¬ key.Accepts att.toCryptography signature.value payload) .bundleSignatureInvalid
  return ⟨bundle, signature⟩

def canonicalSignature (signature : Signature) : Except AttestationError Bytes := do
  rejectIf (signature.schemaVersion ≠ signatureSchemaVersion) .bundleSignatureBinding
  written (att.marshalSignature signature)

/-! ### The timestamp -/

def validateTimestampBinding (timestamp : TrustedTimestamp) (requireValue : Bool) :
    Except AttestationError Unit := do
  rejectIf (timestamp.schemaVersion ≠ timestampSchemaVersion ∨
    timestamp.signatureAlgorithm ≠ signatureAlgorithm ∨
    timestamp.hashAlgorithm ≠ hashAlgorithm) .bundleTimestampBinding
  rejectIf (timestamp.authorityID = "" ∨ timestamp.keyID = "" ∨ timestamp.serialNumber = "" ∨
    timestamp.authorityID ≠ trimSpace timestamp.authorityID ∨
    timestamp.keyID ≠ trimSpace timestamp.keyID ∨
    timestamp.serialNumber ≠ trimSpace timestamp.serialNumber) .timestampAuthority
  rejectIf timestamp.issuedAt.IsZero .bundleTimestampTime
  rejectIf (timestamp.signatureHash = "" ∨ timestamp.bundleRootHash = "")
    .bundleTimestampBinding
  rejectIf (requireValue = true ∧ timestamp.value = "") .bundleTimestampRequired

def TrustedTimestamp.envelope (timestamp : TrustedTimestamp) : TimestampEnvelope where
  domain := timestampDomain
  schemaVersion := timestamp.schemaVersion
  signatureAlgorithm := timestamp.signatureAlgorithm
  hashAlgorithm := timestamp.hashAlgorithm
  authorityID := timestamp.authorityID
  keyID := timestamp.keyID
  serialNumber := timestamp.serialNumber
  issuedAt := timestamp.issuedAt.toUTC
  signatureHash := timestamp.signatureHash
  bundleRootHash := timestamp.bundleRootHash

def timestampSigningPayload (timestamp : TrustedTimestamp) :
    Except AttestationError Digest := do
  validateTimestampBinding timestamp false
  let payload ← written (att.marshalTimestampEnvelope timestamp.envelope)
  return lib.sha256 payload

/-- The end of the key is compared with the time of the timestamp only. -/
def verifyTrustedTimestamp (store : TrustStore) (verified : VerifiedBundle)
    (timestamp : TrustedTimestamp) (verifiedAt : Time) :
    Except AttestationError TimestampedBundle := do
  rejectIf (verifiedAt.toUTC.IsZero ∨ verifiedAt.toUTC.Before timestamp.issuedAt.toUTC ∨
    timestamp.issuedAt.Before verified.signature.signingTime.toUTC) .bundleTimestampTime
  validateTimestampBinding timestamp true
  let signaturePayload ←
    orElseError (canonicalSignature att verified.signature) .bundleTimestampBinding
  rejectIf (timestamp.signatureHash ≠ lib.digest signaturePayload ∨
    timestamp.bundleRootHash ≠ verified.bundle.manifest.bundleRoot) .bundleTimestampBinding
  let key ← (Policy.trustedKey store timestamp.authorityID timestamp.keyID).mapError .key
  rejectIf (key.algorithm ≠ signatureAlgorithm) (.key .unsupportedAlgorithm)
  (key.notBefore timestamp.issuedAt).mapError .key
  (key.withinLimits [timestamp.issuedAt]).mapError .key
  let payload ← orElseError (timestampSigningPayload lib att timestamp) .bundleTimestampInvalid
  rejectIf (¬ key.Accepts att.toCryptography timestamp.value payload) .bundleTimestampInvalid
  return ⟨verified, timestamp⟩

def canonicalTimestamp (timestamp : TrustedTimestamp) : Except AttestationError Bytes := do
  validateTimestampBinding timestamp true
  written (att.marshalTimestamp timestamp)

/-! ### The certificate -/

def validateVerificationCertificate (certificate : VerificationCertificate)
    (requireValue : Bool) : Except AttestationError Unit := do
  rejectIf (certificate.schemaVersion ≠ verificationCertificateSchema ∨
    certificate.certificateID = UUID.nil ∨ certificate.bundleID = UUID.nil ∨
    certificate.evaluationID = UUID.nil ∨ ¬ Digest.IsText certificate.bundleRoot ∨
    certificate.policy.policyID = "" ∨ certificate.policy.version = "" ∨
    ¬ Digest.IsText certificate.policy.hash ∨
    certificate.storedResult ≠ certificate.recalculatedResult ∨
    certificate.storedResult = .unknown ∨ certificate.outcomes.length = 0 ∨
    ¬ Digest.IsText certificate.timestampHash ∨ certificate.timestampIssuedAt.IsZero ∨
    certificate.verifierID = "" ∨ certificate.verifierID ≠ trimSpace certificate.verifierID ∨
    certificate.keyID = "" ∨ certificate.keyID ≠ trimSpace certificate.keyID ∨
    certificate.issuedAt.IsZero ∨ certificate.issuedAt.Before certificate.timestampIssuedAt ∨
    certificate.signatureAlgorithm ≠ signatureAlgorithm ∨
    certificate.hashAlgorithm ≠ hashAlgorithm) .verificationCertificateBinding
  rejectIf (∃ outcome ∈ certificate.outcomes,
    trimSpace outcome.ruleID = "" ∨ ¬ outcome.status.IsValid) .verificationCertificateBinding
  rejectIf (requireValue = true ∧ certificate.value = "") .verificationCertificateRequired

def VerificationCertificate.envelope (certificate : VerificationCertificate) :
    CertificateEnvelope :=
  ⟨verificationCertificateDomain, { certificate with value := "" }⟩

def verificationCertificateSigningPayload (certificate : VerificationCertificate) :
    Except AttestationError Digest := do
  validateVerificationCertificate certificate false
  let payload ← written (att.marshalCertificateEnvelope certificate.envelope)
  return lib.sha256 payload

def verifyVerificationCertificate (store : TrustStore) (timestamped : TimestampedBundle)
    (certificate : VerificationCertificate) (verifiedAt : Time) :
    Except AttestationError VerificationCertificate := do
  rejectIf (verifiedAt.toUTC.IsZero ∨ verifiedAt.toUTC.Before certificate.issuedAt.toUTC ∨
    certificate.issuedAt.Before timestamped.timestamp.issuedAt.toUTC)
    .verificationCertificateTime
  validateVerificationCertificate certificate true
  let bundle := timestamped.verified.bundle
  let timestampPayload ←
    orElseError (canonicalTimestamp att timestamped.timestamp) .verificationCertificateBinding
  rejectIf (certificate.bundleID ≠ bundle.manifest.bundleID ∨
    certificate.evaluationID ≠ bundle.manifest.evaluationID ∨
    certificate.bundleRoot ≠ bundle.manifest.bundleRoot ∨
    certificate.policy ≠ bundle.manifest.policy ∨
    certificate.timestampHash ≠ lib.digest timestampPayload ∨
    ¬ certificate.timestampIssuedAt.Equal timestamped.timestamp.issuedAt.toUTC)
    .verificationCertificateBinding
  let report ← orElseError (verifyDecision lib enc bundle) .verificationCertificateBinding
  rejectIf (report.storedResult ≠ certificate.storedResult ∨
    report.recalculatedResult ≠ certificate.recalculatedResult ∨
    report.outcomes ≠ certificate.outcomes) .verificationCertificateBinding
  let key ← (Policy.trustedKey store certificate.verifierID certificate.keyID).mapError .key
  rejectIf (key.algorithm ≠ signatureAlgorithm) (.key .unsupportedAlgorithm)
  (key.notBefore certificate.issuedAt).mapError .key
  (key.withinLimits [certificate.issuedAt, verifiedAt.toUTC]).mapError .key
  let payload ← orElseError (verificationCertificateSigningPayload lib att certificate)
    .verificationCertificateInvalid
  rejectIf (¬ key.Accepts att.toCryptography certificate.value payload)
    .verificationCertificateInvalid
  return certificate

def canonicalVerificationCertificate (certificate : VerificationCertificate) :
    Except AttestationError Bytes := do
  validateVerificationCertificate certificate true
  written (att.marshalCertificate certificate)

/-! ### The record of the audit ledger -/

inductive AuditRecordError where
  | auditRecordInvalid
deriving DecidableEq, Repr

/-- What the audit ledger keeps of a bundle. -/
structure AuditRecord where
  bundleID : UUID
  evaluationID : UUID
  sessionID : UUID
  generatedAt : Time
  bundleRoot : Digest
deriving DecidableEq, Repr

/-- The root in a manifest, read as an array. -/
def decodeRoot (text : String) : Option Digest :=
  if (utf8 text).length = 71 then
    (Hex.decode (text.toList.drop 7)).map (BitVec.ofNat 256)
  else none

def newAuditRecord (manifest : Manifest) : Except AuditRecordError AuditRecord := do
  rejectIf (manifest.bundleID = UUID.nil ∨ manifest.evaluationID = UUID.nil ∨
    manifest.sessionID = UUID.nil ∨ manifest.generatedAt.IsZero ∨
    manifest.schemaVersion ≠ schemaVersion ∨ manifest.hashAlgorithm ≠ hashAlgorithm ∨
    calculateRoot lib enc manifest ≠ manifest.bundleRoot) .auditRecordInvalid
  match decodeRoot manifest.bundleRoot with
  | none => .error .auditRecordInvalid
  | some root => do
      rejectIf (root = Digest.zero) .auditRecordInvalid
      return ⟨manifest.bundleID, manifest.evaluationID, manifest.sessionID,
        manifest.generatedAt.toUTC.truncate, root⟩

/-- `Validate` of a record. -/
def AuditRecord.validate (record : AuditRecord) : Except AuditRecordError Unit :=
  rejectIf (record.bundleID = UUID.nil ∨ record.evaluationID = UUID.nil ∨
    record.sessionID = UUID.nil ∨ record.generatedAt.IsZero ∨
    record.generatedAt ≠ record.generatedAt.toUTC.truncate ∨
    record.bundleRoot = Digest.zero) .auditRecordInvalid

end

/-! ## What is accepted -/

section
variable {lib : Platform} {enc : Encoding} {att : AttestationLibrary} {store : TrustStore}

@[simp] theorem written_eq_ok {payload : Option Bytes} {bytes : Bytes} :
    written payload = .ok bytes ↔ payload = some bytes := by
  cases payload <;> simp [written]

/-- The links of a signature to its bundle. -/
theorem validateSignatureBinding_eq_ok {u : Unit} :
    validateSignatureBinding lib enc bundle signature true = .ok u ↔
      verify lib enc bundle = .ok () ∧
      (signature.schemaVersion = signatureSchemaVersion ∧
        signature.signatureAlgorithm = signatureAlgorithm ∧
        signature.hashAlgorithm = hashAlgorithm) ∧
      (signature.signerID ≠ "" ∧ signature.keyID ≠ "" ∧
        signature.signerID = trimSpace signature.signerID ∧
        signature.keyID = trimSpace signature.keyID) ∧
      (¬ signature.signingTime.IsZero ∧
        ¬ signature.signingTime.Before bundle.manifest.generatedAt) ∧
      (∃ payload, canonicalManifest enc bundle.manifest = .ok payload ∧
        signature.signedManifestHash = lib.digest payload ∧
        signature.bundleRootHash = bundle.manifest.bundleRoot) ∧
      signature.value ≠ "" := by
  simp only [validateSignatureBinding, bind_eq_ok, rejectIf_eq_ok, mapError_eq_ok, exists_const,
    ne_eq, not_or, not_not, true_and]
  constructor
  · rintro ⟨_, hverify, hschema, hnames, htime, payload, hpayload, hlinks, hvalue⟩
    exact ⟨hverify, hschema, hnames, htime, ⟨payload, hpayload, hlinks⟩, hvalue⟩
  · rintro ⟨hverify, hschema, hnames, htime, ⟨payload, hpayload, hlinks⟩, hvalue⟩
    exact ⟨(), hverify, hschema, hnames, htime, payload, hpayload, hlinks, hvalue⟩

variable (lib enc att store) in
/-- What `VerifySignature` accepts. -/
structure Signed (bundle : Bundle) (signature : Signature) (verifiedAt : Time) : Prop where
  moment : ¬ verifiedAt.IsZero
  signed_verified : signature.signingTime.instant ≤ verifiedAt.instant
  binding : validateSignatureBinding lib enc bundle signature true = .ok ()
  attested : ∃ payload, signingPayload lib enc att bundle signature = .ok payload ∧
    Policy.Attests att.toCryptography store signature.signerID signature.keyID signature.value
      payload signature.signingTime [signature.signingTime, verifiedAt.toUTC]

theorem verifySignature_eq_ok {verified : VerifiedBundle} :
    verifySignature lib enc att store bundle signature verifiedAt = .ok verified ↔
      Signed lib enc att store bundle signature verifiedAt ∧ verified = ⟨bundle, signature⟩ := by
  simp only [verifySignature, bind_eq_ok, rejectIf_eq_ok, mapError_eq_ok, orElseError_eq_ok,
    pure_eq_ok, exists_const, ne_eq, not_or, not_not, VerificationKey.notBefore_eq_ok,
    VerificationKey.withinLimits_eq_ok, List.forall_mem_singleton]
  constructor
  · rintro ⟨⟨hmoment, hbefore⟩, _, hbinding, key, hkey, ⟨halgorithm, -⟩, hbegun,
      ⟨hexpired, hrevoked⟩, ⟨hexpired', hrevoked'⟩, payload, hpayload, haccepts, rfl⟩
    refine ⟨⟨hmoment, not_lt.mp hbefore, hbinding, payload, hpayload, key, hkey, halgorithm,
      ⟨hbegun, ?_, ?_⟩, haccepts⟩, rfl⟩
    · simp [hexpired, hexpired']
    · simp [hrevoked, hrevoked']
  · rintro ⟨⟨hmoment, hbefore, hbinding, payload, hpayload, key, hkey, halgorithm,
      ⟨hbegun, hexpired, hrevoked⟩, haccepts⟩, rfl⟩
    have halgorithms := (validateSignatureBinding_eq_ok.mp hbinding).2.1
    simp only [List.forall_mem_cons, List.not_mem_nil, false_implies, implies_true,
      and_true] at hexpired hrevoked
    exact ⟨⟨hmoment, not_lt.mpr hbefore⟩, (), hbinding, key, hkey,
      ⟨halgorithm, halgorithms.2.1⟩, hbegun, ⟨hexpired.1, hrevoked.1⟩,
      ⟨hexpired.2, hrevoked.2⟩, payload, hpayload, haccepts, rfl⟩

/-- A signed bundle is intact, and it was signed after it had been generated. -/
theorem Signed.intact (h : Signed lib enc att store bundle signature verifiedAt) :
    verify lib enc bundle = .ok () ∧
      bundle.manifest.generatedAt.instant ≤ signature.signingTime.instant := by
  obtain ⟨hverify, -, -, ⟨-, hbefore⟩, -⟩ := validateSignatureBinding_eq_ok.mp h.binding
  exact ⟨hverify, not_lt.mp hbefore⟩

variable (lib att store) in
/-- What `VerifyTrustedTimestamp` accepts. -/
structure Timestamped (verified : VerifiedBundle) (timestamp : TrustedTimestamp)
    (verifiedAt : Time) : Prop where
  moment : ¬ verifiedAt.IsZero
  issued_verified : timestamp.issuedAt.instant ≤ verifiedAt.instant
  signed_issued : verified.signature.signingTime.instant ≤ timestamp.issuedAt.instant
  binding : validateTimestampBinding timestamp true = .ok ()
  signature : ∃ payload, canonicalSignature att verified.signature = .ok payload ∧
    timestamp.signatureHash = lib.digest payload
  root : timestamp.bundleRootHash = verified.bundle.manifest.bundleRoot
  attested : ∃ payload, timestampSigningPayload lib att timestamp = .ok payload ∧
    Policy.Attests att.toCryptography store timestamp.authorityID timestamp.keyID
      timestamp.value payload timestamp.issuedAt [timestamp.issuedAt]

theorem verifyTrustedTimestamp_eq_ok {verified : VerifiedBundle} {timestamp : TrustedTimestamp} :
    verifyTrustedTimestamp lib att store verified timestamp verifiedAt = .ok timestamped ↔
      Timestamped lib att store verified timestamp verifiedAt ∧
        timestamped = ⟨verified, timestamp⟩ := by
  simp only [verifyTrustedTimestamp, bind_eq_ok, rejectIf_eq_ok, mapError_eq_ok,
    orElseError_eq_ok, pure_eq_ok, exists_const, ne_eq, not_or, not_not,
    VerificationKey.notBefore_eq_ok, VerificationKey.withinLimits_eq_ok]
  constructor
  · rintro ⟨⟨hmoment, hverified, hsigned⟩, _, hbinding, signature, hsignature, ⟨hhash, hroot⟩,
      key, hkey, halgorithm, hbegun, ⟨hexpired, hrevoked⟩, payload, hpayload, haccepts, rfl⟩
    exact ⟨⟨hmoment, not_lt.mp hverified, not_lt.mp hsigned, hbinding,
      ⟨signature, hsignature, hhash⟩, hroot, payload, hpayload, key, hkey, halgorithm,
      ⟨hbegun, hexpired, hrevoked⟩, haccepts⟩, rfl⟩
  · rintro ⟨⟨hmoment, hverified, hsigned, hbinding, ⟨signature, hsignature, hhash⟩, hroot,
      payload, hpayload, key, hkey, halgorithm, ⟨hbegun, hexpired, hrevoked⟩, haccepts⟩, rfl⟩
    exact ⟨⟨hmoment, not_lt.mpr hverified, not_lt.mpr hsigned⟩, (), hbinding, signature,
      hsignature, ⟨hhash, hroot⟩, key, hkey, halgorithm, hbegun, ⟨hexpired, hrevoked⟩,
      payload, hpayload, haccepts, rfl⟩

variable (lib enc att store) in
/-- What `VerifyVerificationCertificate` accepts. -/
structure Certified (timestamped : TimestampedBundle) (certificate : VerificationCertificate)
    (verifiedAt : Time) : Prop where
  moment : ¬ verifiedAt.IsZero
  issued_verified : certificate.issuedAt.instant ≤ verifiedAt.instant
  timestamped_issued : timestamped.timestamp.issuedAt.instant ≤ certificate.issuedAt.instant
  binding : validateVerificationCertificate certificate true = .ok ()
  timestamp : ∃ payload, canonicalTimestamp att timestamped.timestamp = .ok payload ∧
    certificate.timestampHash = lib.digest payload
  bundleID : certificate.bundleID = timestamped.verified.bundle.manifest.bundleID
  evaluationID : certificate.evaluationID = timestamped.verified.bundle.manifest.evaluationID
  root : certificate.bundleRoot = timestamped.verified.bundle.manifest.bundleRoot
  policy : certificate.policy = timestamped.verified.bundle.manifest.policy
  timestampIssuedAt : certificate.timestampIssuedAt.Equal timestamped.timestamp.issuedAt.toUTC
  replayed : ∃ report, verifyDecision lib enc timestamped.verified.bundle = .ok report ∧
    report.storedResult = certificate.storedResult ∧
    report.recalculatedResult = certificate.recalculatedResult ∧
    report.outcomes = certificate.outcomes
  attested : ∃ payload, verificationCertificateSigningPayload lib att certificate = .ok payload ∧
    Policy.Attests att.toCryptography store certificate.verifierID certificate.keyID
      certificate.value payload certificate.issuedAt [certificate.issuedAt, verifiedAt.toUTC]

theorem verifyVerificationCertificate_eq_ok {certificate result : VerificationCertificate} :
    verifyVerificationCertificate lib enc att store timestamped certificate verifiedAt =
        .ok result ↔
      Certified lib enc att store timestamped certificate verifiedAt ∧ result = certificate := by
  simp only [verifyVerificationCertificate, bind_eq_ok, rejectIf_eq_ok, mapError_eq_ok,
    orElseError_eq_ok, pure_eq_ok, exists_const, ne_eq, not_or, not_not,
    VerificationKey.notBefore_eq_ok, VerificationKey.withinLimits_eq_ok]
  constructor
  · rintro ⟨⟨hmoment, hverified, hissued⟩, _, hbinding, timestamp, htimestamp,
      ⟨hbundle, hevaluation, hroot, hpolicy, hhash, htime⟩, report, hreport,
      ⟨hstored, hrecalculated, houtcomes⟩, key, hkey, halgorithm, hbegun,
      ⟨hexpired, hrevoked⟩, payload, hpayload, haccepts, rfl⟩
    exact ⟨⟨hmoment, not_lt.mp hverified, not_lt.mp hissued, hbinding,
      ⟨timestamp, htimestamp, hhash⟩, hbundle, hevaluation, hroot, hpolicy, htime,
      ⟨report, hreport, hstored, hrecalculated, houtcomes⟩, payload, hpayload, key, hkey,
      halgorithm, ⟨hbegun, hexpired, hrevoked⟩, haccepts⟩, rfl⟩
  · rintro ⟨⟨hmoment, hverified, hissued, hbinding, ⟨timestamp, htimestamp, hhash⟩, hbundle,
      hevaluation, hroot, hpolicy, htime, ⟨report, hreport, hstored, hrecalculated, houtcomes⟩,
      payload, hpayload, key, hkey, halgorithm, ⟨hbegun, hexpired, hrevoked⟩, haccepts⟩, rfl⟩
    exact ⟨⟨hmoment, not_lt.mpr hverified, not_lt.mpr hissued⟩, (), hbinding, timestamp,
      htimestamp, ⟨hbundle, hevaluation, hroot, hpolicy, hhash, htime⟩, report, hreport,
      ⟨hstored, hrecalculated, houtcomes⟩, key, hkey, halgorithm, hbegun,
      ⟨hexpired, hrevoked⟩, payload, hpayload, haccepts, rfl⟩

/-! ## The root in the record -/

/-- The sum whose text is the root of a manifest. -/
def Manifest.sum (lib : Platform) (enc : Encoding) (manifest : Manifest) : Digest :=
  lib.sha256 (Commitment.hashed enc.marshalManifest manifest.unrooted)

theorem decodeRoot_text (digest : Digest) : decodeRoot digest.text = some digest := by
  unfold decodeRoot
  rw [if_pos (Digest.length_utf8_text digest), Digest.decode_text, Option.map_some]
  exact congrArg some (BitVec.ofNat_toNat 256 digest)

/-- The record has the sum of the manifest as its root. -/
theorem newAuditRecord_eq_ok {manifest : Manifest} {record : AuditRecord} :
    newAuditRecord lib enc manifest = .ok record ↔
      (manifest.bundleID ≠ UUID.nil ∧ manifest.evaluationID ≠ UUID.nil ∧
        manifest.sessionID ≠ UUID.nil ∧ ¬ manifest.generatedAt.IsZero ∧
        manifest.schemaVersion = schemaVersion ∧ manifest.hashAlgorithm = hashAlgorithm ∧
        calculateRoot lib enc manifest = manifest.bundleRoot) ∧
      manifest.sum lib enc ≠ Digest.zero ∧
      record = ⟨manifest.bundleID, manifest.evaluationID, manifest.sessionID,
        manifest.generatedAt.toUTC.truncate, manifest.sum lib enc⟩ := by
  simp only [newAuditRecord, bind_eq_ok, rejectIf_eq_ok, exists_const, ne_eq, not_or, not_not]
  refine and_congr_right fun hvalid => ?_
  have hroot : decodeRoot manifest.bundleRoot = some (manifest.sum lib enc) := by
    rw [← hvalid.2.2.2.2.2.2]
    exact decodeRoot_text _
  rw [hroot]
  simp only [bind_eq_ok, rejectIf_eq_ok, exists_const, pure_eq_ok]
  exact and_congr_right fun _ => eq_comm

/-! ## The certified result -/

/-- One outcome leaves a result that allows the transfer exactly when the result did so
before, unless the rule has failed or has not been conclusive. -/
theorem updateVerificationResult_allowed_iff (result : VerificationResult)
    (status : RuleOutcomeStatus) :
    (updateVerificationResult result status = .verified ∨
        updateVerificationResult result status = .verifiedWithException) ↔
      (result = .verified ∨ result = .verifiedWithException) ∧
        status ≠ .fail ∧ status ≠ .inconclusive := by
  cases status with
  | pass => simp [updateVerificationResult]
  | warning =>
      by_cases hresult : result = .verified
      · simp [updateVerificationResult, hresult]
      · simp [updateVerificationResult, hresult]
  | fail => simp [updateVerificationResult]
  | inconclusive =>
      by_cases hresult : result = .rejected
      · simp [updateVerificationResult, hresult]
      · simp [updateVerificationResult, hresult]
  | other text => simp [updateVerificationResult]

/-- A property of results that the three results of a failed, an inconclusive and a warned
rule have is kept by a replay. -/
theorem replayedResult_keeps {P : VerificationResult → Prop} (hrejected : P .rejected)
    (hreview : P .manualReview) (hexception : P .verifiedWithException)
    (outcomes : List RuleOutcome) {start : VerificationResult} (h : P start) :
    P (replayedResult start outcomes) := by
  induction outcomes generalizing start with
  | nil => exact h
  | cons outcome rest ih =>
      have hstep : P (updateVerificationResult start outcome.status) := by
        cases outcome.status with
        | pass | other text => exact h
        | fail => exact hrejected
        | warning =>
            simp only [updateVerificationResult]
            split
            · exact hexception
            · exact h
        | inconclusive =>
            simp only [updateVerificationResult]
            split
            · exact hreview
            · exact h
      exact ih hstep

theorem replayedResult_allowed_iff (outcomes : List RuleOutcome) (start : VerificationResult) :
    (replayedResult start outcomes = .verified ∨
        replayedResult start outcomes = .verifiedWithException) ↔
      (start = .verified ∨ start = .verifiedWithException) ∧
        ∀ outcome ∈ outcomes, outcome.status ≠ .fail ∧ outcome.status ≠ .inconclusive := by
  induction outcomes generalizing start with
  | nil => simp [replayedResult]
  | cons outcome rest ih =>
      have hstep : replayedResult start (outcome :: rest) =
          replayedResult (updateVerificationResult start outcome.status) rest := rfl
      rw [hstep, ih, updateVerificationResult_allowed_iff, List.forall_mem_cons, and_assoc]

/-- The certified result is one that allows the transfer exactly when no certified
outcome is a failure or inconclusive. -/
theorem Certified.allowed_iff {certificate : VerificationCertificate}
    (h : Certified lib enc att store timestamped certificate verifiedAt) :
    (certificate.storedResult = .verified ∨
        certificate.storedResult = .verifiedWithException) ↔
      ∀ outcome ∈ certificate.outcomes,
        outcome.status ≠ .fail ∧ outcome.status ≠ .inconclusive := by
  obtain ⟨report, hreport, hstored, -, houtcomes⟩ := h.replayed
  obtain ⟨trace, _, _, _, hreplayed, rfl⟩ := verifyDecision_eq_ok.mp hreport
  rw [← hstored, ← houtcomes, ← hreplayed.result, replayedResult_allowed_iff,
    List.forall_mem_map]
  simp [recalculated]

end

end EvidenceBundle
end CargoPds
