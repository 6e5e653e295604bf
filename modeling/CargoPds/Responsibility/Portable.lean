import CargoPds.EvidenceBundle.Agreement
import CargoPds.Responsibility.Proof

/-!
# What an accepted proof of handover says

Two things that a relying party would like to conclude from an accepted proof, and what
can be concluded.

* The result.  `VerifyPortableHandoverProof` replays the decision, and the certificate
  repeats what the replay returns, but no function asks whether the result allows the
  transfer.  It does exactly when no certified rule has failed or was inconclusive
  (`handover_allowed_iff_no_rule_failed`).
* The order.  The transfer, the certificate, both signatures and the verification follow
  one another (`handover_proof_times_ordered`).  The signatures follow the certificate up
  to the microsecond, because the binding keeps its time without the nanoseconds.

No function compares the time of the decision with the time of the transfer.
-/

namespace CargoPds
namespace Responsibility

open Fallible Text
open EvidenceBundle (AttestationLibrary Bundle Encoding VerificationCertificate)
open Policy (TrustStore VerificationKey)

/-! ## The result -/

/-- The decision of an accepted proof allows the transfer exactly when none of the
certified rules has failed or was inconclusive. -/
theorem handover_allowed_iff_no_rule_failed (lib : Platform) (enc : Encoding)
    (att : AttestationLibrary) (store : TrustStore) (portable : PortableHandoverProof)
    (verifiedAt : Time) (verified : VerifiedPortableHandoverProof)
    (h : verifyPortableHandoverProof lib enc att store portable verifiedAt = .ok verified) :
    (verified.certificate.storedResult = .verified ∨
        verified.certificate.storedResult = .verifiedWithException) ↔
      ∀ outcome ∈ portable.certificate.outcomes,
        outcome.status ≠ .fail ∧ outcome.status ≠ .inconclusive := by
  obtain ⟨binding, haccepted, rfl⟩ := verifyPortableHandoverProof_eq_ok.mp h
  exact haccepted.certified.allowed_iff

/-! ## Two proofs on the crate

The crate of the decisions changes hands.  Its bundle is signed, timestamped and
certified, and the carrier and the warehouse sign the proof; all keys are the same.  The
sums and the signatures are those of SHA-256 and Ed25519. -/

namespace Crate

open Pds.Crate
open EvidenceBundle.Crate (Case referenceJson)

/-- The value of a signature: its text, the message and the signature itself. -/
structure Value where
  text : String
  message : Digest
  high : Nat
  low : Nat

/-- The decoded text. -/
def Value.bytes (value : Value) : Bytes := bigEndian 32 value.high ++ bigEndian 32 value.low

/-- What two proofs differ in. -/
structure Handover where
  case : Case
  outcomes : List EvidenceBundle.RecalculatedOutcome
  transferredAt : Time
  issuedAt : Time
  manifestSum : Digest
  signatureSum : Digest
  timestampSum : Digest
  certificateSum : Digest
  transferSum : Digest
  entrySum : Digest
  bindingSum : Digest
  signatureValue : Value
  timestampValue : Value
  certificateValue : Value
  outgoingValue : Value
  incomingValue : Value

/-- RFC 3339 for the times of the artifacts. -/
def stampJson (t : Time) : Json :=
  if t = eight.add (2 * hour + 500) then .string "2026-03-01T10:00:00.0000005Z" else timeJson t

section
variable (h : Handover)

/-! ### The artifacts -/

def Handover.bundleSignature : EvidenceBundle.Signature where
  schemaVersion := EvidenceBundle.signatureSchemaVersion
  signatureAlgorithm := EvidenceBundle.signatureAlgorithm
  hashAlgorithm := EvidenceBundle.hashAlgorithm
  keyID := "key-1"
  signerID := "pds"
  signingTime := eight.add hour
  signedManifestHash := h.manifestSum.text
  bundleRootHash := h.case.root.text
  value := h.signatureValue.text

def Handover.timestamp : EvidenceBundle.TrustedTimestamp where
  schemaVersion := EvidenceBundle.timestampSchemaVersion
  signatureAlgorithm := EvidenceBundle.signatureAlgorithm
  hashAlgorithm := EvidenceBundle.hashAlgorithm
  authorityID := "tsa"
  keyID := "key-1"
  serialNumber := "1"
  issuedAt := eight.add (2 * hour)
  signatureHash := h.signatureSum.text
  bundleRootHash := h.case.root.text
  value := h.timestampValue.text

def certificateID : UUID := BitVec.ofNat 128 0x8c3e5d7f1b2a4c6e8d0f9a7b5c3d1e2f

def Handover.certificate : VerificationCertificate where
  schemaVersion := EvidenceBundle.verificationCertificateSchema
  certificateID := certificateID
  bundleID := h.case.manifest.bundleID
  evaluationID := evaluationID
  bundleRoot := h.case.root.text
  policy := h.case.manifest.policy
  storedResult := h.case.trace.result
  recalculatedResult := h.case.trace.result
  outcomes := h.outcomes
  timestampHash := h.timestampSum.text
  timestampIssuedAt := eight.add (2 * hour)
  verifierID := "verifier"
  keyID := "key-1"
  issuedAt := h.issuedAt
  signatureAlgorithm := EvidenceBundle.signatureAlgorithm
  hashAlgorithm := EvidenceBundle.hashAlgorithm
  value := h.certificateValue.text

def Handover.transfer : TransferredEvent :=
  ⟨"crate-7", "carrier", "warehouse", h.transferredAt, 2⟩

def Handover.entry : Audit.Entry :=
  ⟨1, .responsibilityHandover, Digest.zero, h.transferSum, h.transferredAt, h.entrySum⟩

def proofID : UUID := BitVec.ofNat 128 0x5b1d7e8f2a4c4b6d9e0f1a2b3c4d5e6f

/-- The binding that is signed at ten o'clock. -/
def Handover.binding : HandoverProofBinding where
  proofID := proofID
  objectID := "crate-7"
  fromParticipantID := "carrier"
  toParticipantID := "warehouse"
  transferVersion := 2
  transferredAt := h.transferredAt
  transferRoot := h.transferSum
  auditSequence := 1
  auditPreviousRoot := Digest.zero
  auditRoot := h.entrySum
  bundleID := h.case.manifest.bundleID
  evaluationID := evaluationID
  sessionID := session
  bundleRoot := h.case.root
  policyHash := h.case.manifest.policy.hash
  certificateID := certificateID
  certificateRoot := h.certificateSum
  certificateIssuedAt := eight.add (2 * hour)
  root := h.bindingSum

def Handover.signatureOf (role : HandoverSignerRole) (participant : ParticipantID)
    (value : Value) : HandoverProofSignature where
  schemaVersion := handoverProofSignatureSchema
  role := role
  participantID := participant
  signerID := participant
  keyID := "key-1"
  signedAt := eight.add (2 * hour)
  algorithm := Policy.algorithmEd25519
  bindingRoot := h.bindingSum
  value := value.text

def Handover.portable : PortableHandoverProof where
  proofID := proofID
  transfer := h.transfer
  auditEntry := h.entry
  bundle := h.case.bundle
  bundleSignature := h.bundleSignature
  timestamp := h.timestamp
  certificate := h.certificate
  outgoingSignature := h.signatureOf .outgoing "carrier" h.outgoingValue
  incomingSignature := h.signatureOf .incoming "warehouse" h.incomingValue

/-- What the verifier returns. -/
def Handover.verified : VerifiedPortableHandoverProof :=
  ⟨⟨h.binding, h.portable.outgoingSignature, h.portable.incomingSignature⟩, h.certificate⟩

end

/-! ### The library -/

def signatureMembers (envelope : EvidenceBundle.SignatureEnvelope) : List (String × Json) := [
  ("schema_version", .string envelope.schemaVersion),
  ("signature_algorithm", .string envelope.signatureAlgorithm),
  ("hash_algorithm", .string envelope.hashAlgorithm), ("key_id", .string envelope.keyID),
  ("signer_id", .string envelope.signerID), ("signing_time", stampJson envelope.signingTime),
  ("signed_manifest_hash", .string envelope.signedManifestHash),
  ("bundle_root_hash", .string envelope.bundleRootHash)]

def timestampMembers (envelope : EvidenceBundle.TimestampEnvelope) : List (String × Json) := [
  ("schema_version", .string envelope.schemaVersion),
  ("signature_algorithm", .string envelope.signatureAlgorithm),
  ("hash_algorithm", .string envelope.hashAlgorithm),
  ("authority_id", .string envelope.authorityID), ("key_id", .string envelope.keyID),
  ("serial_number", .string envelope.serialNumber), ("issued_at", stampJson envelope.issuedAt),
  ("signature_hash", .string envelope.signatureHash),
  ("bundle_root_hash", .string envelope.bundleRootHash)]

/-- An outcome, without its reasons when there are none. -/
def recalculatedJson (outcome : EvidenceBundle.RecalculatedOutcome) : Json := .object
  ([("rule_id", .string outcome.ruleID), ("status", outcomeStatusJson outcome.status)] ++
    if outcome.reasonCodes = [] then [] else [("reason_codes", textsJson outcome.reasonCodes)])

def certificateJson (certificate : VerificationCertificate) : Json := .object [
  ("schema_version", .string certificate.schemaVersion),
  ("certificate_id", idJson certificate.certificateID),
  ("bundle_id", idJson certificate.bundleID),
  ("evaluation_id", idJson certificate.evaluationID),
  ("bundle_root", .string certificate.bundleRoot), ("policy", referenceJson certificate.policy),
  ("stored_result", resultJson certificate.storedResult),
  ("recalculated_result", resultJson certificate.recalculatedResult),
  ("outcomes", .array (certificate.outcomes.map recalculatedJson)),
  ("timestamp_hash", .string certificate.timestampHash),
  ("timestamp_issued_at", stampJson certificate.timestampIssuedAt),
  ("verifier_id", .string certificate.verifierID), ("key_id", .string certificate.keyID),
  ("issued_at", stampJson certificate.issuedAt),
  ("signature_algorithm", .string certificate.signatureAlgorithm),
  ("hash_algorithm", .string certificate.hashAlgorithm), ("value", .string certificate.value)]

def signatureText (signature : EvidenceBundle.Signature) : Bytes :=
  render (.object (signatureMembers signature.envelope ++ [("value", .string signature.value)]))

def signatureEnvelopeText (envelope : EvidenceBundle.SignatureEnvelope) : Bytes :=
  render (.object (("domain", .string envelope.domain) :: signatureMembers envelope))

def timestampText (timestamp : EvidenceBundle.TrustedTimestamp) : Bytes :=
  render (.object (timestampMembers timestamp.envelope ++ [("value", .string timestamp.value)]))

def timestampEnvelopeText (envelope : EvidenceBundle.TimestampEnvelope) : Bytes :=
  render (.object (("domain", .string envelope.domain) :: timestampMembers envelope))

def certificateText (certificate : VerificationCertificate) : Bytes :=
  render (certificateJson certificate)

def certificateEnvelopeText (envelope : EvidenceBundle.CertificateEnvelope) : Bytes :=
  render (.object [("domain", .string envelope.domain),
    ("certificate", certificateJson envelope.certificate)])

/-- The one public key. -/
def publicKey : Bytes :=
  bigEndian 32 0xd75a980182b10ab7d54bfed3c964073a0ee172f3daa62325af021a68f707511a

/-- A store that trusts the key under every name, from eight o'clock on. -/
def trustStore : TrustStore := fun signerID keyID =>
  .ok ⟨signerID, keyID, Policy.algorithmEd25519, publicKey, eight, none, none⟩

section
variable (h : Handover)

def Handover.values : List Value :=
  [h.signatureValue, h.timestampValue, h.certificateValue, h.outgoingValue, h.incomingValue]

def Handover.attestation : AttestationLibrary where
  decodeBase64 text := (h.values.find? fun value => value.text = text).map (·.bytes)
  verifyEd25519 key message signature := decide (key = publicKey ∧
    ∃ value ∈ h.values, value.message.bytes = message ∧ value.bytes = signature)
  marshalSignature signature := some (signatureText signature)
  marshalSignatureEnvelope envelope := some (signatureEnvelopeText envelope)
  marshalTimestamp timestamp := some (timestampText timestamp)
  marshalTimestampEnvelope envelope := some (timestampEnvelopeText envelope)
  marshalCertificate certificate := some (certificateText certificate)
  marshalCertificateEnvelope envelope := some (certificateEnvelopeText envelope)

/-- The sums of what is hashed for a proof, those of its bundle apart. -/
def Handover.sums : List (Bytes × Digest) := [
  (render (EvidenceBundle.Crate.manifestJson h.case.bundle.manifest), h.manifestSum),
  (signatureText h.bundleSignature, h.signatureSum),
  (signatureEnvelopeText h.bundleSignature.envelope, h.signatureValue.message),
  (timestampText h.timestamp, h.timestampSum),
  (timestampEnvelopeText h.timestamp.envelope, h.timestampValue.message),
  (certificateText h.certificate, h.certificateSum),
  (certificateEnvelopeText h.certificate.envelope, h.certificateValue.message),
  (h.transfer.message, h.transferSum),
  (utf8 Audit.chainDomain ++ [h.entry.kind.code] ++ Audit.scalar h.entry.sequence ++
    h.entry.previousRoot.bytes ++ h.entry.recordRoot.bytes ++
    Audit.microScalar h.entry.occurredAt, h.entrySum),
  (h.binding.message, h.bindingSum),
  (h.portable.outgoingSignature.message, h.outgoingValue.message),
  (h.portable.incomingSignature.message, h.incomingValue.message)]

def Handover.library : Platform :=
  { h.case.library with
    sha256 := fun payload => (h.sums.lookup payload).getD (h.case.library.sha256 payload) }

end

/-! ### The assembly -/

/-- Eleven o'clock, when the proofs are verified. -/
def eleven : Time := eight.add (3 * hour)

/-- The decision on a crate that is too heavy. -/
def overweight : Case where
  plan := sortedPlan
  trace := { EvidenceBundle.Crate.trace sortedPlan with
    result := .rejected
    reasonCodes := ["VALUE_OUT_OF_RANGE"]
    ruleOutcomes := [⟨"presence", .pass, [], eight⟩,
      ⟨"weight", .fail, ["VALUE_OUT_OF_RANGE"], eight⟩] }
  evidence := EvidenceBundle.Crate.weighed "scale-17" heavyWeight
    "sha256:7a8e04636d95933cb90df385bcb8ce2c7b5655cdaa8ed74375ec9a25b10e556b"
  traceSize := 1062
  traceSum := 0x0602d00f5fd3192cf59b14bf504cb15052ba3f698841970f3fe4ece5276c6f13
  evidenceSum := 0x745ba9e66753f1ab5b76d9839b70682bc56816c75e34eb8c4486c9fef60fb291
  policySum := 0x3f0cd9525696a54b0df141e4c03de6c02359fecbf4b4e9acff805bf9dd18879d
  root := 0x01382b5ebffa1862ba59956d3d433a092f6a40beb69f3b7c812d563610ccbe2e

/-- The heavy crate is handed over at nine o'clock, an hour after it was rejected. -/
def refused : Handover where
  case := overweight
  outcomes := [⟨"presence", .pass, []⟩, ⟨"weight", .fail, ["VALUE_OUT_OF_RANGE"]⟩]
  transferredAt := eight.add hour
  issuedAt := eight.add (2 * hour)
  manifestSum := 0x3c8b73c541ae46aac510b06670f0867260756c2e1eb3ddc4e09c20f0e90bb195
  signatureSum := 0x0c4af3837bc9fa4c1400b9d2e1b48cc0104eda534841c6929c85c44b3c6803d2
  timestampSum := 0xdfde319da18c68dfd545ad98f43cce12c9fe5d5e6de5bb4a0f09b016976e55cb
  certificateSum := 0x52866011acc34b36cffe727bcc85528f1c34d60120b5c3d1cdf5d62028e984af
  transferSum := 0x3d984b34bb0c0d4b02e123aa8a1470f605babbf1b75cf222e6da1868033bb791
  entrySum := 0x170f83f33f00ed085dc4004110da66c64d8bc8293d38b63c003ce54dff6a7d10
  bindingSum := 0x9827ce84950e109f9a80dd64d27e7490ea09566cc217df239e70de35b7f7923d
  signatureValue := {
    text := "DLU2b4cZpSHPXGxuRc+7Y1daJ0i35qTbx1ICdndAf2PC" ++
      "YIERn20yjrHgoLWWp+8p1mvR1f7e1aX0LeMFKVBbBg=="
    message := 0xe2404bc4daeb5eba02131e71b97f4a7011f0bcc51246fb36c0e77f8e4b8d917a
    high := 0x0cb5366f8719a521cf5c6c6e45cfbb63575a2748b7e6a4dbc752027677407f63
    low := 0xc26081119f6d328eb1e0a0b596a7ef29d66bd1d5feded5a5f42de30529505b06 }
  timestampValue := {
    text := "AG+1C2vu3GxJiXpKiKYtuQrINW+/2enbXdtnPgNRuk2B" ++
      "leLWumMIyZVYI5gjamh5C9fwI9FtF0XWKBsRDbfeAg=="
    message := 0xd8b8059bba1c32bb71e4794d432a5071d4db4edef069071419e668a94ec2bc86
    high := 0x006fb50b6beedc6c49897a4a88a62db90ac8356fbfd9e9db5ddb673e0351ba4d
    low := 0x8195e2d6ba6308c995582398236a68790bd7f023d16d1745d6281b110db7de02 }
  certificateValue := {
    text := "fexLpjNrVSWTuvvgH9pXXNKCnuvNY9fhdAj5opxmzTed" ++
      "fa95x5SCTub97e5wlk8W724vDEvwBEJv2EYfo87VCw=="
    message := 0xdd7e4ecb6b95a59bdb648bc3b7d26d0f2ad0dc5129ce59f0238748c149e743a4
    high := 0x7dec4ba6336b552593bafbe01fda575cd2829eebcd63d7e17408f9a29c66cd37
    low := 0x9d7daf79c794824ee6fdedee70964f16ef6e2f0c4bf004426fd8461fa3ced50b }
  outgoingValue := {
    text := "RZbkfX53PXuiXYyV89XpoiTHOo1zktiV4eard2Nnm711" ++
      "M4srxY0v3K5+YRMk3aeOoIO68cfSfccyDK2HUp3ICg=="
    message := 0x5a9240ee66991738d6ed09fd5adaace392f064d13001c2fc8550dff872424b47
    high := 0x4596e47d7e773d7ba25d8c95f3d5e9a224c73a8d7392d895e1e6ab7763679bbd
    low := 0x75338b2bc58d2fdcae7e611324dda78ea083baf1c7d27dc7320cad87529dc80a }
  incomingValue := {
    text := "56kjGieAcmeGfvTeTGLy6M1Q0gEZWRat4AtKsiz4SRE7" ++
      "zxMSTQmvUyD1V7gPfXJVsSWYmePqbhsLonrFZQtrAA=="
    message := 0x412ae6da1ccd657944631e437f3b8b99b9608dad985eb42d023aa4a8880ab415
    high := 0xe7a9231a27807267867ef4de4c62f2e8cd50d201195916ade00b4ab22cf84911
    low := 0x3bcf13124d09af5320f557b80f7d7255b1259899e3ea6e1b0ba27ac5650b6b00 }

/-- The other crate is handed over at seven o'clock, an hour before it was decided on, and
the certificate is issued half a microsecond after the proof has been signed. -/
def early : Handover where
  case := EvidenceBundle.Crate.sorted
  outcomes := [⟨"presence", .pass, []⟩, ⟨"weight", .pass, []⟩]
  transferredAt := eight.add (-hour)
  issuedAt := eight.add (2 * hour + 500)
  manifestSum := 0x592aa1a351095018e6bdf48fe064407f7b2ef16cdcb3a73ae3d9b9c86ff1c8c1
  signatureSum := 0x19319917711017337206984a5e98b3ae297e059af918a581ee4a5c1d9754500e
  timestampSum := 0x3ac0bc8f3c4a77a0382a8cc625f7b82a0f666c44bcf4b0832f1cf8e1db773e5b
  certificateSum := 0x583786881bcbd71ed9c0f9448a9a546e120fe5f47e4f38bfd1d92d662386846d
  transferSum := 0x21ed6d362c3280edbc9547dc838df97079bc8cb633d6b3249f9cace3280d4cbf
  entrySum := 0x7f6d235fa32216409425f796b7b873f36983edb815f93a19b4584306a21065ca
  bindingSum := 0xac2377236be4f59c306f6483edf3e937d927db8d586263c03c06c0b23b85124b
  signatureValue := {
    text := "lXd6eajxYzKgfJaPjn1EvXAa5Gm7v6zXkgT5TpHOKztg" ++
      "EOMAnv2hn5m7AZhP7TbYbD7ieROlHe18Qk6QBSUbDg=="
    message := 0xd61ebbee370d793498953ae69a319efa35c6069445d23691144529af7367ce50
    high := 0x95777a79a8f16332a07c968f8e7d44bd701ae469bbbfacd79204f94e91ce2b3b
    low := 0x6010e3009efda19f99bb01984fed36d86c3ee27913a51ded7c424e9005251b0e }
  timestampValue := {
    text := "cb8bGNRFM6uEDyAEldp8hI3dGRARKIt0istoURjOfwOn" ++
      "7wxWheDd1CUMwIrIUzW7EMGxJsXkmqfgcS9P2Li6AA=="
    message := 0x0a101459bf32491c68e3fecfd5d42571cad79db3dfb7ce3cc2ff07b6fd59234b
    high := 0x71bf1b18d44533ab840f200495da7c848ddd191011288b748acb685118ce7f03
    low := 0xa7ef0c5685e0ddd4250cc08ac85335bb10c1b126c5e49aa7e0712f4fd8b8ba00 }
  certificateValue := {
    text := "iHNbkJVuUeRGo3zYhbqG80Iu6NhCxEn4sCjmIjRmP/Kh" ++
      "fsXSCOJ2ga2k4qUXGC+IW8cRu89Yj45vnTpDhKA3Ag=="
    message := 0x5b7f1037ae3c3ac9d2bd18a1964ac0f4e41c4bf70b363915863f006a78a5cd2f
    high := 0x88735b90956e51e446a37cd885ba86f3422ee8d842c449f8b028e62234663ff2
    low := 0xa17ec5d208e27681ada4e2a517182f885bc711bbcf588f8e6f9d3a4384a03702 }
  outgoingValue := {
    text := "k6FhgkIDdqRoTzYvpFiUkwzsa3QIqwx719wbZPre6fhP" ++
      "Nqr9cpax4aYszV+MR5Gz8fsLl54kMbmoVlSOD/9gDw=="
    message := 0xb5e489449855bdf5078fa00c071f28f1b7abd041b1aef1bbfc3c8777c57dfdc6
    high := 0x93a16182420376a4684f362fa45894930cec6b7408ab0c7bd7dc1b64fadee9f8
    low := 0x4f36aafd7296b1e1a62ccd5f8c4791b3f1fb0b979e2431b9a856548e0fff600f }
  incomingValue := {
    text := "ivO2XBG5JVP4OspXlYCJZcHOAuwAUfoOnvTjvXs4HXyO" ++
      "2uow0n51vwR0/0LCuqYWiNGJ4tcUfkvMALDcOAcOCQ=="
    message := 0x0fa9add58b3ccce53733f8ac88118f31407bc9c19720f1759711bc90d66ad97b
    high := 0x8af3b65c11b92553f83aca5795808965c1ce02ec0051fa0e9ef4e3bd7b381d7c
    low := 0x8edaea30d27e75bf0474ff42c2baa61688d189e2d7147e4bcc00b0dc38070e09 }

/-! ### Acceptance -/

theorem refused_accepted : verifyPortableHandoverProof refused.library refused.case.encoding
    refused.attestation trustStore refused.portable eleven = .ok refused.verified := by
  decide +kernel

theorem early_accepted : verifyPortableHandoverProof early.library early.case.encoding
    early.attestation trustStore early.portable eleven = .ok early.verified := by
  decide +kernel

end Crate

/-- The proof of a rejected handover is accepted, although everything in it is honest. -/
theorem rejected_handover_accepted :
    verifyPortableHandoverProof Crate.refused.library Crate.refused.case.encoding
        Crate.refused.attestation Crate.trustStore Crate.refused.portable Crate.eleven =
        .ok Crate.refused.verified ∧
      Crate.refused.verified.certificate.storedResult = .rejected :=
  ⟨Crate.refused_accepted, rfl⟩

/-- The other proof is accepted, and its decision allows the transfer. -/
theorem verified_handover_allowed :
    verifyPortableHandoverProof Crate.early.library Crate.early.case.encoding
        Crate.early.attestation Crate.trustStore Crate.early.portable Crate.eleven =
        .ok Crate.early.verified ∧
      (Crate.early.verified.certificate.storedResult = .verified ∨
        Crate.early.verified.certificate.storedResult = .verifiedWithException) :=
  ⟨Crate.early_accepted, (handover_allowed_iff_no_rule_failed Crate.early.library
    Crate.early.case.encoding Crate.early.attestation Crate.trustStore Crate.early.portable
    Crate.eleven Crate.early.verified Crate.early_accepted).mpr (by decide)⟩

/-! ## The order -/

/-- In an accepted proof the transfer precedes the certificate, the microsecond of the
certificate precedes both signatures, and the signatures precede the verification. -/
theorem handover_proof_times_ordered (lib : Platform) (enc : Encoding)
    (att : AttestationLibrary) (store : TrustStore) (portable : PortableHandoverProof)
    (verifiedAt : Time) (verified : VerifiedPortableHandoverProof)
    (h : verifyPortableHandoverProof lib enc att store portable verifiedAt = .ok verified) :
    portable.transfer.transferredAt.instant ≤ portable.certificate.issuedAt.instant ∧
      portable.certificate.issuedAt.truncate.instant ≤
        portable.outgoingSignature.signedAt.instant ∧
      portable.certificate.issuedAt.truncate.instant ≤
        portable.incomingSignature.signedAt.instant ∧
      portable.outgoingSignature.signedAt.instant ≤ verifiedAt.instant ∧
      portable.incomingSignature.signedAt.instant ≤ verifiedAt.instant := by
  obtain ⟨binding, haccepted, -⟩ := verifyPortableHandoverProof_eq_ok.mp h
  obtain ⟨htransferred, hissuedAt⟩ := haccepted.certificate_times
  have hsigned := haccepted.countersigned
  have hout := hsigned.outgoing.certified_signed
  have hin := hsigned.incoming.certified_signed
  rw [hissuedAt] at hout hin
  exact ⟨htransferred, hout, hin, hsigned.outgoing_verified, hsigned.incoming_verified⟩

/-- A proof is accepted although its decision was completed after the transfer, and
although both signatures are older than the certificate, by half a microsecond. -/
theorem late_decision_accepted :
    verifyPortableHandoverProof Crate.early.library Crate.early.case.encoding
        Crate.early.attestation Crate.trustStore Crate.early.portable Crate.eleven =
        .ok Crate.early.verified ∧
      EvidenceBundle.tracesOf Crate.early.case.encoding Crate.early.portable.bundle.objects =
        [Crate.early.case.trace] ∧
      Crate.early.case.trace.completedAt = some Pds.Crate.eight ∧
      Crate.early.portable.transfer.transferredAt.Before Pds.Crate.eight ∧
      Crate.early.portable.outgoingSignature.signedAt.Before
        Crate.early.portable.certificate.issuedAt ∧
      Crate.early.portable.incomingSignature.signedAt.Before
        Crate.early.portable.certificate.issuedAt :=
  ⟨Crate.early_accepted, by decide +kernel, rfl, by decide, by decide, by decide⟩

theorem refused_handover_ordered :
    verifyPortableHandoverProof Crate.refused.library Crate.refused.case.encoding
        Crate.refused.attestation Crate.trustStore Crate.refused.portable Crate.eleven =
        .ok Crate.refused.verified ∧
      Crate.refused.transferredAt.instant ≤ Crate.refused.issuedAt.instant ∧
      Crate.refused.portable.outgoingSignature.signedAt.instant ≤ Crate.eleven.instant := by
  obtain ⟨htransferred, -, -, hverified, -⟩ :=
    handover_proof_times_ordered Crate.refused.library Crate.refused.case.encoding
      Crate.refused.attestation Crate.trustStore Crate.refused.portable Crate.eleven
      Crate.refused.verified Crate.refused_accepted
  exact ⟨Crate.refused_accepted, htransferred, hverified⟩

end Responsibility
end CargoPds
