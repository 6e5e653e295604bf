import CargoPds.Audit.History
import CargoPds.Foundation.Countable
import CargoPds.Foundation.Tabled
import CargoPds.Responsibility.Portable

/-!
# What a participant has signed

The message that a participant signs ends with the root of a binding, and it holds
nothing of the handover besides.  Everything else is behind that root: the binding holds
the values of the transfer and the roots of the other artifacts, and each of these is
again a SHA-256 sum.

* `HandoverProofBinding.eq_of_message_eq` reads a binding back from the message that is
  hashed for it: its fields have a fixed width or stand behind their length.
* `AcceptedProof.names` goes from the binding to the artifacts.  The manifest and the
  certificate are named by the sums of their JSON, the objects by their digests
  in the manifest, and the entry of the ledger repeats values of the binding.
* `outgoing_signature_binds_handover` puts both together.

Times enter the messages as `uint64(t.UnixMicro())`, and strings behind their length as
a `uint64`; `Representable` says that nothing is lost by this.
-/

namespace CargoPds
namespace Responsibility

open Commitment
open EvidenceBundle (AttestationLibrary Bundle Certified Encoding EncodesManifests Manifest
  VerificationCertificate Verified)
open Policy (TrustStore)

variable {zones : Set Location} {known : Set Bytes}

/-! ## Layouts -/

/-- A string in front of a message can be taken off. -/
theorem rootString_inj {first second : String} {rest rest' : Bytes}
    (hfirst : (utf8 first).length < 2 ^ 64) (hsecond : (utf8 second).length < 2 ^ 64)
    (h : rootString first ++ rest = rootString second ++ rest') :
    first = second ∧ rest = rest' := by
  obtain ⟨hbytes, hrest⟩ := @counted_inj 8 _ _ _ _ hfirst hsecond h
  exact ⟨utf8_inj hbytes, hrest⟩

theorem proofUUID_inj {first second : UUID} {rest rest' : Bytes}
    (h : proofUUID first ++ rest = proofUUID second ++ rest') :
    first = second ∧ rest = rest' := by
  obtain ⟨hbytes, hrest⟩ := field_inj (by simp [proofUUID]) h
  have hbound : ∀ id : UUID, id.toNat < 256 ^ 16 := fun id => id.isLt
  exact ⟨BitVec.eq_of_toNat_eq (bigEndian_inj (hbound first) (hbound second) hbytes), hrest⟩

theorem digest_inj {first second : Digest} {rest rest' : Bytes}
    (h : first.bytes ++ rest = second.bytes ++ rest') : first = second ∧ rest = rest' := by
  obtain ⟨hbytes, hrest⟩ := field_inj (by simp) h
  exact ⟨Digest.bytes_inj hbytes, hrest⟩

theorem scalarField_inj {first second : Nat} {rest rest' : Bytes} (hfirst : first < 2 ^ 64)
    (hsecond : second < 2 ^ 64)
    (h : Audit.scalar first ++ rest = Audit.scalar second ++ rest') :
    first = second ∧ rest = rest' := by
  obtain ⟨hbytes, hrest⟩ := field_inj (by simp [Audit.scalar]) h
  exact ⟨Audit.scalar_inj hfirst hsecond hbytes, hrest⟩

/-- The microseconds of a time are an `int64`. -/
def FitsMicro (t : Time) : Prop := -2 ^ 63 ≤ t.unixMicro ∧ t.unixMicro < 2 ^ 63
deriving Decidable

/-- A time of whole microseconds in UTC can be taken off. -/
theorem microField_inj {first second : Time} {rest rest' : Bytes} (hfirst : FitsMicro first)
    (hsecond : FitsMicro second) (hutc : first = first.toUTC.truncate)
    (hutc' : second = second.toUTC.truncate)
    (h : Audit.microScalar first ++ rest = Audit.microScalar second ++ rest') :
    first = second ∧ rest = rest' := by
  obtain ⟨hbytes, hrest⟩ := field_inj (by simp [Audit.microScalar, Audit.scalar]) h
  have hmicro := Audit.microScalar_inj hfirst hsecond hbytes
  exact ⟨Audit.eq_of_unixMicro_eq hutc.symm hutc'.symm hmicro, hrest⟩

/-! ## The binding -/

/-- The numbers and the lengths that are written for a binding fit into 64 bits. -/
structure HandoverProofBinding.Representable (binding : HandoverProofBinding) : Prop where
  objectID : (utf8 binding.objectID).length < 2 ^ 64
  fromParticipantID : (utf8 binding.fromParticipantID).length < 2 ^ 64
  toParticipantID : (utf8 binding.toParticipantID).length < 2 ^ 64
  policyHash : (utf8 binding.policyHash).length < 2 ^ 64
  auditSequence : binding.auditSequence < 2 ^ 64
  transferredAt : FitsMicro binding.transferredAt
  certificateIssuedAt : FitsMicro binding.certificateIssuedAt

section
variable {lib : Platform} {enc : Encoding} {att : AttestationLibrary}

/-- A valid binding is determined by the message that is hashed for it. -/
theorem HandoverProofBinding.eq_of_message_eq {left right : HandoverProofBinding}
    (hleft : left.Valid lib) (hright : right.Valid lib) (hfits : left.Representable)
    (hfits' : right.Representable) (h : left.message = right.message) : left = right := by
  have hroot : left.root = right.root := by
    rw [hleft.root, hright.root]
    exact congrArg lib.sha256 h
  unfold HandoverProofBinding.message at h
  -- the fields are taken off from the front, in the order in which they are written
  simp only [List.append_assoc] at h
  obtain ⟨-, h⟩ := field_inj rfl h
  obtain ⟨hproof, h⟩ := proofUUID_inj h
  obtain ⟨hobject, h⟩ := rootString_inj hfits.objectID hfits'.objectID h
  obtain ⟨hfrom, h⟩ := rootString_inj hfits.fromParticipantID hfits'.fromParticipantID h
  obtain ⟨hto, h⟩ := rootString_inj hfits.toParticipantID hfits'.toParticipantID h
  obtain ⟨hversion, h⟩ := scalarField_inj left.transferVersion.toNat_lt
    right.transferVersion.toNat_lt h
  obtain ⟨htransferred, h⟩ := microField_inj hfits.transferredAt hfits'.transferredAt
    hleft.transferredAt hright.transferredAt h
  obtain ⟨htransfer, h⟩ := digest_inj h
  obtain ⟨hsequence, h⟩ := scalarField_inj hfits.auditSequence hfits'.auditSequence h
  obtain ⟨hprevious, h⟩ := digest_inj h
  obtain ⟨haudit, h⟩ := digest_inj h
  obtain ⟨hbundle, h⟩ := proofUUID_inj h
  obtain ⟨hevaluation, h⟩ := proofUUID_inj h
  obtain ⟨hsession, h⟩ := proofUUID_inj h
  obtain ⟨hbundleRoot, h⟩ := digest_inj h
  obtain ⟨hpolicy, h⟩ := rootString_inj hfits.policyHash hfits'.policyHash h
  obtain ⟨hcertificate, h⟩ := proofUUID_inj h
  obtain ⟨hcertificateRoot, h⟩ := digest_inj h
  obtain ⟨hissued, -⟩ := microField_inj hfits.certificateIssuedAt hfits'.certificateIssuedAt
    hleft.certificateIssuedAt hright.certificateIssuedAt (congrArg (· ++ []) h)
  have hversions := UInt64.toNat_inj.mp hversion
  cases left
  cases right
  simp only [HandoverProofBinding.mk.injEq]
  exact ⟨hproof, hobject, hfrom, hto, hversions, htransferred, htransfer, hsequence, hprevious,
    haudit, hbundle, hevaluation, hsession, hbundleRoot, hpolicy, hcertificate,
    hcertificateRoot, hissued, hroot⟩

/-- The message of a signature ends with the root of the binding. -/
theorem HandoverProofSignature.bindingRoot_eq_of_message_eq
    {left right : HandoverProofSignature} (h : left.message = right.message) :
    left.bindingRoot = right.bindingRoot := by
  obtain ⟨-, hroot⟩ := List.append_inj' h (by simp)
  exact Digest.bytes_inj hroot

/-! ## From the binding to the artifacts -/

/-- The results and the statuses of a certificate are those that the packages name. -/
def Named (certificate : VerificationCertificate) : Prop :=
  certificate.storedResult.IsValid ∧ certificate.recalculatedResult.IsValid ∧
    ∀ outcome ∈ certificate.outcomes, outcome.status.IsValid

/-- `json.Marshal` on certificates whose times are in `zones`. -/
abbrev EncodesCertificates (att : AttestationLibrary) (zones : Set Location) : Prop :=
  Encodes att.marshalCertificate
    (fun certificate => Named certificate ∧
      certificate.timestampIssuedAt.location ∈ zones ∧ certificate.issuedAt.location ∈ zones)
    fun certificate => certificate.timestampIssuedAt.Marshals ∧ certificate.issuedAt.Marshals

/-- What is hashed for a proof, as far as a signature leads there. -/
def PortableHandoverProof.messages (enc : Encoding) (att : AttestationLibrary)
    (portable : PortableHandoverProof) (binding : HandoverProofBinding) : List Bytes :=
  portable.outgoingSignature.message :: binding.message ::
    hashed att.marshalCertificate portable.certificate :: portable.bundle.messages enc

/-- The locations of the times that are written as JSON. -/
def PortableHandoverProof.locations (portable : PortableHandoverProof) : List Location :=
  [portable.bundle.manifest.generatedAt.location, portable.certificate.timestampIssuedAt.location,
    portable.certificate.issuedAt.location]

/-- The transfer with its time as the proof keeps it. -/
def TransferredEvent.inMicroseconds (event : TransferredEvent) : TransferredEvent :=
  { event with transferredAt := event.transferredAt.toUTC.truncate }

/-- The numbers and the lengths of a proof that enter the binding fit into 64 bits. -/
structure PortableHandoverProof.Representable (portable : PortableHandoverProof) : Prop where
  objectID : (utf8 portable.transfer.objectID).length < 2 ^ 64
  fromParticipantID : (utf8 portable.transfer.fromParticipantID).length < 2 ^ 64
  toParticipantID : (utf8 portable.transfer.toParticipantID).length < 2 ^ 64
  policyHash : (utf8 portable.bundle.manifest.policy.hash).length < 2 ^ 64
  auditSequence : portable.auditEntry.sequence < 2 ^ 64
  transferredAt : FitsMicro portable.transfer.transferredAt
  certificateIssuedAt : FitsMicro portable.certificate.issuedAt

/-- A result that follows from a replay is one of the named ones. -/
theorem named_of_certified {store : TrustStore}
    {timestamped : EvidenceBundle.TimestampedBundle} {certificate : VerificationCertificate}
    {verifiedAt : Time}
    (h : Certified lib enc att store timestamped certificate verifiedAt) : Named certificate := by
  obtain ⟨report, hreport, hstored, hrecalculated, -⟩ := h.replayed
  obtain ⟨trace, _, _, _, hreplayed, rfl⟩ := EvidenceBundle.verifyDecision_eq_ok.mp hreport
  have hresult : trace.result.IsValid := by
    rw [← hreplayed.result]
    exact EvidenceBundle.replayedResult_keeps trivial trivial trivial _ trivial
  refine ⟨?_, ?_, ?_⟩
  · rw [← hstored]
    exact hresult
  · rw [← hrecalculated]
    exact hresult
  · have hbinding := h.binding
    simp only [EvidenceBundle.validateVerificationCertificate, Fallible.bind_eq_ok,
      Fallible.rejectIf_eq_ok, exists_const] at hbinding
    intro outcome houtcome
    by_contra hnot
    exact hbinding.2.1 ⟨outcome, houtcome, .inr hnot⟩

/-- The entry of the ledger has the time of the transfer. -/
theorem Records.occurredAt_eq {entry : Audit.Entry} {event : TransferredEvent} {root : Digest}
    (h : Records lib entry event root) :
    entry.occurredAt = event.transferredAt.toUTC.truncate := by
  obtain ⟨-, -, -, -, -, hcanonical, -⟩ := (Audit.Entry.valid_iff lib).mp h.valid
  have hutc : entry.occurredAt.location = .utc := by
    rw [← hcanonical]
    rfl
  have hinstant := h.occurredAt
  cases hentry : entry.occurredAt with
  | mk instant location =>
      rw [hentry] at hutc hinstant
      exact Time.mk.injEq _ _ _ _ |>.mpr ⟨hinstant, hutc⟩

theorem unixMicro_truncate (t : Time) : t.toUTC.truncate.unixMicro = t.unixMicro := by
  change (t.instant - t.instant % 1000 - Time.unixEpoch) / 1000 =
    (t.instant - Time.unixEpoch) / 1000
  unfold Time.unixEpoch
  omega

theorem fitsMicro_truncate {t : Time} (h : FitsMicro t) : FitsMicro t.toUTC.truncate := by
  unfold FitsMicro
  rw [unixMicro_truncate]
  exact h

section
variable {store store' : TrustStore} {portable other : PortableHandoverProof}
  {verifiedAt verifiedAt' : Time} {binding : HandoverProofBinding}

/-- The binding of an accepted proof, and what its roots are the sums of. -/
structure Names (lib : Platform) (enc : Encoding) (att : AttestationLibrary)
    (portable : PortableHandoverProof) (binding : HandoverProofBinding) : Prop where
  proofID : binding.proofID = portable.proofID
  objectID : binding.objectID = portable.transfer.objectID
  fromParticipantID : binding.fromParticipantID = portable.transfer.fromParticipantID
  toParticipantID : binding.toParticipantID = portable.transfer.toParticipantID
  transferVersion : binding.transferVersion = portable.transfer.version
  transferredAt : binding.transferredAt = portable.transfer.transferredAt.toUTC.truncate
  records : Records lib portable.auditEntry portable.transfer binding.transferRoot
  auditSequence : binding.auditSequence = portable.auditEntry.sequence
  auditPreviousRoot : binding.auditPreviousRoot = portable.auditEntry.previousRoot
  auditRoot : binding.auditRoot = portable.auditEntry.root
  bundleRoot : binding.bundleRoot = portable.bundle.manifest.sum lib enc
  policyHash : binding.policyHash = portable.bundle.manifest.policy.hash
  certificate : (att.marshalCertificate portable.certificate).isSome
  certificateRoot :
    binding.certificateRoot = lib.sha256 (hashed att.marshalCertificate portable.certificate)
  certificateIssuedAt :
    binding.certificateIssuedAt = portable.certificate.issuedAt.toUTC.truncate

theorem AcceptedProof.names (h : AcceptedProof lib enc att store portable verifiedAt binding) :
    Names lib enc att portable binding := by
  obtain ⟨root, record, payload, -, hrecords, hrecord, -, hpayload, rfl⟩ :=
    newHandoverProofBinding_eq_ok.mp h.binds
  obtain ⟨-, -, rfl⟩ := EvidenceBundle.newAuditRecord_eq_ok.mp hrecord
  have hwritten : att.marshalCertificate portable.certificate = some payload := by
    simp only [EvidenceBundle.canonicalVerificationCertificate, Fallible.bind_eq_ok,
      EvidenceBundle.written_eq_ok] at hpayload
    obtain ⟨_, -, hwritten⟩ := hpayload
    exact hwritten
  have hhashed : hashed att.marshalCertificate portable.certificate = payload := by
    unfold hashed
    rw [hwritten, Option.getD_some]
  exact {
    proofID := rfl
    objectID := rfl
    fromParticipantID := rfl
    toParticipantID := rfl
    transferVersion := rfl
    transferredAt := rfl
    records := hrecords
    auditSequence := rfl
    auditPreviousRoot := rfl
    auditRoot := rfl
    bundleRoot := rfl
    policyHash := rfl
    certificate := by rw [hwritten, Option.isSome_some]
    certificateRoot := congrArg lib.sha256 hhashed.symm
    certificateIssuedAt := rfl }

theorem Names.representable (h : Names lib enc att portable binding)
    (hfits : portable.Representable) : binding.Representable where
  objectID := h.objectID ▸ hfits.objectID
  fromParticipantID := h.fromParticipantID ▸ hfits.fromParticipantID
  toParticipantID := h.toParticipantID ▸ hfits.toParticipantID
  policyHash := h.policyHash ▸ hfits.policyHash
  auditSequence := h.auditSequence ▸ hfits.auditSequence
  transferredAt := h.transferredAt ▸ fitsMicro_truncate hfits.transferredAt
  certificateIssuedAt := h.certificateIssuedAt ▸ fitsMicro_truncate hfits.certificateIssuedAt

/-- Proofs with one binding have one transfer, up to the microsecond. -/
theorem Names.transfer_eq (h : Names lib enc att portable binding)
    (h' : Names lib enc att other binding) :
    portable.transfer.inMicroseconds = other.transfer.inMicroseconds := by
  unfold TransferredEvent.inMicroseconds
  rw [← h.transferredAt, ← h'.transferredAt]
  simp only [TransferredEvent.mk.injEq, true_and]
  exact ⟨h.objectID.symm.trans h'.objectID, h.fromParticipantID.symm.trans h'.fromParticipantID,
    h.toParticipantID.symm.trans h'.toParticipantID,
    h.transferVersion.symm.trans h'.transferVersion⟩

/-- They have one entry of the ledger, whose kind is that of a handover. -/
theorem Names.auditEntry_eq (h : Names lib enc att portable binding)
    (h' : Names lib enc att other binding) : portable.auditEntry = other.auditEntry := by
  have htime : portable.auditEntry.occurredAt = other.auditEntry.occurredAt := by
    rw [h.records.occurredAt_eq, h'.records.occurredAt_eq, ← h.transferredAt, h'.transferredAt]
  have hkind := h.records.kind.trans h'.records.kind.symm
  have hrecord := h.records.recordRoot.trans h'.records.recordRoot.symm
  have hsequence := h.auditSequence.symm.trans h'.auditSequence
  have hprevious := h.auditPreviousRoot.symm.trans h'.auditPreviousRoot
  have hroot := h.auditRoot.symm.trans h'.auditRoot
  cases hentry : portable.auditEntry
  cases hentry' : other.auditEntry
  simp only [hentry, hentry'] at htime hkind hrecord hsequence hprevious hroot
  simp only [Audit.Entry.mk.injEq]
  exact ⟨hsequence, hkind, hprevious, hrecord, htime, hroot⟩

/-- The signature of the bundle is over the JSON of the manifest, so this exists. -/
theorem AcceptedProof.marshals (hjson : EncodesManifests enc zones)
    (hzone : portable.bundle.manifest.generatedAt.location ∈ zones)
    (h : AcceptedProof lib enc att store portable verifiedAt binding) :
    portable.bundle.manifest.generatedAt.Marshals := by
  obtain ⟨-, -, -, -, ⟨payload, hpayload, -⟩, -⟩ :=
    EvidenceBundle.validateSignatureBinding_eq_ok.mp h.signed.binding
  have hwritten := (EvidenceBundle.canonicalManifest_eq_ok.mp hpayload).2
  by_contra hnot
  rw [hjson.refused _ hzone hnot] at hwritten
  cases hwritten

/-- They have one manifest, and the same objects. -/
theorem AcceptedProof.bundle_eq (hjson : EncodesManifests enc zones)
    (hsum : Set.InjOn lib.sha256 known)
    (hzone : portable.bundle.manifest.generatedAt.location ∈ zones)
    (hzone' : other.bundle.manifest.generatedAt.location ∈ zones)
    (h : AcceptedProof lib enc att store portable verifiedAt binding)
    (h' : AcceptedProof lib enc att store' other verifiedAt' binding)
    (hknown : ∀ m ∈ portable.bundle.messages enc, m ∈ known)
    (hknown' : ∀ m ∈ other.bundle.messages enc, m ∈ known) :
    portable.bundle.manifest = other.bundle.manifest ∧
      portable.bundle.objects.Perm other.bundle.objects := by
  have hverified := EvidenceBundle.verify_eq_ok.mp h.signed.intact.1
  have hverified' := EvidenceBundle.verify_eq_ok.mp h'.signed.intact.1
  have hroots : portable.bundle.manifest.bundleRoot = other.bundle.manifest.bundleRoot := by
    rw [← hverified.root, ← hverified'.root]
    exact congrArg Digest.text (h.names.bundleRoot.symm.trans h'.names.bundleRoot)
  exact hverified'.eq_of_root_eq hjson hsum hverified hzone' hzone (h'.marshals hjson hzone')
    hknown' hknown hroots

/-- They have one certificate. -/
theorem AcceptedProof.certificate_eq (hjson : EncodesCertificates att zones)
    (hsum : Set.InjOn lib.sha256 known)
    (hzones : portable.certificate.timestampIssuedAt.location ∈ zones ∧
      portable.certificate.issuedAt.location ∈ zones)
    (hzones' : other.certificate.timestampIssuedAt.location ∈ zones ∧
      other.certificate.issuedAt.location ∈ zones)
    (h : AcceptedProof lib enc att store portable verifiedAt binding)
    (h' : AcceptedProof lib enc att store' other verifiedAt' binding)
    (hknown : hashed att.marshalCertificate portable.certificate ∈ known)
    (hknown' : hashed att.marshalCertificate other.certificate ∈ known) :
    portable.certificate = other.certificate := by
  have hnamed := named_of_certified h.certified
  refine hjson.eq_of_sum_eq hsum ⟨hnamed, hzones⟩ ⟨named_of_certified h'.certified, hzones'⟩ ?_
    hknown hknown' (h.names.certificateRoot.symm.trans h'.names.certificateRoot)
  by_contra hnot
  have hwritten := h.names.certificate
  rw [hjson.refused _ ⟨hnamed, hzones⟩ hnot] at hwritten
  cases hwritten

/-- What is signed for two accepted proofs determines the binding. -/
theorem AcceptedProof.binding_eq (hsum : Set.InjOn lib.sha256 known)
    {binding' : HandoverProofBinding}
    (h : AcceptedProof lib enc att store portable verifiedAt binding)
    (h' : AcceptedProof lib enc att store' other verifiedAt' binding')
    (hfits : portable.Representable) (hfits' : other.Representable)
    (hsignature : portable.outgoingSignature.message ∈ known)
    (hsignature' : other.outgoingSignature.message ∈ known) (hbinding : binding.message ∈ known)
    (hbinding' : binding'.message ∈ known)
    (hpayload : handoverProofSigningPayload lib portable.outgoingSignature =
      handoverProofSigningPayload lib other.outgoingSignature) : binding = binding' := by
  have hvalid := HandoverProofBinding.validate_eq_ok.mp h.countersigned.valid
  have hvalid' := HandoverProofBinding.validate_eq_ok.mp h'.countersigned.valid
  have hmessages : portable.outgoingSignature.message = other.outgoingSignature.message := by
    obtain ⟨payload, hmade, -⟩ := h.countersigned.outgoing.attested
    have hmade' := hpayload.symm.trans hmade
    simp only [handoverProofSigningPayload, Fallible.bind_eq_ok, Fallible.pure_eq_ok]
      at hmade hmade'
    obtain ⟨_, -, hsum_eq⟩ := hmade
    obtain ⟨_, -, hsum_eq'⟩ := hmade'
    exact hsum hsignature hsignature' (hsum_eq.trans hsum_eq'.symm)
  have hroots : binding.root = binding'.root := by
    rw [← h.countersigned.outgoing.root, ← h'.countersigned.outgoing.root]
    exact HandoverProofSignature.bindingRoot_eq_of_message_eq hmessages
  refine HandoverProofBinding.eq_of_message_eq hvalid hvalid' (h.names.representable hfits)
    (h'.names.representable hfits') (hsum hbinding hbinding' ?_)
  exact hvalid.root.symm.trans (hroots.trans hvalid'.root)

end

/-! ## The result -/

/-- **A participant signs the whole handover.**  Two accepted proofs, under any trust
stores and at any times, whose outgoing signatures are over the same payload are proofs
of the same handover.  `zones` are the locations in use, which are written differently, and
`known` are the messages among which SHA-256 has no collisions. -/
theorem outgoing_signature_binds_handover {zones : Set Location}
    (hmanifests : EncodesManifests enc zones) (hcertificates : EncodesCertificates att zones)
    {known : Set Bytes} (hsum : Set.InjOn lib.sha256 known) (store store' : TrustStore)
    (portable other : PortableHandoverProof) (verifiedAt verifiedAt' : Time)
    (verified verified' : VerifiedPortableHandoverProof)
    (h : verifyPortableHandoverProof lib enc att store portable verifiedAt = .ok verified)
    (h' : verifyPortableHandoverProof lib enc att store' other verifiedAt' = .ok verified')
    (hfits : portable.Representable) (hfits' : other.Representable)
    (hzones : ∀ zone ∈ portable.locations, zone ∈ zones)
    (hzones' : ∀ zone ∈ other.locations, zone ∈ zones)
    (hknown : ∀ m ∈ portable.messages enc att verified.proof.binding, m ∈ known)
    (hknown' : ∀ m ∈ other.messages enc att verified'.proof.binding, m ∈ known)
    (hpayload : handoverProofSigningPayload lib portable.outgoingSignature =
      handoverProofSigningPayload lib other.outgoingSignature) :
    portable.proofID = other.proofID ∧
      portable.transfer.inMicroseconds = other.transfer.inMicroseconds ∧
      portable.auditEntry = other.auditEntry ∧
      portable.bundle.manifest = other.bundle.manifest ∧
      portable.bundle.objects.Perm other.bundle.objects ∧
      portable.certificate = other.certificate := by
  obtain ⟨binding, haccepted, rfl⟩ := verifyPortableHandoverProof_eq_ok.mp h
  obtain ⟨binding', haccepted', rfl⟩ := verifyPortableHandoverProof_eq_ok.mp h'
  simp only [PortableHandoverProof.locations, List.forall_mem_cons] at hzones hzones'
  obtain ⟨hzone, htimestamp, hissued, -⟩ := hzones
  obtain ⟨hzone', htimestamp', hissued', -⟩ := hzones'
  simp only [PortableHandoverProof.messages, List.forall_mem_cons] at hknown hknown'
  obtain ⟨hsignature, hbinding, hcertificate, hbundle⟩ := hknown
  obtain ⟨hsignature', hbinding', hcertificate', hbundle'⟩ := hknown'
  obtain rfl := haccepted.binding_eq hsum haccepted' hfits hfits' hsignature hsignature'
    hbinding hbinding' hpayload
  have hnames := haccepted.names
  have hnames' := haccepted'.names
  obtain ⟨hmanifest, hobjects⟩ :=
    haccepted.bundle_eq hmanifests hsum hzone hzone' haccepted' hbundle hbundle'
  exact ⟨hnames.proofID.symm.trans hnames'.proofID, hnames.transfer_eq hnames',
    hnames.auditEntry_eq hnames', hmanifest, hobjects,
    haccepted.certificate_eq hcertificates hsum ⟨htimestamp, hissued⟩ ⟨htimestamp', hissued'⟩
      haccepted' hcertificate hcertificate'⟩

end

/-! ## The proof on the heavy crate -/

instance : Countable Evaluation.ReasonCode := inferInstanceAs (Countable String)

deriving instance Countable for Evaluation.VerificationResult
deriving instance Countable for Evaluation.RuleOutcomeStatus
deriving instance Countable for EvidenceBundle.RecalculatedOutcome
deriving instance Countable for VerificationCertificate

/-- A binding keeps the microsecond of the transfer and nothing below it. -/
theorem newHandoverProofBinding_inMicroseconds {lib : Platform} {enc : Encoding}
    {att : AttestationLibrary} {proofID : UUID} {event event' : TransferredEvent}
    {entry : Audit.Entry} {manifest : Manifest} {certificate : VerificationCertificate}
    {binding : HandoverProofBinding} (hsame : event.inMicroseconds = event'.inMicroseconds)
    (hzero : ¬ event'.transferredAt.IsZero)
    (hissued : event'.transferredAt.instant ≤ certificate.issuedAt.instant)
    (h : newHandoverProofBinding lib enc att proofID event entry manifest certificate =
      .ok binding) :
    newHandoverProofBinding lib enc att proofID event' entry manifest certificate =
      .ok binding := by
  obtain ⟨objectID, outgoing, incoming, transferredAt, version⟩ := event
  obtain ⟨objectID', outgoing', incoming', transferredAt', version'⟩ := event'
  simp only [TransferredEvent.inMicroseconds, TransferredEvent.mk.injEq] at hsame
  obtain ⟨rfl, rfl, rfl, htime, rfl⟩ := hsame
  have hmicro : Audit.microScalar transferredAt = Audit.microScalar transferredAt' := by
    unfold Audit.microScalar
    rw [← unixMicro_truncate transferredAt, htime, unixMicro_truncate]
  obtain ⟨root, record, payload, hproof, hrecords, hrecord, hcovers, hpayload, rfl⟩ :=
    newHandoverProofBinding_eq_ok.mp h
  obtain ⟨hroot, hvalid, hkind, hentry, hoccurred⟩ := hrecords
  refine newHandoverProofBinding_eq_ok.mpr ⟨root, record, payload, hproof,
    ⟨?_, hvalid, hkind, hentry, htime ▸ hoccurred⟩, hrecord,
    { hcovers with transferred_issued := hissued }, hpayload, ?_⟩
  · simp only [transferredEventRoot, Fallible.bind_eq_ok, Fallible.pure_eq_ok,
      validateTransferredEvent_eq_ok, TransferredEvent.message, hmicro] at hroot ⊢
    obtain ⟨_, ⟨⟨hversion, hparticipants, -⟩, hnames⟩, hsum⟩ := hroot
    exact ⟨(), ⟨⟨hversion, hparticipants, hzero⟩, hnames⟩, hsum⟩
  · simp only [bindingOf, htime]

open EvidenceBundle in
/-- An accepted proof is accepted with all encoders that write its manifest and its
certificate in the same way. -/
theorem AcceptedProof.reencode {lib : Platform} {enc : Encoding} {att : AttestationLibrary}
    {store : TrustStore} {portable : PortableHandoverProof} {verifiedAt : Time}
    {binding : HandoverProofBinding}
    (h : AcceptedProof lib enc att store portable verifiedAt binding)
    {f : Manifest → Option Bytes} {g : VerificationCertificate → Option Bytes}
    (hmanifest : f portable.bundle.manifest = enc.marshalManifest portable.bundle.manifest)
    (hunrooted : f portable.bundle.manifest.unrooted =
      enc.marshalManifest portable.bundle.manifest.unrooted)
    (hcertificate : g portable.certificate = att.marshalCertificate portable.certificate) :
    AcceptedProof lib { enc with marshalManifest := f } { att with marshalCertificate := g }
      store portable verifiedAt binding := by
  have hroot : calculateRoot lib { enc with marshalManifest := f } portable.bundle.manifest =
      calculateRoot lib enc portable.bundle.manifest := by
    simp only [calculateRoot_eq, hashed, hunrooted]
  have hverify : verify lib { enc with marshalManifest := f } portable.bundle =
      verify lib enc portable.bundle := by
    have hobject : verifyObject lib { enc with marshalManifest := f } = verifyObject lib enc := rfl
    simp only [verify, hroot, hobject]
  have hvalidate : ∀ requireValue, validateSignatureBinding lib
      { enc with marshalManifest := f } portable.bundle portable.bundleSignature requireValue =
      validateSignatureBinding lib enc portable.bundle portable.bundleSignature requireValue := by
    intro requireValue
    simp only [validateSignatureBinding, canonicalManifest, hverify, hmanifest]
  refine ⟨h.moment, { h.signed with
      binding := (hvalidate true).trans h.signed.binding
      attested := ?_ }, { h.timestamped with }, { h.certified with replayed := ?_ }, ?_,
    { h.countersigned with
      outgoing := { h.countersigned.outgoing with }
      incoming := { h.countersigned.incoming with } }⟩
  · obtain ⟨payload, hpayload, hattests⟩ := h.signed.attested
    refine ⟨payload, ?_, hattests⟩
    simp only [signingPayload, hvalidate] at hpayload ⊢
    exact hpayload
  · have hreplayed := h.certified.replayed
    simp only [verifyDecision, policySnapshot, hverify] at hreplayed ⊢
    exact hreplayed
  · have hbinds := h.binds
    simp only [newHandoverProofBinding, newAuditRecord, hroot, canonicalVerificationCertificate,
      hcertificate] at hbinds ⊢
    exact hbinds

namespace Crate

open Pds.Crate
open EvidenceBundle.Crate (manifestJson)

/-- The manifest of the heavy crate without and with its root, and its JSON. -/
def manifests : List (Manifest × Bytes) :=
  [(overweight.manifest, render (manifestJson overweight.manifest)),
    (overweight.bundle.manifest, render (manifestJson overweight.bundle.manifest))]

def certificates : List (VerificationCertificate × Bytes) :=
  [(refused.certificate, certificateText refused.certificate)]

/-- The encoding of the crate, with a text for every manifest that can be written. -/
noncomputable def tabledEncoding : Encoding :=
  { refused.case.encoding with
    marshalManifest := fun manifest =>
      if manifest.generatedAt.Marshals then some (Tabled.encode 255 manifests manifest)
      else none }

/-- The same for certificates. -/
noncomputable def tabledAttestation : AttestationLibrary :=
  { refused.attestation with
    marshalCertificate := fun certificate =>
      if certificate.timestampIssuedAt.Marshals ∧ certificate.issuedAt.Marshals then
        some (Tabled.encode 255 certificates certificate)
      else none }

theorem certificate_start (certificate : VerificationCertificate) :
    (certificateText certificate).head? = some 123 := rfl

theorem head_manifest (manifest : Manifest) :
    (render (manifestJson manifest)).head? = some 123 := rfl

theorem manifests_clear : Tabled.Clear 255 manifests := by
  constructor
  · decide +kernel
  · simp [manifests, head_manifest]

theorem certificates_clear : Tabled.Clear 255 certificates := by
  constructor
  · simp [certificates]
  · simp [certificates, certificate_start]

theorem encodesManifests : EncodesManifests tabledEncoding {.utc} := by
  refine Tabled.encodes manifests_clear ?_ _ fun manifest : Manifest =>
    manifest.generatedAt.Marshals
  intro entry hentry hnil
  have hhead : entry.2.head? = some 123 := by
    simp only [manifests, List.mem_cons, List.not_mem_nil, or_false] at hentry
    rcases hentry with rfl | rfl <;> exact head_manifest _
  rw [hnil] at hhead
  cases hhead

theorem encodesCertificates : EncodesCertificates tabledAttestation {.utc} := by
  refine Tabled.encodes certificates_clear ?_ _ fun certificate : VerificationCertificate =>
    certificate.timestampIssuedAt.Marshals ∧ certificate.issuedAt.Marshals
  intro entry hentry hnil
  have hhead : entry.2.head? = some 123 := by
    simp only [certificates, List.mem_singleton] at hentry
    rw [hentry]
    exact certificate_start _
  rw [hnil] at hhead
  cases hhead

theorem tabled_accepted : verifyPortableHandoverProof refused.library tabledEncoding
    tabledAttestation trustStore refused.portable eleven = .ok refused.verified := by
  obtain ⟨binding, haccepted, hverified⟩ :=
    verifyPortableHandoverProof_eq_ok.mp refused_accepted
  have hroot : overweight.bundle.manifest ≠ overweight.manifest := by
    intro heq
    exact absurd (congrArg (·.bundleRoot) heq) (by decide)
  have htable : manifests.lookup overweight.bundle.manifest =
      some (render (manifestJson overweight.bundle.manifest)) := by
    rw [manifests, List.lookup_cons, beq_false_of_ne hroot]
    exact List.lookup_cons_self
  -- the table has the manifest with its root, the one that is hashed, and the certificate
  refine verifyPortableHandoverProof_eq_ok.mpr ⟨binding, haccepted.reencode ?_ ?_ ?_, hverified⟩
  · exact (if_pos (c := overweight.bundle.manifest.generatedAt.Marshals) (by decide)).trans
      (congrArg some (Tabled.encode_of_lookup htable))
  · exact (if_pos (c := overweight.manifest.generatedAt.Marshals) (by decide)).trans
      (congrArg some (Tabled.encode_of_lookup List.lookup_cons_self))
  · exact (if_pos (c := refused.certificate.timestampIssuedAt.Marshals ∧
      refused.certificate.issuedAt.Marshals) (by decide)).trans
      (congrArg some (Tabled.encode_of_lookup List.lookup_cons_self))

/-- The same proof with a transfer five nanoseconds later. -/
def later : PortableHandoverProof :=
  { refused.portable with
    transfer := { refused.transfer with transferredAt := refused.transferredAt.add 5 } }

theorem later_accepted : verifyPortableHandoverProof refused.library tabledEncoding
    tabledAttestation trustStore later eleven = .ok refused.verified := by
  obtain ⟨binding, haccepted, hverified⟩ :=
    verifyPortableHandoverProof_eq_ok.mp tabled_accepted
  refine verifyPortableHandoverProof_eq_ok.mpr ⟨binding, { haccepted with binds := ?_ }, hverified⟩
  exact newHandoverProofBinding_inMicroseconds (by decide) (by decide) (by decide)
    haccepted.binds

/-- What is hashed for the proofs. -/
noncomputable def refusedMessages : List Bytes :=
  refused.portable.messages tabledEncoding tabledAttestation refused.binding

/-- Their sums are different. -/
theorem refusedMessages_injOn : Set.InjOn refused.library.sha256 { m | m ∈ refusedMessages } := by
  have hnodup : (refusedMessages.map refused.library.sha256).Nodup := by decide +kernel
  exact fun x hx y hy heq => List.inj_on_of_nodup_map hnodup hx hy heq

theorem refused_representable : refused.portable.Representable :=
  ⟨by decide, by decide, by decide, by decide, by decide,
    by decide, by decide⟩

theorem later_representable : later.Representable :=
  { refused_representable with transferredAt := by decide }

end Crate

/-- Two proofs whose transfers are five nanoseconds apart are accepted with the same
outgoing signature, and they agree on everything else. -/
theorem later_handover_bound :
    verifyPortableHandoverProof Crate.refused.library Crate.tabledEncoding
        Crate.tabledAttestation Crate.trustStore Crate.refused.portable Crate.eleven =
        .ok Crate.refused.verified ∧
      verifyPortableHandoverProof Crate.refused.library Crate.tabledEncoding
        Crate.tabledAttestation Crate.trustStore Crate.later Crate.eleven =
        .ok Crate.refused.verified ∧
      Crate.refused.portable ≠ Crate.later ∧
      Crate.refused.portable.transfer.inMicroseconds = Crate.later.transfer.inMicroseconds := by
  refine ⟨Crate.tabled_accepted, Crate.later_accepted, ?_, ?_⟩
  · intro heq
    have htransfer := congrArg (fun portable => portable.transfer.transferredAt) heq
    exact absurd htransfer (by decide)
  · exact (outgoing_signature_binds_handover Crate.encodesManifests Crate.encodesCertificates
      Crate.refusedMessages_injOn Crate.trustStore Crate.trustStore Crate.refused.portable
      Crate.later Crate.eleven Crate.eleven Crate.refused.verified Crate.refused.verified
      Crate.tabled_accepted Crate.later_accepted Crate.refused_representable
      Crate.later_representable (by decide) (by decide) (fun _ hm => hm)
      (fun _ hm => hm) rfl).2.1

end Responsibility
end CargoPds
