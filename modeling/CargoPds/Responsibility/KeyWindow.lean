import CargoPds.Policy.Lifecycle
import CargoPds.Policy.Signature
import CargoPds.Responsibility.Portable

/-!
# One window for all keys

Four verifiers check the lifetime of a key, each with its own comparisons.  With every
other check passed, they accept in the same window: the signing time is not before the
start of the key, the verification is not before the signing, and neither time has
reached the end of the key or its revocation.

* A zero `ValidFrom` is no start at all, also for a signing time before the year 1.
* The order of the two times is checked for the signatures of a handover by the caller.
* `Verify` of a policy does not check it, so it is assumed there.

That every other check passes is said without listing the checks: the verifier accepts
at some time when the keys of the store have no start and no end.
-/

namespace CargoPds
namespace Policy

open Fallible

/-- The key without a start and without an end. -/
def VerificationKey.unlimited (key : VerificationKey) : VerificationKey :=
  { key with validFrom := Time.zero, validUntil := none, revokedAt := none }

/-- The store whose keys have no start and no end. -/
def TrustStore.unlimited (store : TrustStore) : TrustStore :=
  fun signerID keyID => (store signerID keyID).map VerificationKey.unlimited

theorem VerificationKey.unlimited_usableAt (key : VerificationKey) (t : Time)
    (times : List Time) : key.unlimited.UsableAt t times where
  begun := .inl rfl
  unexpired := fun _ _ ⟨_, hlimit, _⟩ => absurd hlimit (by simp [unlimited])
  unrevoked := fun _ _ ⟨_, hlimit, _⟩ => absurd hlimit (by simp [unlimited])

theorem trustedKey_unlimited {store : TrustStore} {signerID keyID : String}
    {key : VerificationKey} :
    trustedKey store.unlimited signerID keyID = .ok key ↔
      ∃ limited, trustedKey store signerID keyID = .ok limited ∧ key = limited.unlimited := by
  rw [trustedKey_eq_ok]
  unfold TrustStore.unlimited
  rw [map_eq_ok]
  constructor
  · rintro ⟨⟨limited, hstore, rfl⟩, hsigner, hkey⟩
    exact ⟨limited, trustedKey_eq_ok.mpr ⟨hstore, hsigner, hkey⟩, rfl⟩
  · rintro ⟨limited, hlimited, rfl⟩
    obtain ⟨hstore, hsigner, hkey⟩ := trustedKey_eq_ok.mp hlimited
    exact ⟨⟨limited, hstore, rfl⟩, hsigner, hkey⟩

section
variable {crypto : Cryptography} {store : TrustStore} {signerID keyID value : String}
  {message : Digest} {key : VerificationKey}

theorem attests_unlimited_of_attests {usedAt : Time} {times : List Time}
    (h : Attests crypto store signerID keyID value message usedAt times) (t : Time)
    (others : List Time) :
    Attests crypto store.unlimited signerID keyID value message t others := by
  obtain ⟨key, hkey, halgorithm, -, haccepts⟩ := h
  exact ⟨key.unlimited, trustedKey_unlimited.mpr ⟨key, hkey, rfl⟩, halgorithm,
    key.unlimited_usableAt t others, haccepts⟩

/-- If the key of an unlimited store attests at some time, then the key of the store
attests in its window. -/
theorem attests_iff_usableAt (hkey : store signerID keyID = .ok key) {t : Time}
    {others : List Time}
    (hother : Attests crypto store.unlimited signerID keyID value message t others)
    {usedAt : Time} {times : List Time} :
    Attests crypto store signerID keyID value message usedAt times ↔
      key.UsableAt usedAt times := by
  obtain ⟨_, hunlimited, halgorithm, -, haccepts⟩ := hother
  obtain ⟨limited, hlimited, rfl⟩ := trustedKey_unlimited.mp hunlimited
  obtain rfl : limited = key :=
    Except.ok.inj ((trustedKey_eq_ok.mp hlimited).1.symm.trans hkey)
  constructor
  · rintro ⟨other, htrusted, -, husable, -⟩
    rw [Except.ok.inj (hlimited.symm.trans htrusted)]
    exact husable
  · intro husable
    exact ⟨limited, hlimited, halgorithm, husable, haccepts⟩

end

/-- What a store accepts is accepted without the limits of its keys. -/
theorem Verified.unlimited {lib : Platform} {signing : SigningLibrary} {store : TrustStore}
    {version : Version lib} {signature : Signature} {verifiedAt : Time}
    (h : Verified signing store version signature verifiedAt) :
    Verified signing store.unlimited version signature verifiedAt := by
  obtain ⟨key, hkey, halgorithm, -, haccepts⟩ := h.attested
  exact { h with attested := ⟨key.unlimited, trustedKey_unlimited.mpr ⟨key, hkey, rfl⟩,
    halgorithm, key.unlimited_usableAt _ _, haccepts⟩ }

/-- `Verify` of a policy accepts in the window, if the signing precedes the
verification. -/
theorem verify_iff_window {lib : Platform} {signing : SigningLibrary} {store : TrustStore}
    {key : VerificationKey} {version : Version lib} {signature : Signature}
    {verifiedAt : Time} (hmoment : ¬ verifiedAt.IsZero)
    (hkey : store signature.normalized.signerID signature.normalized.keyID = .ok key)
    (hother : ∃ t verified, verify signing store.unlimited version signature t = .ok verified)
    (hordered : signature.signedAt.instant ≤ verifiedAt.instant) :
    (∃ verified, verify signing store version signature verifiedAt = .ok verified) ↔
      key.Window signature.signedAt verifiedAt := by
  obtain ⟨t, verified, hother⟩ := hother
  obtain ⟨⟨hcomplete, -, _, hunlimited, halgorithm, -, haccepts⟩, -, -⟩ := verify_eq_ok.mp hother
  obtain ⟨limited, hlimited, rfl⟩ := trustedKey_unlimited.mp hunlimited
  obtain rfl : limited = key :=
    Except.ok.inj ((trustedKey_eq_ok.mp hlimited).1.symm.trans hkey)
  rw [← VerificationKey.window_toUTC, VerificationKey.window_iff]
  constructor
  · rintro ⟨result, hresult⟩
    obtain ⟨⟨-, -, other, htrusted, -, husable, -⟩, -, -⟩ := verify_eq_ok.mp hresult
    rw [Except.ok.inj (hlimited.symm.trans htrusted)]
    exact ⟨hordered, husable⟩
  · rintro ⟨-, husable⟩
    refine ⟨⟨version, signature.normalized, hcomplete⟩, verify_eq_ok.mpr ⟨?_, rfl, rfl⟩⟩
    exact ⟨hcomplete, hmoment, limited, hlimited, halgorithm, husable, haccepts⟩

end Policy

namespace EvidenceBundle

open Policy (TrustStore VerificationKey)

variable {lib : Platform} {enc : Encoding} {att : AttestationLibrary} {store : TrustStore}
  {key : VerificationKey} {verifiedAt : Time}

theorem Signed.unlimited {bundle : Bundle} {signature : Signature}
    (h : Signed lib enc att store bundle signature verifiedAt) :
    Signed lib enc att store.unlimited bundle signature verifiedAt := by
  obtain ⟨payload, hpayload, hattests⟩ := h.attested
  exact { h with attested :=
    ⟨payload, hpayload, Policy.attests_unlimited_of_attests hattests _ _⟩ }

theorem Certified.unlimited {timestamped : TimestampedBundle}
    {certificate : VerificationCertificate}
    (h : Certified lib enc att store timestamped certificate verifiedAt) :
    Certified lib enc att store.unlimited timestamped certificate verifiedAt := by
  obtain ⟨payload, hpayload, hattests⟩ := h.attested
  exact { h with attested :=
    ⟨payload, hpayload, Policy.attests_unlimited_of_attests hattests _ _⟩ }

theorem verifySignature_iff_window {bundle : Bundle} {signature : Signature}
    (hmoment : ¬ verifiedAt.IsZero) (hkey : store signature.signerID signature.keyID = .ok key)
    (hother : ∃ t verified,
      verifySignature lib enc att store.unlimited bundle signature t = .ok verified) :
    (∃ verified, verifySignature lib enc att store bundle signature verifiedAt = .ok verified) ↔
      key.Window signature.signingTime verifiedAt := by
  obtain ⟨t, verified, hother⟩ := hother
  obtain ⟨⟨-, -, hbinding, payload, hpayload, hattests⟩, -⟩ := verifySignature_eq_ok.mp hother
  rw [VerificationKey.window_iff, ← Policy.attests_iff_usableAt hkey hattests]
  constructor
  · rintro ⟨result, hresult⟩
    obtain ⟨⟨-, hordered, -, other, hsame, hattests⟩, -⟩ := verifySignature_eq_ok.mp hresult
    rw [Except.ok.inj (hpayload.symm.trans hsame)]
    exact ⟨hordered, hattests⟩
  · rintro ⟨hordered, hattests⟩
    exact ⟨_, verifySignature_eq_ok.mpr
      ⟨⟨hmoment, hordered, hbinding, payload, hpayload, hattests⟩, rfl⟩⟩

theorem verifyVerificationCertificate_iff_window {timestamped : TimestampedBundle}
    {certificate : VerificationCertificate} (hmoment : ¬ verifiedAt.IsZero)
    (hkey : store certificate.verifierID certificate.keyID = .ok key)
    (hother : ∃ t result, verifyVerificationCertificate lib enc att store.unlimited timestamped
      certificate t = .ok result) :
    (∃ result, verifyVerificationCertificate lib enc att store timestamped certificate
        verifiedAt = .ok result) ↔
      key.Window certificate.issuedAt verifiedAt := by
  obtain ⟨t, _, hother⟩ := hother
  obtain ⟨hcertified, -⟩ := verifyVerificationCertificate_eq_ok.mp hother
  obtain ⟨payload, hpayload, hattests⟩ := hcertified.attested
  rw [VerificationKey.window_iff, ← Policy.attests_iff_usableAt hkey hattests]
  constructor
  · rintro ⟨result, hresult⟩
    obtain ⟨haccepted, -⟩ := verifyVerificationCertificate_eq_ok.mp hresult
    obtain ⟨other, hsame, hattests⟩ := haccepted.attested
    rw [Except.ok.inj (hpayload.symm.trans hsame)]
    exact ⟨haccepted.issued_verified, hattests⟩
  · rintro ⟨hordered, hattests⟩
    exact ⟨_, verifyVerificationCertificate_eq_ok.mpr ⟨{ hcertified with
      moment := hmoment
      issued_verified := hordered
      attested := ⟨payload, hpayload, hattests⟩ }, rfl⟩⟩

end EvidenceBundle

namespace Responsibility

open EvidenceBundle (AttestationLibrary Encoding)
open Policy (TrustStore VerificationKey)

variable {binding : HandoverProofBinding}

section
variable {lib : Platform} {att : AttestationLibrary} {store : TrustStore}
  {key : VerificationKey} {verifiedAt : Time}

theorem SignedBy.unlimited {role : HandoverSignerRole} {signature : HandoverProofSignature}
    (h : SignedBy lib att store binding role signature verifiedAt) :
    SignedBy lib att store.unlimited binding role signature verifiedAt := by
  obtain ⟨payload, hpayload, hattests⟩ := h.attested
  exact { h with attested :=
    ⟨payload, hpayload, Policy.attests_unlimited_of_attests hattests _ _⟩ }

theorem Countersigned.unlimited {outgoing incoming : HandoverProofSignature}
    (h : Countersigned lib att store binding outgoing incoming verifiedAt) :
    Countersigned lib att store.unlimited binding outgoing incoming verifiedAt :=
  { h with outgoing := h.outgoing.unlimited, incoming := h.incoming.unlimited }

/-- One signature of a handover; its caller has checked the order of the times. -/
theorem verifyHandoverProofSignature_iff_window (verifiedAt : Time) {role : HandoverSignerRole}
    {signature : HandoverProofSignature} (hkey : store signature.signerID signature.keyID = .ok key)
    (hother : ∃ t, verifyHandoverProofSignature lib att store.unlimited binding role signature t =
      .ok ()) (hordered : signature.signedAt.instant ≤ verifiedAt.instant) :
    verifyHandoverProofSignature lib att store binding role signature verifiedAt.toUTC = .ok () ↔
      key.Window signature.signedAt verifiedAt := by
  obtain ⟨t, hother⟩ := hother
  have hsigned := verifyHandoverProofSignature_eq_ok.mp hother
  obtain ⟨payload, hpayload, hattests⟩ := hsigned.attested
  rw [VerificationKey.window_iff, ← Policy.attests_iff_usableAt hkey hattests,
    verifyHandoverProofSignature_eq_ok]
  constructor
  · intro haccepted
    obtain ⟨other, hsame, hattests⟩ := haccepted.attested
    rw [Except.ok.inj (hpayload.symm.trans hsame)]
    exact ⟨hordered, hattests⟩
  · rintro ⟨-, hattests⟩
    exact { hsigned with attested := ⟨payload, hpayload, hattests⟩ }

theorem verifyHandoverProofSignatures_iff_window {outgoing incoming : HandoverProofSignature}
    {incomingKey : VerificationKey} (hmoment : ¬ verifiedAt.IsZero)
    (hkey : store outgoing.signerID outgoing.keyID = .ok key)
    (hincoming : store incoming.signerID incoming.keyID = .ok incomingKey)
    (hother : ∃ t signed, verifyHandoverProofSignatures lib att store.unlimited binding outgoing
      incoming t = .ok signed) :
    (∃ signed, verifyHandoverProofSignatures lib att store binding outgoing incoming
        verifiedAt = .ok signed) ↔
      key.Window outgoing.signedAt verifiedAt ∧
        incomingKey.Window incoming.signedAt verifiedAt := by
  obtain ⟨t, _, hother⟩ := hother
  obtain ⟨hcountersigned, -⟩ := verifyHandoverProofSignatures_eq_ok.mp hother
  have hout := fun hordered => verifyHandoverProofSignature_iff_window verifiedAt
    hkey ⟨_, verifyHandoverProofSignature_eq_ok.mpr hcountersigned.outgoing⟩ hordered
  have hin := fun hordered => verifyHandoverProofSignature_iff_window verifiedAt
    hincoming ⟨_, verifyHandoverProofSignature_eq_ok.mpr hcountersigned.incoming⟩ hordered
  simp only [verifyHandoverProofSignature_eq_ok] at hout hin
  constructor
  · rintro ⟨signed, hsigned⟩
    obtain ⟨haccepted, -⟩ := verifyHandoverProofSignatures_eq_ok.mp hsigned
    exact ⟨(hout haccepted.outgoing_verified).mp haccepted.outgoing,
      (hin haccepted.incoming_verified).mp haccepted.incoming⟩
  · rintro ⟨houtgoing, hincoming⟩
    exact ⟨_, verifyHandoverProofSignatures_eq_ok.mpr ⟨⟨hcountersigned.valid, hmoment,
      houtgoing.ordered, hincoming.ordered, (hout houtgoing.ordered).mpr houtgoing,
      (hin hincoming.ordered).mpr hincoming⟩, rfl⟩⟩

end

/-- **All verifiers share one window.**  With every other check passed, each of them
accepts if and only if the times lie in the window of the key.  For a policy the signing
time is assumed not to be after the verification; for one signature of a handover the
caller has checked it. -/
theorem verifiers_share_window (store : TrustStore) (key : VerificationKey) (verifiedAt : Time)
    (hmoment : ¬ verifiedAt.IsZero) :
    (∀ (lib : Platform) (signing : Policy.SigningLibrary) (version : Policy.Version lib)
      (signature : Policy.Signature),
      store signature.normalized.signerID signature.normalized.keyID = .ok key →
      (∃ t verified,
        Policy.verify signing store.unlimited version signature t = .ok verified) →
      signature.signedAt.instant ≤ verifiedAt.instant →
      ((∃ verified, Policy.verify signing store version signature verifiedAt = .ok verified) ↔
        key.Window signature.signedAt verifiedAt)) ∧
    (∀ (lib : Platform) (enc : Encoding) (att : AttestationLibrary)
      (bundle : EvidenceBundle.Bundle) (signature : EvidenceBundle.Signature),
      store signature.signerID signature.keyID = .ok key →
      (∃ t verified, EvidenceBundle.verifySignature lib enc att store.unlimited bundle signature
        t = .ok verified) →
      ((∃ verified, EvidenceBundle.verifySignature lib enc att store bundle signature
          verifiedAt = .ok verified) ↔
        key.Window signature.signingTime verifiedAt)) ∧
    (∀ (lib : Platform) (enc : Encoding) (att : AttestationLibrary)
      (timestamped : EvidenceBundle.TimestampedBundle)
      (certificate : EvidenceBundle.VerificationCertificate),
      store certificate.verifierID certificate.keyID = .ok key →
      (∃ t result, EvidenceBundle.verifyVerificationCertificate lib enc att store.unlimited
        timestamped certificate t = .ok result) →
      ((∃ result, EvidenceBundle.verifyVerificationCertificate lib enc att store timestamped
          certificate verifiedAt = .ok result) ↔
        key.Window certificate.issuedAt verifiedAt)) ∧
    (∀ (lib : Platform) (att : AttestationLibrary) (binding : HandoverProofBinding)
      (role : HandoverSignerRole) (signature : HandoverProofSignature),
      store signature.signerID signature.keyID = .ok key →
      (∃ t, verifyHandoverProofSignature lib att store.unlimited binding role signature t =
        .ok ()) →
      signature.signedAt.instant ≤ verifiedAt.instant →
      (verifyHandoverProofSignature lib att store binding role signature verifiedAt.toUTC =
          .ok () ↔
        key.Window signature.signedAt verifiedAt)) ∧
    ∀ (lib : Platform) (att : AttestationLibrary) (binding : HandoverProofBinding)
      (outgoing incoming : HandoverProofSignature) (incomingKey : VerificationKey),
      store outgoing.signerID outgoing.keyID = .ok key →
      store incoming.signerID incoming.keyID = .ok incomingKey →
      (∃ t signed, verifyHandoverProofSignatures lib att store.unlimited binding outgoing
        incoming t = .ok signed) →
      ((∃ signed, verifyHandoverProofSignatures lib att store binding outgoing incoming
          verifiedAt = .ok signed) ↔
        key.Window outgoing.signedAt verifiedAt ∧
          incomingKey.Window incoming.signedAt verifiedAt) := by
  refine ⟨?_, ?_, ?_, ?_, ?_⟩
  · intro lib signing version signature hkey hother hordered
    exact Policy.verify_iff_window hmoment hkey hother hordered
  · intro lib enc att bundle signature hkey hother
    exact EvidenceBundle.verifySignature_iff_window hmoment hkey hother
  · intro lib enc att timestamped certificate hkey hother
    exact EvidenceBundle.verifyVerificationCertificate_iff_window hmoment hkey hother
  · intro lib att binding role signature hkey hother hordered
    exact verifyHandoverProofSignature_iff_window verifiedAt hkey hother hordered
  · intro lib att binding outgoing incoming incomingKey hkey hincoming hother
    exact verifyHandoverProofSignatures_iff_window hmoment hkey hincoming hother

/-! ## The key of the policy office

The sums and the signatures are those of SHA-256 and Ed25519. -/

namespace Office

/-- The first of June of the year 0. -/
def yearZero : Time := ⟨-18489600000000000, .utc⟩

/-- A signing time, its text and the value of the signature. -/
structure Stamp where
  time : Time
  text : String
  value : Crate.Value

def atEight : Stamp where
  time := Policy.Mode.eight
  text := "2026-03-01T08:00:00Z"
  value := {
    text :=
      "GU8mMJmEWoaYvQasYtLjrc8ceEvM0K6Vb1xPO2646Z9VgP39ORyBO9Nc7QTdws2i4uTOx9Gsu57uYucmkXMACA=="
    message := 0x21700b154d99f8574e426dc15805385c2652b51821a446fb803c044ae7ff9bfe
    high := 0x194f263099845a8698bd06ac62d2e3adcf1c784bccd0ae956f5c4f3b6eb8e99f
    low := 0x5580fdfd391c813bd35ced04ddc2cda2e2e4cec7d1acbb9eee62e72691730008 }

def atNoon : Stamp where
  time := Policy.Shift.noon
  text := "2026-03-01T12:00:00Z"
  value := {
    text :=
      "/1PGsH6SZ8V9TczwhTA09VMga2KL1rBJ6VPSCQCG9lcPrzU3k1Kv4e5IvSIYe+8fSOuIyScc8jXDXX3why5XBQ=="
    message := 0xaec34a189e5cfa524a95f24bbb22e0429a5fb205fe0526284a54a213421cf2b6
    high := 0xff53c6b07e9267c57d4dccf0853034f553206b628bd6b049e953d2090086f657
    low := 0x0faf35379352afe1ee48bd22187bef1f48eb88c9271cf235c35d7df0872e5705 }

def inYearZero : Stamp where
  time := yearZero
  text := "0000-06-01T00:00:00Z"
  value := {
    text :=
      "Vp27uT7+BL3lPRAlhk9MNXHjYra2TYJPY8pyrlvw9r7htxhQ35V3G6s7tvgxhlqy7i2oIcsQZsNSQ++ilEReAA=="
    message := 0x8870cd2f3b0af6f71c226f2522b1e50adf7d14729f7b15c3739d1df138b95f91
    high := 0x569dbbb93efe04bde53d1025864f4c3571e362b6b64d824f63ca72ae5bf0f6be
    low := 0xe1b71850df95771bab3bb6f831865ab2ee2da821cb1066c35243efa294445e00 }

def stamps : List Stamp := [atEight, atNoon, inYearZero]

def hash : String := "sha256:1a24d06a7776c13d09807c7afeb22397bbfa8aa8ebc7ddbf3bcdce0e14a1c72c"

/-- The envelope that is signed, and its JSON. -/
def Stamp.envelope (stamp : Stamp) : Policy.SigningEnvelope :=
  ⟨Policy.policySignatureDomain, hash, "policy-office", "key-1", "ED25519", stamp.time⟩

def Stamp.payload (stamp : Stamp) : Bytes :=
  utf8 "\x7b\"domain\":\"cargoos:policy-signature:v1\",\"policy_hash\":\"" ++ utf8 hash ++
  utf8 "\",\"signer_id\":\"policy-office\",\"key_id\":\"key-1\",\"algorithm\":\"ED25519\"," ++
  utf8 "\"signed_at\":\"" ++ utf8 stamp.text ++ utf8 "\"\x7d"

def platform : Platform :=
  { Policy.Shift.platform with
    sha256 := fun payload =>
      ((stamps.map fun stamp => (stamp.payload, stamp.value.message)).lookup payload).getD
        (Policy.Shift.platform.sha256 payload) }

def signing : Policy.SigningLibrary where
  decodeBase64 text := (stamps.find? fun stamp => stamp.value.text = text).map (·.value.bytes)
  verifyEd25519 key message signature := decide (key = Crate.publicKey ∧
    ∃ stamp ∈ stamps, stamp.value.message.bytes = message ∧ stamp.value.bytes = signature)
  marshalSigningEnvelope envelope :=
    (stamps.find? fun stamp => stamp.envelope = envelope).map (·.payload)

def key (validFrom : Time) : VerificationKey :=
  ⟨"policy-office", "key-1", Policy.algorithmEd25519, Crate.publicKey, validFrom, none, none⟩

def store (validFrom : Time) : TrustStore := fun signerID keyID =>
  if signerID = "policy-office" ∧ keyID = "key-1" then .ok (key validFrom)
  else .error .verificationKeyAbsent

def Stamp.signature (stamp : Stamp) : Policy.Signature :=
  ⟨"policy-office", "key-1", Policy.algorithmEd25519, stamp.time, stamp.value.text⟩

/-- The morning version on this platform. -/
theorem morning : ∃ version : Policy.Version platform,
    Policy.newVersion platform Policy.Shift.morningInput = .ok version ∧
      version.snapshot.hash = hash := by
  have hmade : (Policy.newVersion platform Policy.Shift.morningInput).map (·.snapshot.hash) =
      .ok hash := by decide +kernel
  exact Fallible.map_eq_ok.mp hmade

/-- The signatures verify, whatever the two times are, while the key has begun. -/
theorem verified {version : Policy.Version platform} (hhash : version.snapshot.hash = hash)
    (stamp : Stamp) (hstamp : stamp ∈ stamps) (validFrom verifiedAt : Time)
    (hmoment : ¬ verifiedAt.IsZero)
    (hbegun : validFrom.IsZero ∨ ¬ stamp.time.Before validFrom.toUTC) :
    ∃ result, Policy.verify signing (store validFrom) version stamp.signature verifiedAt =
      .ok result := by
  have hnormal : ∀ stamp ∈ stamps, stamp.signature.normalized = stamp.signature ∧
      stamp.signature.signedAt.toUTC = stamp.time := by decide
  have hvalue : ∀ stamp ∈ stamps, stamp.value.text ≠ "" ∧ ¬ stamp.time.IsZero ∧
      ∃ signature ∈ signing.decodeBase64 stamp.value.text, signature.length = 64 ∧
        signing.verifyEd25519 Crate.publicKey stamp.value.message.bytes signature = true := by
    decide
  have hpayload : ∀ stamp ∈ stamps, (signing.marshalSigningEnvelope
      ⟨Policy.policySignatureDomain, hash, Text.trimSpace stamp.signature.signerID,
        Text.trimSpace stamp.signature.keyID, Text.trimSpace stamp.signature.algorithm,
        stamp.signature.signedAt.toUTC⟩).map (fun payload => (platform.sha256 payload).bytes) =
      some stamp.value.message.bytes := by
    decide +kernel
  obtain ⟨hsame, hutc⟩ := hnormal stamp hstamp
  obtain ⟨hne, hset, signature, hsignature, hlength, haccepts⟩ := hvalue stamp hstamp
  have hcomplete : stamp.signature.normalized.Complete := by
    rw [hsame]
    exact ⟨(by decide : "policy-office" ≠ ""), (by decide : "key-1" ≠ ""),
      (by decide : Policy.algorithmEd25519 ≠ ""), hset, hne⟩
  have hmessage : Policy.signingPayload signing version stamp.signature.normalized =
      some stamp.value.message.bytes := by
    unfold Policy.signingPayload
    rw [hhash, hsame]
    exact hpayload stamp hstamp
  refine ⟨⟨version, _, hcomplete⟩, Policy.verify_eq_ok.mpr ⟨⟨hcomplete, hmoment, key validFrom,
    ?_, ?_, ?_, ?_⟩, rfl, rfl⟩⟩
  · rw [hsame]
    rfl
  · rw [hsame]
    exact ⟨rfl, rfl⟩
  · rw [hutc]
    refine ⟨hbegun, ?_, ?_⟩
    · rintro t - ⟨_, hlimit, -⟩
      cases hlimit
    · rintro t - ⟨_, hlimit, -⟩
      cases hlimit
  · rw [hmessage]
    exact ⟨signature, hsignature, hlength, (by decide : Crate.publicKey.length = 32), haccepts⟩

end Office

/-- `Verify` accepts a policy signature that was made four hours after its verification.
It also accepts one of the year 0 with a key whose start, the zero time, is later. -/
theorem policy_signature_outside_window :
    ∃ version : Policy.Version Office.platform,
      Policy.newVersion Office.platform Policy.Shift.morningInput = .ok version ∧
      (∃ result, Policy.verify Office.signing (Office.store Policy.Mode.eight) version
        Office.atNoon.signature Policy.Mode.eight = .ok result) ∧
      Policy.Mode.eight.Before Office.atNoon.signature.signedAt ∧
      (∃ result, Policy.verify Office.signing (Office.store Time.zero) version
        Office.inYearZero.signature Policy.Mode.eight = .ok result) ∧
      Office.inYearZero.signature.signedAt.Before (Office.key Time.zero).validFrom := by
  obtain ⟨version, hversion, hhash⟩ := Office.morning
  refine ⟨version, hversion, ?_, by decide, ?_, by decide⟩
  · exact Office.verified hhash Office.atNoon (by simp [Office.stamps]) Policy.Mode.eight
      Policy.Mode.eight (by decide) (.inr (by decide))
  · exact Office.verified hhash Office.inYearZero (by simp [Office.stamps]) Time.zero
      Policy.Mode.eight (by decide) (.inl rfl)

/-- The keys of the policy office and of the crate's proof are used in their windows,
since the verifiers accept. -/
theorem accepted_keys_in_window :
    (Office.key Policy.Mode.eight).Window Office.atEight.time Policy.Shift.noon ∧
    (∃ key, Crate.trustStore Crate.refused.bundleSignature.signerID
        Crate.refused.bundleSignature.keyID = .ok key ∧
      key.Window Crate.refused.bundleSignature.signingTime Crate.eleven) ∧
    (∃ key, Crate.trustStore Crate.refused.certificate.verifierID
        Crate.refused.certificate.keyID = .ok key ∧
      key.Window Crate.refused.certificate.issuedAt Crate.eleven) ∧
    ∃ outgoing incoming,
      Crate.trustStore Crate.refused.portable.outgoingSignature.signerID
        Crate.refused.portable.outgoingSignature.keyID = .ok outgoing ∧
      Crate.trustStore Crate.refused.portable.incomingSignature.signerID
        Crate.refused.portable.incomingSignature.keyID = .ok incoming ∧
      outgoing.Window Crate.refused.portable.outgoingSignature.signedAt Crate.eleven ∧
      incoming.Window Crate.refused.portable.incomingSignature.signedAt Crate.eleven := by
  obtain ⟨version, -, hhash⟩ := Office.morning
  obtain ⟨result, hresult⟩ := Office.verified hhash Office.atEight (by simp [Office.stamps])
    Policy.Mode.eight Policy.Shift.noon (by decide) (.inr (by decide))
  obtain ⟨hverified, hsame, hsignature⟩ := Policy.verify_eq_ok.mp hresult
  obtain ⟨binding, haccepted, -⟩ := verifyPortableHandoverProof_eq_ok.mp Crate.refused_accepted
  have hmoment : ¬ Crate.eleven.IsZero := by decide
  refine ⟨?_, ⟨_, rfl, ?_⟩, ⟨_, rfl, ?_⟩, _, _, rfl, rfl, ?_⟩
  · exact ((verifiers_share_window (Office.store Policy.Mode.eight) _ Policy.Shift.noon
      (by decide)).1 _ Office.signing version Office.atEight.signature (by decide)
      ⟨_, result, Policy.verify_eq_ok.mpr ⟨hverified.unlimited, hsame, hsignature⟩⟩
      (by decide)).mp ⟨result, hresult⟩
  · exact ((verifiers_share_window Crate.trustStore _ Crate.eleven hmoment).2.1 _ _ _ _ _ rfl
      ⟨_, _, EvidenceBundle.verifySignature_eq_ok.mpr ⟨haccepted.signed.unlimited, rfl⟩⟩).mp
      ⟨_, EvidenceBundle.verifySignature_eq_ok.mpr ⟨haccepted.signed, rfl⟩⟩
  · exact ((verifiers_share_window Crate.trustStore _ Crate.eleven hmoment).2.2.1 _ _ _ _ _ rfl
      ⟨_, _, EvidenceBundle.verifyVerificationCertificate_eq_ok.mpr
        ⟨haccepted.certified.unlimited, rfl⟩⟩).mp
      ⟨_, EvidenceBundle.verifyVerificationCertificate_eq_ok.mpr ⟨haccepted.certified, rfl⟩⟩
  · have hcountersigned := haccepted.countersigned
    exact ((verifiers_share_window Crate.trustStore _ Crate.eleven hmoment).2.2.2.2 _ _ _ _ _ _
      rfl rfl ⟨_, _, verifyHandoverProofSignatures_eq_ok.mpr
        ⟨hcountersigned.unlimited, rfl⟩⟩).mp
      ⟨_, verifyHandoverProofSignatures_eq_ok.mpr ⟨hcountersigned, rfl⟩⟩

end Responsibility
end CargoPds
