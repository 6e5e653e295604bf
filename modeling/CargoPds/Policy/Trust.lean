import CargoPds.Foundation.Fallible
import CargoPds.Foundation.Identity
import CargoPds.Foundation.Time

/-!
# Keys and the trust store

A signature is checked with a key that a trust store returns for the names of the
signer and of the key.  The verifiers of the code repeat the same checks of the key: it
is the one that was asked for, its algorithm is Ed25519, and the times at which it is
used lie in its lifetime.  They differ in the times that they compare with the end of
the key; each passes its own to `withinLimits`.

A verifier that compares both the signing time and the verification time with the end
accepts in the `Window` of the key (`VerificationKey.window_iff`).

`encoding/base64` and `crypto/ed25519` are parameters, and nothing is assumed of them.
-/

namespace CargoPds
namespace Policy

open Fallible

variable {key : VerificationKey}

inductive KeyError where
  | verificationKeyAbsent
  | unsupportedAlgorithm
  | keyNotYetValid
  | keyExpired
  | keyRevoked
  /-- An error of the trust store itself. -/
  | unresolved
deriving DecidableEq, Repr

structure VerificationKey where
  signerID : String
  keyID : String
  algorithm : String
  publicKey : Bytes
  validFrom : Time
  validUntil : Option Time
  revokedAt : Option Time
deriving DecidableEq, Repr

/-- `ResolveVerificationKey` of a trust store. -/
abbrev TrustStore := (signerID keyID : String) → Except KeyError VerificationKey

structure Cryptography where
  /-- `base64.StdEncoding.DecodeString`. -/
  decodeBase64 : String → Option Bytes
  /-- `ed25519.Verify`. -/
  verifyEd25519 : (publicKey message signature : Bytes) → Bool

/-- `AlgorithmEd25519`. -/
def algorithmEd25519 : String := "ED25519"

/-- `ed25519.PublicKeySize`. -/
def publicKeySize : Nat := 32

/-- `ed25519.SignatureSize`. -/
def signatureSize : Nat := 64

/-- A time is not before the end of a key; a nil end is never reached. -/
def Reached (limit : Option Time) (t : Time) : Prop := ∃ u ∈ limit, ¬ t.Before u.toUTC
deriving Decidable

/-- The key under two names, which it has to repeat. -/
def trustedKey (store : TrustStore) (signerID keyID : String) :
    Except KeyError VerificationKey := do
  let key ← store signerID keyID
  rejectIf (key.signerID ≠ signerID ∨ key.keyID ≠ keyID) .verificationKeyAbsent
  return key

namespace VerificationKey

/-- The key is valid from some time on; a zero time is no restriction. -/
def notBefore (key : VerificationKey) (t : Time) : Except KeyError Unit :=
  rejectIf (¬ key.validFrom.IsZero ∧ t.Before key.validFrom.toUTC) .keyNotYetValid

/-- None of the times has reached the end of the key or its revocation. -/
def withinLimits (key : VerificationKey) (times : List Time) : Except KeyError Unit := do
  rejectIf (∃ t ∈ times, Reached key.validUntil t) .keyExpired
  rejectIf (∃ t ∈ times, Reached key.revokedAt t) .keyRevoked

/-- The value of a signature decodes to one that Ed25519 accepts for the message. -/
def AcceptsBytes (crypto : Cryptography) (key : VerificationKey) (value : String)
    (message : Bytes) : Prop :=
  ∃ signature ∈ crypto.decodeBase64 value,
    signature.length = signatureSize ∧ key.publicKey.length = publicKeySize ∧
      crypto.verifyEd25519 key.publicKey message signature = true
deriving Decidable

/-- The signature is one of a digest. -/
def Accepts (crypto : Cryptography) (key : VerificationKey) (value : String)
    (message : Digest) : Prop :=
  key.AcceptsBytes crypto value message.bytes
deriving Decidable

/-- A key that may be used at some time: it is valid at that time, and none of the
`times` has reached its end. -/
structure UsableAt (key : VerificationKey) (usedAt : Time) (times : List Time) : Prop where
  begun : key.validFrom.IsZero ∨ ¬ usedAt.Before key.validFrom.toUTC
  unexpired : ∀ t ∈ times, ¬ Reached key.validUntil t
  unrevoked : ∀ t ∈ times, ¬ Reached key.revokedAt t

theorem notBefore_eq_ok {t : Time} {u : Unit} :
    key.notBefore t = .ok u ↔ key.validFrom.IsZero ∨ ¬ t.Before key.validFrom.toUTC := by
  rw [notBefore, rejectIf_eq_ok, Classical.not_and_iff_not_or_not, not_not]

theorem withinLimits_eq_ok {times : List Time} {u : Unit} :
    key.withinLimits times = .ok u ↔
      (∀ t ∈ times, ¬ Reached key.validUntil t) ∧ ∀ t ∈ times, ¬ Reached key.revokedAt t := by
  simp only [withinLimits, bind_eq_ok, rejectIf_eq_ok, exists_const, not_exists, not_and]

end VerificationKey

theorem trustedKey_eq_ok {store : TrustStore} {signerID keyID : String} :
    trustedKey store signerID keyID = .ok key ↔
      store signerID keyID = .ok key ∧ key.signerID = signerID ∧ key.keyID = keyID := by
  simp only [trustedKey, bind_eq_ok, rejectIf_eq_ok, pure_eq_ok, exists_const, ne_eq, not_or,
    not_not]
  constructor
  · rintro ⟨_, hstore, hnames, rfl⟩
    exact ⟨hstore, hnames⟩
  · rintro ⟨hstore, hnames⟩
    exact ⟨key, hstore, hnames, rfl⟩

/-! ## The window of a key -/

/-- The window in which a key signs and its signature is verified. -/
structure VerificationKey.Window (key : VerificationKey) (signedAt verifiedAt : Time) :
    Prop where
  begun : key.validFrom.IsZero ∨ key.validFrom.instant ≤ signedAt.instant
  ordered : signedAt.instant ≤ verifiedAt.instant
  unexpired : ∀ limit ∈ key.validUntil, signedAt.Before limit ∧ verifiedAt.Before limit
  unrevoked : ∀ limit ∈ key.revokedAt, signedAt.Before limit ∧ verifiedAt.Before limit

/-- The limits of a key at two times. -/
theorem forall_not_reached_iff {limit : Option Time} {signedAt verifiedAt : Time} :
    (∀ t ∈ [signedAt, verifiedAt.toUTC], ¬ Reached limit t) ↔
      ∀ u ∈ limit, signedAt.Before u ∧ verifiedAt.Before u := by
  unfold Reached
  simp only [List.forall_mem_cons, List.not_mem_nil, false_implies, implies_true, and_true,
    not_exists, not_and, not_not]
  constructor
  · rintro ⟨hsigned, hverified⟩ u hu
    exact ⟨hsigned u hu, hverified u hu⟩
  · intro h
    exact ⟨fun u hu => (h u hu).1, fun u hu => (h u hu).2⟩

theorem VerificationKey.window_iff {signedAt verifiedAt : Time} :
    key.Window signedAt verifiedAt ↔ signedAt.instant ≤ verifiedAt.instant ∧
      key.UsableAt signedAt [signedAt, verifiedAt.toUTC] := by
  have hbegun : (key.validFrom.IsZero ∨ ¬ signedAt.Before key.validFrom.toUTC) ↔
      (key.validFrom.IsZero ∨ key.validFrom.instant ≤ signedAt.instant) :=
    or_congr_right not_lt
  constructor
  · rintro ⟨hstart, hordered, hexpired, hrevoked⟩
    exact ⟨hordered, hbegun.mpr hstart, forall_not_reached_iff.mpr hexpired,
      forall_not_reached_iff.mpr hrevoked⟩
  · rintro ⟨hordered, hstart, hexpired, hrevoked⟩
    exact ⟨hbegun.mp hstart, hordered, forall_not_reached_iff.mp hexpired,
      forall_not_reached_iff.mp hrevoked⟩

/-- Only the instant of the signing matters. -/
theorem VerificationKey.window_toUTC {signedAt verifiedAt : Time} :
    key.Window signedAt.toUTC verifiedAt ↔ key.Window signedAt verifiedAt :=
  ⟨fun h => ⟨h.begun, h.ordered, h.unexpired, h.unrevoked⟩,
    fun h => ⟨h.begun, h.ordered, h.unexpired, h.unrevoked⟩⟩

/-! ## Attestation -/

/-- A trusted Ed25519 key, usable at the given times, accepts the value for the message. -/
def Attests (crypto : Cryptography) (store : TrustStore) (signerID keyID value : String)
    (message : Digest) (usedAt : Time) (times : List Time) : Prop :=
  ∃ key, trustedKey store signerID keyID = .ok key ∧ key.algorithm = algorithmEd25519 ∧
    key.UsableAt usedAt times ∧ key.Accepts crypto value message

end Policy
end CargoPds
