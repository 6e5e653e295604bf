import CargoPds.Foundation.Fallible
import CargoPds.Foundation.Platform
import CargoPds.Foundation.Text

/-!
# Evidence objects

`NewObject` makes an object from what a client submits; `VerifySnapshot` checks
that a stored object is complete, that its payload is canonical JSON and that
the digest belongs to the payload.
-/

namespace CargoPds
namespace Evidence

open Fallible Text

/-- An evidence object is its snapshot. -/
structure Object where
  snapshot : Snapshot
deriving DecidableEq, Repr

def validateSnapshot (snapshot : Snapshot) : Except Error Unit := do
  rejectIf (snapshot.evidenceID = UUID.nil) .evidenceIDRequired
  rejectIf (snapshot.sessionID = UUID.nil) .sessionIDRequired
  rejectIf (trimSpace snapshot.sourceID = "") .sourceIDRequired
  rejectIf (trimSpace snapshot.sourceType = "") .sourceTypeRequired
  rejectIf (¬ MatchesCode 0 63 snapshot.evidenceType) .invalidEvidenceType
  rejectIf snapshot.observedAt.IsZero .observedAtRequired
  rejectIf snapshot.receivedAt.IsZero .receivedAtRequired
  rejectIf (snapshot.receivedAt.Before snapshot.observedAt) .invalidTimestampOrder
  rejectIf (∃ confidence ∈ snapshot.confidence,
    confidence.Lt (.finite 0) ∨ (Float64.finite 1).Lt confidence) .invalidConfidence
  rejectIf (trimSpace snapshot.integrity.schemaVersion = "") .schemaVersionRequired
  rejectIf (trimSpace snapshot.integrity.runtimeVersion = "") .runtimeVersionRequired
  rejectIf (trimSpace snapshot.integrity.acquisitionMethod = "") .acquisitionRequired

variable (lib : Platform)

def canonicalJSON (payload : Bytes) : Except Error Bytes :=
  match lib.canonicalJSON payload with
  | none => .error .invalidPayload
  | some canonical => .ok canonical

def verifySnapshot (snapshot : Snapshot) : Except Error Unit := do
  validateSnapshot snapshot
  let canonical ← canonicalJSON lib snapshot.payload
  rejectIf (canonical ≠ snapshot.payload) .nonCanonicalPayload
  rejectIf (snapshot.integrity.algorithm ≠ "SHA-256" ∨
    snapshot.integrity.payloadDigest ≠ lib.digest snapshot.payload) .integrityMismatch

def rehydrate (snapshot : Snapshot) : Except Error Object := do
  verifySnapshot lib snapshot
  return ⟨snapshot⟩

theorem rehydrate_eq_ok {snapshot : Snapshot} {object : Object} :
    rehydrate lib snapshot = .ok object ↔
      verifySnapshot lib snapshot = .ok () ∧ object = ⟨snapshot⟩ := by
  simp only [rehydrate, bind_eq_ok, pure_eq_ok]
  constructor
  · rintro ⟨_, hverify, rfl⟩
    exact ⟨hverify, rfl⟩
  · rintro ⟨hverify, rfl⟩
    exact ⟨(), hverify, rfl⟩

/-- The snapshot of an input with its canonical payload. -/
def snapshotOf (input : Input) (payload : Bytes) : Snapshot where
  evidenceID := input.evidenceID
  sessionID := input.sessionID
  sourceID := trimSpace input.sourceID
  sourceType := trimSpace input.sourceType
  evidenceType := input.evidenceType
  observedAt := input.observedAt.toUTC
  receivedAt := input.receivedAt.toUTC
  payload := payload
  confidence := input.confidence
  provenance := input.provenance
  integrity := ⟨"SHA-256", lib.digest payload, trimSpace input.schemaVersion,
    trimSpace input.runtimeVersion, trimSpace input.acquisitionMethod⟩

def newObject (input : Input) : Except Error Object := do
  let payload ← canonicalJSON lib input.payload
  let snapshot := snapshotOf lib input payload
  validateSnapshot snapshot
  return ⟨snapshot⟩

/-! ## Order of observation -/

/-- Observations are ordered by time and, at one instant, by the text of their
identifiers. -/
def ObservedLess (left right : Snapshot) : Prop :=
  if left.observedAt.Equal right.observedAt then left.evidenceID.text < right.evidenceID.text
  else left.observedAt.Before right.observedAt
deriving Decidable

end Evidence
end CargoPds
