import CargoPds.Foundation.Fallible
import CargoPds.Foundation.Platform

/-!
# The audit ledger

Evaluations, estimates, handovers and evidence bundles are recorded in one ledger.
An entry names the record by its root and the entry before it by the root of that
entry, so the ledger is a hash chain.
-/

namespace CargoPds
namespace Audit

open Fallible

inductive Error where
  | kindInvalid
  | sequenceInvalid
  | recordRootMissing
  | occurredAtMissing
  | entryNotCanonical
deriving DecidableEq, Repr

inductive RecordKind where
  | evaluation
  | estimator
  | responsibilityHandover
  | evidenceBundle
  | other (code : UInt8)
deriving DecidableEq, Repr

namespace RecordKind

/-- `IsValid`. -/
def IsValid : RecordKind → Prop
  | other _ => False
  | _ => True

instance (kind : RecordKind) : Decidable kind.IsValid := by
  unfold IsValid
  split <;> infer_instance

/-- The number of a kind. -/
def code : RecordKind → UInt8
  | evaluation => 1
  | estimator => 2
  | responsibilityHandover => 3
  | evidenceBundle => 4
  | other code => code

end RecordKind

structure Entry where
  sequence : Nat
  kind : RecordKind
  previousRoot : Digest
  recordRoot : Digest
  occurredAt : Time
  root : Digest
deriving DecidableEq, Repr

/-- The big-endian form of a `uint64`. -/
def scalar (value : Nat) : Bytes := bigEndian 8 value

/-- The big-endian form of `uint64(t.UnixMicro())`. -/
def microScalar (t : Time) : Bytes := scalar (t.unixMicro % 2 ^ 64).toNat

def chainDomain : String := "cargoos:audit-chain:v1"

variable (lib : Platform)

def calculateRoot (sequence : Nat) (kind : RecordKind) (previousRoot recordRoot : Digest)
    (occurredAt : Time) : Digest :=
  lib.sha256 (utf8 chainDomain ++ [kind.code] ++ scalar sequence ++ previousRoot.bytes ++
    recordRoot.bytes ++ microScalar occurredAt)

/-- The entry that `NewEntry` builds. -/
def entryOf (sequence : Nat) (kind : RecordKind) (previousRoot recordRoot : Digest)
    (occurredAt : Time) : Entry :=
  let occurredAt := occurredAt.toUTC.truncate
  ⟨sequence, kind, previousRoot, recordRoot, occurredAt,
    calculateRoot lib sequence kind previousRoot recordRoot occurredAt⟩

/-- `NewEntry`. -/
def newEntry (sequence : Nat) (kind : RecordKind) (previousRoot recordRoot : Digest)
    (occurredAt : Time) : Except Error Entry := do
  rejectIf (¬ kind.IsValid) .kindInvalid
  rejectIf (sequence = 0 ∨ ¬ (sequence = 1 ↔ previousRoot = Digest.zero)) .sequenceInvalid
  rejectIf (recordRoot = Digest.zero) .recordRootMissing
  rejectIf occurredAt.IsZero .occurredAtMissing
  return entryOf lib sequence kind previousRoot recordRoot occurredAt

theorem newEntry_eq_ok {sequence : Nat} {kind : RecordKind} {previousRoot recordRoot : Digest}
    {occurredAt : Time} {entry : Entry} :
    newEntry lib sequence kind previousRoot recordRoot occurredAt = .ok entry ↔
      kind.IsValid ∧ sequence ≠ 0 ∧ (sequence = 1 ↔ previousRoot = Digest.zero) ∧
        recordRoot ≠ Digest.zero ∧ ¬ occurredAt.IsZero ∧
        entryOf lib sequence kind previousRoot recordRoot occurredAt = entry := by
  simp only [newEntry, bind_eq_ok, rejectIf_eq_ok, exists_const, pure_eq_ok, not_or, not_not,
    and_assoc, ne_eq]

/-- `Validate`: the entry is the one that `NewEntry` builds from its fields. -/
def Entry.validate (entry : Entry) : Except Error Unit := do
  let normalized ← newEntry lib entry.sequence entry.kind entry.previousRoot entry.recordRoot
    entry.occurredAt
  rejectIf (normalized ≠ entry) .entryNotCanonical

theorem Entry.validate_eq_ok {entry : Entry} {u : Unit} :
    entry.validate lib = .ok u ↔
      newEntry lib entry.sequence entry.kind entry.previousRoot entry.recordRoot
        entry.occurredAt = .ok entry := by
  simp only [Entry.validate, bind_eq_ok, rejectIf_eq_ok, ne_eq, not_not]
  constructor
  · rintro ⟨_, hnew, rfl⟩
    exact hnew
  · intro hnew
    exact ⟨entry, hnew, rfl⟩

/-! ## The table `audit_ledger` -/

/-- The head is the last row; behind sequence `math.MaxInt64` nothing is appended. -/
def nextAuditEntryLocked (ledger : List Entry) (kind : RecordKind) (recordRoot : Digest)
    (occurredAt : Time) : Except Error Entry :=
  match ledger.getLast? with
  | none => newEntry lib 1 kind Digest.zero recordRoot occurredAt
  | some head => do
      rejectIf (2 ^ 63 - 1 ≤ head.sequence) .sequenceInvalid
      newEntry lib (head.sequence + 1) kind head.root recordRoot occurredAt

/-- The entry has the sequence number and the previous root that the ledger asks for. -/
def Extends (ledger : List Entry) (entry : Entry) : Prop :=
  match ledger.getLast? with
  | none => entry.sequence = 1 ∧ entry.previousRoot = Digest.zero
  | some head => entry.sequence = head.sequence + 1 ∧ entry.previousRoot = head.root

instance (ledger : List Entry) (entry : Entry) : Decidable (Extends ledger entry) := by
  unfold Extends
  split <;> infer_instance

section
variable {ε : Type} (database : ε)

/-- A statement of a transaction, which may fail on its own account. -/
def statement (faults : Nat → Bool) (index : Nat) : Except ε Unit :=
  rejectIf (faults index = true) database

@[simp] theorem statement_eq_ok {faults : Nat → Bool} {index : Nat} {u : Unit} :
    statement database faults index = .ok u ↔ faults index = false := by
  simp [statement]

/-- `insertAuditEntry`: the column types, the trigger `audit_ledger_append_guard` and the
constraints of `audit_ledger`. -/
def insertAuditEntry (ledger : List Entry) (entry : Entry) : Except ε (List Entry) := do
  rejectIf (2 ^ 63 ≤ entry.sequence) database
  rejectIf (¬ Extends ledger entry) database
  rejectIf (¬ (1 ≤ entry.kind.code ∧ entry.kind.code ≤ 4)) database
  rejectIf (¬ ((entry.sequence = 1 ∧ entry.previousRoot = Digest.zero) ∨
    (1 < entry.sequence ∧ entry.previousRoot ≠ Digest.zero))) database
  rejectIf (entry.sequence ∈ ledger.map (·.sequence) ∨ entry.root ∈ ledger.map (·.root))
    database
  return ledger ++ [{ entry with occurredAt := entry.occurredAt.toUTC.truncate }]

end

end Audit
end CargoPds
