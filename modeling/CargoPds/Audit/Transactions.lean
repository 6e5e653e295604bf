import CargoPds.Audit.History
import CargoPds.Estimator.Result
import CargoPds.Pds.Durable
import CargoPds.Responsibility.Durable
import CargoPds.Responsibility.Proof

/-!
# The writers of the ledger

Four transactions of the PostgreSQL store append an entry together with the record
that the entry is about, and `AppendAuditEntry` appends an entry that a caller has
made.  They take the lock of the table `audit_ledger` before they read its head, so
the committed state is the one that some order of the transactions produces.

A transaction is written with its statements in the order of the source, and any of
them may fail: `faults` says which.  Whatever fails, the transaction is rolled back.
The insertion into the ledger has the constraints and the trigger of the table.

`ledger_is_one_chain` is the result, for every sequence of attempts.  Its proof looks
at the transactions once: `Step` says what a committed transaction does to the ledger
and to the records that point into it.
-/

namespace CargoPds

namespace Responsibility
/-- The root of an event is that of its row: microseconds are all that is hashed. -/
theorem TransferredEvent.message_of_row (event : TransferredEvent) :
    ((⟨event.fromParticipantID, event.toParticipantID, .ofTime event.transferredAt⟩ :
      EventRow).event event.objectID event.version).message = event.message := by
  have hmicro : event.transferredAt.toUTC.truncate.unixMicro = event.transferredAt.unixMicro := by
    change (event.transferredAt.instant - event.transferredAt.instant % 1000 - Time.unixEpoch) /
      1000 = (event.transferredAt.instant - Time.unixEpoch) / 1000
    unfold Time.unixEpoch
    omega
  unfold TransferredEvent.message Audit.microScalar
  change _ ++ Audit.scalar (event.transferredAt.toUTC.truncate.unixMicro % 2 ^ 64).toNat = _
  rw [hmicro]
  rfl

end Responsibility

namespace Audit

open Fallible
open Evaluation (EvaluationSnapshot OutboxRecord)
open Responsibility (Bigint DurableRepository PhysicalObjectID TransferredEvent)

variable {entry : Entry} {records : List OutboxRecord} {kind : RecordKind} {recordRoot : Digest}
variable {snapshot : Responsibility.Snapshot} {lib : Platform} {occurredAt : Time}
variable {expectedVersion : UInt64}

/-! ## The source -/

inductive StoreError where
  | database
  | entryNotCanonical
  | ledgerConflict
  | auditRecordExists
  | audit (err : Error)
  | pds (err : Pds.Error)
  | responsibility (err : Responsibility.Error)
  | estimator (err : Estimator.Error)
  | bundle (err : EvidenceBundle.AuditRecordError)
deriving DecidableEq, Repr

/-- What the store uses of the standard library. -/
structure Runtime where
  lib : Platform
  codec : Pds.Codec
  /-- `json.Marshal` of an estimator result. -/
  marshalResult : Estimator.Result → Option Bytes
  /-- The test of a covariance in floating-point arithmetic. -/
  positiveSemidefinite : Spatial.Covariance3 → Bool

/-- A row of `estimator_results`. -/
structure EstimateRow where
  objectID : PhysicalObjectID
  sequence : UInt64
  observationID : UUID
  observationDigest : Digest
  profileID : String
  profileVersion : String
  calibrationVersion : String
  observedAt : Time
  completedAt : Time
  result : Bytes
  auditSequence : Nat

/-- A row of `evidence_bundle_audit_records`. -/
structure BundleRow where
  record : EvidenceBundle.AuditRecord
  auditSequence : Nat

/-- The tables that the writers share.  The column `audit_sequence` of
`responsibility_handover_events` stands apart from the other columns. -/
structure Tables where
  pds : Pds.Database
  responsibility : DurableRepository
  handoverAudit : PhysicalObjectID × UInt64 → Option Nat
  estimates : List EstimateRow
  bundles : List BundleRow

namespace Tables

/-- The tables of a fresh database. -/
def empty : Tables := ⟨.empty, .new, fun _ => none, [], []⟩

/-- The rows of `audit_ledger`.  They are kept in the order of insertion, which the
trigger of the table makes the order of their sequence numbers. -/
abbrev ledger (tables : Tables) : List Entry := tables.pds.ledger

end Tables

section
variable (rt : Runtime) (faults : Nat → Bool) (tables : Tables)

def appendAuditEntry (entry : Entry) : Except StoreError Tables := do
  orElseError (entry.validate rt.lib) StoreError.entryNotCanonical
  rejectIf (2 ^ 63 ≤ entry.sequence) .entryNotCanonical
  statement .database faults 0 -- BEGIN
  statement .database faults 1 -- LOCK TABLE
  statement .database faults 2 -- SELECT of the head
  rejectIf (¬ Extends tables.ledger entry) .ledgerConflict
  statement .database faults 3
  let ledger ← insertAuditEntry .database tables.ledger entry
  statement .database faults 4 -- COMMIT
  return { tables with pds := { tables.pds with ledger := ledger } }

def saveEvaluation (snapshot : EvaluationSnapshot) (expectedVersion : Nat)
    (records : List OutboxRecord) : Except StoreError Tables := do
  let stored ← (tables.pds.transaction rt.lib rt.codec faults snapshot expectedVersion
    records).mapError StoreError.pds
  return { tables with pds := stored }

/-- The assignments are written by statements of their own. -/
def saveResponsibility (snapshot : Responsibility.Snapshot) (expectedVersion : UInt64) :
    Except StoreError Tables := do
  statement .database faults 0
  let saved ← (tables.responsibility.saveResponsibility snapshot expectedVersion).mapError
    StoreError.responsibility
  return { tables with responsibility := saved }

def commitTransfer (snapshot : Responsibility.Snapshot) (expectedVersion : UInt64)
    (event : TransferredEvent) : Except StoreError Tables := do
  let normalized ← (Responsibility.validateTransferCommit snapshot expectedVersion event).mapError
    StoreError.responsibility
  let recordRoot ← (Responsibility.transferredEventRoot rt.lib event).mapError
    StoreError.responsibility
  statement .database faults 0 -- BEGIN
  statement .database faults 1
  let version ← (Bigint.encode normalized.version).mapError StoreError.responsibility
  let updated ← (tables.responsibility.updateAssignment normalized version expectedVersion
    event).mapError StoreError.responsibility
  statement .database faults 2 -- LOCK TABLE
  statement .database faults 3 -- SELECT of the head
  let entry ← (nextAuditEntryLocked rt.lib tables.ledger .responsibilityHandover recordRoot
    event.transferredAt).mapError StoreError.audit
  statement .database faults 4
  let ledger ← insertAuditEntry .database tables.ledger entry
  statement .database faults 5
  let inserted ← (updated.insertEvent event).mapError StoreError.responsibility
  statement .database faults 6 -- COMMIT
  return { tables with
    pds := { tables.pds with ledger := ledger }
    responsibility := inserted
    handoverAudit := Function.update tables.handoverAudit (event.objectID, event.version)
      (some entry.sequence) }

/-- The row of a result. -/
def estimateRow (result : Estimator.Result) (payload : Bytes) (auditSequence : Nat) :
    EstimateRow where
  objectID := result.replay.objectID
  sequence := result.replay.sequence
  observationID := result.replay.observationID
  observationDigest := result.replay.observationDigest
  profileID := result.replay.profileID
  profileVersion := result.replay.profileVersion
  calibrationVersion := result.replay.calibrationVersion
  observedAt := result.replay.observedAt.toUTC.truncate
  completedAt := result.replay.completedAt.toUTC.truncate
  result := payload
  auditSequence := auditSequence

def saveEstimatorResult (result : Estimator.Result) : Except StoreError Tables := do
  orElseError (result.validate rt.positiveSemidefinite) (StoreError.estimator .resultInvalid)
  rejectIf (2 ^ 63 ≤ result.replay.sequence.toNat) (.estimator .resultInvalid)
  match rt.marshalResult result with
  | none => .error .database
  | some payload => do
      statement .database faults 0 -- BEGIN
      statement .database faults 1 -- LOCK TABLE
      statement .database faults 2 -- SELECT of the head
      let entry ← (nextAuditEntryLocked rt.lib tables.ledger .estimator (rt.lib.sha256 payload)
        result.replay.completedAt).mapError StoreError.audit
      statement .database faults 3
      let ledger ← insertAuditEntry .database tables.ledger entry
      statement .database faults 4
      -- a conflict on the primary key writes no row, one on the observation is an error
      rejectIf (∃ row ∈ tables.estimates, row.objectID = result.replay.objectID ∧
        row.sequence = result.replay.sequence) (.estimator .resultAlreadyRecorded)
      rejectIf (∃ row ∈ tables.estimates, row.observationID = result.replay.observationID)
        .database
      statement .database faults 5 -- COMMIT
      return { tables with
        pds := { tables.pds with ledger := ledger }
        estimates := tables.estimates ++ [estimateRow result payload entry.sequence] }

def saveEvidenceBundleAudit (record : EvidenceBundle.AuditRecord) :
    Except StoreError Tables := do
  record.validate.mapError StoreError.bundle
  statement .database faults 0 -- BEGIN
  statement .database faults 1 -- LOCK TABLE
  statement .database faults 2 -- SELECT of the head
  let entry ← (nextAuditEntryLocked rt.lib tables.ledger .evidenceBundle record.bundleRoot
    record.generatedAt).mapError StoreError.audit
  statement .database faults 3
  let ledger ← insertAuditEntry .database tables.ledger entry
  statement .database faults 4
  rejectIf (∃ row ∈ tables.bundles, row.record.bundleID = record.bundleID) .auditRecordExists
  rejectIf (∃ row ∈ tables.bundles, row.record.bundleRoot = record.bundleRoot) .database
  statement .database faults 5 -- COMMIT
  return { tables with
    pds := { tables.pds with ledger := ledger }
    bundles := tables.bundles ++ [⟨record, entry.sequence⟩] }

end

inductive Operation where
  | appendAuditEntry (entry : Entry)
  | saveEvaluation (snapshot : EvaluationSnapshot) (expectedVersion : Nat)
      (records : List OutboxRecord)
  | saveResponsibility (snapshot : Responsibility.Snapshot) (expectedVersion : UInt64)
  | commitTransfer (snapshot : Responsibility.Snapshot) (expectedVersion : UInt64)
      (event : TransferredEvent)
  | saveEstimatorResult (result : Estimator.Result)
  | saveEvidenceBundleAudit (record : EvidenceBundle.AuditRecord)

/-- An operation and the statements of it that fail. -/
structure Attempt where
  operation : Operation
  faults : Nat → Bool

/-- The tables that a transaction would commit. -/
def Attempt.transaction (rt : Runtime) (attempt : Attempt) (tables : Tables) :
    Except StoreError Tables :=
  match attempt.operation with
  | .appendAuditEntry entry => appendAuditEntry rt attempt.faults tables entry
  | .saveEvaluation snapshot expectedVersion records =>
      saveEvaluation rt attempt.faults tables snapshot expectedVersion records
  | .saveResponsibility snapshot expectedVersion =>
      saveResponsibility attempt.faults tables snapshot expectedVersion
  | .commitTransfer snapshot expectedVersion event =>
      commitTransfer rt attempt.faults tables snapshot expectedVersion event
  | .saveEstimatorResult result => saveEstimatorResult rt attempt.faults tables result
  | .saveEvidenceBundleAudit record => saveEvidenceBundleAudit rt attempt.faults tables record

/-- A transaction that fails is rolled back. -/
def Attempt.perform (rt : Runtime) (tables : Tables) (attempt : Attempt) : Tables :=
  match attempt.transaction rt tables with
  | .error _ => tables
  | .ok after => after

/-- The committed tables after a sequence of attempts. -/
def Tables.run (rt : Runtime) (tables : Tables) (attempts : List Attempt) : Tables :=
  attempts.foldl (Attempt.perform rt) tables

/-! ## What a committed transaction does -/

/-- A committed record: its kind, its root and its column `audit_sequence`. -/
inductive Tables.Committed (lib : Platform) (tables : Tables) :
    RecordKind → Digest → Option Nat → Prop where
  | evaluation {id : UUID} {row : Pds.EvaluationRow} (h : tables.pds.evaluations id = some row) :
      Committed lib tables .evaluation (lib.sha256 row.snapshot)
        (tables.pds.auditRecords (id, row.version))
  | handover {objectID : PhysicalObjectID} {version : UInt64} {row : Responsibility.EventRow}
      (h : tables.responsibility.events (objectID, version) = some row) :
      Committed lib tables .responsibilityHandover
        (lib.sha256 (row.event objectID version).message) (tables.handoverAudit (objectID, version))
  | estimate {row : EstimateRow} (h : row ∈ tables.estimates) :
      Committed lib tables .estimator (lib.sha256 row.result) (some row.auditSequence)
  | bundle {row : BundleRow} (h : row ∈ tables.bundles) :
      Committed lib tables .evidenceBundle row.record.bundleRoot (some row.auditSequence)

/-- An entry of the ledger has the kind, the root and the sequence number of a record. -/
def Recorded (ledger : List Entry) (kind : RecordKind) (recordRoot : Digest)
    (column : Option Nat) : Prop :=
  ∃ entry ∈ ledger, column = some entry.sequence ∧ entry.kind = kind ∧
    entry.recordRoot = recordRoot

/-- The time is in UTC with whole microseconds, and the root is that of the fields. -/
structure Entry.Sealed (lib : Platform) (entry : Entry) : Prop where
  time : entry.occurredAt.toUTC.truncate = entry.occurredAt
  root : entry.root = calculateRoot lib entry.sequence entry.kind entry.previousRoot
    entry.recordRoot entry.occurredAt

/-- What a committed transaction does: the ledger stays or is continued by one entry, a
record that was not there before has its entry, and the tables of the responsibilities stay
or take one operation of their repository. -/
structure Step (lib : Platform) (before after : Tables) : Prop where
  ledger : after.ledger = before.ledger ∨ ∃ entry, after.ledger = before.ledger ++ [entry] ∧
    Extends before.ledger entry ∧ entry.Sealed lib
  records : ∀ {kind recordRoot column}, after.Committed lib kind recordRoot column →
    before.Committed lib kind recordRoot column ∨
      Recorded after.ledger kind recordRoot column
  responsibility : after.responsibility = before.responsibility ∨
    ∃ op, after.responsibility = (before.responsibility.handle op).2

section
variable {rt : Runtime} {faults : Nat → Bool} {tables after : Tables}

/-- An entry with a canonical time is stored as it is. -/
theorem insertAuditEntry_eq_ok {ε : Type} {database : ε} {ledger ledger' : List Entry}
    (htime : entry.occurredAt.toUTC.truncate = entry.occurredAt)
    (h : insertAuditEntry database ledger entry = .ok ledger') :
    ledger' = ledger ++ [entry] ∧ Extends ledger entry := by
  simp only [insertAuditEntry, bind_eq_ok, rejectIf_eq_ok, exists_const, pure_eq_ok,
    not_not] at h
  obtain ⟨-, hextends, -, -, -, rfl⟩ := h
  rw [htime]
  exact ⟨rfl, hextends⟩

theorem Entry.sealed_of_valid (h : entry.validate lib = .ok ()) : entry.Sealed lib := by
  obtain ⟨-, -, -, -, -, htime, hroot⟩ := (Entry.valid_iff lib).mp h
  exact ⟨htime, hroot⟩

theorem newEntry_sealed {sequence : Nat} {previousRoot : Digest}
    (h : newEntry lib sequence kind previousRoot recordRoot occurredAt = .ok entry) :
    entry.Sealed lib ∧ entry.kind = kind ∧ entry.recordRoot = recordRoot := by
  obtain ⟨-, -, -, -, -, rfl⟩ := (newEntry_eq_ok lib).mp h
  have hwhole : occurredAt.toUTC.truncate.toUTC.truncate = occurredAt.toUTC.truncate :=
    Time.truncate_eq_self_iff.mpr (Time.truncate_wholeMicroseconds _)
  exact ⟨⟨hwhole, rfl⟩, rfl, rfl⟩

theorem nextAuditEntryLocked_sealed {ledger : List Entry}
    (h : nextAuditEntryLocked lib ledger kind recordRoot occurredAt = .ok entry) :
    entry.Sealed lib ∧ entry.kind = kind ∧ entry.recordRoot = recordRoot := by
  unfold nextAuditEntryLocked at h
  split at h
  · exact newEntry_sealed h
  · obtain ⟨_, -, hnew⟩ := bind_eq_ok.mp h
    exact newEntry_sealed hnew

/-- The two ledger statements of a transaction together. -/
theorem appended {ε : Type} {database : ε} {ledger ledger' : List Entry}
    (hnext : nextAuditEntryLocked lib ledger kind recordRoot occurredAt = .ok entry)
    (hinsert : insertAuditEntry database ledger entry = .ok ledger') :
    (ledger' = ledger ++ [entry] ∧ Extends ledger entry ∧ entry.Sealed lib) ∧
      Recorded ledger' kind recordRoot (some entry.sequence) := by
  obtain ⟨hsealed, hkind, hrecord⟩ := nextAuditEntryLocked_sealed hnext
  obtain ⟨rfl, hextends⟩ := insertAuditEntry_eq_ok hsealed.time hinsert
  exact ⟨⟨rfl, hextends, hsealed⟩, entry, by simp, rfl, hkind, hrecord⟩

/-! ### One lemma for each transaction -/

theorem appendAuditEntry_step (h : appendAuditEntry rt faults tables entry = .ok after) :
    Step rt.lib tables after := by
  simp only [appendAuditEntry, bind_eq_ok, orElseError_eq_ok, rejectIf_eq_ok, statement_eq_ok,
    exists_const, pure_eq_ok] at h
  obtain ⟨_, hvalid, -, -, -, -, -, -, ledger, hinsert, -, rfl⟩ := h
  have hsealed := Entry.sealed_of_valid hvalid
  obtain ⟨rfl, hextends⟩ := insertAuditEntry_eq_ok hsealed.time hinsert
  refine ⟨.inr ⟨entry, rfl, hextends, hsealed⟩, ?_, .inl rfl⟩
  -- no table but the ledger is written
  intro kind recordRoot column hrecord
  left
  cases hrecord with
  | evaluation h => exact .evaluation h
  | handover h => exact .handover h
  | estimate h => exact .estimate h
  | bundle h => exact .bundle h

theorem saveEvaluation_step {snapshot : EvaluationSnapshot} {expectedVersion : Nat}
    (h : saveEvaluation rt faults tables snapshot expectedVersion records = .ok after) :
    Step rt.lib tables after := by
  simp only [saveEvaluation, bind_eq_ok, mapError_eq_ok, pure_eq_ok] at h
  obtain ⟨_, hstored, rfl⟩ := h
  obtain ⟨payload, entry, ledger, -, -, hnext, hinsert, rfl, -⟩ :=
    Pds.Database.transaction_eq_ok hstored
  obtain ⟨hlast, hnew⟩ := appended hnext hinsert
  refine ⟨.inr ⟨entry, hlast⟩, ?_, .inl rfl⟩
  intro kind recordRoot column hrecord
  cases hrecord with
  | @evaluation id row hrow =>
      change Function.update tables.pds.evaluations _ _ id = some row at hrow
      change tables.Committed _ _ _ (Function.update tables.pds.auditRecords _ _ _) ∨
        Recorded ledger _ _ (Function.update tables.pds.auditRecords _ _ _)
      by_cases hid : id = snapshot.evaluationID
      · right
        subst hid
        rw [Function.update_self] at hrow
        cases Option.some.inj hrow
        rw [Function.update_self]
        exact hnew
      · left
        rw [Function.update_of_ne hid] at hrow
        have hkey : (id, row.version) ≠ (snapshot.evaluationID, snapshot.version) :=
          fun heq => hid (Prod.mk.inj heq).1
        rw [Function.update_of_ne hkey]
        exact .evaluation hrow
  | handover h => exact .inl (.handover h)
  | estimate h => exact .inl (.estimate h)
  | bundle h => exact .inl (.bundle h)

theorem saveResponsibility_step
    (h : saveResponsibility faults tables snapshot expectedVersion = .ok after) :
    Step rt.lib tables after := by
  simp only [saveResponsibility, bind_eq_ok, mapError_eq_ok, statement_eq_ok, exists_const,
    pure_eq_ok] at h
  obtain ⟨-, saved, hsaved, rfl⟩ := h
  have hevents : saved.events = tables.responsibility.events := by
    simp only [DurableRepository.saveResponsibility, bind_eq_ok, pure_eq_ok] at hsaved
    obtain ⟨_, -, _, -, _, -, rfl⟩ := hsaved
    rfl
  refine ⟨.inl rfl, ?_, .inr ⟨.saveResponsibility snapshot expectedVersion, ?_⟩⟩
  · intro kind recordRoot column hrecord
    left
    cases hrecord with
    | evaluation h => exact .evaluation h
    | handover h =>
        change saved.events _ = _ at h
        rw [hevents] at h
        exact .handover h
    | estimate h => exact .estimate h
    | bundle h => exact .bundle h
  · simp only [DurableRepository.handle, hsaved, DurableRepository.transact]

/-- A committed handover does to the tables of the responsibilities what the repository
does. -/
theorem commitTransfer_responsibility {event : TransferredEvent}
    (h : commitTransfer rt faults tables snapshot expectedVersion event = .ok after) :
    tables.responsibility.commitTransfer snapshot expectedVersion event =
      .ok after.responsibility := by
  simp only [commitTransfer, bind_eq_ok, mapError_eq_ok, statement_eq_ok, exists_const,
    pure_eq_ok] at h
  obtain ⟨normalized, hnormalized, recordRoot, hroot, -, -, version, hversion, updated, hupdated,
    -, -, entry, -, -, ledger, -, -, inserted, hinserted, -, rfl⟩ := h
  simp only [Responsibility.transferredEventRoot, bind_eq_ok] at hroot
  obtain ⟨_, hvalid, -⟩ := hroot
  simp only [DurableRepository.commitTransfer, DurableRepository.updateHandover, hnormalized,
    hvalid, hversion, hupdated, ok_bind]
  exact hinserted

theorem commitTransfer_step {event : TransferredEvent}
    (h : commitTransfer rt faults tables snapshot expectedVersion event = .ok after) :
    Step rt.lib tables after := by
  have hrepository := commitTransfer_responsibility h
  simp only [commitTransfer, bind_eq_ok, mapError_eq_ok, statement_eq_ok, exists_const,
    pure_eq_ok] at h
  obtain ⟨normalized, -, recordRoot, hroot, -, -, version, -, updated, hupdated, -, -, entry,
    hnext, -, ledger, hinsert, -, inserted, hinserted, -, rfl⟩ := h
  simp only [Responsibility.transferredEventRoot, bind_eq_ok, pure_eq_ok] at hroot
  obtain ⟨_, -, rfl⟩ := hroot
  obtain ⟨assigned, -, -, rfl⟩ := DurableRepository.updateAssignment_eq_ok.mp hupdated
  obtain ⟨hfree, rfl⟩ := DurableRepository.insertEvent_eq_ok.mp hinserted
  obtain ⟨hlast, hnew⟩ := appended hnext hinsert
  refine ⟨.inr ⟨entry, hlast⟩, ?_,
    .inr ⟨.commitTransfer snapshot expectedVersion event, by
      simp only [DurableRepository.handle, hrepository, DurableRepository.transact]⟩⟩
  intro kind recordRoot column hrecord
  cases hrecord with
  | evaluation h => exact .inl (.evaluation h)
  | @handover objectID number row hrow =>
      change Function.update tables.responsibility.events _ _ (objectID, number) = some row at hrow
      change tables.Committed _ _ _ (Function.update tables.handoverAudit _ _ _) ∨
        Recorded ledger _ _ (Function.update tables.handoverAudit _ _ _)
      by_cases hkey : (objectID, number) = (event.objectID, event.version)
      · right
        obtain ⟨rfl, rfl⟩ := Prod.mk.inj hkey
        rw [Function.update_self] at hrow
        cases Option.some.inj hrow
        rw [Function.update_self, event.message_of_row]
        exact hnew
      · left
        rw [Function.update_of_ne hkey] at hrow
        rw [Function.update_of_ne hkey]
        exact .handover hrow
  | estimate h => exact .inl (.estimate h)
  | bundle h => exact .inl (.bundle h)

theorem saveEstimatorResult_step {result : Estimator.Result}
    (h : saveEstimatorResult rt faults tables result = .ok after) :
    Step rt.lib tables after := by
  simp only [saveEstimatorResult, bind_eq_ok, orElseError_eq_ok, rejectIf_eq_ok,
    exists_const] at h
  obtain ⟨_, -, -, h⟩ := h
  split at h
  · cases h
  · rename_i payload _
    simp only [bind_eq_ok, mapError_eq_ok, rejectIf_eq_ok, statement_eq_ok, exists_const,
      pure_eq_ok] at h
    obtain ⟨-, -, -, entry, hnext, -, ledger, hinsert, -, -, -, -, rfl⟩ := h
    obtain ⟨hlast, hnew⟩ := appended hnext hinsert
    refine ⟨.inr ⟨entry, hlast⟩, ?_, .inl rfl⟩
    intro kind recordRoot column hrecord
    cases hrecord with
    | evaluation h => exact .inl (.evaluation h)
    | handover h => exact .inl (.handover h)
    | estimate hmem =>
        rcases List.mem_append.mp hmem with hold | hadded
        · exact .inl (.estimate hold)
        · rw [List.mem_singleton.mp hadded]
          exact .inr hnew
    | bundle h => exact .inl (.bundle h)

theorem saveEvidenceBundleAudit_step {record : EvidenceBundle.AuditRecord}
    (h : saveEvidenceBundleAudit rt faults tables record = .ok after) :
    Step rt.lib tables after := by
  simp only [saveEvidenceBundleAudit, bind_eq_ok, mapError_eq_ok, rejectIf_eq_ok,
    statement_eq_ok, exists_const, pure_eq_ok] at h
  obtain ⟨_, -, -, -, -, entry, hnext, -, ledger, hinsert, -, -, -, -, rfl⟩ := h
  obtain ⟨hlast, hnew⟩ := appended hnext hinsert
  refine ⟨.inr ⟨entry, hlast⟩, ?_, .inl rfl⟩
  intro kind recordRoot column hrecord
  cases hrecord with
  | evaluation h => exact .inl (.evaluation h)
  | handover h => exact .inl (.handover h)
  | estimate h => exact .inl (.estimate h)
  | bundle hmem =>
      rcases List.mem_append.mp hmem with hold | hadded
      · exact .inl (.bundle hold)
      · rw [List.mem_singleton.mp hadded]
        exact .inr hnew

theorem Attempt.step {attempt : Attempt} (h : attempt.transaction rt tables = .ok after) :
    Step rt.lib tables after := by
  unfold Attempt.transaction at h
  split at h
  · exact appendAuditEntry_step h
  · exact saveEvaluation_step h
  · exact saveResponsibility_step h
  · exact commitTransfer_step h
  · exact saveEstimatorResult_step h
  · exact saveEvidenceBundleAudit_step h

end

/-! ## Runs -/

/-- The ledger is one chain of sealed entries, every record has its entry, and the tables of
the responsibilities come from operations of their repository. -/
structure Tables.Accounted (lib : Platform) (tables : Tables) : Prop where
  chained : Chained tables.ledger
  sealedEntries : ∀ entry ∈ tables.ledger, entry.Sealed lib
  recorded : ∀ {kind recordRoot column}, tables.Committed lib kind recordRoot column →
    Recorded tables.ledger kind recordRoot column
  responsibility : ∃ ops, tables.responsibility = DurableRepository.new.run ops

theorem Recorded.mono {ledger ledger' : List Entry} {column : Option Nat}
    (h : Recorded ledger kind recordRoot column) (hle : ledger <+: ledger') :
    Recorded ledger' kind recordRoot column := by
  obtain ⟨entry, hmem, hentry⟩ := h
  exact ⟨entry, hle.subset hmem, hentry⟩

theorem Chained.concat {ledger : List Entry} (h : Chained ledger)
    (hextends : Extends ledger entry) :
    Chained (ledger ++ [entry]) := by
  refine HashChain.chained_concat.mpr ⟨h, ?_⟩
  unfold Extends at hextends
  unfold HashChain.head
  cases hlast : ledger.getLast? with
  | none =>
      rw [hlast] at hextends
      rw [List.getLast?_eq_none_iff.mp hlast]
      exact hextends
  | some head =>
      rw [hlast] at hextends
      refine ⟨?_, hextends.2⟩
      -- the head stands at the last index, which gives its sequence number
      rw [List.getLast?_eq_getElem?] at hlast
      have hnumber := h.number_eq hlast
      have hlength : 0 < ledger.length := by
        have hindex := (List.getElem?_eq_some_iff.mp hlast).1
        omega
      omega

section
variable {lib : Platform} {before after : Tables}

theorem Step.isPrefix (h : Step lib before after) : before.ledger <+: after.ledger := by
  rcases h.ledger with hsame | ⟨entry, happended, -⟩
  · rw [hsame]
  · rw [happended]
    exact List.prefix_append _ _

theorem Step.accounted (h : Step lib before after) (hbefore : before.Accounted lib) :
    after.Accounted lib where
  chained := by
    rcases h.ledger with hsame | ⟨entry, happended, hextends, -⟩
    · rw [hsame]
      exact hbefore.chained
    · rw [happended]
      exact hbefore.chained.concat hextends
  sealedEntries := by
    rcases h.ledger with hsame | ⟨entry, happended, -, hsealed⟩
    · rw [hsame]
      exact hbefore.sealedEntries
    · rw [happended]
      intro other hother
      rcases List.mem_append.mp hother with hold | hnew
      · exact hbefore.sealedEntries other hold
      · rw [List.mem_singleton.mp hnew]
        exact hsealed
  recorded := by
    intro kind recordRoot column hrecord
    rcases h.records hrecord with hold | hnew
    · exact (hbefore.recorded hold).mono h.isPrefix
    · exact hnew
  responsibility := by
    obtain ⟨ops, hops⟩ := hbefore.responsibility
    rcases h.responsibility with hsame | ⟨op, hop⟩
    · exact ⟨ops, hsame.trans hops⟩
    · refine ⟨ops ++ [op], ?_⟩
      rw [hop, hops, DurableRepository.run, DurableRepository.run, List.foldl_append]
      rfl

end

theorem Tables.empty_accounted (lib : Platform) : Tables.empty.Accounted lib where
  chained := trivial
  sealedEntries := by
    intro entry hentry
    exact absurd hentry List.not_mem_nil
  recorded := by
    intro kind recordRoot column hrecord
    cases hrecord with
    | evaluation h => cases h
    | handover h => cases h
    | estimate h => exact absurd h List.not_mem_nil
    | bundle h => exact absurd h List.not_mem_nil
  responsibility := ⟨[], rfl⟩

theorem Tables.run_accounted (rt : Runtime) {tables : Tables} (h : tables.Accounted rt.lib)
    (attempts : List Attempt) :
    (tables.run rt attempts).Accounted rt.lib ∧
      tables.ledger <+: (tables.run rt attempts).ledger := by
  induction attempts generalizing tables with
  | nil => exact ⟨h, List.prefix_refl _⟩
  | cons attempt attempts ih =>
      change ((attempt.perform rt tables).run rt attempts).Accounted rt.lib ∧
        tables.ledger <+: ((attempt.perform rt tables).run rt attempts).ledger
      unfold Attempt.perform
      cases hoperation : attempt.transaction rt tables with
      | error err => exact ih h
      | ok after =>
          have hstep := Attempt.step hoperation
          obtain ⟨haccounted, hleading⟩ := ih (hstep.accounted h)
          exact ⟨haccounted, hstep.isPrefix.trans hleading⟩

/-- **The ledger is one unforked chain.**  After every sequence of attempts, whatever
fails in them, the entry at an index has the number of that index, names the root of
the entry before it and has the root of its own fields.  The record of each kind that
was committed at any time points, by its column `audit_sequence`, to exactly one entry,
which has its kind and its root. -/
theorem ledger_is_one_chain (rt : Runtime) (attempts later : List Attempt) :
    (∀ index entry, (Tables.empty.run rt (attempts ++ later)).ledger[index]? = some entry →
      entry.sequence = index + 1 ∧
      entry.previousRoot = HashChain.head Entry.root Digest.zero
        ((Tables.empty.run rt (attempts ++ later)).ledger.take index) ∧
      entry.root = calculateRoot rt.lib entry.sequence entry.kind entry.previousRoot
        entry.recordRoot entry.occurredAt) ∧
    ∀ kind recordRoot column,
      (Tables.empty.run rt attempts).Committed rt.lib kind recordRoot column →
      ∃ sequence entry, column = some sequence ∧
        (Tables.empty.run rt (attempts ++ later)).ledger.filter
          (fun other => other.sequence = sequence) = [entry] ∧
        entry.kind = kind ∧ entry.recordRoot = recordRoot := by
  obtain ⟨hcommitted, -⟩ :=
    Tables.run_accounted rt (Tables.empty_accounted rt.lib) attempts
  have hrun : Tables.empty.run rt (attempts ++ later) =
      (Tables.empty.run rt attempts).run rt later := List.foldl_append
  rw [hrun]
  obtain ⟨hfinal, hleading⟩ := Tables.run_accounted rt hcommitted later
  constructor
  · intro index entry hentry
    have hnumber := hfinal.chained.number_eq hentry
    refine ⟨by omega, hfinal.chained.previous_eq hentry, ?_⟩
    exact (hfinal.sealedEntries entry (List.mem_of_getElem? hentry)).root
  · intro kind recordRoot column hrecord
    obtain ⟨entry, hmem, hcolumn, hkind, hroot⟩ := (hcommitted.recorded hrecord).mono hleading
    exact ⟨entry.sequence, entry, hcolumn, hfinal.chained.filter_number hmem, hkind, hroot⟩

end Audit
end CargoPds
