import CargoPds.Pds.World

/-!
# The PostgreSQL store

`Store.SaveEvaluation` writes a snapshot, an entry of the audit ledger and the outbox
records in one transaction, and `Store.FindEvaluation` checks the payload of a
snapshot against the ledger.  The tables hold what these two functions read back: the
other columns of `evaluations` repeat fields of the snapshot, and their constraints
admit whatever rehydration has accepted.

The transaction has its statements in the order of the source, and any of them may fail:
`faults` says which.  `transaction_eq_ok` is what the proofs use of it.
-/

namespace CargoPds
namespace Pds

open Evaluation Fallible
open Audit (statement)

/-- The calls of `encoding/json` in the store. -/
structure Codec where
  /-- `json.Marshal` of a snapshot. -/
  marshalSnapshot : EvaluationSnapshot → Option Bytes
  /-- `json.Unmarshal` into a snapshot. -/
  unmarshalSnapshot : Bytes → Option EvaluationSnapshot
  /-- `json.Valid`. -/
  valid : Bytes → Bool

/-- A row of `evaluations`. -/
structure EvaluationRow where
  version : Nat
  snapshot : Bytes
deriving DecidableEq, Repr

/-- The outbox record that is read back: `TIMESTAMPTZ` has whole microseconds. -/
def outboxRow (record : OutboxRecord) : OutboxRecord :=
  { record with
    occurredAt := record.occurredAt.toUTC.truncate
    createdAt := record.createdAt.toUTC.truncate }

/-- The tables `evaluations`, `audit_ledger`, `evaluation_audit_records` and
`evaluation_outbox`. -/
structure Database where
  evaluations : UUID → Option EvaluationRow
  ledger : List Audit.Entry
  auditRecords : UUID × Nat → Option Nat
  outbox : List OutboxRecord

namespace Database

/-- The tables of a fresh database. -/
def empty : Database := ⟨fun _ => none, [], fun _ => none, []⟩

variable (lib : Platform) (codec : Codec)

/-! ## Writing -/

def encodeSnapshot (snapshot : EvaluationSnapshot) : Except Error Bytes := do
  let _ ← (rehydrateEvaluation snapshot).mapError Error.evaluation
  match codec.marshalSnapshot snapshot with
  | none => .error .database
  | some payload => .ok payload

def evaluationOccurredAt (snapshot : EvaluationSnapshot) : Time :=
  match snapshot.state with
  | .running => snapshot.startedAt.getD Time.zero
  | .completed => snapshot.completedAt.getD Time.zero
  | .cancelled => snapshot.cancelledAt.getD Time.zero
  | .expired => snapshot.expiredAt.getD Time.zero
  | _ => snapshot.createdAt

/-- Version 0 inserts a row, which the primary key admits once; another version
updates the row that has it. -/
def persistSnapshot (db : Database) (snapshot : EvaluationSnapshot) (expectedVersion : Nat)
    (payload : Bytes) : Except Error Database := do
  (if expectedVersion = 0 then
    rejectIf (db.evaluations snapshot.evaluationID ≠ none) Error.database
  else
    rejectIf ((db.evaluations snapshot.evaluationID).map (·.version) ≠ some expectedVersion)
      Error.concurrentModification)
  return { db with
    evaluations := Function.update db.evaluations snapshot.evaluationID
      (some ⟨snapshot.version, payload⟩) }

/-- Append the entry of a snapshot to the ledger and bind it to the version. -/
def appendAudit (faults : Nat → Bool) (db : Database) (snapshot : EvaluationSnapshot)
    (payload : Bytes) : Except Error Database := do
  statement .database faults 2 -- LOCK TABLE
  statement .database faults 3 -- SELECT of the head
  let entry ← (Audit.nextAuditEntryLocked lib db.ledger .evaluation (lib.sha256 payload)
    (evaluationOccurredAt snapshot)).mapError Error.audit
  statement .database faults 4
  let ledger ← Audit.insertAuditEntry .database db.ledger entry
  statement .database faults 5
  rejectIf (db.auditRecords (snapshot.evaluationID, snapshot.version) ≠ none) .database
  return { db with
    ledger := ledger
    auditRecords := Function.update db.auditRecords
      (snapshot.evaluationID, snapshot.version) (some entry.sequence) }

def validateOutboxRecord (record : OutboxRecord) : Except Error Unit := do
  rejectIf (record.id = UUID.nil ∨ record.aggregateID = UUID.nil ∨
    record.sessionID = UUID.nil) .invalidOutboxRecord
  rejectIf (record.aggregateType = "" ∨ record.aggregateVersion = 0 ∨ record.eventType = "")
    .invalidOutboxRecord
  rejectIf (record.occurredAt.IsZero ∨ record.createdAt.IsZero ∨
    codec.valid record.payload = false) .invalidOutboxRecord

/-- One round of `insertOutboxRecords`; the identifier is the primary key. -/
def insertOutboxRecord (db : Database) (record : OutboxRecord) : Except Error Database := do
  validateOutboxRecord codec record
  rejectIf (record.id ∈ db.outbox.map (·.id)) .database
  return { db with outbox := db.outbox ++ [outboxRow record] }

/-- The rounds, each with its `INSERT`. -/
def insertOutboxRecords (faults : Nat → Bool) (db : Database) (records : List OutboxRecord)
    (first : Nat) : Except Error Database :=
  match records with
  | [] => .ok db
  | record :: rest => do
      let inserted ← db.insertOutboxRecord codec record
      statement .database faults first
      inserted.insertOutboxRecords faults rest (first + 1)

/-- The transaction of `SaveEvaluation`, with the checks before it. -/
def transaction (faults : Nat → Bool) (db : Database) (snapshot : EvaluationSnapshot)
    (expectedVersion : Nat) (records : List OutboxRecord) : Except Error Database := do
  let payload ← encodeSnapshot codec snapshot
  rejectIf (0 < expectedVersion ∧ snapshot.version ≤ expectedVersion) .invalidExpectedVersion
  statement .database faults 0 -- BEGIN
  statement .database faults 1
  let written ← db.persistSnapshot snapshot expectedVersion payload
  let audited ← written.appendAudit lib faults snapshot payload
  let stored ← audited.insertOutboxRecords codec faults records 6
  statement .database faults (6 + records.length) -- COMMIT
  return stored

/-- A transaction that fails is rolled back.  Here no statement fails on its own account. -/
def saveEvaluation (db : Database) (snapshot : EvaluationSnapshot) (expectedVersion : Nat)
    (records : List OutboxRecord) : Except Error Unit × Database :=
  match db.transaction lib codec (fun _ => false) snapshot expectedVersion records with
  | .error err => (.error err, db)
  | .ok after => (.ok (), after)

/-! ## Reading -/

def decodeSnapshot (payload : Bytes) : Except Error EvaluationAggregate :=
  match codec.unmarshalSnapshot payload with
  | none => .error .database
  | some snapshot => (rehydrateEvaluation snapshot).mapError .evaluation

/-- The ledger entry of the stored version. -/
def auditEntry (db : Database) (id : UUID) (version : Nat) : Option Audit.Entry :=
  (db.auditRecords (id, version)).bind fun sequence =>
    db.ledger.find? fun entry => entry.sequence = sequence

def findEvaluation (db : Database) (id : UUID) : Except Error EvaluationAggregate := do
  rejectIf (id = UUID.nil) (.evaluation .evaluationIDRequired)
  match db.evaluations id with
  | none => .error .evaluationNotFound
  | some row =>
      match db.auditEntry id row.version with
      | none => .error .evaluationAuditInvalid
      | some entry => do
          rejectIf (entry.kind ≠ .evaluation ∨ lib.sha256 row.snapshot ≠ entry.recordRoot)
            .evaluationAuditInvalid
          decodeSnapshot codec row.snapshot

/-! ## What is written -/

variable {lib codec} {faults : Nat → Bool} {db after : Database} {records : List OutboxRecord}

theorem insertOutboxRecords_eq_ok {first : Nat}
    (h : db.insertOutboxRecords codec faults records first = .ok after) :
    after = { db with outbox := db.outbox ++ records.map outboxRow } ∧
      ((db.outbox.map (·.id)).Nodup → (after.outbox.map (·.id)).Nodup) := by
  induction records generalizing db first with
  | nil =>
      obtain rfl := Except.ok.inj h
      simp
  | cons record records ih =>
      simp only [insertOutboxRecords, insertOutboxRecord, bind_eq_ok, rejectIf_eq_ok, pure_eq_ok,
        exists_const] at h
      obtain ⟨_, ⟨-, -, hkey, rfl⟩, -, -, h⟩ := h
      obtain ⟨rfl, hnodup⟩ := ih h
      refine ⟨by simp, fun hkeys => hnodup ?_⟩
      rw [List.map_append]
      refine List.nodup_append.mpr ⟨hkeys, List.nodup_singleton _, ?_⟩
      rintro id hid other hother rfl
      obtain rfl : id = record.id := List.mem_singleton.mp hother
      exact hkey hid

/-- The tables that a transaction commits. -/
theorem transaction_eq_ok {snapshot : EvaluationSnapshot} {expectedVersion : Nat}
    (h : db.transaction lib codec faults snapshot expectedVersion records = .ok after) :
    ∃ payload entry ledger, encodeSnapshot codec snapshot = .ok payload ∧
      (∀ stored, db.evaluations snapshot.evaluationID = some stored →
        stored.version = expectedVersion) ∧
      Audit.nextAuditEntryLocked lib db.ledger .evaluation (lib.sha256 payload)
        (evaluationOccurredAt snapshot) = .ok entry ∧
      Audit.insertAuditEntry Error.database db.ledger entry = .ok ledger ∧
      after = ⟨Function.update db.evaluations snapshot.evaluationID
          (some ⟨snapshot.version, payload⟩), ledger,
        Function.update db.auditRecords (snapshot.evaluationID, snapshot.version)
          (some entry.sequence), db.outbox ++ records.map outboxRow⟩ ∧
      ((db.outbox.map (·.id)).Nodup → (after.outbox.map (·.id)).Nodup) := by
  simp only [transaction, persistSnapshot, appendAudit, bind_eq_ok, rejectIf_eq_ok, pure_eq_ok,
    mapError_eq_ok, Audit.statement_eq_ok, exists_const] at h
  obtain ⟨payload, hpayload, -, -, -, _, ⟨⟨⟩, hexpected, rfl⟩, _,
    ⟨-, -, entry, hentry, -, ledger, hledger, -, -, rfl⟩, _, hinsert, -, rfl⟩ := h
  obtain ⟨rfl, hnodup⟩ := insertOutboxRecords_eq_ok hinsert
  refine ⟨payload, entry, ledger, hpayload, ?_, hentry, hledger, rfl, hnodup⟩
  intro stored hstored
  rw [hstored] at hexpected
  split at hexpected
  · exact absurd (rejectIf_eq_ok.mp hexpected) (by simp)
  · simpa using rejectIf_eq_ok.mp hexpected

end Database

/-! ## The service on the durable store -/

structure DurableWorld (lib : Platform) where
  database : Database
  evidence : Evidence.MemoryRepository
  registry : Policy.Registry lib

/-- One operation, with the evaluations in the database. -/
def handleDurable (lib : Platform) (codec : Codec) (op : (interface lib).Op)
    (surroundings : Surroundings) (world : DurableWorld lib) :
    (interface lib).Resp op × DurableWorld lib :=
  match op with
  | .saveEvaluation snapshot expectedVersion records =>
      let reply := world.database.saveEvaluation lib codec snapshot expectedVersion records
      (reply.1, { world with database := reply.2 })
  | .findEvaluation id => (world.database.findEvaluation lib codec id, world)
  | op =>
      let reply := handle lib op surroundings ⟨.empty, world.evidence, world.registry⟩
      (reply.1, { world with evidence := reply.2.evidence, registry := reply.2.registry })

end Pds
end CargoPds
