import CargoPds.Audit.Transactions
import CargoPds.Evaluation.Invariant
import CargoPds.Foundation.Uuid

/-!
# Reading audited records

A record is read together with the entry of the ledger that its column `audit_sequence`
refers to, and is refused unless the entry has its kind and its root.

`Archive` is what the store is for: it has under each key the record that was committed
last.  `store_is_archive` says that after every sequence of attempts the readers return
what the archive has and nothing else.  The checks are never in the way, with one
exception: a handover whose time is cut to the zero time cannot be read.
-/

namespace CargoPds
namespace Audit

open Fallible
open Evaluation (EvaluationSnapshot EvaluationAggregate OutboxRecord)
open Responsibility (PhysicalObjectID TransferredEvent newPhysicalObjectID transferredEventRoot)

/-! ## The source -/

inductive ReadError where
  | database
  | notFound
  | invalid
deriving DecidableEq, Repr

/-- The row with the primary key. -/
def rowOf {κ ρ : Type} [DecidableEq κ] (key : ρ → κ) (rows : List ρ) (k : κ) : Option ρ :=
  rows.find? fun row => key row = k

def EstimateRow.key (row : EstimateRow) : PhysicalObjectID × UInt64 := (row.objectID, row.sequence)

/-- `LEFT JOIN audit_ledger`. -/
def Tables.joined (tables : Tables) (column : Option Nat) : Option Entry :=
  column.bind fun sequence => tables.ledger.find? fun entry => entry.sequence = sequence

/-- The entry of a record, if it has the kind and the root. -/
def Tables.audited (tables : Tables) (column : Option Nat) (kind : RecordKind)
    (recordRoot : Digest) : Except ReadError Unit :=
  match tables.joined column with
  | none => .error .invalid
  | some entry => rejectIf (entry.kind ≠ kind ∨ recordRoot ≠ entry.recordRoot) .invalid

section
variable (rt : Runtime) (unmarshalResult : Bytes → Option Estimator.Result) (tables : Tables)

def findEstimatorResult (objectID : PhysicalObjectID) (sequence : UInt64) :
    Except ReadError Estimator.Result := do
  rejectIf (newPhysicalObjectID objectID ≠ .ok objectID ∨ sequence = 0 ∨
    2 ^ 63 ≤ sequence.toNat) .invalid
  match rowOf EstimateRow.key tables.estimates (objectID, sequence) with
  | none => .error .notFound
  | some row => do
      tables.audited (some row.auditSequence) .estimator (rt.lib.sha256 row.result)
      match unmarshalResult row.result with
      | none => .error .database
      | some result => do
          orElseError (result.validate rt.positiveSemidefinite) ReadError.invalid
          rejectIf (result.replay.objectID ≠ objectID ∨ result.replay.sequence ≠ sequence) .invalid
          return result

/-- The columns of type `UUID` are scanned as texts. -/
def findEvidenceBundleAudit (bundleID : UUID) : Except ReadError EvidenceBundle.AuditRecord := do
  rejectIf (bundleID = UUID.nil) .invalid
  match rowOf (·.record.bundleID) tables.bundles bundleID with
  | none => .error .notFound
  | some row => do
      tables.audited (some row.auditSequence) .evidenceBundle row.record.bundleRoot
      match UUID.parse row.record.bundleID.text, UUID.parse row.record.evaluationID.text,
          UUID.parse row.record.sessionID.text with
      | some id, some evaluationID, some sessionID => do
          let record := { row.record with
            bundleID := id, evaluationID := evaluationID, sessionID := sessionID
            generatedAt := row.record.generatedAt.toUTC }
          orElseError record.validate ReadError.invalid
          rejectIf (record.bundleID ≠ bundleID) .invalid
          return record
      | _, _, _ => .error .invalid

/-- `FindTransfer`; the driver refuses a version beyond `BIGINT`. -/
def findTransfer (objectID : PhysicalObjectID) (version : UInt64) :
    Except ReadError TransferredEvent := do
  rejectIf (2 ^ 63 ≤ version.toNat) .database
  match tables.responsibility.events (objectID, version) with
  | none => .error .notFound
  | some row => do
      let event := { row.event objectID version with
        transferredAt := row.transferredAt.time.toUTC }
      let root ← orElseError (transferredEventRoot rt.lib event) ReadError.invalid
      tables.audited (tables.handoverAudit (objectID, version)) .responsibilityHandover root
      return event

end

/-! ## The archive -/

/-- The records that were committed last. -/
structure Archive where
  evaluations : UUID → Option EvaluationSnapshot
  transfers : PhysicalObjectID × UInt64 → Option TransferredEvent
  results : PhysicalObjectID × UInt64 → Option Estimator.Result
  bundles : UUID → Option EvidenceBundle.AuditRecord

namespace Archive

def empty : Archive := ⟨fun _ => none, fun _ => none, fun _ => none, fun _ => none⟩

/-- A handover is kept with its time in microseconds. -/
def record (archive : Archive) : Operation → Archive
  | .saveEvaluation snapshot _ _ => { archive with
      evaluations := Function.update archive.evaluations snapshot.evaluationID (some snapshot) }
  | .commitTransfer _ _ event => { archive with
      transfers := Function.update archive.transfers (event.objectID, event.version)
        (some { event with transferredAt := event.transferredAt.toUTC.truncate }) }
  | .saveEstimatorResult result => { archive with
      results := Function.update archive.results (result.replay.objectID, result.replay.sequence)
        (some result) }
  | .saveEvidenceBundleAudit record => { archive with
      bundles := Function.update archive.bundles record.bundleID (some record) }
  | .appendAuditEntry _ => archive
  | .saveResponsibility _ _ => archive

def findEvaluation (archive : Archive) (id : UUID) : Except Pds.Error EvaluationAggregate :=
  match archive.evaluations id with
  | none =>
      .error (if id = UUID.nil then .evaluation .evaluationIDRequired else .evaluationNotFound)
  | some snapshot => (Evaluation.rehydrateEvaluation snapshot).mapError .evaluation

def findTransfer (archive : Archive) (objectID : PhysicalObjectID) (version : UInt64) :
    Except ReadError TransferredEvent :=
  match archive.transfers (objectID, version) with
  | none => .error (if 2 ^ 63 ≤ version.toNat then .database else .notFound)
  | some event => if event.transferredAt.IsZero then .error .invalid else .ok event

def findEstimatorResult (archive : Archive) (objectID : PhysicalObjectID) (sequence : UInt64) :
    Except ReadError Estimator.Result :=
  match archive.results (objectID, sequence) with
  | none => .error (if newPhysicalObjectID objectID ≠ .ok objectID ∨ sequence = 0 ∨
      2 ^ 63 ≤ sequence.toNat then .invalid else .notFound)
  | some result => .ok result

def findEvidenceBundleAudit (archive : Archive) (bundleID : UUID) :
    Except ReadError EvidenceBundle.AuditRecord :=
  match archive.bundles bundleID with
  | none => .error (if bundleID = UUID.nil then .invalid else .notFound)
  | some record => .ok record

end Archive

/-- A value is decoded from its own encoding. -/
def RoundTrip {α : Type} (marshal : α → Option Bytes) (unmarshal : Bytes → Option α) (value : α) :
    Prop :=
  ∀ payload ∈ marshal value, unmarshal payload = some value

/-- The operations that are committed, in their order. -/
def committed (rt : Runtime) (tables : Tables) : List Attempt → List Operation
  | [] => []
  | attempt :: attempts =>
      match attempt.transaction rt tables with
      | .error _ => committed rt tables attempts
      | .ok after => attempt.operation :: committed rt after attempts

/-! ## Tables that hold an archive -/

section
variable {κ α ρ : Type} [DecidableEq κ]

/-- Each record is in the row of its key, and there are no other rows. -/
def Holds (inRow : κ → α → ρ → Prop) (records : κ → Option α) (rows : κ → Option ρ) : Prop :=
  ∀ k, Option.Rel (inRow k) (records k) (rows k)

theorem Holds.update {inRow : κ → α → ρ → Prop} {records : κ → Option α} {rows : κ → Option ρ}
    (h : Holds inRow records rows) {k : κ} {new : α} {row : ρ} (hnew : inRow k new row) :
    Holds inRow (Function.update records k (some new)) (Function.update rows k (some row)) := by
  intro other
  by_cases hk : other = k
  · subst hk
    simpa using Option.Rel.some hnew
  · simpa [Function.update_of_ne hk] using h other

theorem rowOf_concat {key : ρ → κ} {rows : List ρ} {row : ρ}
    (hfree : ∀ other ∈ rows, key other ≠ key row) :
    rowOf key (rows ++ [row]) = Function.update (rowOf key rows) (key row) (some row) := by
  funext k
  by_cases hk : k = key row
  · have hnone : rows.find? (fun other => key other = key row) = none := by simpa using hfree
    simp [rowOf, hk, List.find?_append, hnone]
  · simp [rowOf, List.find?_append, Function.update_of_ne hk, Ne.symm hk]

end

section
variable {rt : Runtime} {archive : Archive} {tables after : Tables} {attempt : Attempt}

/-- The tables hold the archive, in records that were checked when they were saved. -/
structure Archive.Represents (rt : Runtime) (archive : Archive) (tables : Tables) : Prop where
  evaluations : Holds (fun id snapshot row => snapshot.evaluationID = id ∧
      (∃ aggregate, Evaluation.rehydrateEvaluation snapshot = .ok aggregate) ∧
      rt.codec.marshalSnapshot snapshot = some row.snapshot)
    archive.evaluations tables.pds.evaluations
  transfers : Holds (fun key event row =>
      event = { row.event key.1 key.2 with transferredAt := row.transferredAt.time.toUTC } ∧
      key.2.toNat < 2 ^ 63 ∧ (¬ event.transferredAt.IsZero →
        Responsibility.validateTransferredEvent event = .ok ()))
    archive.transfers tables.responsibility.events
  results : Holds (fun key result row => key = (result.replay.objectID, result.replay.sequence) ∧
      result.validate rt.positiveSemidefinite = .ok () ∧ key.2.toNat < 2 ^ 63 ∧
      rt.marshalResult result = some row.result)
    archive.results (rowOf EstimateRow.key tables.estimates)
  bundles : Holds (fun id record row => record.bundleID = id ∧ record.validate = .ok () ∧
      row.record = record)
    archive.bundles (rowOf (·.record.bundleID) tables.bundles)

/-- **Step lemma.**  A transaction keeps its record under the key of the record. -/
theorem Archive.Represents.record (h : archive.Represents rt tables)
    (htransaction : attempt.transaction rt tables = .ok after) :
    (archive.record attempt.operation).Represents rt after := by
  unfold Attempt.transaction at htransaction
  cases hoperation : attempt.operation with
  | appendAuditEntry entry =>
      simp only [hoperation, Audit.appendAuditEntry, bind_eq_ok, pure_eq_ok] at htransaction
      obtain ⟨_, -, _, -, _, -, _, -, _, -, _, -, _, -, _, -, _, -, rfl⟩ := htransaction
      exact ⟨h.evaluations, h.transfers, h.results, h.bundles⟩
  | saveEvaluation snapshot expectedVersion records =>
      simp only [hoperation, Audit.saveEvaluation, bind_eq_ok, mapError_eq_ok,
        pure_eq_ok] at htransaction
      obtain ⟨_, hstored, rfl⟩ := htransaction
      obtain ⟨payload, entry, ledger, hencoded, -, -, -, rfl, -⟩ :=
        Pds.Database.transaction_eq_ok hstored
      simp only [Pds.Database.encodeSnapshot, bind_eq_ok, mapError_eq_ok] at hencoded
      obtain ⟨aggregate, haggregate, hpayload⟩ := hencoded
      refine ⟨?_, h.transfers, h.results, h.bundles⟩
      split at hpayload
      · cases hpayload
      · rename_i text htext
        obtain rfl := Except.ok.inj hpayload
        exact h.evaluations.update ⟨rfl, ⟨aggregate, haggregate⟩, htext⟩
  | saveResponsibility snapshot expectedVersion =>
      simp only [hoperation, Audit.saveResponsibility, bind_eq_ok, statement_eq_ok, exists_const,
        mapError_eq_ok, Responsibility.DurableRepository.saveResponsibility,
        pure_eq_ok] at htransaction
      obtain ⟨-, _, ⟨_, -, _, -, _, -, rfl⟩, rfl⟩ := htransaction
      exact ⟨h.evaluations, h.transfers, h.results, h.bundles⟩
  | commitTransfer snapshot expectedVersion event =>
      simp only [hoperation, Audit.commitTransfer, bind_eq_ok, mapError_eq_ok,
        pure_eq_ok] at htransaction
      obtain ⟨normalized, hnormalized, _, -, _, -, _, -, version, hversion, updated, hupdated, _,
        -, _, -, entry, -, _, -, ledger, -, _, -, inserted, hinserted, _, -, rfl⟩ := htransaction
      obtain ⟨hcommit, rfl⟩ := Responsibility.validateTransferCommit_eq_ok.mp hnormalized
      obtain ⟨-, rfl⟩ := Responsibility.DurableRepository.insertEvent_eq_ok.mp hinserted
      obtain ⟨row, -, -, rfl⟩ :=
        Responsibility.DurableRepository.updateAssignment_eq_ok.mp hupdated
      refine ⟨h.evaluations, ?_, h.results, h.bundles⟩
      refine h.transfers.update ⟨rfl, ?_, fun htime => ?_⟩
      · have hvalue : version.value = event.version :=
          (Responsibility.Bigint.encode_eq_ok.mp hversion).trans hcommit.version_eq.symm
        exact hvalue ▸ version.fits
      · -- the time is all that the row has changed
        have hevent := hcommit.event_valid
        rw [Responsibility.validateTransferredEvent_eq_ok] at hevent ⊢
        exact ⟨⟨hevent.1.1, hevent.1.2.1, htime⟩, hevent.2⟩
  | saveEstimatorResult result =>
      simp only [hoperation, Audit.saveEstimatorResult, bind_eq_ok, orElseError_eq_ok,
        rejectIf_eq_ok, exists_const] at htransaction
      obtain ⟨_, hvalid, hfits, htransaction⟩ := htransaction
      split at htransaction
      · cases htransaction
      · rename_i payload hpayload
        simp only [bind_eq_ok, rejectIf_eq_ok, exists_const, pure_eq_ok] at htransaction
        obtain ⟨_, -, _, -, _, -, entry, -, _, -, ledger, -, _, -, hfree, -, _, -, rfl⟩ :=
          htransaction
        refine ⟨h.evaluations, h.transfers, ?_, h.bundles⟩
        change Holds _ _ (rowOf _ (tables.estimates ++ [_]))
        rw [rowOf_concat fun other hmem hkey => hfree ⟨other, hmem, Prod.mk.inj hkey⟩]
        exact h.results.update ⟨rfl, hvalid, not_le.mp hfits, hpayload⟩
  | saveEvidenceBundleAudit record =>
      simp only [hoperation, Audit.saveEvidenceBundleAudit, bind_eq_ok, mapError_eq_ok,
        rejectIf_eq_ok, exists_const, pure_eq_ok] at htransaction
      obtain ⟨⟨⟩, hvalid, _, -, _, -, _, -, entry, -, _, -, ledger, -, _, -, hfree, -, _, -, rfl⟩ :=
        htransaction
      refine ⟨h.evaluations, h.transfers, h.results, ?_⟩
      change Holds _ _ (rowOf _ (tables.bundles ++ [_]))
      rw [rowOf_concat fun other hmem hkey => hfree ⟨other, hmem, hkey⟩]
      exact h.bundles.update ⟨rfl, hvalid, rfl⟩

/-- **Run lemma.** -/
theorem Archive.Represents.run (h : archive.Represents rt tables) (attempts : List Attempt) :
    ((committed rt tables attempts).foldl Archive.record archive).Represents rt
      (tables.run rt attempts) := by
  induction attempts generalizing archive tables with
  | nil => exact h
  | cons attempt attempts ih =>
      change Represents rt _ ((attempt.perform rt tables).run rt attempts)
      unfold Attempt.perform committed
      cases htransaction : attempt.transaction rt tables with
      | error err => exact ih h
      | ok after => exact ih (h.record htransaction)

theorem Archive.represents_empty (rt : Runtime) : Archive.empty.Represents rt Tables.empty :=
  ⟨fun _ => .none, fun _ => .none, fun _ => .none, fun _ => .none⟩

/-! ## Readers -/

variable {kind : RecordKind} {recordRoot : Digest} {column : Option Nat}

/-- The entry of a committed record is found. -/
theorem Tables.Accounted.joined_eq (h : tables.Accounted rt.lib)
    (hrecord : tables.Committed rt.lib kind recordRoot column) :
    ∃ entry, tables.joined column = some entry ∧ entry.kind = kind ∧
      entry.recordRoot = recordRoot := by
  obtain ⟨entry, hmem, rfl, hkind, hroot⟩ := h.recorded hrecord
  refine ⟨entry, ?_, hkind, hroot⟩
  change tables.ledger.find? _ = some entry
  rw [← List.head?_filter, h.chained.filter_number hmem]
  rfl

theorem Tables.Accounted.audited_eq (h : tables.Accounted rt.lib)
    (hrecord : tables.Committed rt.lib kind recordRoot column) :
    tables.audited column kind recordRoot = .ok () := by
  obtain ⟨entry, hjoined, hkind, hroot⟩ := h.joined_eq hrecord
  simp [Tables.audited, hjoined, hkind, hroot]

theorem rejectIf_bind_error {ε β : Type} {p : Prop} [Decidable p] {err other : ε} :
    (do rejectIf p err; Except.error other : Except ε β) =
      .error (if p then err else other) := by
  by_cases hp : p <;> simp [rejectIf, hp]

namespace Archive.Represents

variable (h : archive.Represents rt tables) (haccounted : tables.Accounted rt.lib)
include h haccounted

theorem findEvaluation_eq (id : UUID)
    (hcodec : ∀ snapshot ∈ archive.evaluations id,
      RoundTrip rt.codec.marshalSnapshot rt.codec.unmarshalSnapshot snapshot) :
    tables.pds.findEvaluation rt.lib rt.codec id = archive.findEvaluation id := by
  have hrow := h.evaluations id
  unfold Pds.Database.findEvaluation Archive.findEvaluation
  generalize hrecord : archive.evaluations id = record,
    htable : tables.pds.evaluations id = stored at hrow
  cases hrow with
  | none => exact rejectIf_bind_error
  | @some snapshot row hrow =>
      obtain ⟨rfl, ⟨aggregate, haggregate⟩, hpayload⟩ := hrow
      have hid := (Evaluation.rehydrateEvaluation_eq_ok_iff.mp haggregate).1.evaluationID_set
      obtain ⟨entry, hjoined, hkind, hroot⟩ := haccounted.joined_eq (.evaluation htable)
      have hentry : tables.pds.auditEntry snapshot.evaluationID row.version = some entry := hjoined
      have hdecoded := hcodec snapshot hrecord row.snapshot hpayload
      simp [hid, hentry, hkind, hroot, rejectIf, Pds.Database.decodeSnapshot, hdecoded]

theorem findTransfer_eq (objectID : PhysicalObjectID) (version : UInt64) :
    Audit.findTransfer rt tables objectID version = archive.findTransfer objectID version := by
  have hrow := h.transfers (objectID, version)
  unfold Audit.findTransfer Archive.findTransfer
  generalize hrecord : archive.transfers (objectID, version) = record,
    htable : tables.responsibility.events (objectID, version) = stored at hrow
  cases hrow with
  | none => exact rejectIf_bind_error
  | @some event row hrow =>
      obtain ⟨rfl, hfits, hvalid⟩ := hrow
      have haudited := haccounted.audited_eq (.handover htable)
      rw [rejectIf_of_not _ (not_le.mpr hfits), ok_bind]
      simp only [transferredEventRoot]
      split
      · rename_i hzero
        have hinvalid : Responsibility.validateTransferredEvent { row.event objectID version with
            transferredAt := row.transferredAt.time.toUTC } ≠ .ok () := fun hok =>
          ((Responsibility.validateTransferredEvent_eq_ok.mp hok).1.2.2) hzero
        cases hcheck : Responsibility.validateTransferredEvent { row.event objectID version with
            transferredAt := row.transferredAt.time.toUTC } with
        | ok _ => exact absurd hcheck hinvalid
        | error err => simp [orElseError]
      · rename_i htime
        simp only [hvalid htime, ok_bind]
        exact bind_eq_ok.mpr ⟨_, rfl, bind_eq_ok.mpr ⟨(), haudited, rfl⟩⟩

theorem findEstimatorResult_eq (unmarshalResult : Bytes → Option Estimator.Result)
    (objectID : PhysicalObjectID) (sequence : UInt64)
    (hcodec : ∀ result ∈ archive.results (objectID, sequence),
      RoundTrip rt.marshalResult unmarshalResult result) :
    Audit.findEstimatorResult rt unmarshalResult tables objectID sequence =
      archive.findEstimatorResult objectID sequence := by
  have hrow := h.results (objectID, sequence)
  unfold Audit.findEstimatorResult Archive.findEstimatorResult
  generalize hrecord : archive.results (objectID, sequence) = record,
    htable : rowOf EstimateRow.key tables.estimates (objectID, sequence) = stored at hrow
  cases hrow with
  | none => exact rejectIf_bind_error
  | @some result row hrow =>
      obtain ⟨hkey, hvalid, hfits, hpayload⟩ := hrow
      obtain ⟨rfl, rfl⟩ := Prod.mk.inj hkey
      have haudited := haccounted.audited_eq (.estimate (List.mem_of_find?_eq_some htable))
      have hdecoded := hcodec result hrecord row.result hpayload
      have hrequest := hvalid
      simp only [Estimator.Result.validate, Estimator.Request.validate, bind_eq_ok,
        orElseError_eq_ok, rejectIf_eq_ok, exists_const, not_or, ne_eq, not_not] at hrequest
      obtain ⟨_, ⟨_, hobject, rfl, -, -, _, -, -, -, hsequence, -⟩, -⟩ := hrequest
      rw [rejectIf_of_not, ok_bind]
      · simp [haudited, hdecoded, hvalid, orElseError, rejectIf]
      · simpa [hobject, hsequence.1] using hfits

theorem findEvidenceBundleAudit_eq (bundleID : UUID) :
    Audit.findEvidenceBundleAudit tables bundleID = archive.findEvidenceBundleAudit bundleID := by
  have hrow := h.bundles bundleID
  unfold Audit.findEvidenceBundleAudit Archive.findEvidenceBundleAudit
  generalize hrecord : archive.bundles bundleID = record,
    htable : rowOf (fun row : BundleRow => row.record.bundleID) tables.bundles bundleID =
      stored at hrow
  cases hrow with
  | none => exact rejectIf_bind_error
  | @some record row hrow =>
      obtain ⟨rfl, hvalid, rfl⟩ := hrow
      have haudited := haccounted.audited_eq (.bundle (List.mem_of_find?_eq_some htable))
      have hfields := hvalid
      simp only [EvidenceBundle.AuditRecord.validate, rejectIf_eq_ok, not_or, ne_eq,
        not_not] at hfields
      have htime : row.record.generatedAt.toUTC = row.record.generatedAt := by
        rw [hfields.2.2.2.2.1]
        rfl
      simp [hfields.1, haudited, UUID.parse_text, htime, hvalid, orElseError, rejectIf]

end Archive.Represents

end

/-- The tables of the responsibilities come from operations of `DurableRepository`, and a
handover that is read with the ledger is the one that `FindTransfer` of the repository
returns. -/
theorem responsibility_refines (rt : Runtime) (attempts : List Attempt) :
    let tables := Tables.empty.run rt attempts
    (∃ ops, tables.responsibility = Responsibility.DurableRepository.new.run ops) ∧
      ∀ objectID version event, findTransfer rt tables objectID version = .ok event →
        tables.responsibility.findTransfer objectID version = .ok event := by
  refine ⟨(Tables.run_accounted rt (Tables.empty_accounted rt.lib) attempts).1.responsibility, ?_⟩
  intro objectID version event h
  simp only [findTransfer, bind_eq_ok] at h
  obtain ⟨_, -, h⟩ := h
  cases hrow : (Tables.empty.run rt attempts).responsibility.events (objectID, version) with
  | none =>
      simp only [hrow] at h
      cases h
  | some row =>
      simp only [hrow, bind_eq_ok, pure_eq_ok] at h
      obtain ⟨_, -, _, -, rfl⟩ := h
      simp only [Responsibility.DurableRepository.findTransfer, hrow]
      rw [Time.toUTC_eq_of_isUTC row.transferredAt.utc]
      rfl

/-- **The store is an archive.**  After every sequence of attempts, whatever fails in them,
a reader returns under a key the record that was committed last under it, and the error of
its own for a key that has none.  A handover is read with its time in microseconds, unless
that is the zero time.  Of the encodings only this is assumed: the snapshot or the result
that is asked for is decoded from its own encoding. -/
theorem store_is_archive (rt : Runtime) (unmarshalResult : Bytes → Option Estimator.Result)
    (attempts : List Attempt) :
    let tables := Tables.empty.run rt attempts
    let archive := (committed rt Tables.empty attempts).foldl Archive.record .empty
    (∀ id, (∀ snapshot ∈ archive.evaluations id,
        RoundTrip rt.codec.marshalSnapshot rt.codec.unmarshalSnapshot snapshot) →
      tables.pds.findEvaluation rt.lib rt.codec id = archive.findEvaluation id) ∧
    (∀ objectID version,
      findTransfer rt tables objectID version = archive.findTransfer objectID version) ∧
    (∀ objectID sequence, (∀ result ∈ archive.results (objectID, sequence),
        RoundTrip rt.marshalResult unmarshalResult result) →
      findEstimatorResult rt unmarshalResult tables objectID sequence =
        archive.findEstimatorResult objectID sequence) ∧
    ∀ bundleID,
      findEvidenceBundleAudit tables bundleID = archive.findEvidenceBundleAudit bundleID := by
  intro tables archive
  have hrepresents := (Archive.represents_empty rt).run attempts
  have haccounted := (Tables.run_accounted rt (Tables.empty_accounted rt.lib) attempts).1
  exact ⟨hrepresents.findEvaluation_eq haccounted, hrepresents.findTransfer_eq haccounted,
    hrepresents.findEstimatorResult_eq haccounted unmarshalResult,
    hrepresents.findEvidenceBundleAudit_eq haccounted⟩

namespace Dock

open Evaluation.Inspection (created)

/-- JSON that can express one evaluation. -/
def codec : Pds.Codec where
  marshalSnapshot snapshot := if snapshot = created.snapshot then some [1] else none
  unmarshalSnapshot payload := if payload = [1] then some created.snapshot else none
  valid _ := true

def runtime : Runtime where
  lib := { platform with sha256 := fun _ => evaluated.root }
  codec := codec
  marshalResult _ := none
  positiveSemidefinite _ := true

theorem codec_roundTrip (snapshot : EvaluationSnapshot) :
    RoundTrip codec.marshalSnapshot codec.unmarshalSnapshot snapshot := by
  intro payload hpayload
  simp only [codec, Option.mem_def, Option.ite_none_right_eq_some, Option.some.injEq]
    at hpayload ⊢
  exact ⟨hpayload.2.symm, hpayload.1.symm⟩

/-- The evaluation is saved in the second attempt, and read back. -/
theorem evaluation_read_back :
    (Tables.empty.run runtime [⟨.saveEvaluation created.snapshot 0 [], fun index => index = 3⟩,
        ⟨.saveEvaluation created.snapshot 0 [], fun _ => false⟩]).pds.findEvaluation runtime.lib
      runtime.codec created.evaluationID = .ok { created with domainEvents := [] } := by
  rw [(store_is_archive runtime (fun _ => none) _).1 _ fun snapshot _ => codec_roundTrip snapshot]
  decide

end Dock

end Audit
end CargoPds
