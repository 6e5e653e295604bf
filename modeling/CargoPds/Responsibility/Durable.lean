import CargoPds.Responsibility.Repository

/-!
# The durable repository

The PostgreSQL store keeps assignments and handover events in two tables.  A
`TIMESTAMPTZ` column holds whole microseconds only, so a stored time is the
truncation of the time that was written, and a version beyond the range of
`BIGINT` is refused by the driver.

The ledger entry that a handover also appends is not part of this model.  The whole
transaction, with the ledger and the statements that fail, is in `Audit.Transactions`, which
shows that it does to these two tables what `commitTransfer` does.
-/

namespace CargoPds
namespace Responsibility

open Fallible Text

variable {snapshot : Snapshot}

/-- A value of a `TIMESTAMPTZ` column. -/
structure Timestamptz where
  time : Time
  utc : time.IsUTC
  whole : time.WholeMicroseconds

/-- Store a time in a `TIMESTAMPTZ` column. -/
def Timestamptz.ofTime (time : Time) : Timestamptz :=
  ⟨time.toUTC.truncate, rfl, Time.truncate_wholeMicroseconds _⟩

/-- A version in a `BIGINT` column. -/
structure Bigint where
  value : UInt64
  fits : value.toNat < 2 ^ 63

/-- The driver encodes a version as `BIGINT`, or refuses it. -/
def Bigint.encode (version : UInt64) : Except Error Bigint :=
  if h : version.toNat < 2 ^ 63 then .ok ⟨version, h⟩ else .error .database

theorem Bigint.encode_eq_ok {version : UInt64} {encoded : Bigint} :
    Bigint.encode version = .ok encoded ↔ encoded.value = version := by
  unfold Bigint.encode
  split
  · rw [Except.ok.injEq]
    constructor
    · rintro rfl
      rfl
    · rintro rfl
      rfl
  · rename_i hlarge
    refine iff_of_false (by simp) ?_
    rintro rfl
    exact hlarge encoded.fits

/-- A row of `responsibility_snapshots`; the object is its primary key. -/
structure SnapshotRow where
  participantID : ParticipantID
  version : Bigint
  assignedAt : Timestamptz

/-- A row of `responsibility_handover_events`; object and version are its primary
key. -/
structure EventRow where
  fromParticipantID : ParticipantID
  toParticipantID : ParticipantID
  transferredAt : Timestamptz

/-- The row in which a snapshot is stored. -/
def Snapshot.row (snapshot : Snapshot) (version : Bigint) : SnapshotRow :=
  ⟨snapshot.participantID, version, .ofTime snapshot.assignedAt⟩

/-- The snapshot that is scanned from a row. -/
def SnapshotRow.scan (row : SnapshotRow) (objectID : PhysicalObjectID) : Snapshot :=
  ⟨objectID, row.participantID, row.version.value, row.assignedAt.time⟩

/-- The event that is scanned from a row. -/
def EventRow.event (row : EventRow) (objectID : PhysicalObjectID) (version : UInt64) :
    TransferredEvent :=
  ⟨objectID, row.fromParticipantID, row.toParticipantID, row.transferredAt.time, version⟩

/-- The snapshot with its time truncated to the microsecond. -/
def Snapshot.truncated (snapshot : Snapshot) : Snapshot :=
  { snapshot with assignedAt := snapshot.assignedAt.truncate }

theorem Snapshot.scan_row {version : Bigint} (hversion : version.value = snapshot.version) :
    (snapshot.row version).scan snapshot.objectID = snapshot.inUTC.truncated := by
  unfold SnapshotRow.scan Snapshot.row
  rw [hversion]
  rfl

theorem Snapshot.truncated_eq_self_iff :
    snapshot.truncated = snapshot ↔ snapshot.assignedAt.WholeMicroseconds := by
  rw [← Time.truncate_eq_self_iff]
  constructor
  · exact congrArg Snapshot.assignedAt
  · intro htime
    unfold Snapshot.truncated
    rw [htime]

/-- The two tables. -/
structure DurableRepository where
  snapshots : PhysicalObjectID → Option SnapshotRow
  events : PhysicalObjectID × UInt64 → Option EventRow

namespace DurableRepository

/-- The tables of a fresh database. -/
def new : DurableRepository := ⟨fun _ => none, fun _ => none⟩

def saveResponsibility (repository : DurableRepository) (snapshot : Snapshot)
    (expectedVersion : UInt64) : Except Error DurableRepository := do
  let normalized ← normalizedSnapshot snapshot expectedVersion
  let version ← Bigint.encode normalized.version
  (if expectedVersion = 0 then
    rejectIf (repository.snapshots normalized.objectID).isSome .concurrentModification
  else
    match repository.snapshots normalized.objectID with
    | none => .error .concurrentModification
    | some row =>
        rejectIf (row.version.value ≠ expectedVersion ∨
          row.participantID = normalized.participantID ∨
          ¬ row.assignedAt.time.Before (Timestamptz.ofTime normalized.assignedAt).time)
          .concurrentModification)
  return { repository with
    snapshots := Function.update repository.snapshots normalized.objectID
      (some (normalized.row version)) }

/-- The `UPDATE` of a handover; an assignment that is not the expected one is not updated. -/
def updateAssignment (repository : DurableRepository) (normalized : Snapshot)
    (version : Bigint) (expectedVersion : UInt64) (event : TransferredEvent) :
    Except Error DurableRepository :=
  match repository.snapshots normalized.objectID with
  | none => .error .concurrentModification
  | some row => do
      rejectIf (row.version.value ≠ expectedVersion ∨
        row.participantID ≠ event.fromParticipantID ∨
        ¬ row.assignedAt.time.Before (Timestamptz.ofTime normalized.assignedAt).time)
        .concurrentModification
      return { repository with
        snapshots := Function.update repository.snapshots normalized.objectID
          (some (normalized.row version)) }

/-- The `INSERT` of a handover; an event that exists is not inserted. -/
def insertEvent (repository : DurableRepository) (event : TransferredEvent) :
    Except Error DurableRepository := do
  let key := (event.objectID, event.version)
  rejectIf (repository.events key).isSome .database
  return { repository with
    events := Function.update repository.events key
      (some ⟨event.fromParticipantID, event.toParticipantID, .ofTime event.transferredAt⟩) }

/-- The two statements of a handover. -/
def updateHandover (repository : DurableRepository) (normalized : Snapshot)
    (version : Bigint) (expectedVersion : UInt64) (event : TransferredEvent) :
    Except Error DurableRepository := do
  let updated ← repository.updateAssignment normalized version expectedVersion event
  updated.insertEvent event

def commitTransfer (repository : DurableRepository) (snapshot : Snapshot)
    (expectedVersion : UInt64) (event : TransferredEvent) :
    Except Error DurableRepository := do
  let normalized ← validateTransferCommit snapshot expectedVersion event
  -- the root of the ledger entry validates the event once more
  validateTransferredEvent event
  let version ← Bigint.encode normalized.version
  repository.updateHandover normalized version expectedVersion event

def findResponsibility (repository : DurableRepository) (objectID : PhysicalObjectID) :
    Except Error Aggregate := do
  rejectIf (newPhysicalObjectID objectID ≠ .ok objectID) (.objectIDRequired none)
  match repository.snapshots objectID with
  | none => .error .notFound
  | some row => rehydrate (row.scan objectID)

def findTransfer (repository : DurableRepository) (objectID : PhysicalObjectID)
    (version : UInt64) : Except Error TransferredEvent :=
  match repository.events (objectID, version) with
  | none => .error .transferNotFound
  | some row => .ok (row.event objectID version)

/-- A transaction commits or leaves the tables as they were. -/
def transact (repository : DurableRepository) (outcome : Except Error DurableRepository) :
    Except Error Unit × DurableRepository :=
  match outcome with
  | .ok next => (.ok (), next)
  | .error err => (.error err, repository)

/-- One operation on the store. -/
def handle (op : RepositoryOp) (repository : DurableRepository) :
    op.Reply × DurableRepository :=
  match op with
  | .saveResponsibility snapshot expectedVersion =>
      repository.transact (repository.saveResponsibility snapshot expectedVersion)
  | .findResponsibility objectID => (repository.findResponsibility objectID, repository)
  | .commitTransfer snapshot expectedVersion event =>
      repository.transact (repository.commitTransfer snapshot expectedVersion event)
  | .findTransfer objectID version => (repository.findTransfer objectID version, repository)

/-- The tables after a sequence of operations. -/
def run (repository : DurableRepository) (ops : List RepositoryOp) : DurableRepository :=
  ops.foldl (fun state op => (state.handle op).2) repository

/-! ## Reading back -/

variable {repository : DurableRepository} {expectedVersion : UInt64} {event : TransferredEvent}

theorem newPhysicalObjectID_eq_self_iff {objectID : PhysicalObjectID} :
    newPhysicalObjectID objectID = .ok objectID ↔ Canonical objectID := by
  unfold newPhysicalObjectID Canonical
  by_cases hempty : trimSpace objectID = ""
  · simp only [hempty, if_true]
    refine iff_of_false (by simp) ?_
    rintro ⟨hne, heq⟩
    exact hne heq
  · simp only [hempty, if_false, Except.ok.injEq]
    constructor
    · intro heq
      rw [heq] at hempty
      exact ⟨hempty, heq.symm⟩
    · rintro ⟨-, heq⟩
      exact heq.symm

theorem findResponsibility_eq_ok {objectID : PhysicalObjectID} {aggregate : Aggregate} :
    repository.findResponsibility objectID = .ok aggregate ↔
      ∃ row, repository.snapshots objectID = some row ∧ (row.scan objectID).Valid ∧
        aggregate = Aggregate.ofSnapshot (row.scan objectID) := by
  simp only [findResponsibility, bind_eq_ok, rejectIf_eq_ok, exists_const, not_not,
    newPhysicalObjectID_eq_self_iff]
  cases repository.snapshots objectID with
  | none => simp
  | some row =>
      have hutc : (row.scan objectID).inUTC = row.scan objectID :=
        Snapshot.inUTC_eq_self row.assignedAt.utc
      simp only [rehydrate_eq_ok, Option.some.injEq, exists_eq_left', hutc]
      constructor
      · rintro ⟨-, h⟩
        exact h
      · intro h
        exact ⟨h.1.object_canonical, h⟩

/-! ## Committing -/

theorem updateAssignment_eq_ok {updated : DurableRepository} {normalized : Snapshot}
    {version : Bigint} :
    repository.updateAssignment normalized version expectedVersion event = .ok updated ↔
      ∃ row, repository.snapshots normalized.objectID = some row ∧
        (row.version.value = expectedVersion ∧ row.participantID = event.fromParticipantID ∧
          row.assignedAt.time.Before (Timestamptz.ofTime normalized.assignedAt).time) ∧
        updated = { repository with
          snapshots := Function.update repository.snapshots normalized.objectID
            (some (normalized.row version)) } := by
  unfold updateAssignment
  cases repository.snapshots normalized.objectID with
  | none => simp
  | some row =>
      simp only [bind_eq_ok, rejectIf_eq_ok, pure_eq_ok, exists_const, not_or, ne_eq, not_not,
        Option.some.injEq, exists_eq_left']
      exact and_congr_right fun _ => eq_comm

theorem insertEvent_eq_ok {inserted : DurableRepository} :
    repository.insertEvent event = .ok inserted ↔
      repository.events (event.objectID, event.version) = none ∧
        inserted = { repository with
          events := Function.update repository.events (event.objectID, event.version)
            (some ⟨event.fromParticipantID, event.toParticipantID,
              .ofTime event.transferredAt⟩) } := by
  simp only [insertEvent, bind_eq_ok, rejectIf_eq_ok, exists_const, pure_eq_ok,
    Option.not_isSome_iff_eq_none]
  exact and_congr_right fun _ => eq_comm

theorem updateHandover_eq_ok {next : DurableRepository} {normalized : Snapshot} {version : Bigint} :
    repository.updateHandover normalized version expectedVersion event = .ok next ↔
      ∃ row, repository.snapshots normalized.objectID = some row ∧
        (row.version.value = expectedVersion ∧ row.participantID = event.fromParticipantID ∧
          row.assignedAt.time.Before (Timestamptz.ofTime normalized.assignedAt).time) ∧
        repository.events (event.objectID, event.version) = none ∧
        next = ⟨Function.update repository.snapshots normalized.objectID
            (some (normalized.row version)),
          Function.update repository.events (event.objectID, event.version)
            (some ⟨event.fromParticipantID, event.toParticipantID,
              .ofTime event.transferredAt⟩)⟩ := by
  simp only [updateHandover, bind_eq_ok, updateAssignment_eq_ok, insertEvent_eq_ok]
  constructor
  · rintro ⟨_, ⟨row, hrow, hexpected, rfl⟩, hfree, rfl⟩
    exact ⟨row, hrow, hexpected, hfree, rfl⟩
  · rintro ⟨row, hrow, hexpected, hfree, rfl⟩
    exact ⟨_, ⟨row, hrow, hexpected, rfl⟩, hfree, rfl⟩

/-- The events of the table do not run ahead of the stored version. -/
def Unrecorded (repository : DurableRepository) : Prop :=
  ∀ objectID version,
    (∀ row, repository.snapshots objectID = some row →
      row.version.value.toNat < (version : UInt64).toNat) →
    repository.events (objectID, version) = none

theorem commitTransfer_eq_ok {next : DurableRepository} :
    repository.commitTransfer snapshot expectedVersion event = .ok next ↔
      TransferCommit snapshot expectedVersion event ∧
      ∃ version : Bigint, version.value = snapshot.version ∧
        repository.updateHandover snapshot.inUTC version expectedVersion event = .ok next := by
  simp only [commitTransfer, bind_eq_ok, validateTransferCommit_eq_ok, Bigint.encode_eq_ok]
  constructor
  · rintro ⟨_, ⟨hcommit, rfl⟩, _, -, version, hversion, hupdate⟩
    exact ⟨hcommit, version, hversion, hupdate⟩
  · rintro ⟨hcommit, version, hversion, hupdate⟩
    exact ⟨_, ⟨hcommit, rfl⟩, (), hcommit.event_valid, version, hversion, hupdate⟩

theorem Unrecorded.commitTransfer {next : DurableRepository} (h : repository.Unrecorded)
    (hcommit : repository.commitTransfer snapshot expectedVersion event = .ok next) :
    next.Unrecorded := by
  obtain ⟨hvalid, stored, hstored, hupdate⟩ := commitTransfer_eq_ok.mp hcommit
  obtain ⟨row, hrow, ⟨hversion, -, -⟩, -, rfl⟩ := updateHandover_eq_ok.mp hupdate
  intro objectID version hlater
  have hsucc : snapshot.version.toNat = expectedVersion.toNat + 1 := hvalid.succeeds
  by_cases hobject : objectID = snapshot.objectID
  · subst hobject
    have hnew : stored.value.toNat < version.toNat :=
      hlater _ (Function.update_self _ _ _)
    rw [hstored] at hnew
    have hne : (snapshot.objectID, version) ≠ (event.objectID, event.version) := by
      intro heq
      rw [(Prod.mk.inj heq).2, hvalid.version_eq] at hnew
      omega
    refine (Function.update_of_ne hne _ _).trans (h _ _ ?_)
    intro other hother
    have hsame : other = row := Option.some.inj (hother.symm.trans hrow)
    rw [hsame, hversion]
    omega
  · have hne : (objectID, version) ≠ (event.objectID, event.version) := by
      intro heq
      exact hobject ((Prod.mk.inj heq).1.trans hvalid.object_eq)
    refine (Function.update_of_ne hne _ _).trans (h _ _ ?_)
    intro other hother
    exact hlater other ((Function.update_of_ne hobject _ _).trans hother)

theorem Unrecorded.saveResponsibility {next : DurableRepository} (h : repository.Unrecorded)
    (hsave : repository.saveResponsibility snapshot expectedVersion = .ok next) :
    next.Unrecorded := by
  obtain ⟨normalized, hnormalized, hsave⟩ := bind_eq_ok.mp hsave
  obtain ⟨-, hsucc, rfl⟩ := normalizedSnapshot_eq_ok.mp hnormalized
  obtain ⟨stored, hencode, hsave⟩ := bind_eq_ok.mp hsave
  have hstored : stored.value = snapshot.version := Bigint.encode_eq_ok.mp hencode
  obtain ⟨_, hguard, hnext⟩ := bind_eq_ok.mp hsave
  rw [pure_eq_ok] at hnext
  subst hnext
  have hsucc' : snapshot.version.toNat = expectedVersion.toNat + 1 := hsucc
  intro objectID version hlater
  refine h objectID version ?_
  intro other hother
  by_cases hobject : objectID = snapshot.objectID
  · subst hobject
    have hnew : stored.value.toNat < version.toNat :=
      hlater _ (Function.update_self _ _ _)
    rw [hstored] at hnew
    change repository.snapshots snapshot.inUTC.objectID = some other at hother
    rw [hother] at hguard
    split at hguard
    · cases (rejectIf_eq_ok.mp hguard) rfl
    · rw [rejectIf_eq_ok, not_or, not_not] at hguard
      rw [hguard.1]
      omega
  · exact hlater other ((Function.update_of_ne hobject _ _).trans hother)

/-- No sequence of operations records events ahead of the stored versions. -/
theorem run_unrecorded (ops : List RepositoryOp) : (new.run ops).Unrecorded := by
  have hnew : new.Unrecorded := fun _ _ _ => rfl
  generalize new = repository at hnew
  induction ops generalizing repository with
  | nil => exact hnew
  | cons op ops ih =>
      refine ih _ ?_
      cases op with
      | saveResponsibility snapshot expectedVersion =>
          simp only [handle]
          cases hsave : repository.saveResponsibility snapshot expectedVersion with
          | error err => exact hnew
          | ok next => exact hnew.saveResponsibility hsave
      | commitTransfer snapshot expectedVersion event =>
          simp only [handle]
          cases hcommit : repository.commitTransfer snapshot expectedVersion event with
          | error err => exact hnew
          | ok next => exact hnew.commitTransfer hcommit
      | findResponsibility objectID => exact hnew
      | findTransfer objectID version => exact hnew

end DurableRepository

end Responsibility
end CargoPds
