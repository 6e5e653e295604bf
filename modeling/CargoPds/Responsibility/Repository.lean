import Mathlib.Logic.Function.Basic
import CargoPds.Concurrency.Program
import CargoPds.Responsibility.Aggregate

/-!
# The responsibility repository and its service

`MemoryRepository` keeps one versioned snapshot per object and one event per
handover.  The service reads a snapshot, transfers it in memory and commits the
result, so each of its calls is a program of two repository operations between
which other clients may run.
-/

namespace CargoPds
namespace Responsibility

open Fallible Text Concurrency

variable {target : ParticipantID} {transferredAt : Time} {expectedVersion : UInt64}
variable {expected : Snapshot}

/-- The operations of the `Repository` interface. -/
inductive RepositoryOp where
  | saveResponsibility (snapshot : Snapshot) (expectedVersion : UInt64)
  | findResponsibility (objectID : PhysicalObjectID)
  | commitTransfer (snapshot : Snapshot) (expectedVersion : UInt64) (event : TransferredEvent)
  | findTransfer (objectID : PhysicalObjectID) (version : UInt64)
deriving DecidableEq, Repr

/-- The type of reply to each operation. -/
abbrev RepositoryOp.Reply : RepositoryOp → Type
  | saveResponsibility _ _ => Except Error Unit
  | findResponsibility _ => Except Error Aggregate
  | commitTransfer _ _ _ => Except Error Unit
  | findTransfer _ _ => Except Error TransferredEvent

/-- The `Repository` interface. -/
abbrev repositoryInterface : Interface := ⟨RepositoryOp, RepositoryOp.Reply⟩

/-! ## Validation shared by every repository -/

def normalizedSnapshot (snapshot : Snapshot) (expectedVersion : UInt64) :
    Except Error Snapshot := do
  let aggregate ← rehydrate snapshot
  rejectIf (expectedVersion = ~~~(0 : UInt64) ∨ aggregate.version ≠ expectedVersion + 1)
    .invalidVersionTransition
  return aggregate.snapshot

def validateTransferCommit (snapshot : Snapshot) (expectedVersion : UInt64)
    (event : TransferredEvent) : Except Error Snapshot := do
  let normalized ← normalizedSnapshot snapshot expectedVersion
  rejectIf (expectedVersion = 0 ∨ event.objectID ≠ normalized.objectID ∨
    event.fromParticipantID = event.toParticipantID ∨
    event.toParticipantID ≠ normalized.participantID ∨
    event.version ≠ normalized.version ∨
    ¬ event.transferredAt.Equal normalized.assignedAt) .invalidTransferCommit
  orElseError (validateTransferredEvent event) .invalidTransferCommit
  return normalized

/-- The version of a snapshot is the successor of the expected one, without
wrapping around. -/
def Succeeds (expectedVersion version : UInt64) : Prop :=
  version.toNat = expectedVersion.toNat + 1

theorem succeeds_iff {version : UInt64} :
    Succeeds expectedVersion version ↔
      expectedVersion ≠ ~~~(0 : UInt64) ∧ version = expectedVersion + 1 := by
  have hmax : (~~~(0 : UInt64)).toNat = 2 ^ 64 - 1 := by decide
  have hbound := expectedVersion.toNat_lt
  have hversion := version.toNat_lt
  have hadd : (expectedVersion + 1).toNat = (expectedVersion.toNat + 1) % 2 ^ 64 := by
    rw [UInt64.toNat_add]
    rfl
  rw [Ne, ← UInt64.toNat_inj, ← UInt64.toNat_inj, hmax, hadd, Succeeds]
  omega

theorem normalizedSnapshot_eq_ok {snapshot normalized : Snapshot} :
    normalizedSnapshot snapshot expectedVersion = .ok normalized ↔
      snapshot.Valid ∧ Succeeds expectedVersion snapshot.version ∧
        normalized = snapshot.inUTC := by
  simp only [normalizedSnapshot, bind_eq_ok, rehydrate_eq_ok, rejectIf_eq_ok, pure_eq_ok,
    exists_const, not_or, ne_eq, not_not, succeeds_iff]
  constructor
  · rintro ⟨_, ⟨hvalid, rfl⟩, hversion, rfl⟩
    exact ⟨hvalid, hversion, rfl⟩
  · rintro ⟨hvalid, hversion, rfl⟩
    exact ⟨_, ⟨hvalid, rfl⟩, hversion, rfl⟩

/-- What `ValidateTransferCommit` asks of a snapshot and the event that goes
with it. -/
structure TransferCommit (snapshot : Snapshot) (expectedVersion : UInt64)
    (event : TransferredEvent) : Prop where
  valid : snapshot.Valid
  succeeds : Succeeds expectedVersion snapshot.version
  expected_ne_zero : expectedVersion ≠ 0
  object_eq : event.objectID = snapshot.objectID
  changes : event.fromParticipantID ≠ event.toParticipantID
  target_eq : event.toParticipantID = snapshot.participantID
  version_eq : event.version = snapshot.version
  time_eq : event.transferredAt.Equal snapshot.assignedAt
  from_canonical : Canonical event.fromParticipantID

/-- The event of an accepted commit is valid in itself. -/
theorem TransferCommit.event_valid {snapshot : Snapshot} {event : TransferredEvent}
    (h : TransferCommit snapshot expectedVersion event) :
    validateTransferredEvent event = .ok () := by
  have htime : ¬ event.transferredAt.IsZero := by
    intro hevent
    exact h.valid.assigned (h.time_eq.symm.trans hevent)
  have hversion : ¬ event.version < 2 := by
    intro hlt
    have hexpected : expectedVersion.toNat ≠ 0 := fun hzero =>
      h.expected_ne_zero (UInt64.toNat_inj.mp hzero)
    have hsucc : snapshot.version.toNat = expectedVersion.toNat + 1 := h.succeeds
    rw [h.version_eq, UInt64.lt_iff_toNat_lt] at hlt
    change snapshot.version.toNat < 2 at hlt
    omega
  refine validateTransferredEvent_eq_ok.mpr
    ⟨⟨hversion, h.changes, htime⟩, ?_, h.from_canonical, ?_⟩
  · rw [h.object_eq]
    exact h.valid.object_canonical
  · rw [h.target_eq]
    exact h.valid.participant_canonical

theorem validateTransferCommit_eq_ok {snapshot normalized : Snapshot} {event : TransferredEvent} :
    validateTransferCommit snapshot expectedVersion event = .ok normalized ↔
      TransferCommit snapshot expectedVersion event ∧ normalized = snapshot.inUTC := by
  simp only [validateTransferCommit, bind_eq_ok, normalizedSnapshot_eq_ok, rejectIf_eq_ok,
    orElseError_eq_ok, pure_eq_ok, exists_const, not_or, ne_eq, not_not]
  constructor
  · rintro ⟨_, ⟨hvalid, hsucc, rfl⟩, ⟨hzero, hobject, hchange, htarget, hversion, htime⟩,
      _, hevent, rfl⟩
    have hfrom := (validateTransferredEvent_eq_ok.mp hevent).2.2.1
    exact ⟨⟨hvalid, hsucc, hzero, hobject, hchange, htarget, hversion, htime, hfrom⟩, rfl⟩
  · rintro ⟨h, rfl⟩
    exact ⟨_, ⟨h.valid, h.succeeds, rfl⟩,
      ⟨h.expected_ne_zero, h.object_eq, h.changes, h.target_eq, h.version_eq, h.time_eq⟩,
      (), h.event_valid, rfl⟩

/-! ## The in-memory repository -/

/-- The two maps of `MemoryRepository`; the mutex makes each operation atomic. -/
structure MemoryRepository where
  snapshots : PhysicalObjectID → Option Snapshot
  transfers : PhysicalObjectID × UInt64 → Option TransferredEvent

namespace MemoryRepository

/-- `NewMemoryRepository`. -/
def new : MemoryRepository := ⟨fun _ => none, fun _ => none⟩

def commitTransfer (repository : MemoryRepository) (snapshot : Snapshot)
    (expectedVersion : UInt64) (event : TransferredEvent) : Except Error MemoryRepository := do
  let normalized ← validateTransferCommit snapshot expectedVersion event
  match repository.snapshots normalized.objectID with
  | none => .error .concurrentModification
  | some current =>
      rejectIf (current.version ≠ expectedVersion ∨
        current.participantID ≠ event.fromParticipantID ∨
        ¬ normalized.assignedAt.After current.assignedAt) .concurrentModification
      let key := (normalized.objectID, normalized.version)
      rejectIf (repository.transfers key).isSome .concurrentModification
      let event := { event with transferredAt := normalized.assignedAt }
      return ⟨Function.update repository.snapshots normalized.objectID (some normalized),
        Function.update repository.transfers key (some event)⟩

def findTransfer (repository : MemoryRepository) (objectID : PhysicalObjectID)
    (version : UInt64) : Except Error TransferredEvent := do
  validateObjectID objectID
  match repository.transfers (objectID, version) with
  | none => .error .transferNotFound
  | some event => .ok event

def saveResponsibility (repository : MemoryRepository) (snapshot : Snapshot)
    (expectedVersion : UInt64) : Except Error MemoryRepository := do
  let normalized ← normalizedSnapshot snapshot expectedVersion
  (if expectedVersion = 0 then
    rejectIf (repository.snapshots normalized.objectID).isSome .concurrentModification
  else
    match repository.snapshots normalized.objectID with
    | none => .error .concurrentModification
    | some current =>
        rejectIf (current.version ≠ expectedVersion ∨
          current.participantID = normalized.participantID ∨
          ¬ normalized.assignedAt.After current.assignedAt) .concurrentModification)
  return { repository with
    snapshots := Function.update repository.snapshots normalized.objectID (some normalized) }

def findResponsibility (repository : MemoryRepository) (objectID : PhysicalObjectID) :
    Except Error Aggregate := do
  validateObjectID objectID
  match repository.snapshots objectID with
  | none => .error .notFound
  | some snapshot => rehydrate snapshot

/-- A write either replaces the repository or reports its error. -/
def write (repository : MemoryRepository) (outcome : Except Error MemoryRepository) :
    Except Error Unit × MemoryRepository :=
  match outcome with
  | .ok next => (.ok (), next)
  | .error err => (.error err, repository)

/-- One operation on the repository, under its mutex. -/
def handle (op : RepositoryOp) (repository : MemoryRepository) :
    op.Reply × MemoryRepository :=
  match op with
  | .saveResponsibility snapshot expectedVersion =>
      repository.write (repository.saveResponsibility snapshot expectedVersion)
  | .findResponsibility objectID => (repository.findResponsibility objectID, repository)
  | .commitTransfer snapshot expectedVersion event =>
      repository.write (repository.commitTransfer snapshot expectedVersion event)
  | .findTransfer objectID version => (repository.findTransfer objectID version, repository)

end MemoryRepository

/-! ## The service -/

/-- A fallible client of the `Repository` interface. -/
abbrev Client (α : Type) := ExceptT Error (Program repositoryInterface) α

namespace Repository

/-- Call `SaveResponsibility`. -/
def saveResponsibility (snapshot : Snapshot) (expectedVersion : UInt64) : Client Unit :=
  Program.attempt (Program.perform (I := repositoryInterface)
    (.saveResponsibility snapshot expectedVersion))

/-- Call `FindResponsibility`. -/
def findResponsibility (objectID : PhysicalObjectID) : Client Aggregate :=
  Program.attempt (Program.perform (I := repositoryInterface) (.findResponsibility objectID))

/-- Call `CommitTransfer`. -/
def commitTransfer (snapshot : Snapshot) (expectedVersion : UInt64)
    (event : TransferredEvent) : Client Unit :=
  Program.attempt (Program.perform (I := repositoryInterface)
    (.commitTransfer snapshot expectedVersion event))

end Repository

namespace Service

def transferLoaded (aggregate : Aggregate) (target : ParticipantID) (transferredAt : Time) :
    Client Snapshot := do
  let expectedVersion := aggregate.snapshot.version
  let aggregate ← Program.compute (aggregate.transfer target transferredAt)
  match aggregate.pendingTransfer with
  | none => throw .invalidTransferCommit
  | some event =>
      let snapshot := aggregate.snapshot
      Repository.commitTransfer snapshot expectedVersion event
      return snapshot

def transfer (objectID : PhysicalObjectID) (target : ParticipantID) (transferredAt : Time) :
    Client Snapshot := do
  let aggregate ← Repository.findResponsibility objectID
  transferLoaded aggregate target transferredAt

def transferExpected (expected : Snapshot) (target : ParticipantID) (transferredAt : Time) :
    Client Snapshot := do
  let validated ← Program.compute (rehydrate expected)
  let expected := validated.snapshot
  let aggregate ← Repository.findResponsibility expected.objectID
  Program.compute (rejectIf (aggregate.snapshot ≠ expected) .concurrentModification)
  transferLoaded aggregate target transferredAt

/-- A read followed by the rest of the call, or by its error. -/
def afterFind (rest : Aggregate → Client Snapshot) (reply : Except Error Aggregate) :
    Program repositoryInterface (Except Error Snapshot) :=
  match reply with
  | .ok aggregate => (rest aggregate).run
  | .error err => .done (.error err)

theorem transferLoaded_run_of_error {aggregate : Aggregate} {err : Error}
    (h : aggregate.transfer target transferredAt = .error err) :
    (transferLoaded aggregate target transferredAt).run = .done (.error err) := by
  simp only [transferLoaded, h]
  rfl

/-- A loaded aggregate that can be transferred takes one commit. -/
theorem transferLoaded_run_of_ok {aggregate next : Aggregate}
    (h : aggregate.transfer target transferredAt = .ok next) :
    (transferLoaded aggregate target transferredAt).run =
      .call (.commitTransfer next.snapshot aggregate.version
          (aggregate.transferEvent target transferredAt))
        fun reply : Except Error Unit => .done (reply.map fun _ => next.snapshot) := by
  obtain ⟨-, rfl⟩ := Aggregate.transfer_eq_ok.mp h
  simp only [transferLoaded, h]
  refine congrArg (Program.call _) (funext fun reply => ?_)
  cases reply <;> rfl

theorem transfer_run (objectID : PhysicalObjectID) (target : ParticipantID)
    (transferredAt : Time) :
    (transfer objectID target transferredAt).run =
      .call (.findResponsibility objectID)
        (afterFind fun aggregate => transferLoaded aggregate target transferredAt) := by
  refine congrArg (Program.call _) (funext fun reply => ?_)
  cases reply <;> rfl

theorem transferExpected_run_of_error {err : Error} (h : rehydrate expected = .error err) :
    (transferExpected expected target transferredAt).run = .done (.error err) := by
  simp only [transferExpected, h]
  rfl

theorem transferExpected_run_of_ok {validated : Aggregate}
    (h : rehydrate expected = .ok validated) :
    (transferExpected expected target transferredAt).run =
      .call (.findResponsibility expected.objectID)
        (afterFind fun aggregate =>
          if aggregate.snapshot = expected.inUTC then
            transferLoaded aggregate target transferredAt
          else throw .concurrentModification) := by
  obtain ⟨-, rfl⟩ := rehydrate_eq_ok.mp h
  simp only [transferExpected, h]
  refine congrArg (Program.call _) (funext fun reply => ?_)
  cases reply with
  | error err => rfl
  | ok aggregate =>
      change (Program.compute (rejectIf (aggregate.snapshot ≠ expected.inUTC)
        Error.concurrentModification) >>= fun _ => _ : Client Snapshot).run = _
      by_cases hsame : aggregate.snapshot = expected.inUTC
      · rw [rejectIf_of_not _ (not_not.mpr hsame)]
        simp only [afterFind, hsame, if_true]
        rfl
      · rw [rejectIf_of _ hsame]
        simp only [afterFind, hsame, if_false]
        rfl

/-- Against a repository that answers in any way, a handover that succeeds found
the expected assignment, could transfer it, and had its commit acknowledged. -/
theorem transferExpected_answer_ok {respond : (op : RepositoryOp) → op.Reply} {updated : Snapshot}
    (h : (transferExpected expected target transferredAt).run.answer respond = .ok updated) :
    (Aggregate.ofSnapshot expected.inUTC).CanTransfer target transferredAt ∧
      updated = ⟨expected.objectID, target, expected.version + 1, transferredAt.toUTC⟩ := by
  cases hvalid : rehydrate expected with
  | error err =>
      rw [transferExpected_run_of_error hvalid] at h
      cases h
  | ok validated =>
      rw [transferExpected_run_of_ok hvalid, Program.answer_call] at h
      cases hfind : respond (.findResponsibility expected.objectID) with
      | error err =>
          rw [hfind] at h
          cases h
      | ok aggregate =>
          rw [hfind, afterFind] at h
          split at h
          · rename_i hsame
            cases htransfer : aggregate.transfer target transferredAt with
            | error err =>
                rw [transferLoaded_run_of_error htransfer] at h
                cases h
            | ok next =>
                rw [transferLoaded_run_of_ok htransfer, Program.answer_call,
                  Program.answer_done] at h
                obtain ⟨hcan, rfl⟩ := Aggregate.transfer_eq_ok.mp htransfer
                have hupdated := map_eq_ok.mp h
                obtain ⟨_, -, rfl⟩ := hupdated
                rw [← hsame]
                have hobject : aggregate.objectID = expected.objectID :=
                  congrArg Snapshot.objectID hsame
                have hversion : aggregate.version = expected.version :=
                  congrArg Snapshot.version hsame
                refine ⟨⟨hcan.1, hcan.2, hcan.3, hcan.4⟩, ?_⟩
                rw [← hobject, ← hversion]
                rfl
          · cases h

end Service

end Responsibility
end CargoPds
