import CargoPds.Foundation.Fallible
import CargoPds.Foundation.Text
import CargoPds.Foundation.Time

/-!
# The responsibility aggregate

One physical object has exactly one responsible participant.  The aggregate
holds the current assignment, its version and the event of the latest transfer.
-/

namespace CargoPds
namespace Responsibility

open Fallible Text

variable {u : Unit}

abbrev PhysicalObjectID := String
abbrev ParticipantID := String

/-- Errors of the package.  The identifiers are quoted where the source wraps
the sentinel with the refused value. -/
inductive Error where
  | objectIDRequired (quoted : Option PhysicalObjectID)
  | participantIDRequired (quoted : Option ParticipantID)
  | assignmentTime
  | invalidSnapshot
  | sameParticipant
  | transferTime
  | transferEventInvalid
  | notFound
  | concurrentModification
  | invalidVersionTransition
  | invalidTransferCommit
  | transferNotFound
  | repositoryRequired
  | database
deriving DecidableEq, Repr

/-- The durable form of one assignment. -/
structure Snapshot where
  objectID : PhysicalObjectID
  participantID : ParticipantID
  version : UInt64
  assignedAt : Time
deriving DecidableEq, Repr

/-- The immutable record of one handover. -/
structure TransferredEvent where
  objectID : PhysicalObjectID
  fromParticipantID : ParticipantID
  toParticipantID : ParticipantID
  transferredAt : Time
  version : UInt64
deriving DecidableEq, Repr

/-- The in-memory aggregate; `pendingEvent` is present while the source's
`hasPending` is set. -/
structure Aggregate where
  objectID : PhysicalObjectID
  participantID : ParticipantID
  version : UInt64
  assignedAt : Time
  pendingEvent : Option TransferredEvent
deriving DecidableEq, Repr

/-! ## Validation -/

def newPhysicalObjectID (value : String) : Except Error PhysicalObjectID :=
  let value := trimSpace value
  if value = "" then .error (.objectIDRequired none) else .ok value

def newParticipantID (value : String) : Except Error ParticipantID :=
  let value := trimSpace value
  if value = "" then .error (.participantIDRequired none) else .ok value

def validateObjectID (id : PhysicalObjectID) : Except Error Unit :=
  rejectIf (id = "" ∨ id ≠ trimSpace id) (.objectIDRequired (some id))

def validateParticipantID (id : ParticipantID) : Except Error Unit :=
  rejectIf (id = "" ∨ id ≠ trimSpace id) (.participantIDRequired (some id))

def validateSnapshot (snapshot : Snapshot) : Except Error Unit := do
  rejectIf (snapshot.version = 0) .invalidSnapshot
  validateObjectID snapshot.objectID
  validateParticipantID snapshot.participantID
  rejectIf snapshot.assignedAt.IsZero .assignmentTime

def validateTransferredEvent (event : TransferredEvent) : Except Error Unit := do
  rejectIf (event.version < 2 ∨ event.fromParticipantID = event.toParticipantID ∨
    event.transferredAt.IsZero) .transferEventInvalid
  orElseError (validateObjectID event.objectID) .transferEventInvalid
  orElseError (validateParticipantID event.fromParticipantID) .transferEventInvalid
  orElseError (validateParticipantID event.toParticipantID) .transferEventInvalid

/-- What `validateSnapshot` asks of a snapshot. -/
structure Snapshot.Valid (snapshot : Snapshot) : Prop where
  version_ne_zero : snapshot.version ≠ 0
  object_canonical : Canonical snapshot.objectID
  participant_canonical : Canonical snapshot.participantID
  assigned : ¬ snapshot.assignedAt.IsZero

@[simp] theorem validateObjectID_eq_ok {id : PhysicalObjectID} :
    validateObjectID id = .ok u ↔ Canonical id := by
  simp only [validateObjectID, rejectIf_eq_ok, not_or, ne_eq, not_not]
  rfl

@[simp] theorem validateParticipantID_eq_ok {id : ParticipantID} :
    validateParticipantID id = .ok u ↔ Canonical id := by
  simp only [validateParticipantID, rejectIf_eq_ok, not_or, ne_eq, not_not]
  rfl

theorem validateSnapshot_eq_ok {snapshot : Snapshot} :
    validateSnapshot snapshot = .ok u ↔ snapshot.Valid := by
  simp only [validateSnapshot, bind_eq_ok, rejectIf_eq_ok, validateObjectID_eq_ok,
    validateParticipantID_eq_ok, exists_const]
  constructor
  · rintro ⟨hversion, hobject, hparticipant, hassigned⟩
    exact ⟨hversion, hobject, hparticipant, hassigned⟩
  · rintro ⟨hversion, hobject, hparticipant, hassigned⟩
    exact ⟨hversion, hobject, hparticipant, hassigned⟩

theorem validateTransferredEvent_eq_ok {event : TransferredEvent} :
    validateTransferredEvent event = .ok u ↔
      (¬ event.version < 2 ∧ event.fromParticipantID ≠ event.toParticipantID ∧
        ¬ event.transferredAt.IsZero) ∧
      Canonical event.objectID ∧ Canonical event.fromParticipantID ∧
        Canonical event.toParticipantID := by
  simp only [validateTransferredEvent, bind_eq_ok, rejectIf_eq_ok, orElseError_eq_ok,
    validateObjectID_eq_ok, validateParticipantID_eq_ok, exists_const, not_or, ne_eq]

/-! ## Construction -/

namespace Aggregate

/-- `Snapshot`. -/
def snapshot (aggregate : Aggregate) : Snapshot :=
  ⟨aggregate.objectID, aggregate.participantID, aggregate.version, aggregate.assignedAt⟩

/-- The aggregate of a validated snapshot, with no pending event. -/
def ofSnapshot (snapshot : Snapshot) : Aggregate :=
  ⟨snapshot.objectID, snapshot.participantID, snapshot.version, snapshot.assignedAt, none⟩

@[simp] theorem snapshot_ofSnapshot (s : Snapshot) : (ofSnapshot s).snapshot = s := rfl

end Aggregate

/-- The snapshot with its time moved to UTC. -/
def Snapshot.inUTC (snapshot : Snapshot) : Snapshot :=
  { snapshot with assignedAt := snapshot.assignedAt.toUTC }

/-- `Rehydrate`. -/
def rehydrate (snapshot : Snapshot) : Except Error Aggregate := do
  let snapshot := snapshot.inUTC
  validateSnapshot snapshot
  return Aggregate.ofSnapshot snapshot

theorem Snapshot.valid_inUTC_iff {snapshot : Snapshot} :
    snapshot.inUTC.Valid ↔ snapshot.Valid :=
  ⟨fun h => ⟨h.1, h.2, h.3, h.4⟩, fun h => ⟨h.1, h.2, h.3, h.4⟩⟩

theorem Snapshot.inUTC_eq_self {snapshot : Snapshot} (h : snapshot.assignedAt.IsUTC) :
    snapshot.inUTC = snapshot := by
  unfold Snapshot.inUTC
  rw [Time.toUTC_eq_of_isUTC h]

theorem rehydrate_eq_ok {snapshot : Snapshot} {aggregate : Aggregate} :
    rehydrate snapshot = .ok aggregate ↔
      snapshot.Valid ∧ aggregate = Aggregate.ofSnapshot snapshot.inUTC := by
  simp only [rehydrate, bind_eq_ok, validateSnapshot_eq_ok, Snapshot.valid_inUTC_iff,
    pure_eq_ok, exists_const]
  exact and_congr_right fun _ => eq_comm

/-! ## Transfer -/

namespace Aggregate

/-- `Transfer`: replace the sole responsible participant.  The version is a
machine word, so the increment wraps. -/
def transfer (aggregate : Aggregate) (target : ParticipantID) (transferredAt : Time) :
    Except Error Aggregate := do
  validateParticipantID target
  rejectIf (target = aggregate.participantID) .sameParticipant
  let transferredAt := transferredAt.toUTC
  rejectIf (transferredAt.IsZero ∨ ¬ transferredAt.After aggregate.assignedAt) .transferTime
  let nextVersion := aggregate.version + 1
  let event : TransferredEvent :=
    ⟨aggregate.objectID, aggregate.participantID, target, transferredAt, nextVersion⟩
  return { aggregate with
    participantID := target, assignedAt := transferredAt, version := nextVersion,
    pendingEvent := some event }

/-- `PendingTransfer`. -/
def pendingTransfer (aggregate : Aggregate) : Option TransferredEvent :=
  aggregate.pendingEvent

/-- The event that a transfer from `aggregate` records. -/
def transferEvent (aggregate : Aggregate) (target : ParticipantID) (transferredAt : Time) :
    TransferredEvent :=
  ⟨aggregate.objectID, aggregate.participantID, target, transferredAt.toUTC,
    aggregate.version + 1⟩

/-- The conditions under which `transfer` succeeds. -/
structure CanTransfer (aggregate : Aggregate) (target : ParticipantID)
    (transferredAt : Time) : Prop where
  target_canonical : Canonical target
  target_new : target ≠ aggregate.participantID
  time_nonzero : ¬ transferredAt.IsZero
  time_after : transferredAt.After aggregate.assignedAt

theorem transfer_eq_ok {aggregate next : Aggregate} {target : ParticipantID}
    {transferredAt : Time} :
    aggregate.transfer target transferredAt = .ok next ↔
      aggregate.CanTransfer target transferredAt ∧
        next = ⟨aggregate.objectID, target, aggregate.version + 1, transferredAt.toUTC,
          some (aggregate.transferEvent target transferredAt)⟩ := by
  simp only [transfer, bind_eq_ok, validateParticipantID_eq_ok, rejectIf_eq_ok, pure_eq_ok,
    exists_const, not_or, not_not]
  constructor
  · rintro ⟨hcanonical, hnew, ⟨hzero, hafter⟩, rfl⟩
    exact ⟨⟨hcanonical, hnew, hzero, hafter⟩, rfl⟩
  · rintro ⟨⟨hcanonical, hnew, hzero, hafter⟩, rfl⟩
    exact ⟨hcanonical, hnew, ⟨hzero, hafter⟩, rfl⟩

end Aggregate

end Responsibility
end CargoPds
