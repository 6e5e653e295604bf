import CargoPds.Responsibility.Repository

/-!
# The safety machine

The machine guards the handover of one physical object.  A handover is
proposed, verified against a permit and committed; anything unexpected leads to
`HALT`, and motion is authorised only from the permit that was verified.

Operations that change the machine and also fail return both the result and the
machine they leave behind.
-/

namespace CargoPds
namespace Safety

open Text Concurrency Responsibility

inductive State where
  | idle
  | proposed
  | verified
  | committed
  | rejected
  | halt
deriving DecidableEq, Repr

/-- Reasons are strings in the source, and `Halt` takes any of them. -/
inductive Reason where
  | none
  | invalidTransition
  | invalidEvidence
  | evidenceExpired
  | authorizationBinding
  | concurrentChange
  | commitFailed
  | manualHalt
  | motionStateBlocked
  | other (text : String)
deriving DecidableEq, Repr

inductive Error where
  | invalidTransition
  | invalidPermit
  | serviceRequired
  | responsibility (err : Responsibility.Error)
deriving DecidableEq, Repr

structure Permit where
  objectID : PhysicalObjectID
  fromParticipantID : ParticipantID
  toParticipantID : ParticipantID
  policyID : String
  policyVersion : String
  evidenceVersion : String
  evaluatedAt : Time
  validUntil : Time
  admissible : Bool
deriving DecidableEq, Repr

namespace Permit

/-- The zero value `Permit{}`. -/
def zero : Permit := ⟨"", "", "", "", "", "", Time.zero, Time.zero, false⟩

/-- The permit with both of its times in UTC, as `Verify` stores it. -/
def inUTC (permit : Permit) : Permit :=
  { permit with
    evaluatedAt := permit.evaluatedAt.toUTC, validUntil := permit.validUntil.toUTC }

/-- The moment lies in the window in which the permit authorises. -/
def Covers (permit : Permit) (moment : Time) : Prop :=
  permit.evaluatedAt.instant ≤ moment.instant ∧ moment.instant ≤ permit.validUntil.instant
deriving Decidable

end Permit

structure Machine where
  state : State
  reason : Reason
  responsibility : Snapshot
  proposed : ParticipantID
  verifiedPermit : Permit
  hasVerifiedPermit : Bool
deriving DecidableEq, Repr

def newMachine (current : Snapshot) : Except Responsibility.Error Machine := do
  let aggregate ← rehydrate current
  return ⟨.idle, .none, aggregate.snapshot, "", Permit.zero, false⟩

/-- The identity of one motion command. -/
structure MotionRequest where
  commandID : String
  sequence : UInt64
  objectID : PhysicalObjectID
  responsibleParticipant : ParticipantID
  targetParticipant : ParticipantID
deriving DecidableEq, Repr

structure MotionDecision where
  allowed : Bool
  reason : Reason
  state : State
  commandID : String
  sequence : UInt64
  objectID : PhysicalObjectID
  responsibleParticipant : ParticipantID
  targetParticipant : ParticipantID
  policyID : String
  policyVersion : String
  evidenceVersion : String
  validUntil : Time
deriving DecidableEq, Repr

namespace Machine

def clearVerifiedPermit (machine : Machine) : Machine :=
  { machine with verifiedPermit := Permit.zero, hasVerifiedPermit := false }

def enterHalt (machine : Machine) (reason : Reason) : Machine :=
  { machine.clearVerifiedPermit with proposed := "", state := .halt, reason := reason }

def validatePermit (machine : Machine) (permit : Permit) (now : Time)
    (target : ParticipantID) : Reason :=
  if now.IsZero ∨ permit.admissible = false ∨ trimSpace permit.policyID = "" ∨
      trimSpace permit.policyVersion = "" ∨ trimSpace permit.evidenceVersion = "" ∨
      permit.evaluatedAt.IsZero ∨ permit.validUntil.IsZero then
    .invalidEvidence
  else if permit.objectID ≠ machine.responsibility.objectID ∨
      permit.fromParticipantID ≠ machine.responsibility.participantID ∨
      permit.toParticipantID ≠ target then
    .authorizationBinding
  else if permit.evaluatedAt.After now.toUTC ∨ now.toUTC.After permit.validUntil ∨
      permit.validUntil.Before permit.evaluatedAt then
    .evidenceExpired
  else .none

def propose (machine : Machine) (target : ParticipantID) : Except Error Unit × Machine :=
  if machine.state ≠ .idle ∧ machine.state ≠ .committed then
    (.error .invalidTransition, machine)
  else if newParticipantID target ≠ .ok target ∨
      target = machine.responsibility.participantID then
    (.error .invalidTransition,
      { machine with state := .rejected, reason := .invalidTransition })
  else
    (.ok (), { machine.clearVerifiedPermit with
      proposed := target, state := .proposed, reason := .none })

def verify (machine : Machine) (permit : Permit) (now : Time) : Except Error Unit × Machine :=
  if machine.state ≠ .proposed then
    (.error .invalidTransition, machine)
  else if machine.validatePermit permit now machine.proposed ≠ .none then
    (.error .invalidPermit,
      machine.enterHalt (machine.validatePermit permit now machine.proposed))
  else
    (.ok (), { machine with
      verifiedPermit := permit.inUTC, hasVerifiedPermit := true,
      state := .verified, reason := .none })

/-- The part of `Commit` after the service has answered. -/
def finishCommit (machine : Machine) (answer : Except Responsibility.Error Snapshot) :
    Except Error Snapshot × Machine :=
  match answer with
  | .error err =>
      (.error (.responsibility err), machine.enterHalt
        (if err = .concurrentModification then .concurrentChange else .commitFailed))
  | .ok updated =>
      (.ok updated, { machine.clearVerifiedPermit with
        responsibility := updated, proposed := "", state := .committed, reason := .none })

/-- `Commit`.  The service may be absent; its repository is the object that the
program runs on. -/
def commit (machine : Machine) (servicePresent : Bool) (committedAt : Time) :
    Program repositoryInterface (Except Error Snapshot × Machine) :=
  if machine.state ≠ .verified then
    .done (.error .invalidTransition, machine)
  else if servicePresent = false then
    .done (.error .serviceRequired, machine.enterHalt .commitFailed)
  else do
    let answer ←
      (Service.transferExpected machine.responsibility machine.proposed committedAt).run
    return machine.finishCommit answer

/-- `Halt`. -/
def halt (machine : Machine) (reason : Reason) : Machine :=
  machine.enterHalt (if reason = .none then .manualHalt else reason)

def recover (machine : Machine) (permit : Permit) (now : Time) : Except Error Unit × Machine :=
  if machine.state ≠ .halt then
    (.error .invalidTransition, machine)
  else if machine.validatePermit permit now machine.responsibility.participantID ≠ .none then
    (.error .invalidPermit, { machine with
      reason := machine.validatePermit permit now machine.responsibility.participantID })
  else
    (.ok (), { machine.clearVerifiedPermit with
      proposed := "", state := .idle, reason := .none })

/-- The decision that names the machine's present bindings and allows nothing. -/
def blockedDecision (machine : Machine) (state : State) (reason : Reason) : MotionDecision :=
  ⟨false, reason, state, "", 0, machine.responsibility.objectID,
    machine.responsibility.participantID, machine.proposed, "", "", "", Time.zero⟩

/-- `AuthorizeMotion`. -/
def authorizeMotion (machine : Machine) (request : MotionRequest) (now : Time) :
    MotionDecision × Machine :=
  let permit := machine.verifiedPermit
  if machine.state ≠ .verified ∨ machine.hasVerifiedPermit = false then
    (machine.blockedDecision machine.state .motionStateBlocked, machine)
  else if trimSpace request.commandID = "" ∨ request.commandID ≠ trimSpace request.commandID ∨
      request.sequence = 0 ∨ request.objectID ≠ machine.responsibility.objectID ∨
      request.responsibleParticipant ≠ machine.responsibility.participantID ∨
      request.targetParticipant ≠ machine.proposed then
    (machine.blockedDecision .halt .authorizationBinding,
      machine.enterHalt .authorizationBinding)
  else if machine.validatePermit permit now machine.proposed ≠ .none then
    (machine.blockedDecision .halt (machine.validatePermit permit now machine.proposed),
      machine.enterHalt (machine.validatePermit permit now machine.proposed))
  else
    (⟨true, .none, .verified, request.commandID, request.sequence, request.objectID,
      request.responsibleParticipant, request.targetParticipant, permit.policyID,
      permit.policyVersion, permit.evidenceVersion, permit.validUntil⟩, machine)

end Machine

end Safety
end CargoPds
