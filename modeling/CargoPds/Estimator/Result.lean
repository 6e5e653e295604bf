import CargoPds.Evidence.Types
import CargoPds.Responsibility.Aggregate

/-!
# Estimator results

A spatial estimator reports where a physical object is.  Its result carries what is
needed to repeat the estimate, and `Validate` checks that the estimate belongs to the
request it is said to answer.

The entries of a covariance are compared in floating-point arithmetic; that test is a
parameter, like the rest of the machine.
-/

namespace CargoPds

/-- `finite`: neither infinite nor not a number. -/
def Float64.IsFinite : Float64 → Prop
  | finite _ => True
  | _ => False

instance : (x : Float64) → Decidable x.IsFinite
  | .finite _ => isTrue trivial
  | .nan | .negativeInfinity | .infinity => isFalse id

namespace Spatial

open Fallible Text

inductive Error where
  | frameRequired
  | nonFiniteValue
  | invalidCovariance
  | confidenceRange
  | observedAtRequired
  | profileRequired
  | calibrationRequired
  | nonCanonicalEstimate
deriving DecidableEq, Repr

abbrev FrameID := String

def newFrameID (value : String) : Except Error FrameID := do
  rejectIf (trimSpace value = "") .frameRequired
  return trimSpace value

structure Vector3 where
  x : Float64
  y : Float64
  z : Float64
deriving DecidableEq, Repr

/-- The six independent entries of a symmetric matrix. -/
structure Covariance3 where
  xx : Float64
  xy : Float64
  xz : Float64
  yy : Float64
  yz : Float64
  zz : Float64
deriving DecidableEq, Repr

structure Estimate where
  frame : FrameID
  position : Vector3
  floor : Int32
  covariance : Covariance3
  confidence : Float64
  observedAt : Time
  profileID : String
  profileVersion : String
  calibrationVersion : String
deriving DecidableEq

/-- The zero value `Estimate{}`. -/
def Estimate.zero : Estimate :=
  ⟨"", ⟨.finite 0, .finite 0, .finite 0⟩, 0,
    ⟨.finite 0, .finite 0, .finite 0, .finite 0, .finite 0, .finite 0⟩, .finite 0, Time.zero,
    "", "", ""⟩

/-- `Validate` of a position. -/
def Vector3.validate (vector : Vector3) : Except Error Unit :=
  rejectIf (¬ vector.x.IsFinite ∨ ¬ vector.y.IsFinite ∨ ¬ vector.z.IsFinite) .nonFiniteValue

section
variable (positiveSemidefinite : Covariance3 → Bool)

/-- `Validate` of a covariance; the test of its minors is the parameter. -/
def Covariance3.validate (covariance : Covariance3) : Except Error Unit := do
  rejectIf (¬ covariance.xx.IsFinite ∨ ¬ covariance.xy.IsFinite ∨ ¬ covariance.xz.IsFinite ∨
    ¬ covariance.yy.IsFinite ∨ ¬ covariance.yz.IsFinite ∨ ¬ covariance.zz.IsFinite)
    .nonFiniteValue
  rejectIf (positiveSemidefinite covariance = false) .invalidCovariance

def newEstimate (input : Estimate) : Except Error Estimate := do
  let frame ← orElseError (newFrameID input.frame) Error.frameRequired
  rejectIf (frame ≠ input.frame) .frameRequired
  input.position.validate
  input.covariance.validate positiveSemidefinite
  rejectIf (¬ input.confidence.IsFinite) .nonFiniteValue
  rejectIf (input.confidence.Lt (.finite 0) ∨ (Float64.finite 1).Lt input.confidence)
    .confidenceRange
  rejectIf input.observedAt.IsZero .observedAtRequired
  rejectIf (trimSpace input.profileID = "" ∨ trimSpace input.profileVersion = "")
    .profileRequired
  rejectIf (trimSpace input.calibrationVersion = "") .calibrationRequired
  return { input with
    frame := frame
    observedAt := input.observedAt.toUTC
    profileID := trimSpace input.profileID
    profileVersion := trimSpace input.profileVersion
    calibrationVersion := trimSpace input.calibrationVersion }

/-- `Validate`: the estimate is the one that `NewEstimate` makes of its fields. -/
def Estimate.validate (estimate : Estimate) : Except Error Unit := do
  let normalized ← newEstimate positiveSemidefinite estimate
  rejectIf (normalized ≠ estimate) .nonCanonicalEstimate

end

end Spatial

namespace Estimator

open Fallible Text Spatial

inductive Error where
  | objectRequired
  | observationRequired
  | sequenceInvalid
  | observationTime
  | targetFrameRequired
  | profileRequired
  | priorStateInvalid
  | resultInvalid
  | resultAlreadyRecorded
deriving DecidableEq, Repr

structure Request where
  objectID : Responsibility.PhysicalObjectID
  sequence : UInt64
  observationID : UUID
  observationDigest : Digest
  observedAt : Time
  receivedAt : Time
  targetFrame : FrameID
  profileID : String
  profileVersion : String
  calibrationVersion : String
  hasPrior : Bool
  prior : Estimate
deriving DecidableEq

/-- What is kept for a replay: the request and the time of completion. -/
structure ReplayMetadata extends Request where
  completedAt : Time
deriving DecidableEq

structure Result where
  estimate : Estimate
  replay : ReplayMetadata
deriving DecidableEq

section
variable (positiveSemidefinite : Covariance3 → Bool)

def Request.validate (request : Request) : Except Error Unit := do
  let objectID ← orElseError (Responsibility.newPhysicalObjectID request.objectID)
    Error.objectRequired
  rejectIf (objectID ≠ request.objectID) .objectRequired
  rejectIf (request.observationID = UUID.nil ∨ request.observationDigest = Digest.zero)
    .observationRequired
  rejectIf (request.observedAt.IsZero ∨ request.receivedAt.IsZero ∨
    request.receivedAt.Before request.observedAt) .observationTime
  let frame ← orElseError (newFrameID request.targetFrame) Error.targetFrameRequired
  rejectIf (frame ≠ request.targetFrame) .targetFrameRequired
  rejectIf (trimSpace request.profileID = "" ∨ request.profileID ≠ trimSpace request.profileID ∨
    trimSpace request.profileVersion = "" ∨
    request.profileVersion ≠ trimSpace request.profileVersion ∨
    trimSpace request.calibrationVersion = "" ∨
    request.calibrationVersion ≠ trimSpace request.calibrationVersion) .profileRequired
  rejectIf (request.sequence = 0 ∨ request.hasPrior ≠ decide (1 < request.sequence))
    .sequenceInvalid
  if request.hasPrior = false then
    rejectIf (request.prior ≠ Estimate.zero) .sequenceInvalid
  else do
    orElseError (request.prior.validate positiveSemidefinite) Error.priorStateInvalid
    rejectIf (¬ request.prior.observedAt.Before request.observedAt ∨
      request.prior.frame ≠ request.targetFrame ∨ request.prior.profileID ≠ request.profileID ∨
      request.prior.profileVersion ≠ request.profileVersion ∨
      request.prior.calibrationVersion ≠ request.calibrationVersion) .priorStateInvalid

/-- `Validate`: the replay metadata form a valid request, and the estimate answers it. -/
def Result.validate (result : Result) : Except Error Unit := do
  let request := result.replay.toRequest
  orElseError (request.validate positiveSemidefinite) Error.resultInvalid
  rejectIf (result.replay.completedAt.IsZero ∨
    result.replay.completedAt.Before result.replay.receivedAt) .resultInvalid
  orElseError (result.estimate.validate positiveSemidefinite) Error.resultInvalid
  rejectIf (result.estimate.frame ≠ request.targetFrame ∨
    result.estimate.observedAt ≠ request.observedAt.toUTC ∨
    result.estimate.profileID ≠ request.profileID ∨
    result.estimate.profileVersion ≠ request.profileVersion ∨
    result.estimate.calibrationVersion ≠ request.calibrationVersion) .resultInvalid

end

end Estimator
end CargoPds
