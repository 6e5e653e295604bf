import CargoPds.Pds.World

/-!
# The commands of the decision service

Each command reads an evaluation, changes it in memory and writes it back under
the version it has read.  The texts below follow the source statement by
statement; the fallback after a failed write is `Program.orElse`.
-/

namespace CargoPds
namespace Pds

open Evaluation Concurrency Text

variable (lib : Platform)

/-! ## Reading and writing evaluations -/

/-- `Service.find`. -/
def find (id : UUID) : Client lib EvaluationAggregate :=
  Client.findEvaluation lib id

/-- `BuildOutboxRecords`. -/
def buildOutboxRecords (events : List DomainEvent) (createdAt : Time) :
    Client lib (List OutboxRecord) :=
  Program.forEach (fun event => do
    let id ← Client.newUUID lib
    Client.evaluated (newOutboxRecord lib event createdAt id)) events

/-- `Service.save`. -/
def save (aggregate : EvaluationAggregate) (expectedVersion : Nat) : Client lib Unit := do
  let now ← Client.now lib
  let records ← buildOutboxRecords lib aggregate.domainEvents now.toUTC
  Client.saveEvaluation lib aggregate.snapshot expectedVersion records

/-- The fallback of a command that lost a race: what is stored now, if it is what
the command was to achieve. -/
def latest {α : Type} (id : UUID) (accept : EvaluationAggregate → Option α) :
    Client lib (Option α) := do
  let aggregate ← find lib id
  return accept aggregate

/-- `errors.Is(err, ErrConcurrentModification)`. -/
def isConcurrentModification (err : Error) : Bool := err = .concurrentModification

/-! ## Commands on the lifecycle -/

/-- `CreateForPolicy`. -/
def createForPolicy (sessionID : UUID) (policyID : String) :
    Client lib EvaluationSnapshot := do
  let now ← Client.now lib
  let resolved ← Client.resolve lib policyID now.toUTC
  let id ← Client.newUUID lib
  let created ← Client.evaluated (newEvaluation id sessionID now.toUTC)
  let planned ← Client.evaluated
    (created.registerPlan resolved.snapshot.requiredRuleIDs now.toUTC)
  let bound ← Client.evaluated (planned.bindVerificationPolicy
    ⟨resolved.snapshot.policyID, resolved.snapshot.version, resolved.snapshot.hash, now.toUTC⟩)
  save lib bound 0
  return bound.snapshot

/-- `Start`. -/
def start (id : UUID) : Client lib EvaluationSnapshot := do
  let aggregate ← find lib id
  if aggregate.state = .running then return aggregate.snapshot
  else do
    let now ← Client.now lib
    let started ← Client.evaluated (aggregate.start now.toUTC)
    Program.orElse isConcurrentModification
      (do
        save lib started aggregate.version
        return started.snapshot)
      (latest lib id fun stored =>
        if stored.state = .running then some stored.snapshot else none)

/-- `Complete`. -/
def complete (id : UUID) : Client lib DecisionTrace := do
  let aggregate ← find lib id
  if aggregate.state = .completed then return aggregate.decisionTrace
  else do
    let derived ← Client.evaluated aggregate.deriveResult
    let now ← Client.now lib
    let completed ← Client.evaluated (aggregate.completeAt derived.1 derived.2 now.toUTC)
    Program.orElse isConcurrentModification
      (do
        save lib completed aggregate.version
        return completed.decisionTrace)
      (latest lib id fun stored =>
        if stored.state = .completed then some stored.decisionTrace else none)

/-- Limits in nanoseconds; zero disables the expiration of a phase. -/
structure TimeoutPolicy where
  createdTimeout : Int
  runningTimeout : Int
deriving DecidableEq, Repr

/-- `TimeoutPolicy.deadline`. -/
def TimeoutPolicy.deadline (p : TimeoutPolicy) (snapshot : EvaluationSnapshot) :
    Except Error Time := do
  Fallible.rejectIf (p.createdTimeout < 0 ∨ p.runningTimeout < 0 ∨
    (p.createdTimeout = 0 ∧ p.runningTimeout = 0)) .timeoutPolicyInvalid
  match snapshot.state with
  | .created =>
      if p.createdTimeout = 0 then .error .timeoutPolicyInvalid
      else .ok (snapshot.createdAt.add p.createdTimeout)
  | .running =>
      match snapshot.startedAt with
      | none => .error .timeoutPolicyInvalid
      | some startedAt =>
          if p.runningTimeout = 0 then .error .timeoutPolicyInvalid
          else .ok (startedAt.add p.runningTimeout)
  | _ => .error (.evaluation .invalidStateTransition)

/-- `ExpireTimedOut`. -/
def expireTimedOut (id : UUID) (policy : TimeoutPolicy) : Client lib EvaluationSnapshot := do
  let aggregate ← find lib id
  if aggregate.state = .expired then return aggregate.snapshot
  else do
    let deadline ← Program.compute (policy.deadline aggregate.snapshot)
    let now ← Client.now lib
    Client.rejectIf (now.toUTC.Before deadline) .evaluationNotTimedOut
    let expired ← Client.evaluated (aggregate.expire now.toUTC)
    Program.orElse isConcurrentModification
      (do
        save lib expired aggregate.version
        return expired.snapshot)
      (latest lib id fun stored =>
        if stored.state = .expired then some stored.snapshot else none)

/-! ## Qualification -/

/-- The status under which a qualification is bound. -/
def bindingStatus : Evidence.QualificationStatus → EvidenceQualificationStatus
  | .qualified => .qualified
  | .rejected => .rejected
  | .unavailable => .unavailable

def qualificationReasons (reasons : List Evidence.QualificationReason) : List String :=
  reasons.map fun reason => reason.code.text

/-- The binding that anchors a qualification result. -/
def evidenceBinding (result : Evidence.SessionQualificationResult) : EvidenceSetBinding where
  sessionID := result.sessionID
  status := bindingStatus result.status
  policyVersion := result.policyVersion
  qualifiedAt := result.evaluatedAt
  reasons := qualificationReasons result.reasons
  evidence := result.evidence.map fun qualified =>
    ⟨qualified.evidenceID, bindingStatus qualified.status, qualificationReasons qualified.reasons⟩

/-- `BindEvidenceQualification`. -/
def bindEvidenceQualification (id : UUID) (result : Evidence.SessionQualificationResult) :
    Client lib EvaluationSnapshot := do
  let aggregate ← find lib id
  let bound ← Client.evaluated (aggregate.bindEvidenceSet (evidenceBinding result))
  save lib bound aggregate.version
  return bound.snapshot

/-- `QualifySession`. -/
def qualifySession (sessionID : UUID) (qualifier : Evidence.Qualifier) :
    Client lib Evidence.SessionQualificationResult := do
  Client.rejectIf (sessionID = UUID.nil) (.evidence .sessionIDRequired)
  let objects ← Client.listEvidenceBySession lib sessionID
  let now ← Client.now lib
  Program.compute
    ((qualifier.qualifySet lib sessionID (objects.map some) now.toUTC).mapError .evidence)

/-- The errors after which `QualifyAndBind` looks at what is bound now. -/
def isAlreadyBound (err : Error) : Bool :=
  err = .evaluation .evidenceAlreadyBound ∨ err = .concurrentModification

/-- `QualifyAndBind`. -/
def qualifyAndBind (id : UUID) : Client lib EvaluationSnapshot := do
  let aggregate ← find lib id
  if aggregate.evidenceBinding ≠ none then return aggregate.snapshot
  else do
    let binding ← Client.required aggregate.policyBinding .policyBindingMissing
    let version ← Client.findVersion lib binding.policyID binding.version binding.hash
    Client.rejectIf (version.snapshot.policyID ≠ binding.policyID ∨
      version.snapshot.version ≠ binding.version ∨ version.snapshot.hash ≠ binding.hash)
      .policyQualificationBindingInvalid
    let policy ← Program.compute
      ((RuleOperator.compileQualificationPolicy lib version).mapError .operator)
    let qualifier ← Program.compute ((Evidence.newQualifier policy).mapError .evidence)
    let result ← qualifySession lib aggregate.sessionID qualifier
    Program.orElse isAlreadyBound (bindEvidenceQualification lib id result)
      (latest lib id fun stored =>
        if stored.evidenceBinding ≠ none then some stored.snapshot else none)

/-! ## Rule execution -/

/-- `PolicyDocumentRuleResolver.ResolveRuleOperator`. -/
def resolveRuleOperator (binding : PolicyBinding) (ruleID : String) :
    Client lib RuleOperator.Operator := do
  Client.rejectIf (trimSpace binding.policyID = "" ∨ trimSpace binding.version = "" ∨
    trimSpace binding.hash = "" ∨ trimSpace ruleID = "") .policyRuleReferenceInvalid
  let version ← Client.findVersion lib (trimSpace binding.policyID)
    (trimSpace binding.version) (trimSpace binding.hash)
  Client.rejectIf (version.snapshot.policyID ≠ trimSpace binding.policyID ∨
    version.snapshot.version ≠ trimSpace binding.version ∨
    version.snapshot.hash ≠ trimSpace binding.hash) .policyRuleReferenceInvalid
  let operator ← Program.compute
    ((RuleOperator.compileRule lib version (trimSpace ruleID)).mapError .operator)
  Client.rejectIf (trimSpace operator.ruleID ≠ trimSpace ruleID) (.resolvedRuleMismatch none)
  return operator

/-- One round of the first loop of `Execute`. -/
def requiredOperator (binding : PolicyBinding) (ruleID : String) :
    Client lib RuleOperator.Operator := do
  let operator ← resolveRuleOperator lib binding ruleID
  Client.rejectIf (trimSpace operator.ruleID ≠ ruleID) (.resolvedRuleMismatch (some ruleID))
  return operator

/-- One round of the second loop of `Execute`. -/
def boundEvidence (sessionID : UUID) (reference : EvidenceReference) :
    Client lib Evidence.Snapshot := do
  Client.rejectIf (reference.status ≠ .qualified) .evidenceNotQualified
  let stored ← Client.findEvidence lib reference.evidenceID
  Client.rejectIf (stored.snapshot.evidenceID ≠ reference.evidenceID ∨
    stored.snapshot.sessionID ≠ sessionID) .boundEvidenceMismatch
  let object ← Program.compute ((Evidence.rehydrate lib stored.snapshot).mapError .evidence)
  return object.snapshot

/-- What the operators of an evaluation are given. -/
def ruleInput (evaluationID sessionID : UUID) (binding : PolicyBinding)
    (evidence : List Evidence.Snapshot) : RuleOperator.RuleInput where
  evaluationID := evaluationID
  sessionID := sessionID
  policyID := binding.policyID
  policyVersion := binding.version
  policyHash := binding.hash
  evidence := evidence

/-- The outcome that a decision is recorded as. -/
def outcomeOf (ruleID : String) (decision : RuleOperator.RuleDecision) (evaluatedAt : Time) :
    RuleOutcome :=
  ⟨ruleID, decision.status, decision.reasonCodes, evaluatedAt⟩

/-- One round of the third loop of `Execute`.  Each operator gets its own copy of
the evidence, checked again while it is copied. -/
def evaluateRule (input : RuleOperator.RuleInput) (evaluatedAt : Time)
    (rule : String × RuleOperator.Operator) : Except Error RuleOutcome := do
  let copy ← (input.evidence.mapM (Evidence.rehydrate lib)).mapError Error.evidence
  return outcomeOf rule.1 (rule.2.evaluate lib
    { input with evidence := copy.map (·.snapshot) }) evaluatedAt

/-- The part of `Execute` that runs the rules. -/
def executeRules (id : UUID) (aggregate : EvaluationAggregate) (binding : EvidenceSetBinding)
    (policy : PolicyBinding) : Client lib EvaluationSnapshot := do
  let operators ← Program.forEach (requiredOperator lib policy) aggregate.requiredRuleIDs
  let qualified ← Program.forEach (boundEvidence lib aggregate.sessionID) binding.evidence
  let now ← Client.now lib
  let outcomes ← Program.compute ((aggregate.requiredRuleIDs.zip operators).mapM
    (evaluateRule lib (ruleInput id aggregate.sessionID policy qualified) now.toUTC))
  let recorded ← Client.evaluated (aggregate.recordRuleOutcomeBatch outcomes now.toUTC)
  save lib recorded aggregate.version
  return recorded.snapshot

/-- `RuleExecutionService.Execute`. -/
def execute (id : UUID) : Client lib EvaluationSnapshot := do
  let aggregate ← find lib id
  let binding ← Client.required aggregate.evidenceBinding .evidenceBindingMissing
  Client.rejectIf (binding.status ≠ .qualified) .evidenceNotQualified
  let policy ← Client.required aggregate.policyBinding .policyBindingMissing
  if aggregate.ruleOutcomes ≠ [] then
    if aggregate.missingRequiredRuleIDs = [] then return aggregate.snapshot
    else Program.compute (.error .partialRuleOutcomes)
  else executeRules lib id aggregate binding policy

/-! ## Evidence and policies -/

/-- `Ingest`. -/
def ingest (config : Evidence.ServiceConfig) (input : Evidence.Input) :
    Client lib Evidence.Snapshot := do
  let id ← (if input.evidenceID = UUID.nil then Client.newUUID lib
    else pure input.evidenceID : Client lib UUID)
  let now ← Client.now lib
  let object ← Program.compute ((Evidence.newObject lib { input with
    evidenceID := id
    receivedAt := now.toUTC
    schemaVersion := config.schemaVersion
    runtimeVersion := config.runtimeVersion }).mapError .evidence)
  Client.saveEvidence lib object.snapshot
  let stored ← Client.findEvidence lib object.snapshot.evidenceID
  return stored.snapshot

/-! ## The service -/

variable {lib}

/-- The commands through which decisions are made, with the administration of
evidence and policies. -/
inductive Command (lib : Platform) where
  | createForPolicy (sessionID : UUID) (policyID : String)
  | start (id : UUID)
  | qualifyAndBind (id : UUID)
  | execute (id : UUID)
  | complete (id : UUID)
  | expireTimedOut (id : UUID) (policy : TimeoutPolicy)
  | ingest (config : Evidence.ServiceConfig) (input : Evidence.Input)
  | add (activated : Policy.ActivatedVersion lib)
  | suspend (policyID version : String) (t : Time)
  | retire (policyID version : String) (t : Time)

/-- What a command returns. -/
inductive Response where
  | evaluation (snapshot : EvaluationSnapshot)
  | trace (trace : DecisionTrace)
  | evidence (snapshot : Evidence.Snapshot)
  | done

/-- The program of a command. -/
def Command.serve : Command lib → Client lib Response
  | createForPolicy sessionID policyID => do
      return .evaluation (← Pds.createForPolicy lib sessionID policyID)
  | start id => do return .evaluation (← Pds.start lib id)
  | qualifyAndBind id => do return .evaluation (← Pds.qualifyAndBind lib id)
  | execute id => do return .evaluation (← Pds.execute lib id)
  | complete id => do return .trace (← Pds.complete lib id)
  | expireTimedOut id policy => do return .evaluation (← Pds.expireTimedOut lib id policy)
  | ingest config input => do return .evidence (← Pds.ingest lib config input)
  | add activated => do
      Client.add lib activated
      return .done
  | suspend policyID version t => do
      Client.suspend lib policyID version t
      return .done
  | retire policyID version t => do
      Client.retire lib policyID version t
      return .done

/-- The stores after a schedule of any number of clients, from empty stores. -/
def worldAfter (lib : Platform) (schedule : List (Action (Command lib) Surroundings)) :
    World lib :=
  ((Pool.initial (World.empty lib)).run (handle lib)
    (fun command : Command lib => command.serve.run) schedule).shared

end Pds
end CargoPds
