import Mathlib.Logic.Function.Basic
import CargoPds.Audit.Chain
import CargoPds.Concurrency.Program
import CargoPds.Evaluation.Snapshot
import CargoPds.Evidence.Repository
import CargoPds.Policy.Registry
import CargoPds.RuleOperator.Compiler

/-!
# The shared state of the decision service

Evaluations, evidence and policies are kept in three stores, each behind a mutex.
A command of the service is a program over their operations; between two
operations other commands may run.  The clock and the source of fresh
identifiers are operations as well: their answers are inputs of the run.
-/

namespace CargoPds
namespace Pds

open Evaluation Concurrency

/-- The errors of the service, those of the packages it calls and of its stores
included.  `database` stands for the wrapped errors of the database driver. -/
inductive Error where
  | evaluationNotFound
  | concurrentModification
  | policyBindingMissing
  | evidenceBindingMissing
  | evidenceNotQualified
  | boundEvidenceMismatch
  | partialRuleOutcomes
  | resolvedRuleMismatch (ruleID : Option String)
  | policyRuleReferenceInvalid
  | policyQualificationBindingInvalid
  | policyRulePlanMismatch
  | timeoutPolicyInvalid
  | evaluationNotTimedOut
  | evaluation (err : Evaluation.Error)
  | evidence (err : Evidence.Error)
  | policy (err : Policy.Error)
  | operator (err : RuleOperator.Error)
  | invalidExpectedVersion
  | invalidOutboxRecord
  | evaluationAuditInvalid
  | audit (err : Audit.Error)
  | database
deriving DecidableEq, Repr

/-! ## The evaluation store -/

/-- `MemoryStore`: the snapshots and the outbox, written together. -/
structure MemoryStore where
  snapshots : UUID → Option EvaluationSnapshot
  outbox : List OutboxRecord

namespace MemoryStore

/-- `NewMemoryStore`. -/
def empty : MemoryStore := ⟨fun _ => none, []⟩

/-- The expected version is not the stored one; version 0 expects nothing to be
stored. -/
def Conflicts (current : Option EvaluationSnapshot) (expectedVersion : Nat) : Prop :=
  (expectedVersion = 0 ∧ current ≠ none) ∨
    (0 < expectedVersion ∧ current.map (·.version) ≠ some expectedVersion)
deriving Decidable

def saveEvaluation (m : MemoryStore) (snapshot : EvaluationSnapshot) (expectedVersion : Nat)
    (records : List OutboxRecord) : Except Error Unit × MemoryStore :=
  if Conflicts (m.snapshots snapshot.evaluationID) expectedVersion then
    (.error .concurrentModification, m)
  else
    match rehydrateEvaluation snapshot with
    | .error err => (.error (.evaluation err), m)
    | .ok aggregate =>
        (.ok (), {
          snapshots := Function.update m.snapshots snapshot.evaluationID
            (some aggregate.snapshot)
          outbox := m.outbox ++ records })

/-- What is found after a write is what was written or what was there before. -/
theorem snapshots_saveEvaluation {m : MemoryStore} {snapshot s : EvaluationSnapshot}
    {expectedVersion : Nat} {records : List OutboxRecord} {id : UUID}
    (h : (m.saveEvaluation snapshot expectedVersion records).2.snapshots id = some s) :
    s = snapshot.restored ∨ m.snapshots id = some s := by
  unfold saveEvaluation at h
  split at h
  · exact Or.inr h
  · split at h
    · exact Or.inr h
    · rename_i aggregate haggregate
      change Function.update m.snapshots snapshot.evaluationID (some aggregate.snapshot) id =
        some s at h
      by_cases hid : id = snapshot.evaluationID
      · rw [hid, Function.update_self, snapshot_of_rehydrateEvaluation haggregate] at h
        exact Or.inl (Option.some.inj h).symm
      · rw [Function.update_of_ne hid] at h
        exact Or.inr h

def findEvaluation (m : MemoryStore) (id : UUID) : Except Error EvaluationAggregate :=
  match m.snapshots id with
  | none => .error .evaluationNotFound
  | some snapshot => (rehydrateEvaluation snapshot).mapError .evaluation

theorem findEvaluation_eq_ok {m : MemoryStore} {id : UUID} {aggregate : EvaluationAggregate}
    (h : m.findEvaluation id = .ok aggregate) :
    ∃ s, m.snapshots id = some s ∧ rehydrateEvaluation s = .ok aggregate := by
  unfold findEvaluation at h
  split at h
  · exact absurd h (by simp)
  · rename_i s hs
    exact ⟨s, hs, Fallible.mapError_eq_ok.mp h⟩

end MemoryStore

/-! ## Operations -/

structure World (lib : Platform) where
  store : MemoryStore
  evidence : Evidence.MemoryRepository
  registry : Policy.Registry lib

/-- Nothing is stored yet. -/
def World.empty (lib : Platform) : World lib :=
  ⟨MemoryStore.empty, Evidence.MemoryRepository.empty, Policy.Registry.empty⟩

/-- What the surroundings supply to an operation. -/
structure Surroundings where
  now : Time
  fresh : UUID
deriving DecidableEq, Repr

inductive Op (lib : Platform) where
  | saveEvaluation (snapshot : EvaluationSnapshot) (expectedVersion : Nat)
      (records : List OutboxRecord)
  | findEvaluation (id : UUID)
  | saveEvidence (snapshot : Evidence.Snapshot)
  | findEvidence (id : UUID)
  | listEvidenceBySession (sessionID : UUID)
  | add (activated : Policy.ActivatedVersion lib)
  | suspend (policyID version : String) (t : Time)
  | retire (policyID version : String) (t : Time)
  | resolve (policyID : String) (t : Time)
  | findVersion (policyID version hash : String)
  | now
  | newUUID

/-- The type of answer to each operation. -/
abbrev Op.Reply {lib : Platform} : Op lib → Type
  | saveEvaluation _ _ _ => Except Error Unit
  | findEvaluation _ => Except Error EvaluationAggregate
  | saveEvidence _ => Except Error Unit
  | findEvidence _ => Except Error Evidence.Object
  | listEvidenceBySession _ => Except Error (List Evidence.Object)
  | add _ => Except Error Unit
  | suspend _ _ _ => Except Error Unit
  | retire _ _ _ => Except Error Unit
  | resolve _ _ => Except Error (Policy.Version lib)
  | findVersion _ _ _ => Except Error (Policy.Version lib)
  | now => Except Error Time
  | newUUID => Except Error UUID

abbrev interface (lib : Platform) : Interface := ⟨Op lib, Op.Reply⟩

/-- One operation on the shared state. -/
def handle (lib : Platform) (op : (interface lib).Op) (surroundings : Surroundings)
    (world : World lib) : (interface lib).Resp op × World lib :=
  match op with
  | .saveEvaluation snapshot expectedVersion records =>
      let reply := world.store.saveEvaluation snapshot expectedVersion records
      (reply.1, { world with store := reply.2 })
  | .findEvaluation id => (world.store.findEvaluation id, world)
  | .saveEvidence snapshot =>
      let reply := world.evidence.saveEvidence lib snapshot
      (reply.1.mapError .evidence, { world with evidence := reply.2 })
  | .findEvidence id => ((world.evidence.findEvidence lib id).mapError .evidence, world)
  | .listEvidenceBySession sessionID =>
      ((world.evidence.listEvidenceBySession lib sessionID).mapError .evidence, world)
  | .add activated =>
      let reply := world.registry.add activated
      (reply.1.mapError .policy, { world with registry := reply.2 })
  | .suspend policyID version t =>
      let reply := world.registry.suspend policyID version t
      (reply.1.mapError .policy, { world with registry := reply.2 })
  | .retire policyID version t =>
      let reply := world.registry.retire policyID version t
      (reply.1.mapError .policy, { world with registry := reply.2 })
  | .resolve policyID t => ((world.registry.resolve policyID t).mapError .policy, world)
  | .findVersion policyID version hash =>
      ((world.registry.findVersion policyID version hash).mapError .policy, world)
  | .now => (.ok surroundings.now, world)
  | .newUUID => (.ok surroundings.fresh, world)

/-- A client of the stores. -/
abbrev Client (lib : Platform) (α : Type) := ExceptT Error (Program (interface lib)) α

namespace Client

variable (lib : Platform)

def saveEvaluation (snapshot : EvaluationSnapshot) (expectedVersion : Nat)
    (records : List OutboxRecord) : Client lib Unit :=
  Program.attempt (Program.perform (I := interface lib)
    (.saveEvaluation snapshot expectedVersion records))

def findEvaluation (id : UUID) : Client lib EvaluationAggregate :=
  Program.attempt (Program.perform (I := interface lib) (.findEvaluation id))

def saveEvidence (snapshot : Evidence.Snapshot) : Client lib Unit :=
  Program.attempt (Program.perform (I := interface lib) (.saveEvidence snapshot))

def findEvidence (id : UUID) : Client lib Evidence.Object :=
  Program.attempt (Program.perform (I := interface lib) (.findEvidence id))

def listEvidenceBySession (sessionID : UUID) : Client lib (List Evidence.Object) :=
  Program.attempt (Program.perform (I := interface lib) (.listEvidenceBySession sessionID))

def add (activated : Policy.ActivatedVersion lib) : Client lib Unit :=
  Program.attempt (Program.perform (I := interface lib) (.add activated))

def suspend (policyID version : String) (t : Time) : Client lib Unit :=
  Program.attempt (Program.perform (I := interface lib) (.suspend policyID version t))

def retire (policyID version : String) (t : Time) : Client lib Unit :=
  Program.attempt (Program.perform (I := interface lib) (.retire policyID version t))

def resolve (policyID : String) (t : Time) : Client lib (Policy.Version lib) :=
  Program.attempt (Program.perform (I := interface lib) (.resolve policyID t))

def findVersion (policyID version hash : String) : Client lib (Policy.Version lib) :=
  Program.attempt (Program.perform (I := interface lib) (.findVersion policyID version hash))

/-- `s.now()`. -/
def now : Client lib Time :=
  Program.attempt (Program.perform (I := interface lib) .now)

/-- `uuid.New()`. -/
def newUUID : Client lib UUID :=
  Program.attempt (Program.perform (I := interface lib) .newUUID)

variable {lib} {α : Type}

/-- A step of the evaluation package. -/
def evaluated (x : Except Evaluation.Error α) : Client lib α :=
  Program.compute (x.mapError .evaluation)

/-- The guard `if refused { return err }`. -/
def rejectIf (refused : Prop) [Decidable refused] (err : Error) : Client lib Unit :=
  Program.compute (Fallible.rejectIf refused err)

/-- The value of a pointer that must not be nil. -/
def deref (field : Option α) (err : Error) : Except Error α :=
  match field with
  | none => .error err
  | some value => .ok value

theorem deref_eq_ok {field : Option α} {err : Error} {value : α}
    (h : deref field err = .ok value) : field = some value := by
  cases field with
  | none => exact absurd h (by simp [deref])
  | some other => rw [Except.ok.inj h]

def required (field : Option α) (err : Error) : Client lib α :=
  Program.compute (deref field err)

end Client

end Pds
end CargoPds
