import CargoPds.Concurrency.Protocol
import CargoPds.Evaluation.Edits
import CargoPds.Pds.Service

/-!
# What every command does to the evaluation store

`ServiceCommand` has all the commands of the service: those of `Command` and
the ones with which a caller brings its own plan, outcomes and bindings.

They all work alike.  A command reads its evaluation, changes it (or a new one) by
an operation of the aggregate and writes it back together with the records of its
events, under the version it had when it was read; a successful write is the last
thing it does, and it then succeeds.  `ServiceCommand.Changes` says which operation,
`protocol` the rest, and `ServiceCommand.obeys` shows it once for each command.
-/

namespace CargoPds
namespace Pds

open Evaluation Concurrency Program

variable (lib : Platform)
variable {id : UUID}

/-! ## The remaining commands -/

/-- `Create`. -/
def create (sessionID : UUID) (requiredRules : List String) :
    Client lib EvaluationSnapshot := do
  let now ← Client.now lib
  let id ← Client.newUUID lib
  let created ← Client.evaluated (newEvaluation id sessionID now.toUTC)
  let planned ← Client.evaluated (created.registerPlan requiredRules now.toUTC)
  save lib planned 0
  return planned.snapshot

/-- The time of an outcome: the one it brings, or the present. -/
def evaluationTime (outcome : RuleOutcome) : Client lib Time :=
  if outcome.evaluatedAt.IsZero then do
    let now ← Client.now lib
    return now.toUTC
  else return outcome.evaluatedAt

/-- `RecordOutcome`. -/
def recordOutcome (id : UUID) (outcome : RuleOutcome) : Client lib EvaluationSnapshot := do
  let aggregate ← find lib id
  let evaluatedAt ← evaluationTime lib outcome
  let recorded ← Client.evaluated
    (aggregate.recordRuleOutcome { outcome with evaluatedAt := evaluatedAt })
  save lib recorded aggregate.version
  return recorded.snapshot

/-- `BindVerificationPolicy`. -/
def bindVerificationPolicy (id : UUID) (binding : PolicyBinding) :
    Client lib EvaluationSnapshot := do
  let aggregate ← find lib id
  let bound ← Client.evaluated (aggregate.bindVerificationPolicy binding)
  save lib bound aggregate.version
  return bound.snapshot

/-- `ResolveAndBindPolicy`. -/
def resolveAndBindPolicy (id : UUID) (policyID : String) : Client lib EvaluationSnapshot := do
  let aggregate ← find lib id
  let resolved ← Client.resolve lib policyID aggregate.createdAt
  Client.rejectIf (aggregate.requiredRuleIDs ≠ resolved.snapshot.requiredRuleIDs)
    .policyRulePlanMismatch
  let now ← Client.now lib
  let bound ← Client.evaluated (aggregate.bindVerificationPolicy
    ⟨resolved.snapshot.policyID, resolved.snapshot.version, resolved.snapshot.hash, now.toUTC⟩)
  save lib bound aggregate.version
  return bound.snapshot

variable {lib}

/-- All commands of the service. -/
inductive ServiceCommand (lib : Platform) where
  | governed (command : Command lib)
  | create (sessionID : UUID) (requiredRules : List String)
  | recordOutcome (id : UUID) (outcome : RuleOutcome)
  | bindEvidenceQualification (id : UUID) (result : Evidence.SessionQualificationResult)
  | bindVerificationPolicy (id : UUID) (binding : PolicyBinding)
  | resolveAndBindPolicy (id : UUID) (policyID : String)
  | snapshot (id : UUID)
  | trace (id : UUID)

/-- The program of a command. -/
def ServiceCommand.serve : ServiceCommand lib → Client lib Response
  | governed command => command.serve
  | create sessionID requiredRules => do
      return .evaluation (← Pds.create lib sessionID requiredRules)
  | recordOutcome id outcome => do return .evaluation (← Pds.recordOutcome lib id outcome)
  | bindEvidenceQualification id result => do
      return .evaluation (← Pds.bindEvidenceQualification lib id result)
  | bindVerificationPolicy id binding => do
      return .evaluation (← Pds.bindVerificationPolicy lib id binding)
  | resolveAndBindPolicy id policyID => do
      return .evaluation (← Pds.resolveAndBindPolicy lib id policyID)
  | snapshot id => do return .evaluation (← find lib id).snapshot
  | trace id => do return .trace (← find lib id).decisionTrace

/-! ## The protocol -/

/-- The evaluation that a command is about. -/
def ServiceCommand.target : ServiceCommand lib → Option UUID
  | governed (.start id) => some id
  | governed (.qualifyAndBind id) => some id
  | governed (.execute id) => some id
  | governed (.complete id) => some id
  | governed (.expireTimedOut id _) => some id
  | recordOutcome id _ => some id
  | bindEvidenceQualification id _ => some id
  | bindVerificationPolicy id _ => some id
  | resolveAndBindPolicy id _ => some id
  | snapshot id => some id
  | trace id => some id
  | _ => none

/-- What a command knows: the evaluations it has found, by the identifiers it
asked for, the identifiers it has drawn, in this order, and whether it has written. -/
structure Knowledge where
  read : List (UUID × EvaluationAggregate)
  drawn : List UUID
  written : Bool

/-- The knowledge of a command that has not done anything. -/
def Knowledge.initial : Knowledge := ⟨[], [], false⟩

/-- The command has made the new evaluation `e`, under an identifier it has drawn. -/
def Knowledge.Creates (known : Knowledge) (sessionID : UUID) (expectedVersion : Nat)
    (e : EvaluationAggregate) : Prop :=
  expectedVersion = 0 ∧
    ∃ id ∈ known.drawn, ∃ createdAt, newEvaluation id sessionID createdAt = .ok e

/-- The command has found `e` and expects it to be stored still. -/
def Knowledge.Loads (known : Knowledge) (id : UUID) (expectedVersion : Nat)
    (e : EvaluationAggregate) : Prop :=
  expectedVersion = e.version ∧ (id, e) ∈ known.read

theorem Knowledge.loads {known : Knowledge} {e : EvaluationAggregate}
    {earlier : List (UUID × EvaluationAggregate)} (h : known.read = (id, e) :: earlier) :
    known.Loads id e.version e := by
  refine ⟨rfl, ?_⟩
  rw [h]
  exact List.mem_cons_self

/-- The times under which an outcome can be recorded: its own, or any if it leaves
that to the clock. -/
def OutcomeTime (outcome : RuleOutcome) (evaluatedAt : Time) : Prop :=
  outcome.evaluatedAt.IsZero ∨ evaluatedAt = outcome.evaluatedAt

/-- How a command makes the evaluation `e'` that it writes. -/
def ServiceCommand.Changes (known : Knowledge) (expectedVersion : Nat)
    (e e' : EvaluationAggregate) : ServiceCommand lib → Prop
  | governed (.createForPolicy sessionID _) =>
      known.Creates sessionID expectedVersion e ∧ ∃ plan t planned binding,
        e.registerPlan plan t = .ok planned ∧ planned.bindVerificationPolicy binding = .ok e'
  | create sessionID requiredRules =>
      known.Creates sessionID expectedVersion e ∧ ∃ t, e.registerPlan requiredRules t = .ok e'
  | governed (.start id) =>
      known.Loads id expectedVersion e ∧ ∃ t, e.start t = .ok e'
  | governed (.qualifyAndBind id) =>
      known.Loads id expectedVersion e ∧
        -- the binding was missing when the command looked first
        (∃ first, (id, first) ∈ known.read ∧ first.evidenceBinding = none) ∧
        ∃ binding, e.bindEvidenceSet binding = .ok e'
  | governed (.execute id) =>
      known.Loads id expectedVersion e ∧ e.ruleOutcomes = [] ∧
        ∃ outcomes t, outcomes.length = e.requiredRuleIDs.length ∧
          e.recordRuleOutcomeBatch outcomes t = .ok e'
  | governed (.complete id) =>
      known.Loads id expectedVersion e ∧ ∃ result reasons t, e.completeAt result reasons t = .ok e'
  | governed (.expireTimedOut id _) =>
      known.Loads id expectedVersion e ∧ ∃ t, e.expire t = .ok e'
  | recordOutcome id outcome =>
      known.Loads id expectedVersion e ∧ ∃ t, OutcomeTime outcome t ∧
        e.recordRuleOutcome { outcome with evaluatedAt := t } = .ok e'
  | bindEvidenceQualification id result =>
      known.Loads id expectedVersion e ∧ e.bindEvidenceSet (evidenceBinding result) = .ok e'
  | bindVerificationPolicy id binding =>
      known.Loads id expectedVersion e ∧ e.bindVerificationPolicy binding = .ok e'
  | resolveAndBindPolicy id _ =>
      known.Loads id expectedVersion e ∧ ∃ binding, e.bindVerificationPolicy binding = .ok e'
  | _ => False

/-- The record of an event. -/
def Announces (lib : Platform) (event : DomainEvent) (record : OutboxRecord) : Prop :=
  ∃ createdAt id, newOutboxRecord lib event createdAt id = .ok record

/-- A write of a changed evaluation.  Each record has an identifier of its own. -/
def Writes (lib : Platform) (command : ServiceCommand lib) (known : Knowledge)
    (snapshot : EvaluationSnapshot) (expectedVersion : Nat) (records : List OutboxRecord) :
    Prop :=
  ∃ e e' : EvaluationAggregate, command.Changes known expectedVersion e e' ∧
    snapshot = e'.snapshot ∧ List.Forall₂ (Announces lib) e'.domainEvents records ∧
    (records.map (·.id)).Sublist known.drawn

/-- What a command does to the evaluation store. -/
def protocol (lib : Platform) (command : ServiceCommand lib) :
    Protocol (interface lib) Knowledge where
  Allows known op :=
    known.written = false ∧
      match op with
      | .saveEvaluation snapshot expectedVersion records =>
          Writes lib command known snapshot expectedVersion records
      | .findEvaluation id => command.target = some id
      | _ => True
  learn known op reply :=
    match op, reply with
    | .findEvaluation id, .ok aggregate => { known with read := (id, aggregate) :: known.read }
    | .newUUID, .ok id => { known with drawn := known.drawn ++ [id] }
    | .saveEvaluation _ _ _, .ok () => { known with written := true }
    | _, _ => known

/-! ## What the changes have in common -/

section
variable {command : ServiceCommand lib} {known : Knowledge} {expectedVersion : Nat}
  {e e' : EvaluationAggregate}

/-- A command that writes has made a new evaluation or found the one it is about. -/
theorem ServiceCommand.Changes.base (h : command.Changes known expectedVersion e e') :
    (∃ sessionID, known.Creates sessionID expectedVersion e) ∨
      ∃ id, known.Loads id expectedVersion e := by
  cases command with
  | governed command =>
      cases command with
      | createForPolicy sessionID policyID => exact Or.inl ⟨sessionID, h.1⟩
      | start id | qualifyAndBind id | execute id | complete id => exact Or.inr ⟨id, h.1⟩
      | expireTimedOut id policy => exact Or.inr ⟨id, h.1⟩
      | ingest | add | suspend | retire => exact h.elim
  | create sessionID requiredRules => exact Or.inl ⟨sessionID, h.1⟩
  | recordOutcome id | bindEvidenceQualification id | bindVerificationPolicy id
  | resolveAndBindPolicy id => exact Or.inr ⟨id, h.1⟩
  | snapshot | trace => exact h.elim

theorem ServiceCommand.Changes.edits (h : command.Changes known expectedVersion e e') :
    Edits e e' := by
  cases command with
  | governed command =>
      cases command with
      | createForPolicy sessionID policyID =>
          obtain ⟨-, plan, t, planned, binding, hplanned, hbound⟩ := h
          exact (EvaluationAggregate.registerPlan_edits hplanned).trans
            (EvaluationAggregate.bindVerificationPolicy_edits hbound).edits
      | start id =>
          obtain ⟨-, t, hstarted⟩ := h
          exact (EvaluationAggregate.start_edits hstarted).edits
      | qualifyAndBind id =>
          obtain ⟨-, -, binding, hbound⟩ := h
          exact (EvaluationAggregate.bindEvidenceSet_edits hbound).edits
      | execute id =>
          obtain ⟨-, -, outcomes, t, -, hrecorded⟩ := h
          exact (EvaluationAggregate.recordRuleOutcomeBatch_edits hrecorded).edits
      | complete id =>
          obtain ⟨-, result, reasons, t, hcompleted⟩ := h
          exact (EvaluationAggregate.completeAt_edits hcompleted).edits
      | expireTimedOut id policy =>
          obtain ⟨-, t, hexpired⟩ := h
          exact (EvaluationAggregate.expire_edits hexpired).edits
      | ingest | add | suspend | retire => exact h.elim
  | create sessionID requiredRules =>
      obtain ⟨-, t, hplanned⟩ := h
      exact EvaluationAggregate.registerPlan_edits hplanned
  | recordOutcome id outcome =>
      obtain ⟨-, t, -, hrecorded⟩ := h
      exact (EvaluationAggregate.recordRuleOutcome_edits hrecorded).edits
  | bindEvidenceQualification id result =>
      exact (EvaluationAggregate.bindEvidenceSet_edits h.2).edits
  | bindVerificationPolicy id binding =>
      exact (EvaluationAggregate.bindVerificationPolicy_edits h.2).edits
  | resolveAndBindPolicy id policyID =>
      obtain ⟨-, binding, hbound⟩ := h
      exact (EvaluationAggregate.bindVerificationPolicy_edits hbound).edits
  | snapshot | trace => exact h.elim

/-- The commands that end evaluations. -/
def ServiceCommand.Ends : ServiceCommand lib → Prop
  | governed (.complete _) => True
  | governed (.expireTimedOut _ _) => True
  | _ => False

theorem ServiceCommand.Changes.ended (h : command.Changes known expectedVersion e e')
    (hends : command.Ends) : e'.state.IsTerminal := by
  cases command with
  | governed command =>
      cases command with
      | complete id =>
          obtain ⟨-, result, reasons, t, hcompleted⟩ := h
          obtain ⟨-, -, nr, -, rfl⟩ := EvaluationAggregate.completeAt_eq_ok hcompleted
          exact Or.inl rfl
      | expireTimedOut id policy =>
          obtain ⟨-, t, hexpired⟩ := h
          rw [EvaluationAggregate.expire_eq_ok hexpired]
          exact Or.inr (Or.inr rfl)
      | createForPolicy | start | qualifyAndBind | execute | ingest | add | suspend | retire =>
          exact hends.elim
  | create | recordOutcome | bindEvidenceQualification | bindVerificationPolicy
  | resolveAndBindPolicy | snapshot | trace => exact hends.elim

/-- Drawing more identifiers does not matter. -/
theorem ServiceCommand.Changes.draw (h : command.Changes known expectedVersion e e')
    (more : List UUID) :
    command.Changes { known with drawn := known.drawn ++ more } expectedVersion e e' := by
  have hcreates : ∀ sessionID, known.Creates sessionID expectedVersion e →
      ({ known with drawn := known.drawn ++ more } : Knowledge).Creates sessionID
        expectedVersion e :=
    fun sessionID ⟨hnew, id, hid, hcreated⟩ =>
      ⟨hnew, id, List.mem_append_left _ hid, hcreated⟩
  cases command with
  | governed command =>
      cases command with
      | createForPolicy sessionID policyID => exact ⟨hcreates _ h.1, h.2⟩
      | start | qualifyAndBind | execute | complete | expireTimedOut | ingest | add | suspend
      | retire => exact h
  | create sessionID requiredRules => exact ⟨hcreates _ h.1, h.2⟩
  | recordOutcome | bindEvidenceQualification | bindVerificationPolicy | resolveAndBindPolicy
  | snapshot | trace => exact h

end

/-! ## Rules for clients -/

/-- A client that complies once nothing is written, and has not written when it fails. -/
abbrev Compliant {α : Type} (command : ServiceCommand lib) (client : Client lib α)
    (P : α → Knowledge → Prop) (known : Knowledge) : Prop :=
  known.written = false → Complies (protocol lib command) client P (·.written = false) known

/-- Operations from whose answers nothing is learnt. -/
def Op.Neutral : Op lib → Prop
  | .saveEvaluation _ _ _ => False
  | .findEvaluation _ => False
  | .newUUID => False
  | _ => True

section
variable {command : ServiceCommand lib} {known : Knowledge} {α β : Type}
variable {P : β → Knowledge → Prop}

theorem learn_neutral {op : Op lib} (hop : op.Neutral) (reply : op.Reply) :
    (protocol lib command).learn known op reply = known := by
  cases op <;> first
    | exact hop.elim
    | rfl

/-- The rule for neutral operations. -/
theorem Compliant.neutral (op : Op lib) {program : Program (interface lib) (Except Error α)}
    {decode : op.Reply → Except Error α} (hop : op.Neutral)
    (hprogram : program = .call op fun reply => .done (decode reply)) :
    Compliant command (Program.attempt program : Client lib α) (fun _ k => k = known) known := by
  intro hwritten
  refine Complies.perform op decode hprogram ⟨hwritten, ?_⟩ ?_ ?_
  · cases op <;> first
      | exact hop.elim
      | trivial
  · intro reply value _
    exact learn_neutral hop reply
  · intro reply err _
    rw [learn_neutral hop reply]
    exact hwritten

theorem now_compliant :
    Compliant command (Client.now lib) (fun _ k => k = known) known :=
  Compliant.neutral .now trivial rfl

theorem findVersion_compliant (policyID version hash : String) :
    Compliant command (Client.findVersion lib policyID version hash) (fun _ k => k = known)
      known :=
  Compliant.neutral (.findVersion policyID version hash) trivial rfl

theorem resolve_compliant (policyID : String) (t : Time) :
    Compliant command (Client.resolve lib policyID t) (fun _ k => k = known) known :=
  Compliant.neutral (.resolve policyID t) trivial rfl

/-- A computation leaves the knowledge alone. -/
theorem compute_compliant (x : Except Error α) :
    Compliant command (Program.compute x : Client lib α) (fun _ k => k = known) known :=
  fun hwritten => Complies.compute (fun _ _ => rfl) hwritten

theorem newUUID_compliant :
    Compliant command (Client.newUUID lib)
      (fun id k => k = { known with drawn := known.drawn ++ [id] }) known := by
  intro hwritten
  refine Complies.perform (.newUUID : Op lib) (fun reply => reply) rfl ⟨hwritten, trivial⟩
    ?_ ?_
  · rintro reply id rfl
    rfl
  · rintro reply err rfl
    exact hwritten

/-- What is found is known. -/
theorem find_compliant (htarget : command.target = some id) :
    Compliant command (find lib id)
      (fun e k => k = { known with read := (id, e) :: known.read }) known := by
  intro hwritten
  refine Complies.perform (Op.findEvaluation id) (fun reply => reply) rfl ⟨hwritten, htarget⟩
    ?_ ?_
  · rintro reply aggregate rfl
    rfl
  · rintro reply err rfl
    exact hwritten

theorem Compliant.done {value : α} {P : α → Knowledge → Prop} (h : P value known) :
    Compliant command (pure value : Client lib α) P known :=
  fun _ => Complies.pure h

/-- A client that goes on after a step that leaves the knowledge alone. -/
theorem Compliant.learning {client : Client lib α} {next : α → Client lib β} {Q : α → Prop}
    (h : Compliant command client (fun value k => Q value ∧ k = known) known)
    (hnext : ∀ value, Q value → Compliant command (next value) P known) :
    Compliant command (client >>= next) P known := by
  intro hwritten
  refine Complies.bind (h hwritten) ?_
  rintro value k ⟨hvalue, rfl⟩
  exact hnext value hvalue hwritten

theorem Compliant.then {client : Client lib α} {next : α → Client lib β}
    (h : Compliant command client (fun _ k => k = known) known)
    (hnext : ∀ value, Compliant command (next value) P known) :
    Compliant command (client >>= next) P known := by
  intro hwritten
  refine Complies.bind (h hwritten) ?_
  rintro value k rfl
  exact hnext value hwritten

/-- A client that goes on with an identifier of its own. -/
theorem Compliant.drawing {next : UUID → Client lib β}
    (hnext : ∀ id k, id ∈ k.drawn → Compliant command (next id) P k) :
    Compliant command (Client.newUUID lib >>= next) P known := by
  intro hwritten
  refine Complies.bind (newUUID_compliant hwritten) ?_
  rintro id k rfl
  exact hnext id _ (by simp) hwritten

/-- A client that goes on with what it has found. -/
theorem Compliant.finding {next : EvaluationAggregate → Client lib β}
    (htarget : command.target = some id)
    (hnext : ∀ e k, k.read = (id, e) :: known.read → Compliant command (next e) P k) :
    Compliant command (find lib id >>= next) P known := by
  intro hwritten
  refine Complies.bind (find_compliant htarget hwritten) ?_
  rintro e k rfl
  exact hnext e _ rfl hwritten

/-- A guard. -/
theorem Compliant.guard {refused : Prop} [Decidable refused] {err : Error}
    {next : Unit → Client lib α} {P : α → Knowledge → Prop}
    (hnext : ¬ refused → Compliant command (next ()) P known) :
    Compliant command (Client.rejectIf refused err >>= next) P known := by
  intro hwritten
  refine Complies.compute_bind hwritten ?_
  intro _ haccepted
  exact hnext (Fallible.rejectIf_eq_ok.mp haccepted) hwritten

/-- A step of the evaluation package. -/
theorem Compliant.evaluated {x : Except Evaluation.Error α} {next : α → Client lib β}
    (hnext : ∀ value, x = .ok value → Compliant command (next value) P known) :
    Compliant command (Client.evaluated x >>= next) P known := by
  intro hwritten
  refine Complies.compute_bind hwritten ?_
  intro value hvalue
  exact hnext value (Fallible.mapError_eq_ok.mp hvalue) hwritten

/-- A loop whose rounds leave the knowledge alone. -/
theorem Compliant.loop {f : α → Client lib β} {items : List α}
    (h : ∀ item, Compliant command (f item) (fun _ k => k = known) known) :
    Compliant command (Program.forEach f items)
      (fun values k => values.length = items.length ∧ k = known) known := by
  intro hwritten
  refine Complies.forEach
    (fun finished values k => values.length = finished.length ∧ k = known) ⟨rfl, rfl⟩ ?_
  rintro finished values item k ⟨hlength, rfl⟩
  refine Complies.mono ?_ (h item hwritten)
  rintro value k' rfl
  exact ⟨by simp [hlength], rfl⟩

/-- A client that reads the evaluation once more when its write came too late. -/
theorem Compliant.orLatest {recoverable : Error → Bool} {action : Client lib α}
    {accept : EvaluationAggregate → Option α} (htarget : command.target = some id)
    (haction : Compliant command action (fun _ _ => True) known) :
    Compliant command (Program.orElse recoverable action (latest lib id accept))
      (fun _ _ => True) known := by
  intro hwritten
  refine Complies.orElse (haction hwritten) fun k hk => ?_
  exact Compliant.finding htarget
    (fun _ _ _ hk' => Complies.pure ⟨hk', fun _ _ => trivial⟩) hk

/-- A client that packs its value. -/
theorem Compliant.returning {client : Client lib α} {f : α → β} {P : α → Knowledge → Prop}
    (h : Compliant command client P known) :
    Compliant command (client >>= fun value => pure (f value)) (fun _ _ => True) known :=
  fun hwritten => Complies.bind (h hwritten) fun _ _ _ => Complies.pure trivial

theorem newOutboxRecord_id {event : DomainEvent} {createdAt : Time} {record : OutboxRecord}
    (h : newOutboxRecord lib event createdAt id = .ok record) :
    record.id = id := by
  obtain ⟨-, -, -, payload, -, rfl⟩ := newOutboxRecord_eq_ok h
  rfl

theorem buildOutboxRecords_compliant (events : List DomainEvent) (createdAt : Time) :
    Compliant command (buildOutboxRecords lib events createdAt)
      (fun records k => List.Forall₂ (Announces lib) events records ∧
        k = { known with drawn := known.drawn ++ records.map (·.id) }) known := by
  intro hwritten
  refine Complies.forEach
    (fun finished records k => List.Forall₂ (Announces lib) finished records ∧
      k = { known with drawn := known.drawn ++ records.map OutboxRecord.id }) ?_ ?_
  · exact ⟨.nil, by simp⟩
  rintro finished records event k ⟨hrecords, rfl⟩
  refine Complies.bind (newUUID_compliant hwritten) ?_
  rintro id k rfl
  refine Complies.compute ?_ hwritten
  intro record hrecord
  have hnew := Fallible.mapError_eq_ok.mp hrecord
  refine ⟨List.rel_append hrecords (.cons ⟨createdAt, id, hnew⟩ .nil), ?_⟩
  rw [List.map_append, List.map_singleton, newOutboxRecord_id hnew, List.append_assoc]

/-- **Saving a changed evaluation** is a write of the protocol, and whatever is
returned after it is the end. -/
theorem save_compliant {e e' : EvaluationAggregate} {expectedVersion : Nat} (value : α)
    (hchanges : command.Changes known expectedVersion e e') :
    Compliant command (do
      save lib e' expectedVersion
      return value : Client lib α) (fun _ _ => True) known := by
  refine Compliant.returning (P := fun _ _ => True) (now_compliant.then fun now hwritten => ?_)
  refine Complies.bind (buildOutboxRecords_compliant _ _ hwritten) ?_
  rintro records k ⟨hrecords, rfl⟩
  have hwrite : Writes lib command { known with drawn := known.drawn ++ records.map (·.id) }
      e'.snapshot expectedVersion records :=
    ⟨e, e', hchanges.draw _, rfl, hrecords, List.sublist_append_right _ _⟩
  refine Complies.perform (Op.saveEvaluation e'.snapshot expectedVersion records)
    (fun reply => reply) rfl ⟨hwritten, hwrite⟩ (fun _ _ _ => trivial) ?_
  rintro reply err rfl
  exact hwritten

end

/-! ## Every command keeps to the protocol -/

section
variable {command : ServiceCommand lib} {known : Knowledge}

theorem createForPolicy_compliant (sessionID : UUID) (policyID : String) :
    Compliant (.governed (.createForPolicy sessionID policyID))
      (createForPolicy lib sessionID policyID) (fun _ _ => True) known := by
  refine now_compliant.then fun now => ?_
  refine (resolve_compliant _ _).then fun resolved => ?_
  refine Compliant.drawing fun id k hdrawn => ?_
  refine Compliant.evaluated fun created hcreated => ?_
  refine Compliant.evaluated fun planned hplanned => ?_
  refine Compliant.evaluated fun bound hbound => ?_
  exact save_compliant _ ⟨⟨rfl, id, hdrawn, _, hcreated⟩, _, _, _, _, hplanned, hbound⟩

theorem create_compliant (sessionID : UUID) (requiredRules : List String) :
    Compliant (.create sessionID requiredRules) (create lib sessionID requiredRules)
      (fun _ _ => True) known := by
  refine now_compliant.then fun now => ?_
  refine Compliant.drawing fun id k hdrawn => ?_
  refine Compliant.evaluated fun created hcreated => ?_
  refine Compliant.evaluated fun planned hplanned => ?_
  exact save_compliant _ ⟨⟨rfl, id, hdrawn, _, hcreated⟩, _, hplanned⟩

theorem start_compliant (id : UUID) :
    Compliant (.governed (.start id)) (start lib id) (fun _ _ => True) known := by
  refine Compliant.finding rfl fun aggregate k hread => ?_
  split
  · exact Compliant.done trivial
  · refine now_compliant.then fun now => ?_
    refine Compliant.evaluated fun started hstarted => ?_
    exact Compliant.orLatest rfl (save_compliant _ ⟨k.loads hread, _, hstarted⟩)

theorem complete_compliant (id : UUID) :
    Compliant (.governed (.complete id)) (complete lib id) (fun _ _ => True) known := by
  refine Compliant.finding rfl fun aggregate k hread => ?_
  split
  · exact Compliant.done trivial
  · refine Compliant.evaluated fun derived _ => ?_
    refine now_compliant.then fun now => ?_
    refine Compliant.evaluated fun completed hcompleted => ?_
    exact Compliant.orLatest rfl (save_compliant _ ⟨k.loads hread, _, _, _, hcompleted⟩)

theorem expireTimedOut_compliant (id : UUID) (policy : TimeoutPolicy) :
    Compliant (.governed (.expireTimedOut id policy)) (expireTimedOut lib id policy)
      (fun _ _ => True) known := by
  refine Compliant.finding rfl fun aggregate k hread => ?_
  split
  · exact Compliant.done trivial
  · refine (compute_compliant _).then fun deadline => ?_
    refine now_compliant.then fun now => ?_
    refine Compliant.guard fun _ => ?_
    refine Compliant.evaluated fun expired hexpired => ?_
    exact Compliant.orLatest rfl (save_compliant _ ⟨k.loads hread, _, hexpired⟩)

theorem evaluationTime_compliant (outcome : RuleOutcome) :
    Compliant command (evaluationTime lib outcome)
      (fun t k => OutcomeTime outcome t ∧ k = known) known := by
  unfold evaluationTime
  split
  · rename_i hzero
    exact now_compliant.then fun _ => Compliant.done ⟨Or.inl hzero, rfl⟩
  · exact Compliant.done ⟨Or.inr rfl, rfl⟩

theorem recordOutcome_compliant (id : UUID) (outcome : RuleOutcome) :
    Compliant (.recordOutcome id outcome) (recordOutcome lib id outcome) (fun _ _ => True)
      known := by
  refine Compliant.finding rfl fun aggregate k hread => ?_
  refine (evaluationTime_compliant outcome).learning fun evaluatedAt htime => ?_
  refine Compliant.evaluated fun recorded hrecorded => ?_
  exact save_compliant _ ⟨k.loads hread, _, htime, hrecorded⟩

/-- Binding a qualification is a command, and a part of another one. -/
theorem bindEvidenceQualification_compliant (id : UUID)
    (result : Evidence.SessionQualificationResult) (htarget : command.target = some id)
    (hchanges : ∀ e e' k, k.read = (id, e) :: known.read →
      e.bindEvidenceSet (evidenceBinding result) = .ok e' →
      command.Changes k e.version e e') :
    Compliant command (bindEvidenceQualification lib id result) (fun _ _ => True) known := by
  refine Compliant.finding htarget fun aggregate k hread => ?_
  refine Compliant.evaluated fun bound hbound => ?_
  exact save_compliant _ (hchanges aggregate bound k hread hbound)

theorem bindVerificationPolicy_compliant (id : UUID) (binding : PolicyBinding) :
    Compliant (.bindVerificationPolicy id binding) (bindVerificationPolicy lib id binding)
      (fun _ _ => True) known := by
  refine Compliant.finding rfl fun aggregate k hread => ?_
  refine Compliant.evaluated fun bound hbound => ?_
  exact save_compliant _ ⟨k.loads hread, hbound⟩

theorem resolveAndBindPolicy_compliant (id : UUID) (policyID : String) :
    Compliant (.resolveAndBindPolicy id policyID) (resolveAndBindPolicy lib id policyID)
      (fun _ _ => True) known := by
  refine Compliant.finding rfl fun aggregate k hread => ?_
  refine (resolve_compliant _ _).then fun resolved => ?_
  refine Compliant.guard fun _ => ?_
  refine now_compliant.then fun now => ?_
  refine Compliant.evaluated fun bound hbound => ?_
  exact save_compliant _ ⟨k.loads hread, _, hbound⟩

theorem qualifySession_compliant (sessionID : UUID) (qualifier : Evidence.Qualifier) :
    Compliant command (qualifySession lib sessionID qualifier) (fun _ k => k = known) known := by
  refine Compliant.guard fun _ => ?_
  have hlist : Compliant command (Client.listEvidenceBySession lib sessionID)
      (fun _ k => k = known) known :=
    Compliant.neutral (.listEvidenceBySession sessionID) trivial rfl
  refine hlist.then fun objects => ?_
  refine now_compliant.then fun now => ?_
  exact compute_compliant _

theorem qualifyAndBind_compliant (id : UUID) :
    Compliant (.governed (.qualifyAndBind id)) (qualifyAndBind lib id) (fun _ _ => True)
      known := by
  refine Compliant.finding rfl fun first k hread => ?_
  split
  · exact Compliant.done trivial
  · rename_i hfree
    rw [not_not] at hfree
    refine (compute_compliant _).then fun binding => ?_
    refine (findVersion_compliant _ _ _).then fun version => ?_
    refine Compliant.guard fun _ => ?_
    refine (compute_compliant _).then fun policy => ?_
    refine (compute_compliant _).then fun qualifier => ?_
    refine (qualifySession_compliant _ _).then fun result => ?_
    refine Compliant.orLatest rfl (bindEvidenceQualification_compliant id result rfl ?_)
    intro e e' k' hread' hbound
    exact ⟨k'.loads hread', ⟨first, by simp [hread, hread'], hfree⟩, _, hbound⟩

theorem requiredOperator_compliant (binding : PolicyBinding) (ruleID : String) :
    Compliant command (requiredOperator lib binding ruleID) (fun _ k => k = known) known := by
  have hresolve : Compliant command (resolveRuleOperator lib binding ruleID)
      (fun _ k => k = known) known := by
    refine Compliant.guard fun _ => ?_
    refine (findVersion_compliant _ _ _).then fun version => ?_
    refine Compliant.guard fun _ => ?_
    refine (compute_compliant _).then fun operator => ?_
    exact Compliant.guard fun _ => Compliant.done rfl
  refine hresolve.then fun operator => ?_
  exact Compliant.guard fun _ => Compliant.done rfl

theorem boundEvidence_compliant (sessionID : UUID) (reference : EvidenceReference) :
    Compliant command (boundEvidence lib sessionID reference) (fun _ k => k = known) known := by
  refine Compliant.guard fun _ => ?_
  have hfind : Compliant command (Client.findEvidence lib reference.evidenceID)
      (fun _ k => k = known) known :=
    Compliant.neutral (.findEvidence reference.evidenceID) trivial rfl
  refine hfind.then fun stored => ?_
  refine Compliant.guard fun _ => ?_
  exact (compute_compliant _).then fun _ => Compliant.done rfl

theorem execute_compliant (id : UUID) :
    Compliant (.governed (.execute id)) (execute lib id) (fun _ _ => True) known := by
  refine Compliant.finding rfl fun aggregate k hread => ?_
  refine (compute_compliant _).then fun binding => ?_
  refine Compliant.guard fun _ => ?_
  refine (compute_compliant _).then fun policy => ?_
  split
  · split
    · exact Compliant.done trivial
    · exact fun hk => Complies.compute (fun _ _ => trivial) hk
  · rename_i hempty
    rw [not_not] at hempty
    refine (Compliant.loop (requiredOperator_compliant policy)).learning
      fun operators hoperators => ?_
    refine (Compliant.loop (boundEvidence_compliant aggregate.sessionID)).learning
      fun qualified _ => ?_
    refine now_compliant.then fun now hk => ?_
    refine Complies.compute_bind hk fun outcomes houtcomes => ?_
    -- every rule of the plan has an operator and gets an outcome
    have hlength : outcomes.length = aggregate.requiredRuleIDs.length := by
      rw [← (Fallible.mapM_eq_ok.mp houtcomes).length_eq, List.length_zip, hoperators,
        Nat.min_self]
    refine Compliant.evaluated (fun recorded hrecorded => ?_) hk
    exact save_compliant _ ⟨k.loads hread, hempty, _, _, hlength, hrecorded⟩

theorem ingest_compliant (config : Evidence.ServiceConfig) (input : Evidence.Input) :
    Compliant command (ingest lib config input) (fun _ _ => True) known := by
  have hid : Compliant command (if input.evidenceID = UUID.nil then Client.newUUID lib
      else pure input.evidenceID : Client lib UUID) (fun _ k => k.written = false) known := by
    split
    · intro hwritten
      refine Complies.mono ?_ (newUUID_compliant hwritten)
      rintro id k rfl
      exact hwritten
    · exact fun hwritten => Complies.pure hwritten
  intro hwritten
  refine Complies.bind (hid hwritten) fun id k => ?_
  refine now_compliant.then fun now => ?_
  refine (compute_compliant _).then fun object => ?_
  have hsave : Compliant command (Client.saveEvidence lib object.snapshot) (fun _ k' => k' = k)
      k := Compliant.neutral (.saveEvidence object.snapshot) trivial rfl
  refine hsave.then fun _ => ?_
  have hfind : Compliant command (Client.findEvidence lib object.snapshot.evidenceID)
      (fun _ k' => k' = k) k :=
    Compliant.neutral (.findEvidence object.snapshot.evidenceID) trivial rfl
  exact hfind.returning

theorem Command.compliant (command : Command lib) :
    Compliant (.governed command) command.serve (fun _ _ => True) known := by
  cases command with
  | createForPolicy sessionID policyID =>
      exact (createForPolicy_compliant _ _).returning
  | start id => exact (start_compliant id).returning
  | qualifyAndBind id => exact (qualifyAndBind_compliant id).returning
  | execute id => exact (execute_compliant id).returning
  | complete id => exact (complete_compliant id).returning
  | expireTimedOut id policy => exact (expireTimedOut_compliant id policy).returning
  | ingest config input => exact (ingest_compliant config input).returning
  | add activated =>
      have hadd : Compliant (.governed (.add activated)) (Client.add lib activated)
          (fun _ k => k = known) known :=
        Compliant.neutral (.add activated) trivial rfl
      exact hadd.returning
  | suspend policyID version t =>
      have hsuspend : Compliant (.governed (.suspend policyID version t))
          (Client.suspend lib policyID version t) (fun _ k => k = known) known :=
        Compliant.neutral (.suspend policyID version t) trivial rfl
      exact hsuspend.returning
  | retire policyID version t =>
      have hretire : Compliant (.governed (.retire policyID version t))
          (Client.retire lib policyID version t) (fun _ k => k = known) known :=
        Compliant.neutral (.retire policyID version t) trivial rfl
      exact hretire.returning

theorem ServiceCommand.compliant (command : ServiceCommand lib) :
    Compliant command command.serve (fun _ _ => True) known := by
  cases command with
  | governed command => exact command.compliant
  | create sessionID requiredRules => exact (create_compliant _ _).returning
  | recordOutcome id outcome => exact (recordOutcome_compliant _ _).returning
  | bindEvidenceQualification id result =>
      refine Compliant.returning (bindEvidenceQualification_compliant id result rfl ?_)
      intro e e' k hread hbound
      exact ⟨k.loads hread, hbound⟩
  | bindVerificationPolicy id binding =>
      exact (bindVerificationPolicy_compliant _ _).returning
  | resolveAndBindPolicy id policyID =>
      exact (resolveAndBindPolicy_compliant _ _).returning
  | snapshot id | trace id => exact (find_compliant rfl).returning

end

/-- Every command keeps to the protocol, and one that has written succeeds. -/
theorem ServiceCommand.obeys (command : ServiceCommand lib) :
    command.serve.run.Obeys (protocol lib command)
      (fun result known => known.written = true → ∃ response, result = .ok response)
      Knowledge.initial := by
  have h : Compliant command command.serve (fun _ _ => True) Knowledge.initial :=
    command.compliant
  refine Obeys.mono _ ?_ ((complies_iff_obeys _).mp (h rfl))
  rintro (err | response) known hresult hwritten
  · exact absurd (hresult.symm.trans hwritten) (by simp)
  · exact ⟨response, rfl⟩

end Pds
end CargoPds
