import CargoPds.Evaluation.Invariant

/-!
# Rebuilding an evaluation from its events

A consumer of the events keeps its own copy of the outcomes, the plan, the state
and the version, and the outcomes of each checkpoint.  `Projection.apply` is what
it does with one event.

`events_rebuild_evaluation` says that the events are complete: after any run
whose events were not cleared, folding them from the empty copy gives the fields
of the aggregate, the order of the outcomes included.  Bindings, results and
history entries are not part of the copy.
-/

namespace CargoPds
namespace Evaluation

open Fallible

/-- The copy of a consumer. -/
structure Projection where
  ruleOutcomes : List RuleOutcome
  requiredRuleIDs : List String
  state : EvaluationState
  version : Nat
  checkpoints : List (String × List RuleOutcome)
deriving DecidableEq, Repr

namespace Projection

/-- The copy before the first event: all fields have their zero values. -/
def empty : Projection := ⟨[], [], .other "", 0, []⟩

/-- The state that a lifecycle event announces. -/
def announced : EventBody → Option EvaluationState
  | .evaluationCreated _ => some .created
  | .evaluationStarted _ => some .running
  | .evaluationCompleted _ _ => some .completed
  | .evaluationRejected _ _ => some .completed
  | .evaluationManualReviewRequired _ _ => some .completed
  | .evaluationSystemException _ _ => some .completed
  | .evaluationCancelled _ _ => some .cancelled
  | .evaluationExpired _ _ => some .expired
  | _ => none

/-- What a consumer does with the outcomes. -/
def outcomesAfter (p : Projection) (body : EventBody) : List RuleOutcome :=
  match body with
  | .evaluationRolledBack checkpoint _ => (p.checkpoints.lookup checkpoint).getD []
  | body =>
      match body.edit with
      | some edit => edit p.ruleOutcomes
      | none => p.ruleOutcomes

/-- One event. -/
def apply (p : Projection) (event : DomainEvent) : Projection where
  ruleOutcomes := p.outcomesAfter event.body
  requiredRuleIDs :=
    match event.body with
    | .requiredRuleRegistered ruleID _ => p.requiredRuleIDs ++ [ruleID]
    | _ => p.requiredRuleIDs
  state := (announced event.body).getD p.state
  version := event.version
  checkpoints :=
    match event.body with
    | .evaluationCheckpointCreated name _ => (name, p.ruleOutcomes) :: p.checkpoints
    | _ => p.checkpoints

/-- An event about outcomes leaves the other fields alone. -/
theorem apply_of_edit {p : Projection} {event : DomainEvent}
    {edit : List RuleOutcome → List RuleOutcome} (h : event.body.edit = some edit) :
    p.apply event = { p with ruleOutcomes := edit p.ruleOutcomes, version := event.version } := by
  obtain ⟨evaluationID, sessionID, version, body⟩ := event
  cases body <;> simp only [EventBody.edit, reduceCtorEq, Option.some.injEq] at h <;>
    simp only [apply, outcomesAfter, announced, EventBody.edit, Option.getD_none, h]

/-- The copy agrees with the aggregate. -/
structure Agrees (p : Projection) (e : EvaluationAggregate) : Prop where
  ruleOutcomes : p.ruleOutcomes = e.ruleOutcomes
  requiredRuleIDs : p.requiredRuleIDs = e.requiredRuleIDs
  state : p.state = e.state
  version : p.version = e.version
  checkpoints : ∀ name,
    p.checkpoints.lookup name = (e.checkpointByName name).map (·.ruleOutcomes)

end Projection

/-- Folding the events of the aggregate gives its fields. -/
def Rebuilt (e : EvaluationAggregate) : Prop :=
  (e.domainEvents.foldl Projection.apply .empty).Agrees e

/-! ## Finding a checkpoint -/

section
variable {α : Type} {r : α → α → Prop} [DecidableRel r] {found : α → Bool} {a : α} {l : List α}

theorem find?_orderedInsert_of_not (h : found a = false) :
    (l.orderedInsert r a).find? found = l.find? found := by
  induction l with
  | nil => simp [h]
  | cons b rest ih =>
      rw [List.orderedInsert_cons]
      split
      · rw [List.find?_cons_of_neg (by simp [h])]
      · by_cases hb : found b = true
        · rw [List.find?_cons_of_pos hb, List.find?_cons_of_pos hb]
        · rw [List.find?_cons_of_neg hb, List.find?_cons_of_neg hb, ih]

theorem find?_orderedInsert_of_new (h : found a = true) (hnew : l.find? found = none) :
    (l.orderedInsert r a).find? found = some a := by
  induction l with
  | nil => simp [h]
  | cons b rest ih =>
      have hb : ¬ found b = true := List.find?_eq_none.mp hnew b List.mem_cons_self
      rw [List.find?_cons_of_neg hb] at hnew
      rw [List.orderedInsert_cons]
      split
      · rw [List.find?_cons_of_pos h]
      · rw [List.find?_cons_of_neg hb, ih hnew]

end

/-- A created checkpoint is the one found under its name, and no other name is
affected. -/
theorem EvaluationAggregate.checkpointByName_orderedInsert {e e' : EvaluationAggregate}
    {checkpoint : EvaluationCheckpoint} (hnew : e.checkpointByName checkpoint.name = none)
    (h : e'.checkpoints = e.checkpoints.orderedInsert ByName checkpoint) (name : String) :
    e'.checkpointByName name =
      if name = checkpoint.name then some checkpoint else e.checkpointByName name := by
  unfold checkpointByName at hnew ⊢
  rw [h]
  split
  · rename_i hname
    rw [hname]
    exact find?_orderedInsert_of_new (decide_eq_true rfl) hnew
  · rename_i hname
    exact find?_orderedInsert_of_not (decide_eq_false fun hsame => hname hsame.symm)

/-! ## Every change announces what it does -/

/-- Folding one more event. -/
theorem Rebuilt.raise {e changed : EvaluationAggregate} {body : EventBody}
    (hevents : changed.domainEvents = e.domainEvents)
    (h : ((e.domainEvents.foldl Projection.apply .empty).apply
      ⟨changed.evaluationID, changed.sessionID, changed.version + 1, body⟩).Agrees
        (changed.raise body)) :
    Rebuilt (changed.raise body) := by
  have hraised : (changed.raise body).domainEvents = e.domainEvents ++
      [⟨changed.evaluationID, changed.sessionID, changed.version + 1, body⟩] := by
    rw [← hevents]
    rfl
  unfold Rebuilt
  rw [hraised, List.foldl_append]
  exact h

/-- **Step lemma.** -/
theorem Change.rebuilt {e changed : EvaluationAggregate} {body : EventBody}
    (h : Change e changed body) (hrebuilt : Rebuilt e) : Rebuilt (changed.raise body) := by
  have hagrees : (e.domainEvents.foldl Projection.apply .empty).Agrees e := hrebuilt
  cases h with
  | started hstate hutc htime =>
      exact Rebuilt.raise rfl { hagrees with state := rfl, version := rfl }
  | @completed result reasons t hstate hutc htime hvalid hresult =>
      -- the event depends on the result, the announced state does not
      refine Rebuilt.raise (e := e) rfl ?_
      cases result <;> exact { hagrees with state := rfl, version := rfl }
  | cancelled hopen hutc hreason =>
      exact Rebuilt.raise rfl { hagrees with state := rfl, version := rfl }
  | expired hopen hutc htime =>
      exact Rebuilt.raise rfl { hagrees with state := rfl, version := rfl }
  | ruleRequired hopen hid hnew =>
      refine Rebuilt.raise (e := e) rfl { hagrees with requiredRuleIDs := ?_, version := rfl }
      exact congrArg (· ++ [_]) hagrees.requiredRuleIDs
  | evidenceBound hopen hnormal hsession hfree =>
      exact Rebuilt.raise rfl { hagrees with version := rfl }
  | policyBound hopen hnormal htime hfree =>
      exact Rebuilt.raise rfl { hagrees with version := rfl }
  | @edited body edit hstate hedit hkeeps =>
      refine Rebuilt.raise (e := e) rfl ?_
      rw [Projection.apply_of_edit hedit]
      exact { hagrees with ruleOutcomes := congrArg edit hagrees.ruleOutcomes, version := rfl }
  | @checkpointCreated name t hstate hutc hname htime hnew =>
      refine Rebuilt.raise (e := e) rfl { hagrees with checkpoints := ?_, version := rfl }
      intro other
      rw [@EvaluationAggregate.checkpointByName_orderedInsert e _ (e.checkpoint name t) hnew rfl]
      change ((name, _) :: _).lookup other = _
      rw [List.lookup_cons]
      by_cases hother : other = name
      · rw [if_pos (show other = (e.checkpoint name t).name from hother), hother, beq_self_eq_true]
        exact congrArg some hagrees.ruleOutcomes
      · rw [if_neg (show other ≠ (e.checkpoint name t).name from hother), beq_false_of_ne hother]
        exact hagrees.checkpoints other
  | @rolledBack name checkpoint t hstate hfound =>
      refine Rebuilt.raise (e := e) rfl { hagrees with ruleOutcomes := ?_, version := rfl }
      change ((_ : List (String × List RuleOutcome)).lookup name).getD [] = checkpoint.ruleOutcomes
      rw [hagrees.checkpoints, hfound]
      rfl

theorem Edits.rebuilt {e e' : EvaluationAggregate} (h : Edits e e') (hrebuilt : Rebuilt e) :
    Rebuilt e' := by
  induction h with
  | refl => exact hrebuilt
  | tail _ hlast ih =>
      obtain ⟨changed, body, hchange, rfl⟩ := hlast
      exact hchange.rebuilt ih

theorem EvaluationAggregate.recordHistory_rebuilt {e e' : EvaluationAggregate} {recordedAt : Time}
    (h : e.recordHistory recordedAt = .ok e') (hrebuilt : Rebuilt e) : Rebuilt e' := by
  have hagrees : (e.domainEvents.foldl Projection.apply .empty).Agrees e := hrebuilt
  obtain ⟨-, -, -, rfl⟩ := recordHistory_eq_ok h
  have hfiled : (e.fileHistory recordedAt.toUTC).domainEvents = e.domainEvents ++
      [⟨e.evaluationID, e.sessionID, e.version, .evaluationHistoryRecorded recordedAt.toUTC⟩] := rfl
  unfold Rebuilt
  rw [hfiled, List.foldl_append]
  exact { hagrees with version := rfl }

/-! ## Runs -/

theorem newEvaluation_rebuilt {id sessionID : UUID} {createdAt : Time}
    {e : EvaluationAggregate} (h : newEvaluation id sessionID createdAt = .ok e) : Rebuilt e := by
  simp only [newEvaluation, bind_eq_ok, rejectIf_eq_ok, pure_eq_ok, exists_const] at h
  obtain ⟨-, -, -, rfl⟩ := h
  exact ⟨rfl, rfl, rfl, rfl, fun _ => rfl⟩

/-- **Run lemma.** -/
theorem Script.moments_rebuilt {client : Script}
    (hcalls : client.Calls (· ≠ .clearDomainEvents)) {e moment : EvaluationAggregate}
    (hrebuilt : Rebuilt e) (hmoment : moment ∈ client.moments e) : Rebuilt moment := by
  refine Script.moments_related (fun a b => Rebuilt a → Rebuilt b) (fun _ h => h)
    (fun _ _ _ first second h => second (first h)) ?_ ?_ hcalls hmoment hrebuilt
  · intro op a hop hrebuilt
    rcases op.apply_cases a with hedits | ⟨_, _, hrecord⟩ | ⟨hclear, _⟩
    · exact Edits.rebuilt hedits hrebuilt
    · exact EvaluationAggregate.recordHistory_rebuilt hrecord hrebuilt
    · exact absurd hclear hop
  · intro a occurredAt mutation hmutation hrebuilt
    rcases a.applyAtomicMutation_cases occurredAt mutation with ⟨-, hrecord⟩ | ⟨-, hrestore⟩
    · exact EvaluationAggregate.recordHistory_rebuilt hrecord (hmutation hrebuilt)
    · -- the events are put back together with what they describe
      rw [hrestore]
      exact { hrebuilt with }

/-- The events of every run rebuild the outcomes, the plan, the state and the
version. -/
theorem events_rebuild_evaluation {id sessionID : UUID} {createdAt : Time}
    {created e : EvaluationAggregate} (hnew : newEvaluation id sessionID createdAt = .ok created)
    {client : Script} (hcalls : client.Calls (· ≠ .clearDomainEvents))
    (he : e ∈ client.moments created) :
    (e.domainEvents.foldl Projection.apply .empty).ruleOutcomes = e.ruleOutcomes ∧
      (e.domainEvents.foldl Projection.apply .empty).requiredRuleIDs = e.requiredRuleIDs ∧
      (e.domainEvents.foldl Projection.apply .empty).state = e.state ∧
      (e.domainEvents.foldl Projection.apply .empty).version = e.version := by
  have hagrees : (e.domainEvents.foldl Projection.apply .empty).Agrees e :=
    Script.moments_rebuilt hcalls (newEvaluation_rebuilt hnew) he
  exact ⟨hagrees.ruleOutcomes, hagrees.requiredRuleIDs, hagrees.state, hagrees.version⟩

theorem inspection_events_rebuild :
    (Inspection.client.run Inspection.created).2.ruleOutcomes ≠ [] ∧
      ((Inspection.client.run Inspection.created).2.domainEvents.foldl Projection.apply
        .empty).ruleOutcomes = (Inspection.client.run Inspection.created).2.ruleOutcomes := by
  refine ⟨by decide +kernel, ?_⟩
  exact (@events_rebuild_evaluation 1 2 (Inspection.clock 1000) Inspection.created _ rfl
    Inspection.client (by simp [Inspection.client, Script.Calls, Script.sequence])
    (Inspection.client.run_mem_moments Inspection.created)).1

end Evaluation
end CargoPds
