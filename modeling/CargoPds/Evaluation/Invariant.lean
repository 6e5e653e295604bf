import CargoPds.Evaluation.Runs

/-!
# The invariant of an evaluation

Every state that a client can bring an aggregate into is *sound*: its outcomes,
its plan and its bindings are in normal form and it has exactly the timestamps of
its state.  Rehydration checks less than that; `Checked` is what it does check.

* `rehydrateEvaluation_eq_ok_iff`: rehydration accepts exactly the checked
  snapshots;
* `newEvaluation_sound`, `Change.sound`, `Script.moments_sound`: a new evaluation
  is sound, a change keeps it so, and therefore every run does, including the
  runs in which mutations fail and are undone;
* `reachable_snapshots_round_trip`: what this says of the recorded outcomes, and
  that every reachable snapshot is restored as it is;
* `rehydrated_evaluation_checked`: what rehydration establishes of a snapshot
  that need not come from a run.
-/

namespace CargoPds
namespace Evaluation

open Fallible Text

variable {s : EvaluationSnapshot} {e : EvaluationAggregate}

instance : Std.Total ByName := ⟨fun left right => le_total left.name right.name⟩

instance : IsTrans EvaluationCheckpoint ByName := ⟨fun _ _ _ => le_trans⟩

namespace EvaluationSnapshot

/-! ## What rehydration checks -/

/-- The timestamps that `validateEvaluationSnapshot` asks for.  An ended
evaluation may have others as well. -/
def TimesPresent (s : EvaluationSnapshot) : Prop :=
  match s.state with
  | .created =>
      s.startedAt = none ∧ s.completedAt = none ∧ s.cancelledAt = none ∧ s.expiredAt = none
  | .running =>
      s.startedAt ≠ none ∧ s.completedAt = none ∧ s.cancelledAt = none ∧ s.expiredAt = none
  | .completed => s.startedAt ≠ none ∧ s.completedAt ≠ none ∧ s.result ≠ .unknown
  | .cancelled => s.cancelledAt ≠ none ∧ s.cancellationReason ≠ ""
  | .expired => s.expiredAt ≠ none
  | .other _ => False

theorem validateStateTimes_eq_ok :
    validateStateTimes s = .ok () ↔ s.TimesPresent := by
  cases hstate : s.state <;> simp [validateStateTimes, TimesPresent, hstate]

theorem validateSnapshotBindings_eq_ok :
    validateSnapshotBindings s = .ok () ↔
      (∀ binding ∈ s.evidenceBinding, ∃ normalized,
        normalizeEvidenceBinding binding = .ok normalized ∧
          normalized.sessionID = s.sessionID) ∧
      (∀ binding ∈ s.policyBinding, ∃ normalized,
        normalizePolicyBinding binding = .ok normalized ∧
          ¬ normalized.boundAt.Before s.createdAt) := by
  unfold validateSnapshotBindings
  cases s.evidenceBinding <;> cases s.policyBinding <;>
    simp [bind_eq_ok, rejectIf_eq_ok, orElseError_eq_ok, ← and_assoc]

/-- What holds of a snapshot that rehydration accepts. -/
structure Checked (s : EvaluationSnapshot) : Prop where
  evaluationID_set : s.evaluationID ≠ UUID.nil
  sessionID_set : s.sessionID ≠ UUID.nil
  version_pos : s.version ≠ 0
  created_set : ¬ s.createdAt.IsZero
  result_valid : s.result.IsValid
  times : s.TimesPresent
  outcomes : ∀ outcome ∈ s.ruleOutcomes, ∃ normalized,
    normalizeRuleOutcome outcome = .ok normalized
  history_valid : ∀ entry ∈ s.history, validateEvaluationHistoryEntry entry = .ok ()
  evidence : ∀ binding ∈ s.evidenceBinding, ∃ normalized,
    normalizeEvidenceBinding binding = .ok normalized ∧ normalized.sessionID = s.sessionID
  policy : ∀ binding ∈ s.policyBinding, ∃ normalized,
    normalizePolicyBinding binding = .ok normalized ∧
      ¬ normalized.boundAt.Before s.createdAt
  checkpoints_set : ∀ checkpoint ∈ s.checkpoints,
    checkpoint.name ≠ "" ∧ ¬ checkpoint.createdAt.IsZero
  checkpoints_nodup : (s.checkpoints.map (·.name)).Nodup

/-- Going through an aggregate twice is going through it once. -/
@[simp] theorem restored_restored (s : EvaluationSnapshot) : s.restored.restored = s.restored := by
  unfold restored
  rw [Time.toUTC_toUTC, (List.pairwise_insertionSort ByName s.checkpoints).insertionSort_eq]

/-- Going through an aggregate keeps the checks. -/
theorem Checked.restored (h : s.Checked) : s.restored.Checked :=
  { h with
    checkpoints_set := fun checkpoint hmem =>
      h.checkpoints_set checkpoint (List.mem_insertionSort ByName |>.mp hmem)
    checkpoints_nodup :=
      ((List.perm_insertionSort ByName s.checkpoints).map _).nodup_iff.mpr h.checkpoints_nodup }

end EvaluationSnapshot

/-- A loop that only checks succeeds when every element passes. -/
theorem exists_mapM_eq_ok {α β : Type} {f : α → Except Error β} {l : List α} :
    (∃ out, l.mapM f = .ok out) ↔ ∀ a ∈ l, ∃ b, f a = .ok b := by
  simp only [mapM_eq_ok]
  induction l with
  | nil => simp
  | cons a rest ih =>
      rw [List.forall_mem_cons, ← ih]
      constructor
      · rintro ⟨_, hall⟩
        cases hall with
        | cons hhead htail => exact ⟨⟨_, hhead⟩, _, htail⟩
      · rintro ⟨⟨b, hhead⟩, out, htail⟩
        exact ⟨b :: out, .cons hhead htail⟩

/-- Rehydration accepts exactly the checked snapshots. -/
theorem rehydrateEvaluation_eq_ok_iff :
    rehydrateEvaluation s = .ok e ↔
      s.Checked ∧ e = { s.restored with domainEvents := [] } := by
  have hhistory : (∃ out, s.history.mapM validateEvaluationHistoryEntry = .ok out) ↔
      ∀ entry ∈ s.history, validateEvaluationHistoryEntry entry = .ok () := by
    rw [exists_mapM_eq_ok]
    exact forall₂_congr fun _ _ => ⟨fun ⟨_, h⟩ => h, fun h => ⟨(), h⟩⟩
  have hvalid : validateEvaluationSnapshot s = .ok () ↔
      (s.evaluationID ≠ UUID.nil ∧ s.sessionID ≠ UUID.nil) ∧ s.version ≠ 0 ∧
        (¬ s.createdAt.IsZero ∧ s.result.IsValid) ∧ validateStateTimes s = .ok () ∧
        (∃ out, s.ruleOutcomes.mapM normalizeRuleOutcome = .ok out) ∧
        (∃ out, s.history.mapM validateEvaluationHistoryEntry = .ok out) ∧
        validateSnapshotBindings s = .ok () := by
    simp only [validateEvaluationSnapshot, bind_eq_ok, rejectIf_eq_ok, orElseError_eq_ok,
      exists_const, not_or, not_not, exists_and_right, ne_eq]
    tauto
  rw [hhistory, exists_mapM_eq_ok, EvaluationSnapshot.validateStateTimes_eq_ok,
    EvaluationSnapshot.validateSnapshotBindings_eq_ok] at hvalid
  simp only [rehydrateEvaluation, bind_eq_ok, rejectIf_eq_ok, exists_const, pure_eq_ok,
    not_exists, not_and, not_or, not_not]
  constructor
  · rintro ⟨⟨⟩, hsnapshot, hset, hnodup, rfl⟩
    obtain ⟨⟨hid, hsession⟩, hversion, ⟨hcreated, hresult⟩, htimes, houtcomes, hentries,
      hevidence, hpolicy⟩ := hvalid.mp hsnapshot
    exact ⟨⟨hid, hsession, hversion, hcreated, hresult, htimes, houtcomes, hentries, hevidence,
      hpolicy, hset, hnodup⟩, rfl⟩
  · rintro ⟨h, rfl⟩
    refine ⟨(), hvalid.mpr ?_, h.checkpoints_set, h.checkpoints_nodup, rfl⟩
    exact ⟨⟨h.evaluationID_set, h.sessionID_set⟩, h.version_pos, ⟨h.created_set, h.result_valid⟩,
      h.times, h.outcomes, h.history_valid, h.evidence, h.policy⟩

/-! ## Soundness -/

namespace EvaluationSnapshot

/-- The snapshot has exactly the timestamps that belong to its state.  An
evaluation may be cancelled or expire before it was started. -/
def Timely (s : EvaluationSnapshot) : Prop :=
  match s.state with
  | .created =>
      s.startedAt = none ∧ s.completedAt = none ∧ s.cancelledAt = none ∧ s.expiredAt = none
  | .running =>
      s.startedAt ≠ none ∧ s.completedAt = none ∧ s.cancelledAt = none ∧ s.expiredAt = none
  | .completed =>
      s.startedAt ≠ none ∧ s.completedAt ≠ none ∧ s.cancelledAt = none ∧ s.expiredAt = none
  | .cancelled => s.completedAt = none ∧ s.cancelledAt ≠ none ∧ s.expiredAt = none
  | .expired => s.completedAt = none ∧ s.cancelledAt = none ∧ s.expiredAt ≠ none
  | .other _ => False

instance (s : EvaluationSnapshot) : Decidable s.Timely := by
  unfold Timely
  split <;> infer_instance

/-- An evaluation that has not ended has no timestamp of an end. -/
theorem Timely.not_ended (h : s.Timely) (hopen : ¬ s.state.IsTerminal) :
    s.completedAt = none ∧ s.cancelledAt = none ∧ s.expiredAt = none := by
  unfold Timely at h
  cases hstate : s.state with
  | created =>
      rw [hstate] at h
      exact h.2
  | running =>
      rw [hstate] at h
      exact h.2
  | completed => exact absurd (Or.inl hstate) hopen
  | cancelled => exact absurd (Or.inr (Or.inl hstate)) hopen
  | expired => exact absurd (Or.inr (Or.inr hstate)) hopen
  | other text =>
      rw [hstate] at h
      exact h.elim

/-- What holds of every reachable state. -/
structure Sound (s : EvaluationSnapshot) : Prop where
  evaluationID_set : s.evaluationID ≠ UUID.nil
  sessionID_set : s.sessionID ≠ UUID.nil
  version_pos : s.version ≠ 0
  created_set : ¬ s.createdAt.IsZero
  created_utc : s.createdAt.IsUTC
  result_valid : s.result.IsValid
  timely : s.Timely
  decided : s.state = .completed → s.result ≠ .unknown
  reason : s.state = .cancelled → s.cancellationReason ≠ ""
  outcomes : Recorded s.startedAt s.ruleOutcomes
  plan_nodup : s.requiredRuleIDs.Nodup
  plan_canonical : ∀ id ∈ s.requiredRuleIDs, Canonical id
  history_valid : ∀ entry ∈ s.history, validateEvaluationHistoryEntry entry = .ok ()
  evidence : ∀ binding ∈ s.evidenceBinding,
    normalizeEvidenceBinding binding = .ok binding ∧ binding.sessionID = s.sessionID
  policy : ∀ binding ∈ s.policyBinding,
    normalizePolicyBinding binding = .ok binding ∧ ¬ binding.boundAt.Before s.createdAt
  checkpoints_set : ∀ checkpoint ∈ s.checkpoints,
    checkpoint.name ≠ "" ∧ ¬ checkpoint.createdAt.IsZero
  checkpoints_nodup : (s.checkpoints.map (·.name)).Nodup
  checkpoints_sorted : s.checkpoints.Pairwise ByName
  checkpoints_recorded : ∀ checkpoint ∈ s.checkpoints,
    Recorded s.startedAt checkpoint.ruleOutcomes

theorem Sound.timesPresent (h : s.Sound) : s.TimesPresent := by
  have htimely := h.timely
  unfold Timely at htimely
  unfold TimesPresent
  cases hstate : s.state with
  | created | running =>
      rw [hstate] at htimely
      exact htimely
  | completed =>
      rw [hstate] at htimely
      exact ⟨htimely.1, htimely.2.1, h.decided hstate⟩
  | cancelled =>
      rw [hstate] at htimely
      exact ⟨htimely.2.1, h.reason hstate⟩
  | expired =>
      rw [hstate] at htimely
      exact htimely.2.2
  | other text =>
      rw [hstate] at htimely
      exact htimely

theorem Sound.checked (h : s.Sound) : s.Checked :=
  { h with
    times := h.timesPresent
    outcomes := fun outcome hmem => ⟨outcome, (h.outcomes.normal outcome hmem).normalize⟩
    evidence := fun binding hmem => ⟨binding, h.evidence binding hmem⟩
    policy := fun binding hmem => ⟨binding, h.policy binding hmem⟩ }

/-- A sound snapshot passes through an aggregate unchanged. -/
theorem Sound.restored (h : s.Sound) : s.restored = s := by
  unfold EvaluationSnapshot.restored
  rw [Time.toUTC_eq_of_isUTC h.created_utc, h.checkpoints_sorted.insertionSort_eq]

/-- A sound snapshot is restored as it is. -/
theorem Sound.rehydrate (h : s.Sound) :
    rehydrateEvaluation s = .ok { s with domainEvents := [] } :=
  rehydrateEvaluation_eq_ok_iff.mpr ⟨h.checked, by rw [h.restored]⟩

end EvaluationSnapshot

/-! ## Every change keeps an evaluation sound -/

/-- Nothing is recorded before the start. -/
theorem Recorded.of_none {startedAt : Option Time} {outcomes : List RuleOutcome}
    (h : Recorded none outcomes) : Recorded startedAt outcomes := by
  cases outcomes with
  | nil => exact Recorded.nil
  | cons outcome rest =>
      obtain ⟨_, hstarted, -⟩ := h.started outcome List.mem_cons_self
      exact absurd hstarted (by simp)

theorem newEvaluation_sound {id sessionID : UUID} {createdAt : Time}
    (h : newEvaluation id sessionID createdAt = .ok e) : e.snapshot.Sound := by
  simp only [newEvaluation, bind_eq_ok, rejectIf_eq_ok, pure_eq_ok, exists_const] at h
  obtain ⟨hid, hsession, hcreated, rfl⟩ := h
  constructor <;> first
    | exact hid
    | exact hsession
    | exact hcreated
    | exact Recorded.nil
    | exact List.Pairwise.nil
    | exact List.nodup_nil
    | simp [EvaluationAggregate.snapshot, EvaluationSnapshot.Timely,
        VerificationResult.IsValid]

namespace Change

variable {e changed : EvaluationAggregate} {body : EventBody}

/-- The checkpoints after one more was created. -/
theorem checkpoints_sound {name : String} {t : Time} (hs : e.snapshot.Sound)
    (hname : name ≠ "") (htime : ¬ t.IsZero) (hnew : e.checkpointByName name = none) :
    EvaluationSnapshot.Sound
      { e.snapshot with
        checkpoints := e.checkpoints.orderedInsert ByName (e.checkpoint name t) } := by
  have hmem : ∀ checkpoint ∈ e.checkpoints.orderedInsert ByName (e.checkpoint name t),
      checkpoint = e.checkpoint name t ∨ checkpoint ∈ e.checkpoints :=
    fun checkpoint h => (List.mem_orderedInsert ByName).mp h
  refine { hs with checkpoints_set := ?_, checkpoints_nodup := ?_, checkpoints_sorted := ?_,
                   checkpoints_recorded := ?_ }
  · intro checkpoint h
    rcases hmem checkpoint h with rfl | hold
    · exact ⟨hname, htime⟩
    · exact hs.checkpoints_set checkpoint hold
  · have hperm := (List.perm_orderedInsert ByName (e.checkpoint name t) e.checkpoints).map
      EvaluationCheckpoint.name
    rw [hperm.nodup_iff, List.map_cons, List.nodup_cons]
    refine ⟨?_, hs.checkpoints_nodup⟩
    intro hold
    obtain ⟨checkpoint, hcheckpoint, hsame⟩ := List.mem_map.mp hold
    exact List.find?_eq_none.mp hnew checkpoint hcheckpoint (decide_eq_true hsame)
  · exact hs.checkpoints_sorted.orderedInsert _ _
  · intro checkpoint h
    rcases hmem checkpoint h with rfl | hold
    · exact hs.outcomes
    · exact hs.checkpoints_recorded checkpoint hold

/-- **Step lemma.** -/
theorem sound (h : Change e changed body) (hs : e.snapshot.Sound) : changed.snapshot.Sound := by
  have htimely := hs.timely
  cases h with
  | started hstate hutc htime =>
      -- the outcomes and the checkpoints of an evaluation in CREATED are empty
      unfold EvaluationSnapshot.Timely at htimely
      rw [show e.snapshot.state = .created from hstate] at htimely
      obtain ⟨hstarted, hcompleted, hcancelled, hexpired⟩ := htimely
      have houtcomes := hs.outcomes
      have hcheckpoints := hs.checkpoints_recorded
      rw [hstarted] at houtcomes hcheckpoints
      exact { hs with
        timely := ⟨by simp [EvaluationAggregate.snapshot], hcompleted, hcancelled, hexpired⟩
        decided := nofun
        reason := nofun
        outcomes := houtcomes.of_none
        checkpoints_recorded := fun checkpoint hmem => (hcheckpoints checkpoint hmem).of_none }
  | completed hstate hutc htime hvalid hresult =>
      unfold EvaluationSnapshot.Timely at htimely
      rw [show e.snapshot.state = .running from hstate] at htimely
      obtain ⟨hstarted, -, hcancelled, hexpired⟩ := htimely
      exact { hs with
        result_valid := hvalid
        timely := ⟨hstarted, by simp [EvaluationAggregate.snapshot], hcancelled, hexpired⟩
        decided := fun _ => hresult
        reason := nofun }
  | cancelled hopen hutc hreason =>
      obtain ⟨hcompleted, -, hexpired⟩ := htimely.not_ended hopen
      exact { hs with
        timely := ⟨hcompleted, by simp [EvaluationAggregate.snapshot], hexpired⟩
        decided := nofun
        reason := fun _ => hreason }
  | expired hopen hutc htime =>
      obtain ⟨hcompleted, hcancelled, -⟩ := htimely.not_ended hopen
      exact { hs with
        result_valid := trivial
        timely := ⟨hcompleted, hcancelled, by simp [EvaluationAggregate.snapshot]⟩
        decided := nofun
        reason := nofun }
  | @ruleRequired id t hopen hid hnew =>
      refine { hs with plan_nodup := ?_, plan_canonical := ?_ }
      · have happend : (appendNew e.requiredRuleIDs id).Nodup :=
          nodup_appendNew id hs.plan_nodup
        rw [appendNew_of_not_mem hnew] at happend
        exact happend
      · intro other hother
        rcases List.mem_append.mp hother with hold | hlast
        · exact hs.plan_canonical other hold
        · rw [List.mem_singleton.mp hlast]
          exact hid
  | evidenceBound hopen hnormal hsession hfree =>
      refine { hs with evidence := ?_ }
      rintro binding ⟨⟩
      exact ⟨normalizeEvidenceBinding_idem hnormal, hsession⟩
  | policyBound hopen hnormal htime hfree =>
      refine { hs with policy := ?_ }
      rintro binding ⟨⟩
      exact ⟨normalizePolicyBinding_idem hnormal, htime⟩
  | edited hstate hedit hkeeps => exact { hs with outcomes := hkeeps hs.outcomes }
  | checkpointCreated hstate hutc hname htime hnew =>
      exact checkpoints_sound hs hname htime hnew
  | rolledBack hstate hfound =>
      exact { hs with
        outcomes := hs.checkpoints_recorded _ (List.mem_of_find?_eq_some hfound) }

end Change

theorem Edits.sound {e' : EvaluationAggregate} (h : Edits e e') (hs : e.snapshot.Sound) :
    e'.snapshot.Sound := by
  induction h with
  | refl => exact hs
  | tail _ hlast ih =>
      obtain ⟨changed, body, hchange, rfl⟩ := hlast
      exact { hchange.sound ih with version_pos := Nat.succ_ne_zero _ }

theorem EvaluationAggregate.recordHistory_sound {e' : EvaluationAggregate} {recordedAt : Time}
    (h : e.recordHistory recordedAt = .ok e') (hs : e.snapshot.Sound) : e'.snapshot.Sound := by
  obtain ⟨-, -, hvalid, rfl⟩ := recordHistory_eq_ok h
  refine { hs with history_valid := ?_ }
  intro entry hentry
  rcases List.mem_append.mp hentry with hold | hlast
  · exact hs.history_valid entry hold
  · rw [List.mem_singleton.mp hlast]
    exact hvalid

/-- Undoing a mutation puts sound values back, and what it does not put back is
sound as well: the identity has not changed, the bindings are those of a sound
evaluation, and a cancellation reason is never taken away. -/
theorem EvaluationAggregate.restoreMutableState_sound {e' : EvaluationAggregate}
    (hs : e.snapshot.Sound) (hs' : e'.snapshot.Sound) (hfollows : Follows e e') :
    (e'.restoreMutableState e.captureMutableState).snapshot.Sound :=
  { hs with
    evaluationID_set := hs'.evaluationID_set
    sessionID_set := hs'.sessionID_set
    created_set := hs'.created_set
    created_utc := hs'.created_utc
    reason := fun hstate => hfollows.reason (hs.reason hstate)
    evidence := hs'.evidence
    policy := hs'.policy }

theorem Operation.apply_sound (op : Operation) (hs : e.snapshot.Sound) :
    (op.apply e).2.snapshot.Sound := by
  rcases op.apply_cases e with hedits | ⟨_, _, hrecord⟩ | ⟨_, hclear⟩
  · exact Edits.sound hedits hs
  · exact EvaluationAggregate.recordHistory_sound hrecord hs
  · rw [hclear]
    exact hs

theorem EvaluationAggregate.applyAtomicMutation_sound (occurredAt : Time)
    (mutation : EvaluationAggregate → Except Error Unit × EvaluationAggregate)
    (hs : e.snapshot.Sound) (hs' : (mutation e).2.snapshot.Sound)
    (hfollows : Follows e (mutation e).2) :
    (e.applyAtomicMutation occurredAt mutation).2.snapshot.Sound := by
  rcases e.applyAtomicMutation_cases occurredAt mutation with ⟨-, hrecord⟩ | ⟨-, hrestore⟩
  · exact recordHistory_sound hrecord hs'
  · rw [hrestore]
    exact restoreMutableState_sound hs hs' hfollows

/-- **Run lemma.** -/
theorem Script.moments_sound {client : Script} {moment : EvaluationAggregate}
    (hs : e.snapshot.Sound) (hmoment : moment ∈ client.moments e) : moment.snapshot.Sound := by
  -- undoing a mutation needs to know that the identity stayed, so both facts
  -- are carried along the run
  have hboth := Script.moments_related
    (fun a b => Follows a b ∧ (a.snapshot.Sound → b.snapshot.Sound))
    (fun a => ⟨Follows.refl a, fun h => h⟩)
    (fun a b c hab hbc => ⟨hab.1.trans hbc.1, fun h => hbc.2 (hab.2 h)⟩)
    (fun op a _ => ⟨Follows.of_operation op a, op.apply_sound⟩)
    (fun a occurredAt mutation h => ⟨Follows.of_atomic a occurredAt mutation h.1,
      fun hs => EvaluationAggregate.applyAtomicMutation_sound occurredAt mutation hs (h.2 hs) h.1⟩)
    client.calls_any hmoment
  exact hboth.2 hs

/-- The states inside mutation functions are sound as well. -/
theorem Script.states_sound {client : Script} {state : EvaluationAggregate} (hs : e.snapshot.Sound)
    (hstate : state ∈ client.states e) : state.snapshot.Sound := by
  induction client generalizing e with
  | finish result =>
      rw [List.mem_singleton.mp hstate]
      exact hs
  | call op next ih =>
      rcases List.mem_cons.mp hstate with rfl | hlater
      · exact hs
      · exact ih _ (op.apply_sound hs) hlater
  | applyAtomicMutation occurredAt mutation next ihmutation ih =>
      rcases List.mem_append.mp hstate with hinner | hlater
      · exact ihmutation hs hinner
      · refine ih _ (EvaluationAggregate.applyAtomicMutation_sound occurredAt mutation.run hs ?_
          (mutation.follows e)) hlater
        exact Script.moments_sound hs (mutation.run_mem_moments e)

/-! ## Reachable snapshots -/

/-- The invariant of the recorded outcomes and of the plan in every reachable
state, and the round trip of its snapshot. -/
theorem reachable_snapshots_round_trip {id sessionID : UUID} {createdAt : Time}
    {created e : EvaluationAggregate} (hnew : newEvaluation id sessionID createdAt = .ok created)
    (client : Script) (he : e ∈ client.moments created) :
    (e.ruleOutcomes.map (·.ruleID)).Nodup ∧
      (∀ outcome ∈ e.ruleOutcomes,
        outcome.ruleID ≠ "" ∧ trimSpace outcome.ruleID = outcome.ruleID ∧
          outcome.status.IsValid ∧ outcome.reasonCodes.Nodup ∧
          normalizeReasonCodes outcome.reasonCodes = .ok outcome.reasonCodes ∧
          (outcome.reasonCodes = [] ↔ outcome.status = .pass) ∧
          ∃ startedAt ∈ e.startedAt, ¬ outcome.evaluatedAt.Before startedAt) ∧
      e.requiredRuleIDs.Nodup ∧ (∀ ruleID ∈ e.requiredRuleIDs, trimSpace ruleID = ruleID) ∧
      ∃ restored, rehydrateEvaluation e.snapshot = .ok restored ∧
        restored.snapshot = e.snapshot := by
  have hsound := Script.moments_sound (newEvaluation_sound hnew) he
  refine ⟨hsound.outcomes.nodup, ?_, hsound.plan_nodup, ?_, _, hsound.rehydrate, rfl⟩
  · intro outcome hmem
    have hnormal := hsound.outcomes.normal outcome hmem
    exact ⟨hnormal.ruleID_canonical.1, hnormal.ruleID_canonical.2.symm, hnormal.status_valid,
      hnormal.reasons_normal.1, hnormal.reasons_normal.normalize, hnormal.pass_iff.symm,
      hsound.outcomes.started outcome hmem⟩
  · intro ruleID hmem
    exact (hsound.plan_canonical ruleID hmem).2.symm

namespace Inspection

/-- A time in UTC. -/
def clock (instant : Int) : Time := ⟨instant, .utc⟩

/-- A new evaluation. -/
def created : EvaluationAggregate where
  evaluationID := 1
  sessionID := 2
  state := .created
  result := .unknown
  reasonCodes := []
  createdAt := clock 1000
  startedAt := none
  completedAt := none
  cancelledAt := none
  expiredAt := none
  cancellationReason := ""
  version := 1
  requiredRuleIDs := []
  ruleOutcomes := []
  checkpoints := []
  history := []
  evidenceBinding := none
  policyBinding := none
  domainEvents := [⟨1, 2, 1, .evaluationCreated (clock 1000)⟩]

/-- An outcome that is not in normal form. -/
def nearLimit : RuleOutcome :=
  ⟨" weight ", .warning, ["near_limit", "NEAR_LIMIT"], ⟨2500, .zone "CET" 3600⟩⟩

def onShelf : RuleOutcome := ⟨"presence", .pass, [], clock 2600⟩

/-- Two outcomes and a checkpoint; then a mutation that resets the outcomes and
fails, a removal and a rollback. -/
def client : Script :=
  .call (.registerRequiredRuleAt " weight" (clock 1500)) fun _ =>
  .call (.registerRequiredRuleAt "presence" (clock 1500)) fun _ =>
  .call (.start (clock 2000)) fun _ =>
  .call (.recordRuleOutcome nearLimit) fun _ =>
  .call (.recordRuleOutcomeBatch [onShelf] (clock 2700)) fun _ =>
  .call (.createCheckpoint "weighed" (clock 2800)) fun _ =>
  .applyAtomicMutation (clock 2900)
    (.call (.resetRuleOutcomes (clock 2900)) fun _ => .finish (.error (.mutation "abort")))
    fun _ => .sequence [.removeRuleOutcome "weight" (clock 3000),
      .rollbackToCheckpoint "weighed" (clock 3100)]

end Inspection

theorem inspection_round_trip :
    ∃ e ∈ Inspection.client.moments Inspection.created,
      e.version = 9 ∧ e.ruleOutcomes =
        [⟨"weight", .warning, ["NEAR_LIMIT"], Inspection.clock 2500⟩, Inspection.onShelf] ∧
      ∃ restored, rehydrateEvaluation e.snapshot = .ok restored ∧
        restored.snapshot = e.snapshot := by
  have hlast := Inspection.client.run_mem_moments Inspection.created
  refine ⟨_, hlast, by decide +kernel, by decide +kernel, ?_⟩
  exact (@reachable_snapshots_round_trip 1 2 (Inspection.clock 1000) Inspection.created _ rfl
    Inspection.client hlast).2.2.2.2

/-! ## Snapshots from elsewhere -/

/-- A restored evaluation has the fields of its snapshot and these pass the
checks.  The invariant of the reachable states is restored with a snapshot that
has it: with every snapshot of a run. -/
theorem rehydrated_evaluation_checked {s : EvaluationSnapshot} {e : EvaluationAggregate}
    (h : rehydrateEvaluation s = .ok e) :
    e.snapshot = s.restored ∧ e.domainEvents = [] ∧ e.snapshot.Checked ∧
      (∀ outcome ∈ e.ruleOutcomes, ∃ normalized : RuleOutcome,
        normalizeRuleOutcome outcome = .ok normalized ∧ normalized.Normal ∧
          normalized.ruleID = trimSpace outcome.ruleID ∧ normalized.status = outcome.status ∧
          normalized.evaluatedAt.Equal outcome.evaluatedAt) ∧
      ∀ (id sessionID : UUID) (createdAt : Time) (created moment : EvaluationAggregate)
        (client : Script), newEvaluation id sessionID createdAt = .ok created →
        moment ∈ client.moments created → s = moment.snapshot → e.snapshot.Sound := by
  obtain ⟨hchecked, rfl⟩ := rehydrateEvaluation_eq_ok_iff.mp h
  refine ⟨rfl, rfl, hchecked.restored, ?_, ?_⟩
  · intro outcome hmem
    obtain ⟨normalized, hnormalized⟩ := hchecked.outcomes outcome hmem
    refine ⟨normalized, hnormalized, normalizeRuleOutcome_normal hnormalized, ?_⟩
    simp only [normalizeRuleOutcome, bind_eq_ok, rejectIf_eq_ok, pure_eq_ok,
      exists_const] at hnormalized
    obtain ⟨-, -, reasons, -, -, -, rfl⟩ := hnormalized
    exact ⟨rfl, rfl, rfl⟩
  · rintro id sessionID createdAt created moment client hnew hmoment rfl
    have hsound := Script.moments_sound (newEvaluation_sound hnew) hmoment
    change moment.snapshot.restored.Sound
    rw [hsound.restored]
    exact hsound

namespace Inspection

/-- A completed evaluation that no run produces. -/
def forged : EvaluationSnapshot where
  evaluationID := 1
  sessionID := 2
  state := .completed
  result := .verified
  reasonCodes := []
  createdAt := clock 1000
  startedAt := some (clock 2000)
  completedAt := some (clock 3000)
  cancelledAt := some (clock 2900)
  expiredAt := none
  cancellationReason := ""
  version := 1
  requiredRuleIDs := [" weight", " weight"]
  ruleOutcomes := [⟨" weight", .pass, [], clock 1500⟩, ⟨" weight", .pass, [], clock 1500⟩]
  checkpoints := []
  history := []
  evidenceBinding := some ⟨2, .qualified, " v1", clock 1400, [], [⟨3, .qualified, []⟩]⟩
  policyBinding := none

end Inspection

theorem forged_snapshot_rehydrates_checked :
    ∃ e, rehydrateEvaluation Inspection.forged = .ok e ∧ e.snapshot.Checked := by
  have hrehydrate : rehydrateEvaluation Inspection.forged =
      .ok { Inspection.forged with domainEvents := [] } := by decide
  exact ⟨_, hrehydrate, (rehydrated_evaluation_checked hrehydrate).2.2.1⟩

theorem forged_snapshot_violates_invariant :
    ∃ e, rehydrateEvaluation Inspection.forged = .ok e ∧
      ¬ (e.ruleOutcomes.map (·.ruleID)).Nodup ∧
      (∃ outcome ∈ e.ruleOutcomes, trimSpace outcome.ruleID ≠ outcome.ruleID ∧
        normalizeRuleOutcome outcome ≠ .ok outcome ∧
        ∃ startedAt ∈ e.startedAt, outcome.evaluatedAt.Before startedAt) ∧
      ¬ e.requiredRuleIDs.Nodup ∧
      (∃ ruleID ∈ e.requiredRuleIDs, trimSpace ruleID ≠ ruleID) ∧
      (∃ binding ∈ e.evidenceBinding, normalizeEvidenceBinding binding ≠ .ok binding) ∧
      ¬ e.snapshot.Timely := by
  refine ⟨{ Inspection.forged with domainEvents := [] }, ?_⟩
  decide

end Evaluation
end CargoPds
