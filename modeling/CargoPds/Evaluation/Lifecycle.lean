import CargoPds.Evaluation.Frame
import CargoPds.Evaluation.Invariant

/-!
# The order of the lifecycle times

An evaluation is created, started, and ends.  Each operation holds its own time against
one that came before: `Start` against the creation, `CompleteAt` against the start, but
`Expire` against the creation also when the evaluation has been started since.  No other
operation writes these times, and a failed mutation puts them back together.

So the times are in order in every state of a run whose calls of `Expire` respect the
start (`lifecycle_times_ordered`), and `expired_before_started` shows that this has to be
asked for.
-/

namespace CargoPds
namespace Evaluation

open Fallible

/-- The latest time that an end of the evaluation has to come after. -/
def EvaluationSnapshot.begunAt (s : EvaluationSnapshot) : Time := s.startedAt.getD s.createdAt

/-- The times of the lifecycle are in order. -/
structure EvaluationSnapshot.TimesOrdered (s : EvaluationSnapshot) : Prop where
  started : ∀ t ∈ s.startedAt, s.createdAt.instant ≤ t.instant
  completed : ∀ t ∈ s.completedAt, s.begunAt.instant ≤ t.instant
  expired : ∀ t ∈ s.expiredAt, s.begunAt.instant ≤ t.instant

instance (s : EvaluationSnapshot) : Decidable s.TimesOrdered :=
  decidable_of_iff ((∀ t ∈ s.startedAt, s.createdAt.instant ≤ t.instant) ∧
    (∀ t ∈ s.completedAt, s.begunAt.instant ≤ t.instant) ∧
    ∀ t ∈ s.expiredAt, s.begunAt.instant ≤ t.instant)
    ⟨fun h => ⟨h.1, h.2.1, h.2.2⟩, fun h => ⟨h.started, h.completed, h.expired⟩⟩

/-- An evaluation that has been started expires no earlier than that. -/
def Operation.ExpiresAfterStart (op : Operation) (e : EvaluationAggregate) : Prop :=
  match op with
  | expire expiredAt => ∀ startedAt ∈ e.startedAt, ¬ expiredAt.Before startedAt
  | _ => True

instance (op : Operation) (e : EvaluationAggregate) : Decidable (op.ExpiresAfterStart e) := by
  unfold Operation.ExpiresAfterStart
  split <;> infer_instance

/-! ## One operation -/

/-- The invariant.  The creation is never moved, and an evaluation that was not started
has not ended by completion or expiry. -/
structure InOrder (createdAt : Time) (s : EvaluationSnapshot) : Prop where
  created : s.createdAt = createdAt
  fresh : s.state = .created → s.completedAt = none ∧ s.expiredAt = none
  times : s.TimesOrdered

namespace InOrder

variable {createdAt : Time} {e e' : EvaluationAggregate}

theorem of_sameFrame (hframe : e.SameFrame e') (h : InOrder createdAt e.snapshot) :
    InOrder createdAt e'.snapshot := by
  have hbefore : InOrder createdAt e.frame :=
    ⟨h.created, h.fresh, ⟨h.times.started, h.times.completed, h.times.expired⟩⟩
  have hafter : InOrder createdAt e'.frame := by
    rw [show e'.frame = e.frame from hframe]
    exact hbefore
  exact ⟨hafter.created, hafter.fresh,
    ⟨hafter.times.started, hafter.times.completed, hafter.times.expired⟩⟩

theorem start {t : Time} (h : InOrder createdAt e.snapshot) (hstart : e.start t = .ok e') :
    InOrder createdAt e'.snapshot := by
  simp only [EvaluationAggregate.start, bind_eq_ok, rejectIf_eq_ok, pure_eq_ok, exists_const,
    not_or, not_not] at hstart
  obtain ⟨hstate, ⟨-, htime⟩, rfl⟩ := hstart
  -- nothing can have ended yet, so that the new start precedes no end
  obtain ⟨hcompleted, hexpired⟩ := h.fresh (EvaluationState.canTransitionTo_running.mp hstate)
  refine ⟨h.created, EvaluationState.noConfusion, ?_, ?_, ?_⟩
  · rintro _ ⟨⟩
    exact not_lt.mp htime
  · intro t' ht'
    exact absurd (hcompleted.symm.trans ht') (by simp)
  · intro t' ht'
    exact absurd (hexpired.symm.trans ht') (by simp)

theorem completeAt {result : VerificationResult} {reasons : List ReasonCode} {t : Time}
    (h : InOrder createdAt e.snapshot) (hcomplete : e.completeAt result reasons t = .ok e') :
    InOrder createdAt e'.snapshot := by
  simp only [EvaluationAggregate.completeAt, bind_eq_ok, rejectIf_eq_ok, pure_eq_ok,
    exists_const, not_or, not_not] at hcomplete
  obtain ⟨-, ⟨-, startedAt, hstarted, htime⟩, -, -, nr, -, -, -, rfl⟩ := hcomplete
  refine ⟨h.created, EvaluationState.noConfusion, h.times.started, ?_,
    h.times.expired⟩
  rintro _ ⟨⟩
  change (e.startedAt.getD e.createdAt).instant ≤ t.instant
  rw [show e.startedAt = some startedAt from hstarted]
  exact not_lt.mp htime

theorem expire {t : Time} (h : InOrder createdAt e.snapshot)
    (hcondition : Operation.ExpiresAfterStart (.expire t) e) (hexpire : e.expire t = .ok e') :
    InOrder createdAt e'.snapshot := by
  simp only [EvaluationAggregate.expire, bind_eq_ok, rejectIf_eq_ok, pure_eq_ok,
    exists_const] at hexpire
  obtain ⟨-, -, htime, rfl⟩ := hexpire
  refine ⟨h.created, EvaluationState.noConfusion, h.times.started,
    h.times.completed, ?_⟩
  rintro _ ⟨⟩
  change (e.startedAt.getD e.createdAt).instant ≤ t.instant
  cases hstarted : e.startedAt with
  | none => exact not_lt.mp htime
  | some startedAt => exact not_lt.mp (hcondition startedAt hstarted)

theorem cancel {reason : String} {now : Time} (h : InOrder createdAt e.snapshot)
    (hcancel : e.cancel reason now = .ok e') : InOrder createdAt e'.snapshot := by
  simp only [EvaluationAggregate.cancel, bind_eq_ok, rejectIf_eq_ok, pure_eq_ok,
    exists_const] at hcancel
  obtain ⟨-, -, rfl⟩ := hcancel
  exact ⟨h.created, EvaluationState.noConfusion, h.times.started,
    h.times.completed, h.times.expired⟩

theorem bindEvidenceSet {binding : EvidenceSetBinding} (h : InOrder createdAt e.snapshot)
    (hbind : e.bindEvidenceSet binding = .ok e') : InOrder createdAt e'.snapshot := by
  obtain ⟨-, -, rfl | ⟨normalized, -, -, -, rfl⟩⟩ :=
    EvaluationAggregate.bindEvidenceSet_eq_ok hbind
  · exact h
  · exact ⟨h.created, h.fresh, h.times.started, h.times.completed, h.times.expired⟩

theorem bindVerificationPolicy {binding : PolicyBinding} (h : InOrder createdAt e.snapshot)
    (hbind : e.bindVerificationPolicy binding = .ok e') : InOrder createdAt e'.snapshot := by
  cases hbound : e.policyBinding with
  | none =>
      obtain ⟨normalized, -, rfl⟩ :=
        EvaluationAggregate.bindVerificationPolicy_eq_ok hbound hbind
      exact ⟨h.created, h.fresh, h.times.started, h.times.completed, h.times.expired⟩
  | some bound =>
      simp only [EvaluationAggregate.bindVerificationPolicy, bind_eq_ok, hbound] at hbind
      obtain ⟨-, -, -, -, normalized, -, -, -, hsame⟩ := hbind
      split at hsame
      · rw [← Except.ok.inj hsame]
        exact h
      · exact absurd hsame (by simp)

/-- **Step lemma.** -/
theorem apply {op : Operation} (hcondition : op.Succeeds e → op.ExpiresAfterStart e)
    (h : InOrder createdAt e.snapshot) : InOrder createdAt (op.apply e).2.snapshot := by
  have hsettle : ∀ x : Except Error EvaluationAggregate,
      (∀ e', x = .ok e' → InOrder createdAt e'.snapshot) →
        InOrder createdAt (settleOperation e x).2.snapshot := by
    rintro (err | e') hx
    · exact h
    · exact hx e' rfl
  cases op with
  | start t => exact hsettle _ fun e' => h.start
  | completeAt result reasons t => exact hsettle _ fun e' => h.completeAt
  | cancel reason now => exact hsettle _ fun e' => h.cancel
  | expire t =>
      exact hsettle _ fun e' hexpire => h.expire (hcondition (settleOperation_ok hexpire)) hexpire
  | bindEvidenceSet binding => exact hsettle _ fun e' => h.bindEvidenceSet
  | bindVerificationPolicy binding => exact hsettle _ fun e' => h.bindVerificationPolicy
  | _ =>
      refine h.of_sameFrame (Operation.apply_sameFrame ?_ e)
      exact not_false

/-- A failed mutation puts the state and the times back together. -/
theorem applyAtomicMutation {occurredAt : Time}
    {mutation : EvaluationAggregate → Except Error Unit × EvaluationAggregate}
    (h : InOrder createdAt e.snapshot) (hmutation : InOrder createdAt (mutation e).2.snapshot) :
    InOrder createdAt (e.applyAtomicMutation occurredAt mutation).2.snapshot := by
  rcases e.applyAtomicMutation_cases occurredAt mutation with ⟨-, hrecord⟩ | ⟨-, hrestore⟩
  · obtain ⟨-, -, -, hfiled⟩ := EvaluationAggregate.recordHistory_eq_ok hrecord
    rw [hfiled]
    exact ⟨hmutation.created, hmutation.fresh, hmutation.times.started,
      hmutation.times.completed, hmutation.times.expired⟩
  · rw [hrestore]
    have hcreated : (mutation e).2.createdAt = e.createdAt :=
      hmutation.created.trans h.created.symm
    refine ⟨hmutation.created, h.fresh, ?_, ?_, ?_⟩
    · intro t ht
      change (mutation e).2.createdAt.instant ≤ t.instant
      rw [hcreated]
      exact h.times.started t ht
    · intro t ht
      change (e.startedAt.getD (mutation e).2.createdAt).instant ≤ t.instant
      rw [hcreated]
      exact h.times.completed t ht
    · intro t ht
      change (e.startedAt.getD (mutation e).2.createdAt).instant ≤ t.instant
      rw [hcreated]
      exact h.times.expired t ht

end InOrder

/-! ## Whole runs -/

theorem newEvaluation_inOrder {id sessionID : UUID} {createdAt : Time}
    {created : EvaluationAggregate} (hnew : newEvaluation id sessionID createdAt = .ok created) :
    InOrder createdAt.toUTC created.snapshot := by
  simp only [newEvaluation, bind_eq_ok, rejectIf_eq_ok, pure_eq_ok, exists_const] at hnew
  obtain ⟨-, -, -, rfl⟩ := hnew
  refine ⟨rfl, fun _ => ⟨rfl, rfl⟩, ?_, ?_, ?_⟩ <;>
    exact fun _ ht => absurd ht (Option.not_mem_none _)

/-- Storing a snapshot and reading it back moves no time. -/
theorem EvaluationSnapshot.TimesOrdered.rehydrate {s : EvaluationSnapshot}
    {e : EvaluationAggregate} (h : s.TimesOrdered) (hrehydrate : rehydrateEvaluation s = .ok e) :
    e.snapshot.TimesOrdered := by
  rw [snapshot_of_rehydrateEvaluation hrehydrate]
  have hbegun : s.restored.begunAt.instant = s.begunAt.instant := by
    unfold EvaluationSnapshot.begunAt EvaluationSnapshot.restored
    cases s.startedAt <;> rfl
  refine ⟨h.started, ?_, ?_⟩
  · rw [hbegun]
    exact h.completed
  · rw [hbegun]
    exact h.expired

/-- The times of the lifecycle are in order in every state of a run in which `Expire` does
not succeed with a time before the start, and in every evaluation that is read back from
the snapshot of such a state. -/
theorem lifecycle_times_ordered {id sessionID : UUID} {createdAt : Time}
    {created e : EvaluationAggregate} (hnew : newEvaluation id sessionID createdAt = .ok created)
    (client : Script) (hmeets : client.Meets Operation.ExpiresAfterStart created)
    (he : e ∈ client.states created) :
    e.snapshot.TimesOrdered ∧
      ∀ restored, rehydrateEvaluation e.snapshot = .ok restored →
        restored.snapshot.TimesOrdered := by
  have hordered : e.snapshot.TimesOrdered :=
    (Script.states_invariant (fun e => InOrder createdAt.toUTC e.snapshot)
      (fun _ _ => InOrder.apply) (fun _ _ _ => InOrder.applyAtomicMutation) hmeets
      (newEvaluation_inOrder hnew) he).times
  exact ⟨hordered, fun restored => hordered.rehydrate⟩

namespace Inspection

/-- A mutation that completes the evaluation and fails, then a timeout. -/
def timedOut : Script :=
  .call (.start (clock 2000)) fun _ =>
  .applyAtomicMutation (clock 2500)
    (.call (.completeAt .manualReview ["UNCLEAR"] (clock 2500)) fun _ =>
      .finish (.error (.mutation "abort")))
    fun _ => .sequence [.expire (clock 3000)]

/-- A timeout that is dated between the creation and the start. -/
def antedated : Script := .sequence [.start (clock 2000), .expire (clock 1500)]

end Inspection

theorem timed_out_inspection_ordered :
    ∃ e ∈ Inspection.timedOut.states Inspection.created,
      e.startedAt = some (Inspection.clock 2000) ∧ e.expiredAt = some (Inspection.clock 3000) ∧
      e.snapshot.TimesOrdered ∧
      ∀ restored, rehydrateEvaluation e.snapshot = .ok restored →
        restored.snapshot.TimesOrdered := by
  have hreached : ∃ e ∈ Inspection.timedOut.states Inspection.created,
      e.startedAt = some (Inspection.clock 2000) ∧
      e.expiredAt = some (Inspection.clock 3000) := by decide
  obtain ⟨e, he, hstarted, hexpired⟩ := hreached
  exact ⟨e, he, hstarted, hexpired, @lifecycle_times_ordered 1 2 (Inspection.clock 1000)
    Inspection.created e rfl Inspection.timedOut (by decide) he⟩

/-- The evaluation expires before it was started, and is read back like that. -/
theorem expired_before_started :
    newEvaluation 1 2 (Inspection.clock 1000) = .ok Inspection.created ∧
      ∃ e ∈ Inspection.antedated.states Inspection.created,
        e.startedAt = some (Inspection.clock 2000) ∧
        e.expiredAt = some (Inspection.clock 1500) ∧ ¬ e.snapshot.TimesOrdered ∧
        rehydrateEvaluation e.snapshot = .ok { e.snapshot with domainEvents := [] } := by
  decide

end Evaluation
end CargoPds
