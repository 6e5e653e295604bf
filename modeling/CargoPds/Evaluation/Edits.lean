import Mathlib.Logic.Relation
import CargoPds.Evaluation.Operations

/-!
# What an operation can do

Some twenty operations change an aggregate, but all of them do so by a few kinds
of change, each of which ends in `raise`.  `Change` lists the kinds with the
checks that precede them, and this file shows once for each operation that it
is a sequence of such changes (`Operation.effect`).  Every later result about
runs is an analysis of the ten kinds.

Two operations are not sequences of changes: `RecordHistory` files an entry
without a new version, and `ApplyAtomicMutation` puts copies back.
-/

namespace CargoPds
namespace Evaluation

open Fallible Text

variable {outcome o : RuleOutcome} {outcomes : List RuleOutcome} {ruleID : String}
variable {registeredAt recordedAt removedAt replacedAt : Time} {body : EventBody}
variable {binding : EvidenceSetBinding} {e : EvaluationAggregate} {ruleIDs : List String}

/-- The form of a list of recorded outcomes. -/
structure Recorded (startedAt : Option Time) (outcomes : List RuleOutcome) : Prop where
  nodup : (outcomes.map (·.ruleID)).Nodup
  normal : ∀ outcome ∈ outcomes, outcome.Normal
  started : ∀ outcome ∈ outcomes, ∃ t ∈ startedAt, ¬ outcome.evaluatedAt.Before t

/-- What an event about outcomes tells its consumers to do with their list. -/
def EventBody.edit : EventBody → Option (List RuleOutcome → List RuleOutcome)
  | ruleOutcomeRecorded ruleID status reasonCodes evaluatedAt =>
      some fun outcomes => outcomes ++ [⟨ruleID, status, reasonCodes, evaluatedAt⟩]
  | ruleOutcomeBatchRecorded pending _ => some fun outcomes => outcomes ++ pending
  | ruleOutcomeReplaced _ replacement _ => some (replaceOutcome replacement)
  | ruleOutcomeBatchReplaced _ replacements _ => some (replaceOutcomes replacements)
  | ruleOutcomeRemoved outcome _ => some (removeOutcome outcome.ruleID)
  | ruleOutcomeBatchRemoved removed _ => some (removeOutcomes (removed.map (·.ruleID)))
  | ruleOutcomesReset _ _ => some fun _ => []
  | _ => none

/-- The outcomes that an event reports as recorded, or as put in another's place. -/
def EventBody.recorded : EventBody → List RuleOutcome
  | ruleOutcomeRecorded ruleID status reasonCodes evaluatedAt =>
      [⟨ruleID, status, reasonCodes, evaluatedAt⟩]
  | ruleOutcomeBatchRecorded pending _ => pending
  | ruleOutcomeReplaced _ replacement _ => [replacement]
  | ruleOutcomeBatchReplaced _ replacements _ => replacements
  | _ => []

/-- What a consumer has after an event was there before, or the event brought it. -/
theorem EventBody.mem_edit {edit : List RuleOutcome → List RuleOutcome} (h : body.edit = some edit)
    (hmem : outcome ∈ edit outcomes) : outcome ∈ outcomes ∨ outcome ∈ body.recorded := by
  cases body with
  | ruleOutcomeRecorded | ruleOutcomeBatchRecorded =>
      obtain rfl := Option.some.inj h
      exact List.mem_append.mp hmem
  | ruleOutcomeReplaced =>
      obtain rfl := Option.some.inj h
      rcases mem_replaceOutcome hmem with rfl | hold
      · exact Or.inr List.mem_cons_self
      · exact Or.inl hold
  | ruleOutcomeBatchReplaced =>
      obtain rfl := Option.some.inj h
      exact (mem_replaceOutcomes hmem).symm
  | ruleOutcomeRemoved =>
      obtain rfl := Option.some.inj h
      exact Or.inl (List.mem_of_mem_eraseP hmem)
  | ruleOutcomeBatchRemoved =>
      obtain rfl := Option.some.inj h
      exact Or.inl (List.mem_of_mem_filter hmem)
  | ruleOutcomesReset =>
      obtain rfl := Option.some.inj h
      exact absurd hmem List.not_mem_nil
  | _ => cases h

/-- The rule is in the plan, or there is no plan. -/
def EvaluationAggregate.Plans (e : EvaluationAggregate) (ruleID : String) : Prop :=
  e.requiredRuleIDs = [] ∨ ruleID ∈ e.requiredRuleIDs

theorem EvaluationAggregate.plans_of_known (hid : Canonical ruleID) (h : ¬ e.IsUnknownRule ruleID) :
    e.Plans ruleID := by
  by_cases hempty : e.requiredRuleIDs = []
  · exact Or.inl hempty
  · have hrequired : trimSpace ruleID ∈ e.requiredRuleIDs := by
      by_contra hmissing
      exact h ⟨hempty, hmissing⟩
    rw [← hid.2] at hrequired
    exact Or.inr hrequired

/-- The kinds of change, with the event of each.  The version and the events
follow when the change is raised. -/
inductive Change (e : EvaluationAggregate) : EvaluationAggregate → EventBody → Prop
  | started {t : Time} (hstate : e.state = .created) (hutc : t.IsUTC)
      (htime : ¬ t.Before e.createdAt) :
      Change e { e with state := .running, startedAt := some t } (.evaluationStarted t)
  | completed {result : VerificationResult} {reasons : List ReasonCode} {t : Time}
      (hstate : e.state = .running) (hutc : t.IsUTC) (htime : e.StartedBy t)
      (hvalid : result.IsValid) (hresult : result ≠ .unknown) :
      Change e
        { e with
          state := .completed
          result := result
          reasonCodes := reasons
          completedAt := some t }
        (EvaluationAggregate.completionEvent result reasons t)
  | cancelled {reason : String} {t : Time} (hopen : ¬ e.state.IsTerminal) (hutc : t.IsUTC)
      (hreason : reason ≠ "") :
      Change e
        { e with state := .cancelled, cancelledAt := some t, cancellationReason := reason }
        (.evaluationCancelled reason t)
  | expired {t : Time} (hopen : ¬ e.state.IsTerminal) (hutc : t.IsUTC)
      (htime : ¬ t.Before e.createdAt) :
      Change e
        { e with
          state := .expired
          result := .systemException
          reasonCodes := [reasonCodeEvaluationTimeout]
          expiredAt := some t }
        (.evaluationExpired [reasonCodeEvaluationTimeout] t)
  | ruleRequired {id : String} {t : Time} (hopen : ¬ e.state.IsTerminal) (hid : Canonical id)
      (hnew : id ∉ e.requiredRuleIDs) :
      Change e { e with requiredRuleIDs := e.requiredRuleIDs ++ [id] }
        (.requiredRuleRegistered id t)
  | evidenceBound {given binding : EvidenceSetBinding} (hopen : ¬ e.state.IsTerminal)
      (hnormal : normalizeEvidenceBinding given = .ok binding)
      (hsession : binding.sessionID = e.sessionID) (hfree : e.evidenceBinding = none)
      (hempty : e.ruleOutcomes = []) :
      Change e { e with evidenceBinding := some binding } (.evidenceSetBound binding)
  | policyBound {given binding : PolicyBinding} (hopen : ¬ e.state.IsTerminal)
      (hnormal : normalizePolicyBinding given = .ok binding)
      (htime : ¬ binding.boundAt.Before e.createdAt) (hfree : e.policyBinding = none)
      (hempty : e.ruleOutcomes = []) :
      Change e { e with policyBinding := some binding } (.verificationPolicyBound binding)
  | edited {body : EventBody} {edit : List RuleOutcome → List RuleOutcome}
      (hstate : e.state = .running) (hedit : body.edit = some edit)
      (hkeeps : Recorded e.startedAt e.ruleOutcomes →
        Recorded e.startedAt (edit e.ruleOutcomes))
      (hplan : ∀ outcome ∈ body.recorded, e.Plans outcome.ruleID) :
      Change e { e with ruleOutcomes := edit e.ruleOutcomes } body
  | checkpointCreated {name : String} {t : Time} (hstate : e.state = .running)
      (hutc : t.IsUTC) (hname : name ≠ "") (htime : ¬ t.IsZero)
      (hnew : e.checkpointByName name = none) :
      Change e
        { e with checkpoints := e.checkpoints.orderedInsert ByName (e.checkpoint name t) }
        (.evaluationCheckpointCreated name t)
  | rolledBack {name : String} {checkpoint : EvaluationCheckpoint} {t : Time}
      (hstate : e.state = .running) (hfound : e.checkpointByName name = some checkpoint) :
      Change e { e with ruleOutcomes := checkpoint.ruleOutcomes } (.evaluationRolledBack name t)

/-- One change, raised. -/
def Edit (e e' : EvaluationAggregate) : Prop :=
  ∃ changed body, Change e changed body ∧ e' = changed.raise body

/-- Any number of changes. -/
abbrev Edits : EvaluationAggregate → EvaluationAggregate → Prop := Relation.ReflTransGen Edit

theorem Change.edits {changed : EvaluationAggregate} (h : Change e changed body) :
    Edits e (changed.raise body) :=
  Relation.ReflTransGen.single ⟨changed, body, h, rfl⟩

/-- The events of the operations other than `RegisterRequiredRuleAt` and
`RollbackToCheckpoint`, the two that do not look at the recorded outcomes. -/
def EventBody.Plain : EventBody → Prop
  | requiredRuleRegistered _ _ => False
  | evaluationRolledBack _ _ => False
  | _ => True

/-- One change of an operation other than these two, raised. -/
def PlainEdit (e e' : EvaluationAggregate) : Prop :=
  ∃ changed body, Change e changed body ∧ body.Plain ∧ e' = changed.raise body

abbrev PlainEdits : EvaluationAggregate → EvaluationAggregate → Prop :=
  Relation.ReflTransGen PlainEdit

theorem Change.plainEdits {changed : EvaluationAggregate} (h : Change e changed body)
    (hplain : body.Plain) : PlainEdits e (changed.raise body) :=
  Relation.ReflTransGen.single ⟨changed, body, h, hplain, rfl⟩

theorem PlainEdits.edits {e' : EvaluationAggregate} (h : PlainEdits e e') : Edits e e' := by
  refine Relation.ReflTransGen.mono ?_ e e' h
  rintro before after ⟨changed, body, hchange, -, rfl⟩
  exact ⟨changed, body, hchange, rfl⟩

/-- An ended evaluation does not change. -/
theorem Change.not_terminal {changed : EvaluationAggregate} (h : Change e changed body) :
    ¬ e.state.IsTerminal := by
  cases h with
  | cancelled hopen | expired hopen | ruleRequired hopen | evidenceBound hopen
  | policyBound hopen => exact hopen
  | started hstate | completed hstate | edited hstate | checkpointCreated hstate
  | rolledBack hstate =>
      rw [hstate]
      decide

/-! ## Lists of outcomes -/

namespace Recorded

variable {startedAt : Option Time} {outcomes : List RuleOutcome}

theorem nil : Recorded startedAt [] :=
  ⟨List.nodup_nil, fun _ h => absurd h List.not_mem_nil, fun _ h => absurd h List.not_mem_nil⟩

theorem sublist {fewer : List RuleOutcome} (h : Recorded startedAt outcomes)
    (hsub : fewer.Sublist outcomes) : Recorded startedAt fewer :=
  ⟨h.nodup.sublist (hsub.map _), fun o ho => h.normal o (hsub.subset ho),
    fun o ho => h.started o (hsub.subset ho)⟩

theorem append {more : List RuleOutcome} (h : Recorded startedAt outcomes)
    (hmore : Recorded startedAt more)
    (hnew : ∀ outcome ∈ more, outcome.ruleID ∉ outcomes.map (·.ruleID)) :
    Recorded startedAt (outcomes ++ more) := by
  refine ⟨?_, ?_, ?_⟩
  · rw [List.map_append, List.nodup_append]
    refine ⟨h.nodup, hmore.nodup, ?_⟩
    rintro a ha b hb rfl
    obtain ⟨outcome, hmem, rfl⟩ := List.mem_map.mp hb
    exact hnew outcome hmem ha
  · intro outcome hmem
    rcases List.mem_append.mp hmem with hold | hadded
    · exact h.normal outcome hold
    · exact hmore.normal outcome hadded
  · intro outcome hmem
    rcases List.mem_append.mp hmem with hold | hadded
    · exact h.started outcome hold
    · exact hmore.started outcome hadded

theorem singleton (hnormal : outcome.Normal)
    (hstarted : ∃ t ∈ startedAt, ¬ outcome.evaluatedAt.Before t) :
    Recorded startedAt [outcome] := by
  refine ⟨List.nodup_singleton _, ?_, ?_⟩
  · intro other hother
    rw [List.mem_singleton.mp hother]
    exact hnormal
  · intro other hother
    rw [List.mem_singleton.mp hother]
    exact hstarted

theorem replaceOutcome {replacement : RuleOutcome} (h : Recorded startedAt outcomes)
    (hnormal : replacement.Normal)
    (hstarted : ∃ t ∈ startedAt, ¬ replacement.evaluatedAt.Before t) :
    Recorded startedAt (replaceOutcome replacement outcomes) := by
  refine ⟨?_, ?_, ?_⟩
  · rw [map_ruleID_replaceOutcome]
    exact h.nodup
  · intro outcome hmem
    rcases mem_replaceOutcome hmem with rfl | hold
    · exact hnormal
    · exact h.normal outcome hold
  · intro outcome hmem
    rcases mem_replaceOutcome hmem with rfl | hold
    · exact hstarted
    · exact h.started outcome hold

theorem replaceOutcomes {replacements : List RuleOutcome} (h : Recorded startedAt outcomes)
    (hnormal : ∀ replacement ∈ replacements, replacement.Normal)
    (hstarted : ∀ replacement ∈ replacements,
      ∃ t ∈ startedAt, ¬ replacement.evaluatedAt.Before t) :
    Recorded startedAt (replaceOutcomes replacements outcomes) := by
  unfold Evaluation.replaceOutcomes
  induction replacements generalizing outcomes with
  | nil => exact h
  | cons replacement rest ih =>
      refine ih (h.replaceOutcome (hnormal _ List.mem_cons_self)
        (hstarted _ List.mem_cons_self)) ?_ ?_
      · exact fun r hr => hnormal r (List.mem_cons_of_mem _ hr)
      · exact fun r hr => hstarted r (List.mem_cons_of_mem _ hr)

end Recorded

namespace EvaluationSnapshot

/-- A rule without an outcome. -/
theorem ruleOutcomeByID_eq_none {s : EvaluationSnapshot} (hid : Canonical ruleID) :
    s.ruleOutcomeByID ruleID = none ↔ ruleID ∉ s.ruleOutcomes.map (·.ruleID) := by
  unfold ruleOutcomeByID
  rw [← hid.2, List.find?_eq_none, List.mem_map]
  constructor
  · rintro h ⟨outcome, hmem, hsame⟩
    exact h outcome hmem (decide_eq_true hsame)
  · intro h outcome hmem hsame
    exact h ⟨outcome, hmem, of_decide_eq_true hsame⟩

theorem ruleID_of_ruleOutcomeByID {s : EvaluationSnapshot}
    (h : s.ruleOutcomeByID ruleID = some outcome) :
    outcome.ruleID = trimSpace ruleID := by
  simpa using List.find?_some h

end EvaluationSnapshot

namespace EvaluationAggregate

variable {e e' : EvaluationAggregate}

/-! ## Lifecycle and bindings -/

theorem start_edits {startedAt : Time} (h : e.start startedAt = .ok e') : PlainEdits e e' := by
  simp only [start, bind_eq_ok, rejectIf_eq_ok, pure_eq_ok, exists_const, not_or,
    not_not] at h
  obtain ⟨hstate, ⟨-, htime⟩, rfl⟩ := h
  exact (Change.started (EvaluationState.canTransitionTo_running.mp hstate)
    (Time.toUTC_isUTC _) htime).plainEdits trivial

theorem completionEvent_plain (result : VerificationResult) (reasons : List ReasonCode)
    (completedAt : Time) : (completionEvent result reasons completedAt).Plain := by
  unfold completionEvent
  split <;> trivial

theorem completeAt_edits {result : VerificationResult} {reasons : List ReasonCode}
    {completedAt : Time} (h : e.completeAt result reasons completedAt = .ok e') :
    PlainEdits e e' := by
  simp only [completeAt, bind_eq_ok, rejectIf_eq_ok, pure_eq_ok, exists_const, not_or,
    not_not] at h
  obtain ⟨hstate, ⟨-, htime⟩, ⟨hvalid, hresult⟩, -, nr, -, -, -, rfl⟩ := h
  exact (Change.completed (EvaluationState.canTransitionTo_completed.mp hstate)
    (Time.toUTC_isUTC _) htime hvalid hresult).plainEdits (completionEvent_plain _ _ _)

theorem cancel_edits {reason : String} {now : Time} (h : e.cancel reason now = .ok e') :
    PlainEdits e e' := by
  simp only [cancel, bind_eq_ok, rejectIf_eq_ok, pure_eq_ok, exists_const] at h
  obtain ⟨hopen, hreason, rfl⟩ := h
  exact (Change.cancelled hopen (Time.toUTC_isUTC _) hreason).plainEdits trivial

theorem expire_edits {expiredAt : Time} (h : e.expire expiredAt = .ok e') :
    PlainEdits e e' := by
  simp only [expire, bind_eq_ok, rejectIf_eq_ok, pure_eq_ok, exists_const] at h
  obtain ⟨hopen, -, htime, rfl⟩ := h
  exact (Change.expired hopen (Time.toUTC_isUTC _) htime).plainEdits trivial

theorem registerRequiredRuleAt_cases {id : String}
    (h : e.registerRequiredRuleAt id registeredAt = .ok e') :
    e' = e ∨ ¬ e.state.IsTerminal ∧ Canonical (trimSpace id) ∧
      trimSpace id ∉ e.requiredRuleIDs ∧
      e' = ({ e with
          requiredRuleIDs := e.requiredRuleIDs ++ [trimSpace id] } : EvaluationAggregate).raise
        (.requiredRuleRegistered (trimSpace id) registeredAt.toUTC) := by
  simp only [registerRequiredRuleAt, bind_eq_ok, rejectIf_eq_ok, pure_eq_ok,
    exists_const] at h
  obtain ⟨hopen, -, hid, rfl⟩ := h
  split
  · exact Or.inl rfl
  · rename_i hnew
    exact Or.inr ⟨hopen, canonical_trimSpace hid, hnew, rfl⟩

theorem registerRequiredRuleAt_edits {id : String}
    (h : e.registerRequiredRuleAt id registeredAt = .ok e') : Edits e e' := by
  rcases registerRequiredRuleAt_cases h with rfl | ⟨hopen, hid, hnew, rfl⟩
  · exact Relation.ReflTransGen.refl
  · exact (Change.ruleRequired hopen hid hnew).edits

theorem registerPlan_edits {plan : List String} (h : e.registerPlan plan registeredAt = .ok e') :
    Edits e e' := by
  unfold registerPlan at h
  refine foldlM_invariant (Edits e) ?_ Relation.ReflTransGen.refl h
  intro acc id acc' hacc hstep
  exact hacc.trans (registerRequiredRuleAt_edits hstep)

theorem bindEvidenceSet_edits (h : e.bindEvidenceSet binding = .ok e') : PlainEdits e e' := by
  obtain ⟨hopen, hempty, hcases⟩ := bindEvidenceSet_eq_ok h
  rcases hcases with rfl | ⟨normalized, hnormal, hsession, hfree, rfl⟩
  · exact Relation.ReflTransGen.refl
  · exact (Change.evidenceBound hopen hnormal hsession hfree hempty).plainEdits trivial

theorem bindVerificationPolicy_edits {binding : PolicyBinding}
    (h : e.bindVerificationPolicy binding = .ok e') : PlainEdits e e' := by
  simp only [bindVerificationPolicy, bind_eq_ok, rejectIf_eq_ok, exists_const,
    orElseError_eq_ok, ne_eq, not_not] at h
  obtain ⟨hopen, hempty, normalized, hnormal, htime, hbind⟩ := h
  cases hbound : e.policyBinding with
  | some bound =>
      simp only [hbound] at hbind
      split at hbind
      · rw [← Except.ok.inj hbind]
      · exact absurd hbind (by simp)
  | none =>
      simp only [hbound] at hbind
      rw [← pure_eq_ok.mp hbind]
      exact (Change.policyBound hopen hnormal htime hbound hempty).plainEdits trivial

/-! ## Recording -/

/-- Appending an outcome of a rule that has none is a change. -/
theorem appendOutcome_edits (hstate : e.state = .running) (hnormal : outcome.Normal)
    (hstarted : e.StartedBy outcome.evaluatedAt) (hplans : e.Plans outcome.ruleID)
    (hnew : outcome.ruleID ∉ e.ruleOutcomes.map (·.ruleID)) :
    PlainEdits e (e.appendOutcome outcome) := by
  refine (@Change.edited e _ (fun outcomes => outcomes ++ [outcome]) hstate rfl ?_
    ?_).plainEdits trivial
  · intro hrecorded
    refine hrecorded.append (Recorded.singleton hnormal hstarted) ?_
    intro other hother
    rw [List.mem_singleton.mp hother]
    exact hnew
  · intro other hother
    rw [List.mem_singleton.mp hother]
    exact hplans

theorem recordRuleOutcome_edits (h : e.recordRuleOutcome o = .ok e') :
    PlainEdits e e' := by
  simp only [recordRuleOutcome, bind_eq_ok, rejectIf_eq_ok, exists_const, ne_eq, not_not] at h
  obtain ⟨hstate, normalized, hnormalized, hstarted, hknown, hrecord⟩ := h
  have hnormal := normalizeRuleOutcome_normal hnormalized
  cases hfound : e.ruleOutcomeByID normalized.ruleID with
  | some existing =>
      simp only [hfound] at hrecord
      split at hrecord
      · rw [← Except.ok.inj hrecord]
      · exact absurd hrecord (by simp)
  | none =>
      simp only [hfound] at hrecord
      rw [← pure_eq_ok.mp hrecord]
      exact appendOutcome_edits hstate hnormal hstarted
        (plans_of_known hnormal.ruleID_canonical hknown)
        ((EvaluationSnapshot.ruleOutcomeByID_eq_none hnormal.ruleID_canonical).mp hfound)

theorem recordRuleOutcomes_edits (e : EvaluationAggregate) (outcomes : List RuleOutcome) :
    PlainEdits e (e.recordRuleOutcomes outcomes).2 := by
  induction outcomes generalizing e with
  | nil => exact Relation.ReflTransGen.refl
  | cons outcome rest ih =>
      unfold recordRuleOutcomes
      split
      · exact Relation.ReflTransGen.refl
      · rename_i e' hrecord
        exact (recordRuleOutcome_edits hrecord).trans (ih e')

/-- What the checks of a batch establish. -/
structure Validated (e : EvaluationAggregate) (batch : List RuleOutcome) : Prop where
  recorded : Recorded e.startedAt batch
  consistent : ∀ outcome ∈ batch, ∀ existing ∈ e.ruleOutcomeByID outcome.ruleID,
    RuleOutcomesEqual existing outcome
  planned : ∀ outcome ∈ batch, e.Plans outcome.ruleID

theorem Validated.sublist {batch fewer : List RuleOutcome} (h : e.Validated batch)
    (hsub : fewer.Sublist batch) : e.Validated fewer :=
  ⟨h.recorded.sublist hsub, fun o ho => h.consistent o (hsub.subset ho),
    fun o ho => h.planned o (hsub.subset ho)⟩

theorem validateBatchEntry_validated {accepted result : List RuleOutcome}
    (haccepted : e.Validated accepted) (h : e.validateBatchEntry accepted outcome = .ok result) :
    e.Validated result := by
  simp only [validateBatchEntry, bind_eq_ok, rejectIf_eq_ok, exists_const, not_not] at h
  obtain ⟨value, hvalue, hstarted, hknown, hstep⟩ := h
  have hnormal := normalizeRuleOutcome_normal hvalue
  cases hfind : accepted.find? (fun previous => previous.ruleID = value.ruleID) with
  | some previous =>
      simp only [hfind] at hstep
      split at hstep
      · rw [← Except.ok.inj hstep]
        exact haccepted
      · exact absurd hstep (by simp)
  | none =>
      simp only [hfind, bind_eq_ok, rejectIf_eq_ok, exists_const, pure_eq_ok, not_exists,
        not_and, not_not] at hstep
      obtain ⟨hconsistent, rfl⟩ := hstep
      rw [List.find?_eq_none] at hfind
      refine ⟨haccepted.recorded.append (Recorded.singleton hnormal hstarted) ?_, ?_, ?_⟩
      · intro other hother hmem
        rw [List.mem_singleton.mp hother] at hmem
        obtain ⟨previous, hprevious, hsame⟩ := List.mem_map.mp hmem
        exact hfind previous hprevious (decide_eq_true hsame)
      · intro other hother
        rcases List.mem_append.mp hother with hold | hlast
        · exact haccepted.consistent other hold
        · rw [List.mem_singleton.mp hlast]
          exact hconsistent
      · intro other hother
        rcases List.mem_append.mp hother with hold | hlast
        · exact haccepted.planned other hold
        · rw [List.mem_singleton.mp hlast]
          exact plans_of_known hnormal.ruleID_canonical hknown

theorem validateRuleOutcomeBatch_validated {normalized : List RuleOutcome}
    (h : e.validateRuleOutcomeBatch outcomes = .ok normalized) : e.Validated normalized := by
  simp only [validateRuleOutcomeBatch, bind_eq_ok, pure_eq_ok] at h
  obtain ⟨accepted, haccepted, rfl⟩ := h
  have hvalidated : e.Validated accepted :=
    foldlM_invariant e.Validated (fun _ _ _ hacc hstep => validateBatchEntry_validated hacc hstep)
      ⟨Recorded.nil, fun _ hmem => absurd hmem List.not_mem_nil,
        fun _ hmem => absurd hmem List.not_mem_nil⟩ haccepted
  have hperm := List.perm_insertionSort ByRuleID accepted
  refine ⟨⟨?_, ?_, ?_⟩, ?_, ?_⟩
  · exact (hperm.map _).nodup_iff.mpr hvalidated.recorded.nodup
  · exact fun o ho => hvalidated.recorded.normal o (hperm.mem_iff.mp ho)
  · exact fun o ho => hvalidated.recorded.started o (hperm.mem_iff.mp ho)
  · exact fun o ho => hvalidated.consistent o (hperm.mem_iff.mp ho)
  · exact fun o ho => hvalidated.planned o (hperm.mem_iff.mp ho)

/-- In a checked batch, what is not recorded yet belongs to a rule without an
outcome. -/
theorem Validated.new {batch : List RuleOutcome} (h : e.Validated batch) (hmem : outcome ∈ batch)
    (hnew : ¬ e.HasOutcome outcome) :
    outcome.ruleID ∉ e.ruleOutcomes.map (·.ruleID) := by
  rw [← EvaluationSnapshot.ruleOutcomeByID_eq_none (h.recorded.normal _ hmem).ruleID_canonical]
  cases hfound : e.ruleOutcomeByID outcome.ruleID with
  | none => rfl
  | some existing =>
      exact absurd ⟨existing, hfound, h.consistent outcome hmem existing hfound⟩ hnew

theorem recordRuleOutcomeBatch_edits (h : e.recordRuleOutcomeBatch outcomes recordedAt = .ok e') :
    PlainEdits e e' := by
  simp only [recordRuleOutcomeBatch, bind_eq_ok, rejectIf_eq_ok, exists_const, ne_eq,
    not_not] at h
  obtain ⟨hstate, hbatch⟩ := h
  split at hbatch
  · rw [← Except.ok.inj hbatch]
  · simp only [bind_eq_ok, rejectIf_eq_ok, exists_const, pure_eq_ok] at hbatch
    obtain ⟨-, -, normalized, hnormalized, rfl⟩ := hbatch
    have hvalidated := validateRuleOutcomeBatch_validated hnormalized
    split
    · exact Relation.ReflTransGen.refl
    · refine (@Change.edited e _ (fun outcomes => outcomes ++ e.pendingOutcomes normalized)
        hstate rfl ?_ ?_).plainEdits trivial
      · intro hrecorded
        refine hrecorded.append (hvalidated.recorded.sublist List.filter_sublist) ?_
        intro outcome hmem
        obtain ⟨hbatch, hnew⟩ := List.mem_filter.mp hmem
        exact hvalidated.new hbatch (of_decide_eq_true hnew)
      · exact (hvalidated.sublist List.filter_sublist).planned

/-- Appending an outcome leaves the other rules alone. -/
theorem ruleOutcomeByID_appendOutcome (hother : outcome.ruleID ≠ trimSpace ruleID) :
    (e.appendOutcome outcome).ruleOutcomeByID ruleID = e.ruleOutcomeByID ruleID := by
  change (e.ruleOutcomes ++ [outcome]).find? (fun o => o.ruleID = trimSpace ruleID) = _
  rw [List.find?_append, List.find?_singleton, if_neg (by simpa using hother), Option.or_none]
  rfl

theorem recordRuleOutcomesAtomic_edits (h : e.recordRuleOutcomesAtomic outcomes = .ok e') :
    PlainEdits e e' := by
  simp only [recordRuleOutcomesAtomic, bind_eq_ok, rejectIf_eq_ok, exists_const, ne_eq,
    not_not, pure_eq_ok] at h
  obtain ⟨hstate, normalized, hnormalized, rfl⟩ := h
  have hvalidated := validateRuleOutcomeBatch_validated hnormalized
  clear hnormalized
  -- the rest of the batch stays checked while the outcomes before it are appended
  induction normalized generalizing e with
  | nil => exact Relation.ReflTransGen.refl
  | cons outcome rest ih =>
      rw [List.foldl_cons]
      have hrest := hvalidated.sublist (List.sublist_cons_self outcome rest)
      split
      · exact ih hstate hrest
      · rename_i hnew
        have hhead := hvalidated.recorded.normal outcome List.mem_cons_self
        have hstarted := hvalidated.recorded.started outcome List.mem_cons_self
        have hdistinct := hvalidated.recorded.nodup
        rw [List.map_cons, List.nodup_cons] at hdistinct
        refine (appendOutcome_edits hstate hhead hstarted
          (hvalidated.planned outcome List.mem_cons_self)
          (hvalidated.new List.mem_cons_self hnew)).trans
          (ih hstate ⟨hrest.recorded, ?_, hrest.planned⟩)
        intro other hother existing hexisting
        have hid := (hrest.recorded.normal other hother).ruleID_canonical
        have hne : outcome.ruleID ≠ trimSpace other.ruleID := by
          rw [← hid.2]
          intro hsame
          exact hdistinct.1 (hsame ▸ List.mem_map_of_mem hother)
        rw [ruleOutcomeByID_appendOutcome hne] at hexisting
        exact hrest.consistent other hother existing hexisting

/-! ## Replacing -/

theorem replaceRuleOutcome_edits {replacement : RuleOutcome}
    (h : e.replaceRuleOutcome replacement replacedAt = .ok e') : PlainEdits e e' := by
  simp only [replaceRuleOutcome, bind_eq_ok, rejectIf_eq_ok, exists_const, ne_eq, not_or,
    not_not] at h
  obtain ⟨hstate, -, normalized, hnormalized, ⟨-, hstarted, -⟩, hknown, hreplace⟩ := h
  have hnormal := normalizeRuleOutcome_normal hnormalized
  cases hfound : e.ruleOutcomeByID normalized.ruleID with
  | none =>
      simp only [hfound] at hreplace
      exact absurd hreplace (by simp)
  | some previous =>
      simp only [hfound] at hreplace
      split at hreplace
      · rw [← Except.ok.inj hreplace]
      · simp only [bind_eq_ok, rejectIf_eq_ok, exists_const, pure_eq_ok] at hreplace
        obtain ⟨-, rfl⟩ := hreplace
        refine (Change.edited hstate rfl ?_ ?_).plainEdits trivial
        · intro hrecorded
          exact hrecorded.replaceOutcome hnormal hstarted
        · intro other hother
          rw [List.mem_singleton.mp hother]
          exact plans_of_known hnormal.ruleID_canonical hknown

/-- What the checks of a replacement establish. -/
structure Replaces (e : EvaluationAggregate) (value : RuleOutcome) : Prop where
  normal : value.Normal
  started : e.StartedBy value.evaluatedAt
  planned : e.Plans value.ruleID

/-- The replacements that the checks let through. -/
theorem validateReplacement_eq_ok {accepted result : List RuleOutcome}
    {item : RuleOutcomeReplacement} (haccepted : ∀ value ∈ accepted, e.Replaces value)
    (h : e.validateReplacement replacedAt accepted item = .ok result) :
    ∀ value ∈ result, e.Replaces value := by
  simp only [validateReplacement, bind_eq_ok, rejectIf_eq_ok, exists_const, not_or,
    not_not] at h
  obtain ⟨-, value, hvalue, ⟨-, hstarted⟩, hknown, hstep⟩ := h
  have hnormal := normalizeRuleOutcome_normal hvalue
  have hnew : e.Replaces value :=
    ⟨hnormal, hstarted, plans_of_known hnormal.ruleID_canonical hknown⟩
  cases hfound : e.ruleOutcomeByID value.ruleID with
  | none =>
      simp only [hfound] at hstep
      exact absurd hstep (by simp)
  | some current =>
      simp only [hfound, bind_eq_ok, rejectIf_eq_ok, exists_const] at hstep
      obtain ⟨-, hstep⟩ := hstep
      cases hold : accepted.find? (fun old => old.ruleID = value.ruleID) with
      | some old =>
          simp only [hold] at hstep
          split at hstep
          · rw [← Except.ok.inj hstep]
            intro other hother
            rcases mem_replaceOutcome hother with rfl | hmem
            · exact hnew
            · exact haccepted other hmem
          · exact absurd hstep (by simp)
      | none =>
          simp only [hold, pure_eq_ok] at hstep
          rw [← hstep]
          intro other hother
          rcases List.mem_append.mp hother with hmem | hlast
          · exact haccepted other hmem
          · rw [List.mem_singleton.mp hlast]
            exact hnew

theorem replaceRuleOutcomesAtomic_edits {replacements : List RuleOutcomeReplacement}
    (h : e.replaceRuleOutcomesAtomic replacements replacedAt = .ok e') :
    PlainEdits e e' := by
  simp only [replaceRuleOutcomesAtomic, bind_eq_ok, rejectIf_eq_ok, exists_const, ne_eq,
    not_not] at h
  obtain ⟨hstate, hreplace⟩ := h
  split at hreplace
  · rw [← Except.ok.inj hreplace]
  · simp only [bind_eq_ok, rejectIf_eq_ok, exists_const, pure_eq_ok] at hreplace
    obtain ⟨-, -, accepted, haccepted, rfl⟩ := hreplace
    have hchecked : ∀ value ∈ accepted, e.Replaces value :=
      foldlM_invariant (fun acc => ∀ value ∈ acc, e.Replaces value)
        (fun _ _ _ hacc hstep => validateReplacement_eq_ok hacc hstep)
        (fun _ hmem => absurd hmem List.not_mem_nil) haccepted
    have hpending : ∀ value ∈ e.pendingOutcomes (accepted.insertionSort ByRuleID),
        e.Replaces value := fun value hvalue =>
      hchecked value ((List.mem_insertionSort ByRuleID).mp (List.mem_filter.mp hvalue).1)
    split
    · exact Relation.ReflTransGen.refl
    · refine (Change.edited hstate rfl ?_ ?_).plainEdits trivial
      · intro hrecorded
        exact hrecorded.replaceOutcomes (fun value hvalue => (hpending value hvalue).normal)
          (fun value hvalue => (hpending value hvalue).started)
      · exact fun value hvalue => (hpending value hvalue).planned

/-! ## Removing -/

theorem removeRuleOutcome_edits (h : e.removeRuleOutcome ruleID removedAt = .ok e') :
    PlainEdits e e' := by
  simp only [removeRuleOutcome, bind_eq_ok, rejectIf_eq_ok, exists_const, ne_eq, not_not] at h
  obtain ⟨hstate, -, -, -, hremove⟩ := h
  cases hfound : e.ruleOutcomeByID ruleID with
  | none =>
      simp only [hfound] at hremove
      exact absurd hremove (by simp)
  | some outcome =>
      simp only [hfound, pure_eq_ok] at hremove
      rw [← hremove, ← EvaluationSnapshot.ruleID_of_ruleOutcomeByID hfound]
      exact (Change.edited hstate rfl (fun hrecorded => hrecorded.sublist List.eraseP_sublist)
        fun _ hmem => absurd hmem List.not_mem_nil).plainEdits trivial

theorem removeRuleOutcomeIfPresent_edits
    (h : e.removeRuleOutcomeIfPresent ruleID removedAt = .ok e') : PlainEdits e e' := by
  simp only [removeRuleOutcomeIfPresent, bind_eq_ok, rejectIf_eq_ok, exists_const] at h
  obtain ⟨-, hremove⟩ := h
  split at hremove
  · rw [← Except.ok.inj hremove]
  · exact removeRuleOutcome_edits hremove

theorem normalizeRuleIDsForRemoval_canonical {ids : List String}
    (h : normalizeRuleIDsForRemoval ruleIDs = .ok ids) : ∀ id ∈ ids, Canonical id := by
  simp only [normalizeRuleIDsForRemoval, bind_eq_ok, pure_eq_ok] at h
  obtain ⟨collected, hcollected, rfl⟩ := h
  intro id hid
  refine foldlM_invariant (fun acc : List String => ∀ id ∈ acc, Canonical id) ?_
    (fun _ hmem => absurd hmem List.not_mem_nil) hcollected id
    ((List.mem_insertionSort (· ≤ ·)).mp hid)
  intro acc given acc' hacc hstep other hother
  simp only [bind_eq_ok, rejectIf_eq_ok, exists_const, pure_eq_ok] at hstep
  obtain ⟨hsome, rfl⟩ := hstep
  rcases mem_appendNew.mp hother with hold | rfl
  · exact hacc other hold
  · exact canonical_trimSpace hsome

theorem recordedOutcome_eq_ok :
    e.recordedOutcome ruleID = .ok outcome ↔ e.ruleOutcomeByID ruleID = some outcome := by
  unfold recordedOutcome
  cases e.ruleOutcomeByID ruleID <;> simp

/-- The outcomes collected for a list of rules are outcomes of these rules. -/
theorem map_ruleID_of_recordedOutcome {ids : List String} {removed : List RuleOutcome}
    (hids : ∀ id ∈ ids, Canonical id) (h : ids.mapM e.recordedOutcome = .ok removed) :
    removed.map (·.ruleID) = ids := by
  have hpairs := mapM_eq_ok.mp h
  clear h
  induction hpairs with
  | nil => rfl
  | @cons id outcome rest outcomes hhead _ ih =>
      rw [List.map_cons, ih fun other hother => hids other (List.mem_cons_of_mem _ hother)]
      have hfound := recordedOutcome_eq_ok.mp hhead
      rw [EvaluationSnapshot.ruleID_of_ruleOutcomeByID hfound, ← (hids id List.mem_cons_self).2]

theorem removeRuleOutcomesAtomic_edits (h : e.removeRuleOutcomesAtomic ruleIDs removedAt = .ok e') :
    PlainEdits e e' := by
  simp only [removeRuleOutcomesAtomic, bind_eq_ok, rejectIf_eq_ok, exists_const, ne_eq,
    not_not] at h
  obtain ⟨hstate, hremove⟩ := h
  split at hremove
  · rw [← Except.ok.inj hremove]
  · simp only [bind_eq_ok, rejectIf_eq_ok, exists_const, pure_eq_ok] at hremove
    obtain ⟨-, -, ids, hids, removed, hremoved, rfl⟩ := hremove
    rw [← map_ruleID_of_recordedOutcome (normalizeRuleIDsForRemoval_canonical hids) hremoved]
    exact (Change.edited hstate rfl (fun hrecorded => hrecorded.sublist List.filter_sublist)
      fun _ hmem => absurd hmem List.not_mem_nil).plainEdits trivial

theorem removeRuleOutcomesIfPresent_edits
    (h : e.removeRuleOutcomesIfPresent ruleIDs removedAt = .ok e') : PlainEdits e e' := by
  simp only [removeRuleOutcomesIfPresent, bind_eq_ok, rejectIf_eq_ok, exists_const] at h
  obtain ⟨-, ids, -, hremove⟩ := h
  split at hremove
  · rw [← Except.ok.inj hremove]
  · exact removeRuleOutcomesAtomic_edits hremove

theorem resetRuleOutcomes_edits {resetAt : Time} (h : e.resetRuleOutcomes resetAt = .ok e') :
    PlainEdits e e' := by
  simp only [resetRuleOutcomes, bind_eq_ok, rejectIf_eq_ok, exists_const, ne_eq, not_not,
    pure_eq_ok] at h
  obtain ⟨hstate, -, -, rfl⟩ := h
  split
  · exact Relation.ReflTransGen.refl
  · exact (@Change.edited e _ (fun _ => []) hstate rfl (fun _ => Recorded.nil)
      fun _ hmem => absurd hmem List.not_mem_nil).plainEdits trivial

theorem resetRuleOutcomesAtVersion_edits {expectedVersion : Nat} {resetAt : Time}
    (h : e.resetRuleOutcomesAtVersion expectedVersion resetAt = .ok e') : PlainEdits e e' := by
  simp only [resetRuleOutcomesAtVersion, bind_eq_ok, rejectIf_eq_ok, exists_const] at h
  exact resetRuleOutcomes_edits h.2

/-! ## Checkpoints -/

theorem createCheckpoint_edits {name : String} {createdAt : Time}
    (h : e.createCheckpoint name createdAt = .ok e') : PlainEdits e e' := by
  simp only [createCheckpoint, bind_eq_ok, rejectIf_eq_ok, exists_const, ne_eq, not_not,
    pure_eq_ok] at h
  obtain ⟨hstate, hname, htime, -, hnew, rfl⟩ := h
  exact (Change.checkpointCreated hstate (Time.toUTC_isUTC _) hname htime hnew).plainEdits trivial

theorem rollbackToCheckpoint_eq_ok {name : String} {rolledBackAt : Time}
    (h : e.rollbackToCheckpoint name rolledBackAt = .ok e') :
    ∃ checkpoint, e.state = .running ∧ e.checkpointByName (trimSpace name) = some checkpoint ∧
      e' = ({ e with ruleOutcomes := checkpoint.ruleOutcomes } : EvaluationAggregate).raise
        (.evaluationRolledBack (trimSpace name) rolledBackAt.toUTC) := by
  simp only [rollbackToCheckpoint, bind_eq_ok, rejectIf_eq_ok, exists_const, ne_eq,
    not_not] at h
  obtain ⟨hstate, hrollback⟩ := h
  cases hfound : e.checkpointByName (trimSpace name) with
  | none =>
      simp only [hfound] at hrollback
      exact absurd hrollback (by simp)
  | some checkpoint =>
      simp only [hfound, bind_eq_ok, rejectIf_eq_ok, exists_const, pure_eq_ok] at hrollback
      obtain ⟨-, -, rfl⟩ := hrollback
      exact ⟨checkpoint, hstate, rfl, rfl⟩

theorem recordHistory_eq_ok (h : e.recordHistory recordedAt = .ok e') :
    ¬ recordedAt.IsZero ∧ (∀ entry ∈ e.history, entry.version ≠ e.version) ∧
      validateEvaluationHistoryEntry (e.historyEntry recordedAt.toUTC) = .ok () ∧
      e' = e.fileHistory recordedAt.toUTC := by
  simp only [recordHistory, bind_eq_ok, rejectIf_eq_ok, exists_const, pure_eq_ok, not_exists,
    not_and] at h
  obtain ⟨htime, -, hnew, _, hvalid, rfl⟩ := h
  exact ⟨htime, hnew, hvalid, rfl⟩

/-! ## Operations that keep the state -/

theorem registerRequiredRuleAt_state (h : e.registerRequiredRuleAt ruleID registeredAt = .ok e') :
    e'.state = e.state := by
  simp only [registerRequiredRuleAt, bind_eq_ok, rejectIf_eq_ok, pure_eq_ok, exists_const] at h
  obtain ⟨-, -, -, rfl⟩ := h
  split <;> rfl

theorem registerPlan_state {plan : List String} (h : e.registerPlan plan registeredAt = .ok e') :
    e'.state = e.state := by
  refine foldlM_invariant (fun acc => acc.state = e.state) ?_ rfl h
  intro acc ruleID acc' hacc hregister
  exact (registerRequiredRuleAt_state hregister).trans hacc

theorem bindEvidenceSet_state (h : e.bindEvidenceSet binding = .ok e') : e'.state = e.state := by
  obtain ⟨-, -, rfl | ⟨normalized, -, -, -, rfl⟩⟩ := bindEvidenceSet_eq_ok h
  · rfl
  · rfl

theorem bindVerificationPolicy_state {binding : PolicyBinding}
    (h : e.bindVerificationPolicy binding = .ok e') : e'.state = e.state := by
  simp only [bindVerificationPolicy, bind_eq_ok] at h
  obtain ⟨-, -, -, -, normalized, -, -, -, hbind⟩ := h
  split at hbind
  · split at hbind
    · rw [Except.ok.inj hbind]
    · exact absurd hbind (by simp)
  · rw [← pure_eq_ok.mp hbind]
    rfl

theorem recordRuleOutcome_state (h : e.recordRuleOutcome o = .ok e') :
    e'.state = e.state := by
  simp only [recordRuleOutcome, bind_eq_ok] at h
  obtain ⟨-, -, normalized, -, -, -, -, -, hrecord⟩ := h
  split at hrecord
  · split at hrecord
    · rw [Except.ok.inj hrecord]
    · exact absurd hrecord (by simp)
  · rw [← pure_eq_ok.mp hrecord]
    rfl

theorem recordRuleOutcomeBatch_state (h : e.recordRuleOutcomeBatch outcomes recordedAt = .ok e') :
    e'.state = e.state := by
  simp only [recordRuleOutcomeBatch, bind_eq_ok] at h
  obtain ⟨-, -, hbatch⟩ := h
  split at hbatch
  · rw [Except.ok.inj hbatch]
  · simp only [bind_eq_ok, pure_eq_ok] at hbatch
    obtain ⟨-, -, -, -, normalized, -, rfl⟩ := hbatch
    split <;> rfl

end EvaluationAggregate

/-! ## All operations -/

/-- What one operation does to an aggregate. -/
inductive Effect (e : EvaluationAggregate) : Operation → EvaluationAggregate → Prop
  | edits {op : Operation} {e' : EvaluationAggregate} (h : PlainEdits e e') : Effect e op e'
  | registered {id : String} {t : Time} (hopen : ¬ e.state.IsTerminal)
      (hid : Canonical (trimSpace id)) (hnew : trimSpace id ∉ e.requiredRuleIDs)
      (hdone : Operation.Succeeds (.registerRequiredRuleAt id t) e) :
      Effect e (.registerRequiredRuleAt id t)
        (({ e with
            requiredRuleIDs := e.requiredRuleIDs ++ [trimSpace id] } : EvaluationAggregate).raise
          (.requiredRuleRegistered (trimSpace id) t.toUTC))
  | rolledBack {name : String} {t : Time} {checkpoint : EvaluationCheckpoint}
      (hstate : e.state = .running)
      (hfound : e.checkpointByName (trimSpace name) = some checkpoint)
      (hdone : Operation.Succeeds (.rollbackToCheckpoint name t) e) :
      Effect e (.rollbackToCheckpoint name t)
        (({ e with ruleOutcomes := checkpoint.ruleOutcomes } : EvaluationAggregate).raise
          (.evaluationRolledBack (trimSpace name) t.toUTC))
  | filed {recordedAt : Time} {e' : EvaluationAggregate}
      (h : e.recordHistory recordedAt = .ok e') : Effect e (.recordHistory recordedAt) e'
  | cleared : Effect e .clearDomainEvents e.clearDomainEvents

theorem Effect.unchanged {op : Operation} : Effect e op e :=
  .edits Relation.ReflTransGen.refl

theorem settleOperation_ok {e e' : EvaluationAggregate}
    {result : Except Error EvaluationAggregate} (h : result = .ok e') :
    (settleOperation e result).1 = .ok () := by
  rw [h]
  rfl

theorem Effect.settle {e : EvaluationAggregate} {op : Operation}
    {result : Except Error EvaluationAggregate} (h : ∀ e', result = .ok e' → Effect e op e') :
    Effect e op (settleOperation e result).2 := by
  cases result with
  | error err => exact Effect.unchanged
  | ok e' => exact h e' rfl

open EvaluationAggregate in
theorem Operation.effect (op : Operation) (e : EvaluationAggregate) :
    Effect e op (op.apply e).2 := by
  cases op with
  | start => exact Effect.settle fun _ h => .edits (start_edits h)
  | completeAt => exact Effect.settle fun _ h => .edits (completeAt_edits h)
  | cancel => exact Effect.settle fun _ h => .edits (cancel_edits h)
  | expire => exact Effect.settle fun _ h => .edits (expire_edits h)
  | registerRequiredRuleAt =>
      refine Effect.settle fun e' h => ?_
      rcases registerRequiredRuleAt_cases h with rfl | ⟨hopen, hid, hnew, rfl⟩
      · exact Effect.unchanged
      · exact .registered hopen hid hnew (settleOperation_ok h)
  | bindEvidenceSet => exact Effect.settle fun _ h => .edits (bindEvidenceSet_edits h)
  | bindVerificationPolicy =>
      exact Effect.settle fun _ h => .edits (bindVerificationPolicy_edits h)
  | recordRuleOutcome => exact Effect.settle fun _ h => .edits (recordRuleOutcome_edits h)
  | recordRuleOutcomes outcomes => exact .edits (recordRuleOutcomes_edits e outcomes)
  | recordRuleOutcomesAtomic =>
      exact Effect.settle fun _ h => .edits (recordRuleOutcomesAtomic_edits h)
  | recordRuleOutcomeBatch =>
      exact Effect.settle fun _ h => .edits (recordRuleOutcomeBatch_edits h)
  | replaceRuleOutcome => exact Effect.settle fun _ h => .edits (replaceRuleOutcome_edits h)
  | replaceRuleOutcomesAtomic =>
      exact Effect.settle fun _ h => .edits (replaceRuleOutcomesAtomic_edits h)
  | removeRuleOutcome => exact Effect.settle fun _ h => .edits (removeRuleOutcome_edits h)
  | removeRuleOutcomeIfPresent =>
      exact Effect.settle fun _ h => .edits (removeRuleOutcomeIfPresent_edits h)
  | removeRuleOutcomesAtomic =>
      exact Effect.settle fun _ h => .edits (removeRuleOutcomesAtomic_edits h)
  | removeRuleOutcomesIfPresent =>
      exact Effect.settle fun _ h => .edits (removeRuleOutcomesIfPresent_edits h)
  | resetRuleOutcomes => exact Effect.settle fun _ h => .edits (resetRuleOutcomes_edits h)
  | resetRuleOutcomesAtVersion =>
      exact Effect.settle fun _ h => .edits (resetRuleOutcomesAtVersion_edits h)
  | createCheckpoint => exact Effect.settle fun _ h => .edits (createCheckpoint_edits h)
  | rollbackToCheckpoint =>
      refine Effect.settle fun e' h => ?_
      obtain ⟨checkpoint, hstate, hfound, rfl⟩ := rollbackToCheckpoint_eq_ok h
      exact .rolledBack hstate hfound (settleOperation_ok h)
  | recordHistory => exact Effect.settle fun _ h => .filed h
  | clearDomainEvents => exact .cleared

/-- An operation is a sequence of changes, or files one history entry, or drops
the events. -/
theorem Operation.apply_cases (op : Operation) (e : EvaluationAggregate) :
    Edits e (op.apply e).2 ∨
      (∃ recordedAt, op = .recordHistory recordedAt ∧
        e.recordHistory recordedAt = .ok (op.apply e).2) ∨
      (op = .clearDomainEvents ∧ (op.apply e).2 = e.clearDomainEvents) := by
  have heffect := op.effect e
  generalize (op.apply e).2 = e' at heffect
  cases heffect with
  | edits h => exact Or.inl h.edits
  | registered hopen hid hnew => exact Or.inl (Change.ruleRequired hopen hid hnew).edits
  | rolledBack hstate hfound => exact Or.inl (Change.rolledBack hstate hfound).edits
  | filed h => exact Or.inr (Or.inl ⟨_, rfl, h⟩)
  | cleared => exact Or.inr (Or.inr ⟨rfl, rfl⟩)

end Evaluation
end CargoPds
