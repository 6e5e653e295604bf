import CargoPds.Evaluation.Invariant

/-!
# The version as a change token

Stores detect conflicting writers by comparing versions, so two snapshots of one
version should be the same.  They are, up to two things.

* `RecordHistory` files the entry of a version without raising it, at most once
  for each version: the entry describes the version, it is not a new one.
* An atomic mutation that fails puts the version back but not the bindings and
  the cancellation reason.  `Script.Undoable` singles out the runs in which a
  failing mutation has not changed those.

The moments that are compared lie between the calls of a client.  What a
mutation that is undone has shown to its own function is not among them: these
versions are given out again.
-/

namespace CargoPds
namespace Evaluation

open Fallible

variable {e : EvaluationAggregate}

namespace EvaluationSnapshot

/-- The part of a snapshot that undoing a mutation puts back. -/
def undone (s : EvaluationSnapshot) : EvaluationSnapshot :=
  { s with cancellationReason := "", evidenceBinding := none, policyBinding := none }

/-- `RecordHistory` on the level of snapshots. -/
def filed (s : EvaluationSnapshot) (recordedAt : Time) : EvaluationSnapshot :=
  { s with
    history := s.history ++ [⟨s.evaluationID, s.sessionID, s.version, s.state, s.result,
      s.reasonCodes, s.requiredRuleIDs, s.ruleOutcomes, recordedAt⟩] }

theorem undone_filed (s : EvaluationSnapshot) (recordedAt : Time) :
    (s.filed recordedAt).undone = s.undone.filed recordedAt := rfl

/-- The later of two snapshots of one version: the same, or with the history
entry of this version added. -/
def SameVersion (s later : EvaluationSnapshot) : Prop :=
  later = s ∨ ∃ recordedAt, (∀ entry ∈ s.history, entry.version ≠ s.version) ∧
    later = s.filed recordedAt

theorem SameVersion.trans {s later last : EvaluationSnapshot} (first : SameVersion s later)
    (second : SameVersion later last) : SameVersion s last := by
  rcases first with rfl | ⟨recordedAt, hnew, rfl⟩
  · exact second
  · rcases second with rfl | ⟨again, hagain, -⟩
    · exact Or.inr ⟨recordedAt, hnew, rfl⟩
    · -- the entry that was filed first stands in the way of a second one
      exact absurd rfl (hagain _ (List.mem_append_right _ (List.mem_singleton_self _)))

/-- The fields that undoing a mutation leaves as they are. -/
def SameBindings (s s' : EvaluationSnapshot) : Prop :=
  s'.cancellationReason = s.cancellationReason ∧ s'.evidenceBinding = s.evidenceBinding ∧
    s'.policyBinding = s.policyBinding
deriving Decidable

theorem SameBindings.trans {s s' s'' : EvaluationSnapshot} (first : s.SameBindings s')
    (second : s'.SameBindings s'') : s.SameBindings s'' :=
  ⟨second.1.trans first.1, second.2.1.trans first.2.1, second.2.2.trans first.2.2⟩

theorem eq_of_undone_eq {s s' : EvaluationSnapshot} (hundone : s'.undone = s.undone)
    (hbindings : s.SameBindings s') : s' = s := by
  obtain ⟨hreason, hevidence, hpolicy⟩ := hbindings
  cases s
  cases s'
  simp only [undone, EvaluationSnapshot.mk.injEq] at hundone hreason hevidence hpolicy ⊢
  simp only [hundone, hreason, hevidence, hpolicy, and_self]

theorem SameVersion.of_undone {s later : EvaluationSnapshot}
    (hundone : SameVersion s.undone later.undone) (hbindings : s.SameBindings later) :
    SameVersion s later := by
  rcases hundone with hsame | ⟨recordedAt, hnew, hfiled⟩
  · exact Or.inl (eq_of_undone_eq hsame hbindings)
  · rw [← undone_filed] at hfiled
    exact Or.inr ⟨recordedAt, hnew, eq_of_undone_eq hfiled hbindings⟩

end EvaluationSnapshot

/-! ## One operation -/

theorem EvaluationAggregate.recordHistory_filed {e' : EvaluationAggregate} {recordedAt : Time}
    (h : e.recordHistory recordedAt = .ok e') :
    (∀ entry ∈ e.history, entry.version ≠ e.version) ∧
      e'.snapshot = e.snapshot.filed recordedAt.toUTC := by
  obtain ⟨-, hnew, -, rfl⟩ := recordHistory_eq_ok h
  exact ⟨hnew, rfl⟩

/-- An operation leaves the snapshot alone, raises the version, or files the
history entry of the version. -/
theorem Operation.apply_version (op : Operation) (e : EvaluationAggregate) :
    (op.apply e).2.snapshot = e.snapshot ∨ e.version < (op.apply e).2.version ∨
      ∃ recordedAt, op = .recordHistory recordedAt ∧
        (∀ entry ∈ e.history, entry.version ≠ e.version) ∧
        (op.apply e).2.snapshot = e.snapshot.filed recordedAt.toUTC := by
  rcases op.apply_cases e with hedits | ⟨recordedAt, hop, hrecord⟩ | ⟨-, hclear⟩
  · rcases Edits.eq_or_version_lt hedits with hsame | hlt
    · exact Or.inl (by rw [hsame])
    · exact Or.inr (Or.inl hlt)
  · exact Or.inr (Or.inr ⟨recordedAt, hop, EvaluationAggregate.recordHistory_filed hrecord⟩)
  · rw [hclear]
    exact Or.inl rfl

/-! ## Runs -/

/-- A later state, in which a fact about states of one version holds. -/
def AtSameVersion (P : EvaluationSnapshot → EvaluationSnapshot → Prop)
    (e e' : EvaluationAggregate) : Prop :=
  Follows e e' ∧ (e'.version = e.version → P e.snapshot e'.snapshot)

namespace AtSameVersion

variable {P : EvaluationSnapshot → EvaluationSnapshot → Prop}

theorem trans (htrans : ∀ s s' s'', P s s' → P s' s'' → P s s'') (a b c : EvaluationAggregate)
    (first : AtSameVersion P a b) (second : AtSameVersion P b c) : AtSameVersion P a c := by
  refine ⟨first.1.trans second.1, ?_⟩
  intro hversion
  -- the version does not go back, so it was the same in between
  have hab := first.1.version
  have hbc := second.1.version
  exact htrans _ _ _ (first.2 (by omega)) (second.2 (by omega))

variable (hrefl : ∀ s, P s s)
variable (hfiled : ∀ s recordedAt, (∀ entry ∈ s.history, entry.version ≠ s.version) →
  P s (s.filed recordedAt))

include hfiled

theorem of_recordHistory {e' : EvaluationAggregate} {recordedAt : Time}
    (h : e.recordHistory recordedAt = .ok e') : AtSameVersion P e e' := by
  refine ⟨Follows.of_recordHistory h, fun _ => ?_⟩
  obtain ⟨hnew, hresult⟩ := EvaluationAggregate.recordHistory_filed h
  rw [hresult]
  exact hfiled _ _ hnew

include hrefl

theorem of_operation (op : Operation) (e : EvaluationAggregate) :
    AtSameVersion P e (op.apply e).2 := by
  refine ⟨Follows.of_operation op e, ?_⟩
  intro hversion
  rcases op.apply_version e with hsame | hlt | ⟨recordedAt, -, hnew, hresult⟩
  · rw [hsame]
    exact hrefl _
  · omega
  · rw [hresult]
    exact hfiled _ _ hnew

end AtSameVersion

/-- The same version, up to the fields that are not put back. -/
def SameUpToUndo (s later : EvaluationSnapshot) : Prop :=
  EvaluationSnapshot.SameVersion s.undone later.undone

theorem SameUpToUndo.of_filed (s : EvaluationSnapshot) (recordedAt : Time)
    (hnew : ∀ entry ∈ s.history, entry.version ≠ s.version) :
    SameUpToUndo s (s.filed recordedAt) :=
  Or.inr ⟨recordedAt, hnew, rfl⟩

/-- Undoing a mutation puts everything else back. -/
theorem Follows.undone_restoreMutableState {e' : EvaluationAggregate} (h : Follows e e') :
    (e'.restoreMutableState e.captureMutableState).snapshot.undone = e.snapshot.undone := by
  simp only [EvaluationAggregate.snapshot, EvaluationAggregate.restoreMutableState,
    EvaluationAggregate.captureMutableState, EvaluationSnapshot.undone, h.evaluationID,
    h.sessionID, h.createdAt]

theorem Script.pairwise_sameUpToUndo (client : Script) (e : EvaluationAggregate) :
    (client.moments e).Pairwise (AtSameVersion SameUpToUndo) := by
  have htrans := AtSameVersion.trans (P := SameUpToUndo)
    fun _ _ _ => EvaluationSnapshot.SameVersion.trans
  refine Script.moments_pairwise _ (fun e => ⟨Follows.refl e, fun _ => Or.inl rfl⟩) htrans
    (fun op e _ => AtSameVersion.of_operation (fun _ => Or.inl rfl) SameUpToUndo.of_filed op e)
    ?_ client.calls_any e
  intro e occurredAt mutation hmutation
  rcases e.applyAtomicMutation_cases occurredAt mutation with ⟨-, hrecord⟩ | ⟨-, hrestore⟩
  · exact htrans _ _ _ hmutation (AtSameVersion.of_recordHistory SameUpToUndo.of_filed hrecord)
  · refine ⟨Follows.of_atomic e occurredAt mutation hmutation.1, fun _ => Or.inl ?_⟩
    rw [hrestore]
    exact hmutation.1.undone_restoreMutableState

/-- Every atomic mutation of the run succeeds, or its function has left the
bindings and the cancellation reason as they were. -/
def Script.Undoable : Script → EvaluationAggregate → Prop
  | finish _, _ => True
  | call op next, e => (next (op.apply e)).Undoable (op.apply e).2
  | applyAtomicMutation occurredAt mutation next, e =>
      (mutation.Undoable e ∧ (e.applyAtomicMutation occurredAt mutation.run).1 = .ok () ∨
        e.snapshot.SameBindings (mutation.run e).2.snapshot) ∧
      (next (e.applyAtomicMutation occurredAt mutation.run)).Undoable
        (e.applyAtomicMutation occurredAt mutation.run).2

theorem EvaluationSnapshot.SameBindings.of_filed (s : EvaluationSnapshot) (recordedAt : Time)
    (_ : ∀ entry ∈ s.history, entry.version ≠ s.version) :
    s.SameBindings (s.filed recordedAt) :=
  ⟨rfl, rfl, rfl⟩

/-- An atomic mutation of an undoable run. -/
theorem EvaluationAggregate.applyAtomicMutation_sameBindings {occurredAt : Time} {mutation : Script}
    {undoable : Prop}
    (hguard : undoable ∧ (e.applyAtomicMutation occurredAt mutation.run).1 = .ok () ∨
      e.snapshot.SameBindings (mutation.run e).2.snapshot)
    (hrun : undoable → AtSameVersion EvaluationSnapshot.SameBindings e (mutation.run e).2) :
    AtSameVersion EvaluationSnapshot.SameBindings e
      (e.applyAtomicMutation occurredAt mutation.run).2 := by
  have htrans := AtSameVersion.trans (P := EvaluationSnapshot.SameBindings)
    fun _ _ _ => EvaluationSnapshot.SameBindings.trans
  have hmutation : AtSameVersion EvaluationSnapshot.SameBindings e (mutation.run e).2 := by
    rcases hguard with ⟨hundoable, -⟩ | hsame
    · exact hrun hundoable
    · exact ⟨mutation.follows e, fun _ => hsame⟩
  rcases e.applyAtomicMutation_cases occurredAt mutation.run with
    ⟨-, hrecord⟩ | ⟨⟨err, herr⟩, hrestore⟩
  -- a mutation that is undone has not succeeded, so it has kept the bindings
  · exact htrans _ _ _ hmutation
      (AtSameVersion.of_recordHistory EvaluationSnapshot.SameBindings.of_filed hrecord)
  · refine ⟨Follows.of_atomic e occurredAt mutation.run hmutation.1, fun _ => ?_⟩
    rcases hguard with ⟨-, hok⟩ | hsame
    · rw [herr] at hok
      exact absurd hok (by simp)
    · rw [hrestore]
      exact hsame

theorem Script.Undoable.pairwise_sameBindings {client : Script} (h : client.Undoable e) :
    (client.moments e).Pairwise (AtSameVersion EvaluationSnapshot.SameBindings) := by
  refine Script.moments_pairwise_of_guard (AtSameVersion EvaluationSnapshot.SameBindings)
    (fun e => ⟨Follows.refl e, fun _ => ⟨rfl, rfl, rfl⟩⟩)
    (AtSameVersion.trans fun _ _ _ => EvaluationSnapshot.SameBindings.trans)
    Script.Undoable ?_ ?_ h
  · intro op next e hguard
    exact ⟨AtSameVersion.of_operation (fun _ => ⟨rfl, rfl, rfl⟩)
      EvaluationSnapshot.SameBindings.of_filed op e, hguard⟩
  · intro occurredAt mutation next e hguard hrun
    exact ⟨EvaluationAggregate.applyAtomicMutation_sameBindings hguard.1 hrun, hguard.2⟩

/-- The version of a new evaluation is 1.  It never goes back in a run, and content changes
with it: at two moments of one version the snapshots agree up to the history entry of that
version, apart from the fields that a failed mutation leaves changed.  The version of the
source is a `uint64`, so this is said of runs with fewer than `2 ^ 64 - 1` changes. -/
theorem version_tracks_content {id sessionID : UUID} {createdAt : Time}
    {created : EvaluationAggregate} (hnew : newEvaluation id sessionID createdAt = .ok created)
    (client : Script) :
    created.version = 1 ∧
    (client.moments created).Pairwise (fun e e' => e.version ≤ e'.version ∧
      (e'.version = e.version →
        EvaluationSnapshot.SameVersion e.snapshot.undone e'.snapshot.undone)) ∧
    (client.Undoable created → (client.moments created).Pairwise fun e e' =>
      e'.version = e.version → EvaluationSnapshot.SameVersion e.snapshot e'.snapshot) ∧
    ∀ e ∈ client.states created, ∀ op : Operation,
      (op.apply e).2.snapshot ≠ e.snapshot → (∀ recordedAt, op ≠ .recordHistory recordedAt) →
        e.version < (op.apply e).2.version := by
  have hundone := client.pairwise_sameUpToUndo created
  refine ⟨?_, hundone.imp fun h => ⟨h.1.version, h.2⟩, ?_, ?_⟩
  · simp only [newEvaluation, bind_eq_ok, rejectIf_eq_ok, pure_eq_ok, exists_const] at hnew
    obtain ⟨-, -, -, rfl⟩ := hnew
    rfl
  · intro hundoable
    refine (hundone.and hundoable.pairwise_sameBindings).imp ?_
    rintro e e' ⟨hup, hbindings⟩ hversion
    exact EvaluationSnapshot.SameVersion.of_undone (hup.2 hversion) (hbindings.2 hversion)
  · intro e _ op hchanged hop
    rcases op.apply_version e with hsame | hlt | ⟨recordedAt, hrecord, -, -⟩
    · exact absurd hsame hchanged
    · exact hlt
    · exact absurd hrecord (hop recordedAt)

theorem inspection_version_tracks_content :
    (Inspection.client.moments Inspection.created).Pairwise fun e e' =>
      e'.version = e.version → EvaluationSnapshot.SameVersion e.snapshot e'.snapshot :=
  (@version_tracks_content 1 2 (Inspection.clock 1000) Inspection.created rfl
    Inspection.client).2.2.1 (by
      simp only [Inspection.client, Script.Undoable, Script.sequence, and_true]
      exact Or.inr (by decide +kernel))

/-- Filing history changes the snapshot and not the version. -/
theorem history_filed_at_same_version :
    ∃ e e', newEvaluation 1 2 (Inspection.clock 1000) = .ok e ∧
      e.recordHistory (Inspection.clock 1500) = .ok e' ∧ e'.version = e.version ∧
      e'.snapshot ≠ e.snapshot := by
  refine ⟨Inspection.created, Inspection.created.fileHistory (Inspection.clock 1500), ?_⟩
  decide

end Evaluation
end CargoPds
