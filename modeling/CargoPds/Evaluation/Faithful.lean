import CargoPds.Evaluation.Invariant

/-!
# What the history remembers

A history entry is looked up by version only.  It is worth something if the version
determines the five parts that it copies, and if an entry stays once it is filed.

`Files` relates a state of an evaluation to a later one: the history has grown, and
entries that came in are those of versions since.  Every operation raises the version
when it touches one of the five parts, and a mutation that fails puts back the version,
the parts and the history together, so `Files` holds between any two moments of a run.
Entries that the function of a failed mutation has filed are not seen by anybody else:
they are taken back before the mutation returns.
-/

namespace CargoPds
namespace Evaluation

open Fallible

/-- The parts of an evaluation that a history entry copies. -/
structure RecordedParts where
  state : EvaluationState
  result : VerificationResult
  reasonCodes : List ReasonCode
  requiredRuleIDs : List String
  ruleOutcomes : List RuleOutcome
deriving DecidableEq, Repr

def EvaluationHistoryEntry.parts (entry : EvaluationHistoryEntry) : RecordedParts :=
  ⟨entry.state, entry.result, entry.reasonCodes, entry.requiredRuleIDs, entry.ruleOutcomes⟩

def EvaluationAggregate.parts (e : EvaluationAggregate) : RecordedParts :=
  ⟨e.state, e.result, e.reasonCodes, e.requiredRuleIDs, e.ruleOutcomes⟩

/-- The entries of the history have different versions, none of them later than the
evaluation, and the entry of the present version agrees with it. -/
structure EvaluationAggregate.Faithful (e : EvaluationAggregate) : Prop where
  distinct : (e.history.map (·.version)).Nodup
  past : ∀ entry ∈ e.history, entry.version ≤ e.version
  recalls : ∀ entry ∈ e.history, entry.version = e.version → entry.parts = e.parts

/-- A later state of an evaluation, as far as the history is concerned. -/
structure Files (e e' : EvaluationAggregate) : Prop where
  version : e.version ≤ e'.version
  parts : e'.version = e.version → e'.parts = e.parts
  history : ∃ added, e'.history = e.history ++ added ∧
    ∀ entry ∈ added, e.version ≤ entry.version ∧
      (entry.version = e.version → entry.parts = e.parts)
  faithful : e.Faithful → e'.Faithful

namespace Files

variable {e e' e'' : EvaluationAggregate}

theorem refl (e : EvaluationAggregate) : Files e e :=
  ⟨Nat.le_refl _, fun _ => rfl, ⟨[], (List.append_nil _).symm, by simp⟩, fun h => h⟩

theorem trans (first : Files e e') (second : Files e' e'') : Files e e'' := by
  refine ⟨first.version.trans second.version, ?_, ?_, second.faithful ∘ first.faithful⟩
  · intro hsame
    have hmiddle : e'.version = e.version :=
      Nat.le_antisymm (hsame ▸ second.version) first.version
    exact (second.parts (hsame.trans hmiddle.symm)).trans (first.parts hmiddle)
  · obtain ⟨added, hadded, hfirst⟩ := first.history
    obtain ⟨more, hmore, hsecond⟩ := second.history
    refine ⟨added ++ more, by rw [hmore, hadded, List.append_assoc], ?_⟩
    intro entry hentry
    rcases List.mem_append.mp hentry with hold | hnew
    · exact hfirst entry hold
    · obtain ⟨hlater, hparts⟩ := hsecond entry hnew
      refine ⟨first.version.trans hlater, ?_⟩
      intro hsame
      have hmiddle : e'.version = e.version :=
        Nat.le_antisymm (hsame ▸ hlater) first.version
      exact (hparts (hsame.trans hmiddle.symm)).trans (first.parts hmiddle)

/-- Nothing that the history is about has changed. -/
theorem of_same (hversion : e'.version = e.version) (hparts : e'.parts = e.parts)
    (hhistory : e'.history = e.history) : Files e e' := by
  refine ⟨hversion.ge, fun _ => hparts, ⟨[], by rw [hhistory, List.append_nil], by simp⟩, ?_⟩
  intro h
  refine ⟨?_, ?_, ?_⟩
  · rw [hhistory]
    exact h.distinct
  · rw [hhistory, hversion]
    exact h.past
  · rw [hhistory, hversion, hparts]
    exact h.recalls

/-- A change raises the version; the entries so far belong to versions that are past. -/
theorem of_change {changed : EvaluationAggregate} {body : EventBody} (h : Change e changed body) :
    Files e (changed.raise body) := by
  have hversion : (changed.raise body).version = e.version + 1 := by
    cases h <;> rfl
  have hhistory : (changed.raise body).history = e.history := by
    cases h <;> rfl
  refine ⟨by omega, fun hsame => absurd hsame (by omega),
    ⟨[], by rw [hhistory, List.append_nil], by simp⟩, ?_⟩
  intro hfaithful
  refine ⟨by rw [hhistory]; exact hfaithful.distinct, ?_, ?_⟩
  · intro entry hentry
    rw [hhistory] at hentry
    have hpast := hfaithful.past entry hentry
    omega
  · intro entry hentry hsame
    rw [hhistory] at hentry
    have hpast := hfaithful.past entry hentry
    omega

theorem of_edits (h : Edits e e') : Files e e' := by
  induction h with
  | refl => exact refl e
  | tail _ hlast ih =>
      obtain ⟨changed, body, hchange, rfl⟩ := hlast
      exact ih.trans (of_change hchange)

theorem of_recordHistory {recordedAt : Time} (h : e.recordHistory recordedAt = .ok e') :
    Files e e' := by
  obtain ⟨-, hnew, -, rfl⟩ := EvaluationAggregate.recordHistory_eq_ok h
  refine ⟨Nat.le_refl _, fun _ => rfl, ⟨[e.historyEntry recordedAt.toUTC], rfl, ?_⟩, ?_⟩
  · intro entry hentry
    rw [List.mem_singleton.mp hentry]
    exact ⟨Nat.le_refl _, fun _ => rfl⟩
  · intro hfaithful
    have hmem : ∀ entry ∈ (e.fileHistory recordedAt.toUTC).history,
        entry ∈ e.history ∨ entry = e.historyEntry recordedAt.toUTC := by
      intro entry hentry
      exact (List.mem_append.mp hentry).imp id List.mem_singleton.mp
    refine ⟨?_, ?_, ?_⟩
    · change ((e.history ++ [e.historyEntry recordedAt.toUTC]).map (·.version)).Nodup
      rw [List.map_append, List.map_singleton, List.nodup_append]
      refine ⟨hfaithful.distinct, List.nodup_singleton _, ?_⟩
      intro version hversion other hother hsame
      obtain ⟨entry, hentry, rfl⟩ := List.mem_map.mp hversion
      exact hnew entry hentry (hsame.trans (List.mem_singleton.mp hother))
    · intro entry hentry
      rcases hmem entry hentry with hold | rfl
      · exact hfaithful.past entry hold
      · exact Nat.le_refl _
    · intro entry hentry hsame
      rcases hmem entry hentry with hold | rfl
      · exact absurd hsame (hnew entry hold)
      · rfl

theorem of_operation (op : Operation) (e : EvaluationAggregate) : Files e (op.apply e).2 := by
  rcases op.apply_cases e with hedits | ⟨_, _, hrecord⟩ | ⟨_, hclear⟩
  · exact of_edits hedits
  · exact of_recordHistory hrecord
  · rw [hclear]
    exact of_same rfl rfl rfl

theorem of_atomic (e : EvaluationAggregate) (occurredAt : Time)
    (mutation : EvaluationAggregate → Except Error Unit × EvaluationAggregate)
    (h : Files e (mutation e).2) : Files e (e.applyAtomicMutation occurredAt mutation).2 := by
  rcases e.applyAtomicMutation_cases occurredAt mutation with ⟨-, hrecord⟩ | ⟨-, hrestore⟩
  · exact h.trans (of_recordHistory hrecord)
  · rw [hrestore]
    exact of_same rfl rfl rfl

end Files

/-! ## Whole runs -/

theorem newEvaluation_faithful {id sessionID : UUID} {createdAt : Time}
    {created : EvaluationAggregate} (hnew : newEvaluation id sessionID createdAt = .ok created) :
    created.Faithful := by
  simp only [newEvaluation, bind_eq_ok, rejectIf_eq_ok, pure_eq_ok, exists_const] at hnew
  obtain ⟨-, -, -, rfl⟩ := hnew
  exact ⟨List.nodup_nil, fun _ hentry => absurd hentry List.not_mem_nil,
    fun _ hentry => absurd hentry List.not_mem_nil⟩

theorem Script.pairwise_files (client : Script) (e₀ : EvaluationAggregate) :
    (client.moments e₀).Pairwise Files :=
  Script.moments_pairwise Files Files.refl (fun _ _ _ => Files.trans)
    (fun op e _ => Files.of_operation op e) Files.of_atomic client.calls_any e₀

/-- Of two moments of a run, one is a later state of the other. -/
theorem Script.moments_files (client : Script) {e₀ e e' : EvaluationAggregate}
    (he : e ∈ client.moments e₀) (he' : e' ∈ client.moments e₀) : Files e e' ∨ Files e' e := by
  have hpairwise := client.pairwise_files e₀
  obtain ⟨i, hi, rfl⟩ := List.mem_iff_getElem.mp he
  obtain ⟨j, hj, rfl⟩ := List.mem_iff_getElem.mp he'
  rw [List.pairwise_iff_getElem] at hpairwise
  rcases lt_trichotomy i j with hlt | rfl | hgt
  · exact Or.inl (hpairwise i j hi hj hlt)
  · exact Or.inl (Files.refl _)
  · exact Or.inr (hpairwise j i hj hi hgt)

/-- At all moments between the operations of a client, the entries of the history have
different versions; later moments have them all, unchanged and in the same order; and an
evaluation that has, at any moment, the version of an entry agrees with it. -/
theorem history_entries_faithful {id sessionID : UUID} {createdAt : Time}
    {created : EvaluationAggregate} (hnew : newEvaluation id sessionID createdAt = .ok created)
    (client : Script) :
    (client.moments created).Pairwise (fun e later => e.history <+: later.history) ∧
      (∀ e ∈ client.moments created, (e.history.map (·.version)).Nodup) ∧
      ∀ e ∈ client.moments created, ∀ other ∈ client.moments created,
        ∀ entry ∈ other.history, entry.version = e.version →
          entry.state = e.state ∧ entry.result = e.result ∧
            entry.reasonCodes = e.reasonCodes ∧ entry.requiredRuleIDs = e.requiredRuleIDs ∧
            entry.ruleOutcomes = e.ruleOutcomes := by
  have hfaithful : ∀ e ∈ client.moments created, e.Faithful := by
    intro e he
    exact (Script.moments_related Files Files.refl (fun _ _ _ => Files.trans)
      (fun op e _ => Files.of_operation op e) Files.of_atomic client.calls_any he).faithful
      (newEvaluation_faithful hnew)
  refine ⟨?_, fun e he => (hfaithful e he).distinct, ?_⟩
  · refine (client.pairwise_files created).imp ?_
    intro e later hfiles
    obtain ⟨added, hadded, -⟩ := hfiles.history
    exact ⟨added, hadded.symm⟩
  · intro e he other hother entry hentry hversion
    have hparts : entry.parts = e.parts := by
      rcases client.moments_files he hother with hfiles | hfiles
      · obtain ⟨added, hadded, hlater⟩ := hfiles.history
        rw [hadded] at hentry
        rcases List.mem_append.mp hentry with hold | hnew
        · exact (hfaithful e he).recalls entry hold hversion
        · exact (hlater entry hnew).2 hversion
      · obtain ⟨added, hadded, -⟩ := hfiles.history
        refine (hfaithful e he).recalls entry ?_ hversion
        rw [hadded]
        exact List.mem_append_left _ hentry
    exact ⟨congrArg RecordedParts.state hparts, congrArg RecordedParts.result hparts,
      congrArg RecordedParts.reasonCodes hparts, congrArg RecordedParts.requiredRuleIDs hparts,
      congrArg RecordedParts.ruleOutcomes hparts⟩

namespace Inspection

/-- Entries are filed by hand and by a mutation; another mutation files one and fails. -/
def audited : Script :=
  .call (.recordHistory (clock 1200)) fun _ =>
  .call (.start (clock 2000)) fun _ =>
  .applyAtomicMutation (clock 2700)
    (.call (.recordRuleOutcome onShelf) fun _ => .finish (.ok ()))
    fun _ =>
  .applyAtomicMutation (clock 2900)
    (.call (.resetRuleOutcomes (clock 2800)) fun _ =>
      .call (.recordHistory (clock 2850)) fun _ => .finish (.error (.mutation "abort")))
    fun _ => .sequence [.recordHistory (clock 3000), .removeRuleOutcome "presence" (clock 3100)]

end Inspection

theorem audited_history_faithful :
    ∃ e ∈ Inspection.audited.moments Inspection.created,
      e.history.map (·.version) = [1, 3] ∧ e.version = 3 ∧
      ∀ other ∈ Inspection.audited.moments Inspection.created,
        ∀ entry ∈ other.history, entry.version = e.version →
          entry.state = e.state ∧ entry.result = e.result ∧
            entry.reasonCodes = e.reasonCodes ∧ entry.requiredRuleIDs = e.requiredRuleIDs ∧
            entry.ruleOutcomes = e.ruleOutcomes := by
  have hreached : ∃ e ∈ Inspection.audited.moments Inspection.created,
      e.history.map (·.version) = [1, 3] ∧ e.version = 3 := by decide
  obtain ⟨e, he, hversions, hversion⟩ := hreached
  exact ⟨e, he, hversions, hversion, (@history_entries_faithful 1 2 (Inspection.clock 1000)
    Inspection.created rfl Inspection.audited).2.2 e he⟩

end Evaluation
end CargoPds
