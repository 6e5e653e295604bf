import CargoPds.Evaluation.Frame
import CargoPds.Evaluation.Versions

/-!
# What a failed mutation leaves behind

`ApplyAtomicMutation` undoes a mutation that fails, but `captureMutableState` does not
copy the two bindings and the cancellation reason.  Of all operations only
`BindEvidenceSet`, `BindVerificationPolicy` and `Cancel` write these fields, so a failed
mutation is undone completely exactly when the accepted calls of its function, with those
of the functions nested in it, leave no trace in them (`Script.Traceless`).

* `Operation.apply_sameBindings`: the frame of all other operations;
* `Script.traced`: what the accepted calls of a client do to the three fields;
* `failed_mutation_undone_iff`: the result.
-/

namespace CargoPds
namespace Evaluation

open Fallible Text

variable {e e' : EvaluationAggregate} {op : Operation}

/-! ## The frame of the operations -/

namespace EvaluationAggregate

/-- The fields that undoing a mutation leaves as they are. -/
abbrev SameBindings (e e' : EvaluationAggregate) : Prop :=
  e.snapshot.SameBindings e'.snapshot

theorem SameFrame.sameBindings (h : e.SameFrame e') :
    e.SameBindings e' := by
  have hreason := h.field EvaluationSnapshot.cancellationReason
  have hevidence := h.field EvaluationSnapshot.evidenceBinding
  have hpolicy := h.field EvaluationSnapshot.policyBinding
  exact ⟨hreason, hevidence, hpolicy⟩

end EvaluationAggregate

/-- The operations that write a binding or the cancellation reason. -/
def Operation.Governs : Operation → Prop
  | bindEvidenceSet _ => True
  | bindVerificationPolicy _ => True
  | cancel _ _ => True
  | _ => False

theorem settleOperation_sameBindings {x : Except Error EvaluationAggregate}
    (h : ∀ e', x = .ok e' → e.SameBindings e') : e.SameBindings (settleOperation e x).2 := by
  cases x with
  | error err => exact ⟨rfl, rfl, rfl⟩
  | ok e' => exact h e' rfl

/-- All other operations leave the three fields alone. -/
theorem Operation.apply_sameBindings (hop : ¬ op.Governs) (e : EvaluationAggregate) :
    e.SameBindings (op.apply e).2 := by
  cases op with
  | bindEvidenceSet | bindVerificationPolicy | cancel => exact absurd trivial hop
  | start startedAt =>
      refine settleOperation_sameBindings fun e' h => ?_
      rw [EvaluationAggregate.start_eq_ok h]
      exact ⟨rfl, rfl, rfl⟩
  | completeAt result reasons completedAt =>
      refine settleOperation_sameBindings fun e' h => ?_
      obtain ⟨-, -, nr, -, rfl⟩ := EvaluationAggregate.completeAt_eq_ok h
      exact ⟨rfl, rfl, rfl⟩
  | expire expiredAt =>
      refine settleOperation_sameBindings fun e' h => ?_
      rw [EvaluationAggregate.expire_eq_ok h]
      exact ⟨rfl, rfl, rfl⟩
  | _ =>
      refine EvaluationAggregate.SameFrame.sameBindings (Operation.apply_sameFrame ?_ e)
      exact not_false

/-! ## The trace of a client -/

def Operation.BindsEvidence : Operation → Prop
  | bindEvidenceSet _ => True
  | _ => False

def Operation.BindsPolicy : Operation → Prop
  | bindVerificationPolicy _ => True
  | _ => False

/-- The reason that a cancellation records. -/
def Operation.cancelReason : Operation → Option String
  | cancel reason _ => some (trimSpace reason)
  | _ => none

/-- The reason that is recorded last. -/
def lastReason (calls : List Operation) : Option String :=
  (calls.filterMap Operation.cancelReason).getLast?

/-- The calls of a client that succeed, those of the functions it gives to
`ApplyAtomicMutation` included, in their order. -/
def Script.accepted : Script → EvaluationAggregate → List Operation
  | finish _, _ => []
  | call op next, e =>
      (if (op.apply e).1.isOk then [op] else []) ++
        (next (op.apply e)).accepted (op.apply e).2
  | applyAtomicMutation occurredAt mutation next, e =>
      mutation.accepted e ++ (next (e.applyAtomicMutation occurredAt mutation.run)).accepted
        (e.applyAtomicMutation occurredAt mutation.run).2

/-- A binding field follows the calls that bind: it is filled once. -/
structure FilledBy {α : Type} (binds : Prop) (before after : Option α) : Prop where
  kept : before ≠ none ∨ ¬ binds → after = before
  filled : binds → after ≠ none

/-- What accepted calls have made of the three fields. -/
structure Traced (calls : List Operation) (e e' : EvaluationAggregate) : Prop where
  evidence : FilledBy (∃ op ∈ calls, op.BindsEvidence) e.evidenceBinding e'.evidenceBinding
  policy : FilledBy (∃ op ∈ calls, op.BindsPolicy) e.policyBinding e'.policyBinding
  reason : e'.cancellationReason = (lastReason calls).getD e.cancellationReason

theorem FilledBy.trans {α : Type} {binds binds' all : Prop} {before middle after : Option α}
    (first : FilledBy binds before middle) (second : FilledBy binds' middle after)
    (hall : all ↔ binds ∨ binds') : FilledBy all before after := by
  rw [hall]
  refine ⟨?_, ?_⟩
  · intro h
    have hmiddle : middle = before :=
      first.kept (h.imp id fun hnone hbinds => hnone (Or.inl hbinds))
    have hafter : after = middle :=
      second.kept (h.imp (hmiddle ▸ ·) fun hnone hbinds => hnone (Or.inr hbinds))
    exact hafter.trans hmiddle
  · rintro (hfirst | hsecond)
    · have hmiddle := first.filled hfirst
      rw [second.kept (Or.inl hmiddle)]
      exact hmiddle
    · exact second.filled hsecond

theorem FilledBy.same {α : Type} {binds : Prop} {field : Option α} (h : ¬ binds) :
    FilledBy binds field field :=
  ⟨fun _ => rfl, fun hbinds => absurd hbinds h⟩

/-- The first binding fills the field. -/
theorem FilledBy.first {α : Type} {binds : Prop} {field : Option α} {value : α} (h : binds)
    (hfield : field = none) : FilledBy binds field (some value) :=
  ⟨fun hfree => hfree.elim (absurd hfield) (absurd h), fun _ => Option.some_ne_none value⟩

theorem FilledBy.repeated {α : Type} {binds : Prop} {value : α} :
    FilledBy binds (some value) (some value) :=
  ⟨fun _ => rfl, fun _ => Option.some_ne_none value⟩

theorem lastReason_append (calls more : List Operation) (reason : String) :
    (lastReason (calls ++ more)).getD reason =
      (lastReason more).getD ((lastReason calls).getD reason) := by
  unfold lastReason
  rw [List.filterMap_append, List.getLast?_append]
  cases (more.filterMap Operation.cancelReason).getLast? with
  | none => rfl
  | some last => rfl

namespace Traced

variable {e e' e'' : EvaluationAggregate} {calls more : List Operation}

theorem trans (first : Traced calls e e') (second : Traced more e' e'') :
    Traced (calls ++ more) e e'' := by
  refine ⟨first.evidence.trans second.evidence ?_, first.policy.trans second.policy ?_, ?_⟩
  · simp only [List.mem_append, or_and_right, exists_or]
  · simp only [List.mem_append, or_and_right, exists_or]
  · rw [second.reason, first.reason, lastReason_append]

theorem of_sameBindings (h : e.SameBindings e') : Traced [] e e' := by
  obtain ⟨hreason, hevidence, hpolicy⟩ := h
  refine ⟨?_, ?_, hreason⟩
  · exact hevidence ▸ FilledBy.same (by simp)
  · exact hpolicy ▸ FilledBy.same (by simp)

/-- The three fields are as before exactly when the calls leave no trace in them. -/
theorem sameBindings_iff (h : Traced calls e e') :
    e.SameBindings e' ↔
      (e.evidenceBinding = none → ∀ op ∈ calls, ¬ op.BindsEvidence) ∧
      (e.policyBinding = none → ∀ op ∈ calls, ¬ op.BindsPolicy) ∧
      ∀ reason ∈ lastReason calls, reason = e.cancellationReason := by
  have hfield : ∀ {α : Type} {binds : Operation → Prop} {before after : Option α},
      FilledBy (∃ op ∈ calls, binds op) before after →
        (after = before ↔ (before = none → ∀ op ∈ calls, ¬ binds op)) := by
    intro α binds before after hfilled
    constructor
    · intro hsame hnone op hop hbinds
      exact hfilled.filled ⟨op, hop, hbinds⟩ (hsame.trans hnone)
    · intro hkept
      refine hfilled.kept ?_
      by_cases hnone : before = none
      · exact Or.inr fun ⟨op, hop, hbinds⟩ => hkept hnone op hop hbinds
      · exact Or.inl hnone
  have hreason : e'.cancellationReason = e.cancellationReason ↔
      ∀ reason ∈ lastReason calls, reason = e.cancellationReason := by
    rw [h.reason]
    cases lastReason calls with
    | none => simp
    | some reason => simp
  change e'.cancellationReason = e.cancellationReason ∧ e'.evidenceBinding = e.evidenceBinding ∧
    e'.policyBinding = e.policyBinding ↔ _
  rw [hfield h.evidence, hfield h.policy, hreason]
  exact and_rotate

end Traced

theorem settleOperation_traced {x : Except Error EvaluationAggregate}
    (h : ∀ e', x = .ok e' → Traced [op] e e') :
    Traced (if (settleOperation e x).1.isOk then [op] else []) e (settleOperation e x).2 := by
  cases x with
  | error err => exact Traced.of_sameBindings ⟨rfl, rfl, rfl⟩
  | ok e' => exact h e' rfl

theorem bindEvidenceSet_traced {binding : EvidenceSetBinding}
    (h : e.bindEvidenceSet binding = .ok e') : Traced [.bindEvidenceSet binding] e e' := by
  have hpolicy : ¬ ∃ op ∈ [Operation.bindEvidenceSet binding], op.BindsPolicy := by
    simp [Operation.BindsPolicy]
  simp only [EvaluationAggregate.bindEvidenceSet, bind_eq_ok] at h
  obtain ⟨-, -, -, -, normalized, -, -, -, hbind⟩ := h
  cases hbound : e.evidenceBinding with
  | some bound =>
      simp only [hbound] at hbind
      split at hbind
      · obtain rfl := Except.ok.inj hbind
        exact ⟨hbound ▸ .repeated, .same hpolicy, rfl⟩
      · exact absurd hbind (by simp)
  | none =>
      simp only [hbound] at hbind
      obtain rfl := pure_eq_ok.mp hbind
      exact ⟨.first ⟨_, List.mem_singleton_self _, trivial⟩ hbound, .same hpolicy, rfl⟩

theorem bindVerificationPolicy_traced {binding : PolicyBinding}
    (h : e.bindVerificationPolicy binding = .ok e') :
    Traced [.bindVerificationPolicy binding] e e' := by
  have hevidence : ¬ ∃ op ∈ [Operation.bindVerificationPolicy binding], op.BindsEvidence := by
    simp [Operation.BindsEvidence]
  simp only [EvaluationAggregate.bindVerificationPolicy, bind_eq_ok] at h
  obtain ⟨-, -, -, -, normalized, -, -, -, hbind⟩ := h
  cases hbound : e.policyBinding with
  | some bound =>
      simp only [hbound] at hbind
      split at hbind
      · obtain rfl := Except.ok.inj hbind
        exact ⟨.same hevidence, hbound ▸ .repeated, rfl⟩
      · exact absurd hbind (by simp)
  | none =>
      simp only [hbound] at hbind
      obtain rfl := pure_eq_ok.mp hbind
      exact ⟨.same hevidence, .first ⟨_, List.mem_singleton_self _, trivial⟩ hbound, rfl⟩

theorem cancel_traced {reason : String} {now : Time}
    (h : e.cancel reason now = .ok e') : Traced [.cancel reason now] e e' := by
  simp only [EvaluationAggregate.cancel, bind_eq_ok, pure_eq_ok] at h
  obtain ⟨-, -, -, -, rfl⟩ := h
  refine ⟨FilledBy.same ?_, FilledBy.same ?_, rfl⟩
  · simp [Operation.BindsEvidence]
  · simp [Operation.BindsPolicy]

/-- A call of another operation. -/
theorem Traced.of_frame (hop : ¬ op.Governs) (h : e.SameBindings e') :
    Traced [op] e e' := by
  have htraced := Traced.of_sameBindings h
  have hnone : (¬ ∃ op' ∈ [op], op'.BindsEvidence) ∧ (¬ ∃ op' ∈ [op], op'.BindsPolicy) ∧
      lastReason [op] = none := by
    simp only [List.mem_singleton, exists_eq_left]
    cases op with
    | bindEvidenceSet | bindVerificationPolicy | cancel => exact absurd trivial hop
    | _ => exact ⟨id, id, rfl⟩
  refine ⟨?_, ?_, ?_⟩
  · exact h.2.1 ▸ FilledBy.same hnone.1
  · exact h.2.2 ▸ FilledBy.same hnone.2.1
  · rw [hnone.2.2]
    exact h.1

/-- **Step lemma.** -/
theorem Operation.traced (op : Operation) (e : EvaluationAggregate) :
    Traced (if (op.apply e).1.isOk then [op] else []) e (op.apply e).2 := by
  by_cases hop : op.Governs
  · cases op with
    | bindEvidenceSet binding => exact settleOperation_traced fun _ => bindEvidenceSet_traced
    | bindVerificationPolicy binding =>
        exact settleOperation_traced fun _ => bindVerificationPolicy_traced
    | cancel reason now => exact settleOperation_traced fun _ => cancel_traced
    | _ => exact hop.elim
  · have hsame := Operation.apply_sameBindings hop e
    split
    · exact Traced.of_frame hop hsame
    · exact Traced.of_sameBindings hsame

/-- A mutation leaves the three fields as its function left them. -/
theorem EvaluationAggregate.applyAtomicMutation_keeps (e : EvaluationAggregate)
    (occurredAt : Time)
    (mutation : EvaluationAggregate → Except Error Unit × EvaluationAggregate) :
    (mutation e).2.SameBindings (e.applyAtomicMutation occurredAt mutation).2 := by
  rcases e.applyAtomicMutation_cases occurredAt mutation with ⟨-, hrecord⟩ | ⟨-, hrestore⟩
  · obtain ⟨-, -, -, hfiled⟩ := recordHistory_eq_ok hrecord
    rw [hfiled]
    exact ⟨rfl, rfl, rfl⟩
  · rw [hrestore]
    exact ⟨rfl, rfl, rfl⟩

/-- **Run lemma.** -/
theorem Script.traced (client : Script) (e : EvaluationAggregate) :
    Traced (client.accepted e) e (client.run e).2 := by
  induction client generalizing e with
  | finish result => exact Traced.of_sameBindings ⟨rfl, rfl, rfl⟩
  | call op next ih => exact (op.traced e).trans (ih _ _)
  | applyAtomicMutation occurredAt mutation next ihmutation ihnext =>
      have hkept := Traced.of_sameBindings (e.applyAtomicMutation_keeps occurredAt mutation.run)
      have hmutation := (ihmutation e).trans hkept
      rw [List.append_nil] at hmutation
      exact hmutation.trans (ihnext _ _)

/-! ## Failed mutations -/

/-- The accepted calls of a function, run on the aggregate, attach no binding where there
is none and record no reason but the present one. -/
def Script.Traceless (mutation : Script) (e : EvaluationAggregate) : Prop :=
  (e.evidenceBinding = none → ∀ op ∈ mutation.accepted e, ¬ op.BindsEvidence) ∧
  (e.policyBinding = none → ∀ op ∈ mutation.accepted e, ¬ op.BindsPolicy) ∧
  ∀ reason ∈ lastReason (mutation.accepted e), reason = e.cancellationReason

/-- A failed mutation is undone, with all that `Snapshot` and `DomainEvents` show, exactly
when the calls of its function have left no trace in the fields that are not copied. -/
theorem failed_mutation_undone_iff (e : EvaluationAggregate) (occurredAt : Time)
    (mutation : Script) {err : Error}
    (h : (e.applyAtomicMutation occurredAt mutation.run).1 = .error err) :
    ((e.applyAtomicMutation occurredAt mutation.run).2.snapshot = e.snapshot ∧
      (e.applyAtomicMutation occurredAt mutation.run).2.domainEvents = e.domainEvents) ↔
      mutation.Traceless e := by
  rw [Script.Traceless, ← (mutation.traced e).sameBindings_iff]
  rcases e.applyAtomicMutation_cases occurredAt mutation.run with ⟨hok, -⟩ | ⟨-, hrestore⟩
  · rw [hok] at h
    exact absurd h (by simp)
  rw [hrestore]
  have hundone := (mutation.follows e).undone_restoreMutableState
  constructor
  · rintro ⟨hsnapshot, -⟩
    exact ⟨congrArg (·.cancellationReason) hsnapshot, congrArg (·.evidenceBinding) hsnapshot,
      congrArg (·.policyBinding) hsnapshot⟩
  · intro hsame
    exact ⟨EvaluationSnapshot.eq_of_undone_eq hundone hsame, rfl⟩

namespace Inspection

/-- A function that starts the evaluation, records an outcome and returns an error. -/
def abandoned : Script :=
  .call (.start (clock 2000)) fun _ => .call (.recordRuleOutcome onShelf) fun _ =>
    .finish (.error .ruleIDRequired)

/-- A function that attaches an evidence binding and returns an error. -/
def bindingAbandoned : Script :=
  .call (.bindEvidenceSet ⟨2, .qualified, "v1", clock 1400, [], [⟨3, .qualified, []⟩]⟩) fun _ =>
    .finish (.error .ruleIDRequired)

/-- A function that cancels the evaluation. -/
def cancelling : Script :=
  .call (.cancel "duplicate order" (clock 2000)) fun reply => .finish reply.1

end Inspection

/-- The start and the outcome of a function that fails are undone. -/
theorem abandoned_outcome_undone :
    (Inspection.created.applyAtomicMutation (Inspection.clock 3000)
        Inspection.abandoned.run).1 = .error .ruleIDRequired ∧
      (Inspection.created.applyAtomicMutation (Inspection.clock 3000)
        Inspection.abandoned.run).2.snapshot = Inspection.created.snapshot ∧
      (Inspection.created.applyAtomicMutation (Inspection.clock 3000)
        Inspection.abandoned.run).2.domainEvents = Inspection.created.domainEvents := by
  have hfails : (Inspection.created.applyAtomicMutation (Inspection.clock 3000)
      Inspection.abandoned.run).1 = .error .ruleIDRequired := by decide
  refine ⟨hfails, (failed_mutation_undone_iff _ _ _ hfails).mpr ?_⟩
  have hcalls : Inspection.abandoned.accepted Inspection.created =
      [.start (Inspection.clock 2000), .recordRuleOutcome Inspection.onShelf] := by decide
  rw [Script.Traceless, hcalls]
  refine ⟨?_, ?_, ?_⟩
  · simp [Operation.BindsEvidence]
  · simp [Operation.BindsPolicy]
  · exact fun reason hreason => absurd hreason (Option.not_mem_none reason)

/-- A binding that a function attaches before it fails stays, and so does the reason of a
cancellation for which no history can be recorded. -/
theorem failed_mutation_leaves_trace :
    newEvaluation 1 2 (Inspection.clock 1000) = .ok Inspection.created ∧
    (Inspection.created.applyAtomicMutation (Inspection.clock 3000)
        Inspection.bindingAbandoned.run).1 = .error .ruleIDRequired ∧
      (Inspection.created.applyAtomicMutation (Inspection.clock 3000)
        Inspection.bindingAbandoned.run).2.snapshot ≠ Inspection.created.snapshot ∧
    (Inspection.created.applyAtomicMutation Time.zero Inspection.cancelling.run).1 =
        .error .historyCaptureTimeRequired ∧
      (Inspection.created.applyAtomicMutation Time.zero Inspection.cancelling.run).2.snapshot ≠
        Inspection.created.snapshot := by
  decide

end Evaluation
end CargoPds
