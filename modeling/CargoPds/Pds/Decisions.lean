import CargoPds.Pds.Governed

/-!
# No decision without its policy and its evidence

Each command of the decision service keeps every stored evaluation governed.
The transitions of an aggregate come first, then the commands along their
texts, and at the end the theorem about all schedules.
-/

namespace CargoPds
namespace Pds

open Evaluation Concurrency Fallible Text

variable {lib : Platform} {world : World lib} {version : Policy.Version lib}
variable {binding : EvidenceSetBinding} {policy : PolicyBinding}

/-! ## Transitions of a governed aggregate -/

section
variable {e e' : EvaluationAggregate}

theorem GovernedBy.start (h : GovernedBy world version e.toEvaluationSnapshot)
    {startedAt : Time} (hstart : e.start startedAt = .ok e') :
    GovernedBy world version e'.toEvaluationSnapshot := by
  rw [EvaluationAggregate.start_eq_ok hstart]
  refine h.of_sameBasis ⟨rfl, rfl, rfl, rfl, rfl, rfl⟩ ?_
  intro hstate
  exact absurd hstate (by simp)

theorem GovernedBy.expire (h : GovernedBy world version e.toEvaluationSnapshot)
    {expiredAt : Time} (hexpire : e.expire expiredAt = .ok e') :
    GovernedBy world version e'.toEvaluationSnapshot := by
  rw [EvaluationAggregate.expire_eq_ok hexpire]
  refine h.of_sameBasis ⟨rfl, rfl, rfl, rfl, rfl, rfl⟩ ?_
  intro hstate
  exact absurd hstate (by simp)

/-- Completion with the derived result stores exactly what was derived. -/
theorem GovernedBy.completeAt (h : GovernedBy world version e.toEvaluationSnapshot)
    {derived : VerificationResult × List ReasonCode} {completedAt : Time}
    (hderived : e.deriveResult = .ok derived)
    (hcomplete : e.completeAt derived.1 derived.2 completedAt = .ok e') :
    GovernedBy world version e'.toEvaluationSnapshot := by
  obtain ⟨-, -, reasons, hreasons, rfl⟩ := EvaluationAggregate.completeAt_eq_ok hcomplete
  obtain ⟨-, -, hnormalized, -⟩ := EvaluationSnapshot.deriveResult_eq_ok.mp hderived
  -- the derived reasons are normal already, so normalising them again changes nothing
  have hsame : reasons = derived.2 := by
    rw [(normalizeReasonCodes_normal hnormalized).normalize] at hreasons
    exact (Except.ok.inj hreasons).symm
  refine h.of_sameBasis ⟨rfl, rfl, rfl, rfl, rfl, rfl⟩ ?_
  intro _
  rw [hsame]
  exact hderived

theorem GovernedBy.bindEvidenceSet (h : GovernedBy world version e.toEvaluationSnapshot)
    (hbind : e.bindEvidenceSet binding = .ok e') :
    GovernedBy world version e'.toEvaluationSnapshot := by
  obtain ⟨hopen, hempty, hcases⟩ := EvaluationAggregate.bindEvidenceSet_eq_ok hbind
  rcases hcases with rfl | ⟨normalized, hnormalized, -, -, rfl⟩
  · exact h
  · refine ⟨h.known, h.policy, h.plan, ?_, ?_, ?_⟩
    · intro bound hbound
      obtain rfl := Option.some.inj hbound
      exact (normalizeEvidenceBinding_eq_ok hnormalized).2
    · -- evidence is only bound while no rule has run
      intro hsome
      exact absurd hempty hsome
    · intro hstate
      exact h.completed hstate

end

/-- A new evaluation with the plan and the binding of a known version. -/
theorem governedBy_created (hknown : world.registry.Knows version)
    {id sessionID : UUID} {t : Time} {created planned bound : EvaluationAggregate}
    (hcreated : newEvaluation id sessionID t = .ok created)
    (hplanned : created.registerPlan version.snapshot.requiredRuleIDs t = .ok planned)
    (hbound : planned.bindVerificationPolicy ⟨version.snapshot.policyID,
      version.snapshot.version, version.snapshot.hash, t⟩ = .ok bound) :
    GovernedBy world version bound.toEvaluationSnapshot := by
  obtain ⟨hfresh, hnoPlan, hunbound⟩ := EvaluationAggregate.newEvaluation_eq_ok hcreated
  obtain ⟨hplan, -, hpolicy, hkeeps⟩ := EvaluationAggregate.registerPlan_eq_ok hplanned
  rw [hnoPlan, version.normal.plan_normal.register] at hplan
  obtain ⟨binding, hbinding, rfl⟩ :=
    EvaluationAggregate.bindVerificationPolicy_eq_ok (hpolicy.trans hunbound) hbound
  obtain ⟨hstate, hempty, hnone⟩ := hkeeps hfresh
  refine ⟨hknown, ⟨binding, rfl, ?_⟩, hplan, ?_, ?_, ?_⟩
  · obtain rfl := normalizePolicyBinding_eq_ok hbinding
    exact ⟨version.normal.policyID_canonical.2.symm, version.normal.version_canonical.2.symm,
      version.trimSpace_hash⟩
  · intro other hother
    exact absurd (hnone.symm.trans hother) (by simp)
  · intro hsome
    exact absurd hempty hsome
  · intro hcompleted
    exact absurd (hstate.symm.trans hcompleted) (by simp)

/-! ## Running the rules -/

/-- Copying evidence checks it and changes nothing. -/
theorem evidence_of_rehydrate {evidence : List Evidence.Snapshot} {copy : List Evidence.Object}
    (h : evidence.mapM (Evidence.rehydrate lib) = .ok copy) :
    copy.map (·.snapshot) = evidence := by
  have hpairs := mapM_eq_ok.mp h
  clear h
  induction hpairs with
  | nil => rfl
  | cons hhead _ ih => rw [List.map_cons, ih, ((Evidence.rehydrate_eq_ok lib).mp hhead).2]

theorem evaluateRule_eq_ok {input : RuleOperator.RuleInput} {evaluatedAt : Time}
    {rule : String × RuleOperator.Operator} {outcome : RuleOutcome}
    (h : evaluateRule lib input evaluatedAt rule = .ok outcome) :
    outcome = outcomeOf rule.1 (rule.2.evaluate lib input) evaluatedAt := by
  simp only [evaluateRule, bind_eq_ok, mapError_eq_ok, pure_eq_ok] at h
  obtain ⟨copy, hcopy, rfl⟩ := h
  rw [evidence_of_rehydrate hcopy]

/-- The outcome of a rule of the version, as `Execute` makes it. -/
def OutcomeFor (version : Policy.Version lib) (input : RuleOperator.RuleInput)
    (evaluatedAt : Time) (ruleID : String) (outcome : RuleOutcome) : Prop :=
  ∃ operator, RuleOperator.compileRule lib version ruleID = .ok operator ∧
    outcome = outcomeOf ruleID (operator.evaluate lib input) evaluatedAt

theorem outcomes_of_plan {input : RuleOperator.RuleInput} {evaluatedAt : Time}
    {plan : List String} {operators : List RuleOperator.Operator} {outcomes : List RuleOutcome}
    (hoperators : List.Forall₂
      (fun ruleID operator => RuleOperator.compileRule lib version ruleID = .ok operator)
      plan operators)
    (h : (plan.zip operators).mapM (evaluateRule lib input evaluatedAt) = .ok outcomes) :
    List.Forall₂ (OutcomeFor version input evaluatedAt) plan outcomes := by
  have hpairs := mapM_eq_ok.mp h
  clear h
  induction hoperators generalizing outcomes with
  | nil =>
      obtain rfl := List.forall₂_nil_left_iff.mp hpairs
      exact List.Forall₂.nil
  | cons hcompile _ ih =>
      obtain ⟨outcome, rest, houtcome, hrest, rfl⟩ := List.forall₂_cons_left_iff.mp hpairs
      exact List.Forall₂.cons ⟨_, hcompile, evaluateRule_eq_ok houtcome⟩ (ih hrest)

section
variable {input : RuleOperator.RuleInput} {evaluatedAt : Time} {plan : List String}
variable {outcomes : List RuleOutcome}

theorem ruleIDs_of_outcomes
    (h : List.Forall₂ (OutcomeFor version input evaluatedAt) plan outcomes) :
    outcomes.map (·.ruleID) = plan := by
  induction h with
  | nil => rfl
  | cons hhead _ ih =>
      obtain ⟨operator, -, rfl⟩ := hhead
      rw [List.map_cons, ih]
      rfl

/-- Operators decide in a form that is recorded as it is. -/
theorem OutcomeFor.normal {ruleID : String} {outcome : RuleOutcome}
    (h : OutcomeFor version input evaluatedAt ruleID outcome) (hruleID : Canonical ruleID)
    (htime : ¬ evaluatedAt.IsZero) (hutc : evaluatedAt.IsUTC) : outcome.Normal := by
  obtain ⟨operator, -, rfl⟩ := h
  have hdecision := operator.evaluate_normal lib input
  exact ⟨hruleID, hdecision.status_valid, htime, hutc, hdecision.reasons_normal,
    hdecision.pass_iff⟩

end

/-- Recording the outcomes of all rules of the plan keeps an evaluation governed. -/
theorem GovernedBy.recordRuleOutcomeBatch {e e' : EvaluationAggregate}
    (h : GovernedBy world version e.toEvaluationSnapshot) {evidence : List Evidence.Snapshot}
    {id : UUID} {outcomes : List RuleOutcome} {now : Time} (hpolicy : e.policyBinding = some policy)
    (hbinding : e.evidenceBinding = some binding) (hqualified : binding.status = .qualified)
    (hempty : e.ruleOutcomes = [])
    (hbacked : List.Forall₂ (Backs world e.sessionID) binding.evidence evidence)
    (houtcomes : List.Forall₂ (OutcomeFor version (ruleInput id e.sessionID policy evidence)
      now.toUTC) e.requiredRuleIDs outcomes)
    (hrecord : e.recordRuleOutcomeBatch outcomes now.toUTC = .ok e') :
    GovernedBy world version e'.toEvaluationSnapshot := by
  have hplan := version.normal.plan_normal
  rw [← h.plan] at hplan
  have hids : outcomes.map (·.ruleID) = e.requiredRuleIDs := ruleIDs_of_outcomes houtcomes
  have hsome : outcomes ≠ [] := by
    rintro rfl
    exact version.normal.plan_nonempty (h.plan ▸ hids.symm)
  have hnormal : ∀ outcome ∈ outcomes, outcome.Normal := by
    intro outcome hmem
    obtain ⟨ruleID, hruleID, houtcome⟩ := exists_of_mem_right houtcomes hmem
    exact houtcome.normal (hplan.canonical ruleID hruleID)
      (EvaluationAggregate.recordRuleOutcomeBatch_time hsome hrecord) (Time.toUTC_isUTC now)
  have hstate : e.state = .running := by
    simp only [EvaluationAggregate.recordRuleOutcomeBatch, bind_eq_ok, rejectIf_eq_ok,
      exists_const, not_not, ne_eq] at hrecord
    exact hrecord.1
  rw [EvaluationAggregate.recordRuleOutcomeBatch_eq_ok hempty hsome hnormal
    (hids ▸ hplan.nodup) hrecord]
  refine ⟨h.known, h.policy, h.plan, h.evidence, ?_, ?_⟩
  · intro _
    refine ⟨policy, binding, evidence, hpolicy, hbinding, hqualified, hbacked, ?_,
      List.pairwise_insertionSort ByRuleID outcomes, ?_⟩
    · have hperm := (List.perm_insertionSort ByRuleID outcomes).map RuleOutcome.ruleID
      rw [hids] at hperm
      exact hperm
    · intro outcome hmem
      obtain ⟨ruleID, -, operator, hcompile, rfl⟩ :=
        exists_of_mem_right houtcomes ((List.mem_insertionSort ByRuleID).mp hmem)
      -- the identifiers in the input do not matter to an operator
      exact ⟨operator, hcompile, operator.evaluate_congr lib rfl⟩
  · intro hcompleted
    exact absurd (hstate.symm.trans hcompleted) (by simp)

/-! ## The commands -/

section
variable (id : UUID)

theorem createForPolicy_preserves (sessionID : UUID) (policyID : String) :
    Preserves (createForPolicy lib sessionID policyID) world := by
  refine Program.Returns.bind _ (now_preserves world) fun now w₁ _ _ => ?_
  refine Program.Returns.bind _ (resolve_ensures w₁ policyID now.toUTC)
    fun resolved w₂ _ hknown => ?_
  refine Program.Returns.bind _ (newUUID_preserves w₂) fun id w₃ hgrows _ => ?_
  refine ensures_evaluated fun created hcreated => ?_
  refine ensures_evaluated fun planned hplanned => ?_
  refine ensures_evaluated fun bound hbound => ?_
  exact save_return_preserves (governedBy_created (hgrows.registry _ hknown)
    hcreated hplanned hbound) 0 _

theorem start_preserves : Preserves (start lib id) world := by
  refine Program.Returns.bind _ (find_ensures world id) fun aggregate w₁ _ hfound => ?_
  obtain ⟨version, hgoverned⟩ := hfound
  by_cases hrunning : aggregate.state = .running
  · rw [if_pos hrunning]
    exact Program.Returns.pure _ trivial
  · rw [if_neg hrunning]
    refine Program.Returns.bind _ (now_preserves w₁) fun now w₂ hgrows _ => ?_
    refine ensures_evaluated fun started hstarted => ?_
    refine Program.Returns.orElse _ ?_ (fun w => latest_preserves w id _)
    exact save_return_preserves
      ((hgoverned.of_grows hgrows).start hstarted) _ _

theorem complete_preserves : Preserves (complete lib id) world := by
  refine Program.Returns.bind _ (find_ensures world id) fun aggregate w₁ _ hfound => ?_
  obtain ⟨version, hgoverned⟩ := hfound
  by_cases hcompleted : aggregate.state = .completed
  · rw [if_pos hcompleted]
    exact Program.Returns.pure _ trivial
  · rw [if_neg hcompleted]
    refine ensures_evaluated fun derived hderived => ?_
    refine Program.Returns.bind _ (now_preserves w₁) fun now w₂ hgrows _ => ?_
    refine ensures_evaluated fun completed hcomplete => ?_
    refine Program.Returns.orElse _ ?_ (fun w => latest_preserves w id _)
    exact save_return_preserves ((hgoverned.of_grows hgrows).completeAt
      hderived hcomplete) _ _

theorem expireTimedOut_preserves (policy : TimeoutPolicy) :
    Preserves (expireTimedOut lib id policy) world := by
  refine Program.Returns.bind _ (find_ensures world id) fun aggregate w₁ _ hfound => ?_
  obtain ⟨version, hgoverned⟩ := hfound
  by_cases hexpired : aggregate.state = .expired
  · rw [if_pos hexpired]
    exact Program.Returns.pure _ trivial
  · rw [if_neg hexpired]
    refine Program.Returns.compute_bind _ fun deadline _ => ?_
    refine Program.Returns.bind _ (now_preserves w₁) fun now w₂ hgrows _ => ?_
    refine ensures_rejectIf fun _ => ?_
    refine ensures_evaluated fun expired hexpire => ?_
    refine Program.Returns.orElse _ ?_ (fun w => latest_preserves w id _)
    exact save_return_preserves
      ((hgoverned.of_grows hgrows).expire hexpire) _ _

theorem bindEvidenceQualification_preserves (result : Evidence.SessionQualificationResult) :
    Preserves (bindEvidenceQualification lib id result) world := by
  refine Program.Returns.bind _ (find_ensures world id) fun aggregate w₁ _ hfound => ?_
  obtain ⟨version, hgoverned⟩ := hfound
  refine ensures_evaluated fun bound hbound => ?_
  exact save_return_preserves (hgoverned.bindEvidenceSet hbound) _ _

theorem qualifySession_preserves (sessionID : UUID) (qualifier : Evidence.Qualifier) :
    Preserves (qualifySession lib sessionID qualifier) world := by
  refine ensures_rejectIf fun _ => ?_
  refine Program.Returns.bind _ (listEvidenceBySession_preserves world sessionID)
    fun objects w₁ _ _ => ?_
  refine Program.Returns.bind _ (now_preserves w₁) fun now w₂ _ _ => ?_
  exact Program.Returns.compute _ fun _ _ => trivial

theorem qualifyAndBind_preserves : Preserves (qualifyAndBind lib id) world := by
  refine Program.Returns.bind _ (find_ensures world id) fun aggregate w₁ _ _ => ?_
  by_cases hbound : aggregate.evidenceBinding ≠ none
  · rw [if_pos hbound]
    exact Program.Returns.pure _ trivial
  · rw [if_neg hbound]
    refine ensures_required fun binding _ => ?_
    refine Program.Returns.bind _ (findVersion_preserves w₁ _ _ _) fun version w₂ _ _ => ?_
    refine ensures_rejectIf fun _ => ?_
    refine Program.Returns.compute_bind _ fun policy _ => ?_
    refine Program.Returns.compute_bind _ fun qualifier _ => ?_
    refine Program.Returns.bind _ (qualifySession_preserves _ qualifier) fun result w₃ _ _ => ?_
    exact Program.Returns.orElse _ (bindEvidenceQualification_preserves id result)
      (fun w => latest_preserves w id _)

/-- The resolver compiles the rule from the version that the binding names. -/
theorem requiredOperator_ensures {ruleID : String} (hknown : world.registry.Knows version)
    (hnames : Names policy version) (hruleID : Canonical ruleID) :
    Ensures (requiredOperator lib policy ruleID)
      (fun operator _ => RuleOperator.compileRule lib version ruleID = .ok operator) world := by
  have hresolve : Ensures (resolveRuleOperator lib policy ruleID)
      (fun operator _ => RuleOperator.compileRule lib version ruleID = .ok operator) world := by
    unfold resolveRuleOperator
    rw [hnames.policyID, hnames.label, hnames.hash, version.trimSpace_hash,
      ← version.normal.policyID_canonical.2, ← version.normal.version_canonical.2,
      ← hruleID.2]
    refine ensures_rejectIf fun _ => ?_
    refine Program.Returns.bind _ (findVersion_ensures hknown _) fun found w₁ _ hfound => ?_
    subst hfound
    refine ensures_rejectIf fun _ => ?_
    refine Program.Returns.compute_bind _ fun operator hoperator => ?_
    refine ensures_rejectIf fun _ => ?_
    exact Program.Returns.pure _ (mapError_eq_ok.mp hoperator)
  unfold requiredOperator
  refine Program.Returns.bind _ hresolve fun operator w₁ _ hoperator => ?_
  refine ensures_rejectIf fun _ => ?_
  exact Program.Returns.pure _ hoperator

theorem boundEvidence_ensures (sessionID : UUID) (reference : EvidenceReference) :
    Ensures (boundEvidence lib sessionID reference)
      (fun snapshot after => Backs after sessionID reference snapshot) world := by
  refine ensures_rejectIf fun _ => ?_
  refine Program.Returns.bind _ (findEvidence_ensures world _) fun stored w₁ _ hstored => ?_
  refine ensures_rejectIf fun hsame => ?_
  refine Program.Returns.compute_bind _ fun object hobject => ?_
  simp only [not_or, ne_eq, not_not] at hsame
  obtain ⟨hintact, rfl⟩ := (Evidence.rehydrate_eq_ok lib).mp (mapError_eq_ok.mp hobject)
  exact Program.Returns.pure _ ⟨hstored, hsame.2, hintact⟩

theorem executeRules_preserves {aggregate : EvaluationAggregate}
    (h : GovernedBy world version aggregate.toEvaluationSnapshot)
    (hpolicy : aggregate.policyBinding = some policy)
    (hbinding : aggregate.evidenceBinding = some binding) (hqualified : binding.status = .qualified)
    (hempty : aggregate.ruleOutcomes = []) :
    Preserves (executeRules lib id aggregate binding policy) world := by
  have hcanonical : ∀ ruleID ∈ aggregate.requiredRuleIDs, Canonical ruleID := by
    rw [h.plan]
    exact version.normal.plan_normal.canonical
  unfold executeRules
  refine Program.Returns.bind _ (Program.Returns.forEach _
    (fun ruleID operator _ => RuleOperator.compileRule lib version ruleID = .ok operator)
    (fun _ _ _ _ _ hcompile => hcompile) ?_) ?_
  · intro ruleID hruleID w hgrows
    exact requiredOperator_ensures (hgrows.registry _ h.known) (h.names hpolicy)
      (hcanonical ruleID hruleID)
  intro operators w₁ hgrows₁ hoperators
  refine Program.Returns.bind _ (Program.Returns.forEach _
    (fun reference snapshot w => Backs w aggregate.sessionID reference snapshot)
    (fun _ _ _ _ hgrows hbacks => hbacks.of_grows hgrows) ?_) ?_
  · intro reference _ w _
    exact boundEvidence_ensures aggregate.sessionID reference
  intro qualified w₂ hgrows₂ hbacked
  refine Program.Returns.bind _ (now_preserves w₂) fun now w₃ hgrows₃ _ => ?_
  refine Program.Returns.compute_bind _ fun outcomes houtcomes => ?_
  refine ensures_evaluated fun recorded hrecorded => ?_
  -- everything read before is still true of the stores now
  have hgoverned := ((h.of_grows hgrows₁).of_grows hgrows₂).of_grows hgrows₃
  exact save_return_preserves (hgoverned.recordRuleOutcomeBatch hpolicy hbinding hqualified hempty
    (hbacked.imp fun _ _ hbacks => hbacks.of_grows hgrows₃)
    (outcomes_of_plan hoperators houtcomes) hrecorded) _ _

theorem execute_preserves : Preserves (execute lib id) world := by
  refine Program.Returns.bind _ (find_ensures world id) fun aggregate w₁ _ hfound => ?_
  obtain ⟨version, hgoverned⟩ := hfound
  refine ensures_required fun binding hbinding => ?_
  refine ensures_rejectIf fun hqualified => ?_
  refine ensures_required fun policy hpolicy => ?_
  by_cases hrun : aggregate.ruleOutcomes ≠ []
  · rw [if_pos hrun]
    split
    · exact Program.Returns.pure _ trivial
    · exact Program.Returns.compute _ fun _ _ => trivial
  · rw [if_neg hrun]
    exact executeRules_preserves id hgoverned hpolicy hbinding
      (not_not.mp hqualified) (not_not.mp hrun)

theorem ingest_preserves (config : Evidence.ServiceConfig) (input : Evidence.Input) :
    Preserves (ingest lib config input) world := by
  have hfresh : Preserves (if input.evidenceID = UUID.nil then Client.newUUID lib
      else pure input.evidenceID : Client lib UUID) world := by
    split
    · exact newUUID_preserves world
    · exact Program.Returns.pure _ trivial
  refine Program.Returns.bind _ hfresh fun id w₁ _ _ => ?_
  refine Program.Returns.bind _ (now_preserves w₁) fun now w₂ _ _ => ?_
  refine Program.Returns.compute_bind _ fun object _ => ?_
  refine Program.Returns.bind _ (saveEvidence_preserves w₂ _) fun _ w₃ _ _ => ?_
  refine Program.Returns.bind _ (findEvidence_ensures w₃ _) fun stored w₄ _ _ => ?_
  exact Program.Returns.pure _ trivial

end

/-! ## All schedules -/

theorem Command.serve_preserves (command : Command lib) (world : World lib) :
    Preserves command.serve world := by
  have hreturn : ∀ {α : Type} {client : Client lib α} (response : α → Response),
      Preserves client world → Preserves (do return response (← client)) world := by
    intro α client response hclient
    exact Program.Returns.bind _ hclient fun _ _ _ _ => Program.Returns.pure _ trivial
  cases command with
  | createForPolicy sessionID policyID =>
      exact hreturn .evaluation (createForPolicy_preserves sessionID policyID)
  | start id => exact hreturn .evaluation (start_preserves id)
  | qualifyAndBind id => exact hreturn .evaluation (qualifyAndBind_preserves id)
  | execute id => exact hreturn .evaluation (execute_preserves id)
  | complete id => exact hreturn .trace (complete_preserves id)
  | expireTimedOut id policy => exact hreturn .evaluation (expireTimedOut_preserves id policy)
  | ingest config input => exact hreturn .evidence (ingest_preserves config input)
  | add activated => exact hreturn (fun _ => .done) (add_preserves world activated)
  | suspend policyID version t =>
      exact hreturn (fun _ => .done) (suspend_preserves world policyID version t)
  | retire policyID version t =>
      exact hreturn (fun _ => .done) (retire_preserves world policyID version t)

/-- After every schedule each stored evaluation is governed. -/
theorem worldAfter_governed (schedule : List (Action (Command lib) Surroundings)) :
    Governed (worldAfter lib schedule) := by
  refine Pool.run_invariant (handle lib) (fun command : Command lib => command.serve.run)
    (fun result _ => ∀ value, result = .ok value → True)
    (Std.Refl.refl (r := Grows)) (IsTrans.trans (r := Grows)) ?_ ?_ schedule
  · intro command world _
    exact (Program.returns_iff_wp _).mp (command.serve_preserves world)
  · intro id s hs
    exact absurd hs (by simp [World.empty, MemoryStore.empty])

/-- A completed evaluation has run its rules. -/
theorem GovernedBy.executed_of_completed {s : EvaluationSnapshot}
    (h : GovernedBy world version s) (hcompleted : s.state = .completed) :
    ∃ policy binding evidence, Executed world version s policy binding evidence :=
  h.executed (EvaluationSnapshot.deriveResult_eq_ok.mp (h.completed hcompleted)).2.1

/-- **No decision without its policy and its evidence.**  Whatever the order in
which clients issue commands and however their reads and writes interleave, a
completed evaluation carries the plan of a registered version, a qualified
evidence set, one outcome for each rule of the plan, decided by the compiled
rule on the stored evidence, and the result derived from these outcomes. -/
theorem completed_decision_grounded (lib : Platform)
    (schedule : List (Action (Command lib) Surroundings)) (id : UUID) (s : EvaluationSnapshot)
    (hstored : (worldAfter lib schedule).store.snapshots id = some s)
    (hcompleted : s.state = .completed) :
    ∃ version policy binding evidence,
      (worldAfter lib schedule).registry.Knows version ∧
      s.policyBinding = some policy ∧ Names policy version ∧
      s.requiredRuleIDs = version.snapshot.requiredRuleIDs ∧
      s.evidenceBinding = some binding ∧ binding.status = .qualified ∧
      (∀ reference ∈ binding.evidence, reference.status = .qualified) ∧
      List.Forall₂ (Backs (worldAfter lib schedule) s.sessionID) binding.evidence evidence ∧
      s.requiredRuleIDs.Nodup ∧ (s.ruleOutcomes.map (·.ruleID)).Perm s.requiredRuleIDs ∧
      (∀ outcome ∈ s.ruleOutcomes,
        DecidedBy version (ruleInput s.evaluationID s.sessionID policy evidence) outcome) ∧
      s.deriveResult = .ok (s.result, s.reasonCodes) := by
  obtain ⟨version, hgoverned⟩ := worldAfter_governed schedule id s hstored
  obtain ⟨policy, binding, evidence, hrun⟩ := hgoverned.executed_of_completed hcompleted
  have hnodup : s.requiredRuleIDs.Nodup := by
    rw [hgoverned.plan]
    exact version.normal.plan_normal.nodup
  exact ⟨version, policy, binding, evidence, hgoverned.known, hrun.policy_bound,
    hgoverned.names hrun.policy_bound, hgoverned.plan, hrun.evidence_bound, hrun.qualified,
    (hgoverned.evidence binding hrun.evidence_bound).qualified hrun.qualified, hrun.backed,
    hnodup, hrun.one_per_rule, hrun.decided, hgoverned.completed hcompleted⟩

/-! ## A worked decision

A crate is weighed and its weight checked by two rules.  The platform below does
on the values of this example what the standard library does. -/

namespace Crate

mutual
/-- The compact form of a JSON value without characters that need escapes. -/
def render : Json → Bytes
  | .null => utf8 "null"
  | .bool value => utf8 (if value then "true" else "false")
  | .number text => utf8 text
  | .string value => utf8 "\"" ++ utf8 value ++ utf8 "\""
  | .array items => utf8 "[" ++ renderItems items ++ utf8 "]"
  | .object members => utf8 "\x7b" ++ renderMembers members ++ utf8 "\x7d"

def renderItems : List Json → Bytes
  | [] => []
  | [item] => render item
  | item :: rest => render item ++ utf8 "," ++ renderItems rest

def renderMembers : List (String × Json) → Bytes
  | [] => []
  | [(name, value)] => utf8 "\"" ++ utf8 name ++ utf8 "\":" ++ render value
  | (name, value) :: rest =>
      utf8 "\"" ++ utf8 name ++ utf8 "\":" ++ render value ++ utf8 "," ++ renderMembers rest
end

/-- Eight o'clock on the first of March 2026. -/
def eight : Time := ⟨63907948800000000000, .utc⟩

/-- An hour, in nanoseconds. -/
def hour : Int := 3600000000000

/-- RFC 3339 for the hours of the example. -/
def timeJson (t : Time) : Json :=
  if t = eight then .string "2026-03-01T08:00:00Z"
  else if t = eight.add hour then .string "2026-03-01T09:00:00Z"
  else if t = eight.add (2 * hour) then .string "2026-03-01T10:00:00Z"
  else .null

def idJson (id : UUID) : Json := .string id.text

/-- A slice that is nil when it is empty. -/
def textsJson (texts : List String) : Json :=
  if texts = [] then .null else .array (texts.map .string)

/-- The weights that the scale reports for two crates. -/
def weight : Json := .object [("unit", .string "kg"), ("value", .number "25")]
def heavyWeight : Json := .object [("unit", .string "kg"), ("value", .number "30")]

def document : Json := .object [
  ("evidence_qualification", .object [
    ("allowed_acquisition_methods", .array [.string "HTTP"]),
    ("allowed_types", .array [.string "WEIGHT"]),
    ("trusted_sources", .array [.string "scale-17"]),
    ("version", .string "qualification.v1")]),
  ("rules", .array [
    .object [("evidence_type", .string "WEIGHT"), ("minimum_count", .number "1"),
      ("operator", .string "EXISTENCE"), ("rule_id", .string "presence")],
    .object [("maximum", .string "25"), ("minimum", .string "0"),
      ("operator", .string "RANGE"), ("rule_id", .string "weight"),
      ("selector", .object [("evidence_type", .string "WEIGHT"),
        ("json_pointer", .string "/value")])]])]

/-- The rule that at least one weight has been observed. -/
def presenceRule : Policy.PolicyRuleV1 where
  ruleID := "presence"
  operator := "EXISTENCE"
  selector := none
  expected := []
  minimum := none
  maximum := none
  tolerance := none
  evidenceType := some "WEIGHT"
  sourceID := none
  minimumCount := some 1
  steps := []
  maxGap := none
  maxDuration := none

/-- The rule that the weight lies between 0 and 25. -/
def weightRule : Policy.PolicyRuleV1 where
  ruleID := "weight"
  operator := "RANGE"
  selector := some ⟨"WEIGHT", "", "/value"⟩
  expected := []
  minimum := some "0"
  maximum := some "25"
  tolerance := none
  evidenceType := none
  sourceID := none
  minimumCount := none
  steps := []
  maxGap := none
  maxDuration := none

def policyDocument : Policy.PolicyDocumentV1 where
  evidenceQualification := some {
    version := "qualification.v1"
    trustedSources := ["scale-17"]
    allowedTypes := ["WEIGHT"]
    allowedAcquisitionMethods := ["HTTP"]
    maxAge := none
    futureTolerance := none
    requireConfidence := false
    minimumConfidence := none
    requiredProvenance := []
    requiredPayloadFields := [] }
  rules := [presenceRule, weightRule]

/-- The JSON values of the example, each under its text. -/
def decode (payload : Bytes) : Option Json :=
  if payload = render weight then some weight
  else if payload = render heavyWeight then some heavyWeight
  else if payload = render document then some document
  else if payload = utf8 "0" then some (.number "0")
  else if payload = utf8 "25" then some (.number "25")
  else if payload = utf8 "30" then some (.number "30")
  else none

/-- The hashed part of the policy. -/
def envelopeJson (envelope : Policy.Envelope) : Json := .object [
  ("policy_id", .string envelope.policyID), ("version", .string envelope.version),
  ("schema_version", .string envelope.schemaVersion),
  ("effective_from", timeJson envelope.effectiveFrom),
  ("required_rule_ids", .array (envelope.requiredRuleIDs.map .string)),
  ("document", (decode envelope.document).getD .null)]

/-- The policy with its rules in the given order. -/
def envelope (plan : List String) : Policy.Envelope :=
  ⟨"cargo-transfer", "1.0.0", "policy.document.v1", eight, none, plan, render document⟩

/-- The two orders of the rules. -/
def sortedPlan : List String := ["presence", "weight"]
def reversedPlan : List String := ["weight", "presence"]

/-- The SHA-256 sums of the texts that are hashed. -/
def sums : List (Bytes × Digest) := [
  (render weight,
    0x21543574f899760d2c2c1d5200a8ab6853f92a3f0d17a8ec7a1560e3354f4711),
  (render heavyWeight,
    0x7a8e04636d95933cb90df385bcb8ce2c7b5655cdaa8ed74375ec9a25b10e556b),
  (render (envelopeJson (envelope sortedPlan)),
    0xeef6351558e942dd59e909c15dd9dd4d89af2c947a58a55ac5121e9af12c0aa3),
  (render (envelopeJson (envelope reversedPlan)),
    0xf4eac8d4dd667ff6072e5029f4ef4fc4b82895bf0955880c927d46892d4d50ef)]

def statusJson : EvidenceQualificationStatus → Json
  | .qualified => .string "QUALIFIED"
  | .rejected => .string "REJECTED"
  | .unavailable => .string "UNAVAILABLE"
  | .other text => .string text

def outcomeStatusJson : RuleOutcomeStatus → Json
  | .pass => .string "PASS"
  | .warning => .string "WARNING"
  | .fail => .string "FAIL"
  | .inconclusive => .string "INCONCLUSIVE"
  | .other text => .string text

def resultJson : VerificationResult → Json
  | .unknown => .string "UNKNOWN"
  | .verified => .string "VERIFIED"
  | .verifiedWithException => .string "VERIFIED_WITH_EXCEPTION"
  | .rejected => .string "REJECTED"
  | .manualReview => .string "MANUAL_REVIEW"
  | .systemException => .string "SYSTEM_EXCEPTION"
  | .other text => .string text

def outcomeJson (outcome : RuleOutcome) : Json := .object [
  ("RuleID", .string outcome.ruleID), ("Status", outcomeStatusJson outcome.status),
  ("ReasonCodes", textsJson outcome.reasonCodes), ("EvaluatedAt", timeJson outcome.evaluatedAt)]

def policyBindingJson (binding : PolicyBinding) : Json := .object [
  ("PolicyID", .string binding.policyID), ("Version", .string binding.version),
  ("Hash", .string binding.hash), ("BoundAt", timeJson binding.boundAt)]

/-- An evidence binding; `reasons` says how an empty list of reasons is written. -/
def evidenceBindingJson (reasons : List String → Json) (binding : EvidenceSetBinding) : Json :=
  .object [
    ("SessionID", idJson binding.sessionID), ("Status", statusJson binding.status),
    ("PolicyVersion", .string binding.policyVersion),
    ("QualifiedAt", timeJson binding.qualifiedAt), ("Reasons", reasons binding.reasons),
    ("Evidence", .array (binding.evidence.map fun reference => .object [
      ("EvidenceID", idJson reference.evidenceID), ("Status", statusJson reference.status),
      ("Reasons", reasons reference.reasons)]))]

/-- The events of a decision that is made without exceptions. -/
def eventJson (event : DomainEvent) : Option Json :=
  let ids := [("EvaluationID", idJson event.evaluationID), ("SessionID", idJson event.sessionID)]
  let version := [("Version", Json.number (toString event.version))]
  match event.body with
  | .evaluationCreated t => some (.object (ids ++ [("CreatedAt", timeJson t)] ++ version))
  | .evaluationStarted t => some (.object (ids ++ [("StartedAt", timeJson t)] ++ version))
  | .evaluationCompleted result t => some (.object
      (ids ++ [("Result", resultJson result), ("CompletedAt", timeJson t)] ++ version))
  | .requiredRuleRegistered ruleID t => some (.object
      (ids ++ [("RuleID", .string ruleID), ("RegisteredAt", timeJson t)] ++ version))
  | .evidenceSetBound binding => some (.object (ids ++ [("Binding",
      evidenceBindingJson (fun texts => .array (texts.map .string)) binding)] ++ version))
  | .verificationPolicyBound binding => some (.object
      (ids ++ [("Binding", policyBindingJson binding)] ++ version))
  | .ruleOutcomeBatchRecorded outcomes t => some (.object
      (ids ++ [("Outcomes", .array (outcomes.map outcomeJson)), ("RecordedAt", timeJson t)] ++
        version))
  | _ => none

/-- The standard library on the values of the example. -/
def platform : Platform where
  __ := Platform.silent
  sha256 payload := (sums.lookup payload).getD Digest.zero
  decodeJSON := decode
  marshalJSON value := some (render value)
  setRat text :=
    if text = "0" then some 0 else if text = "25" then some 25
    else if text = "30" then some 30 else none
  decodePolicyDocument payload :=
    if payload = render document then some policyDocument else none
  marshalPolicyEnvelope envelope := some (render (envelopeJson envelope))
  marshalEvent event := (eventJson event).map render

/-- The hash of the policy, for the two orders of its rules. -/
def policyHash (plan : List String) : String :=
  if plan = sortedPlan then
    "sha256:eef6351558e942dd59e909c15dd9dd4d89af2c947a58a55ac5121e9af12c0aa3"
  else "sha256:f4eac8d4dd667ff6072e5029f4ef4fc4b82895bf0955880c927d46892d4d50ef"

def policySnapshot (plan : List String) : Policy.Snapshot :=
  ⟨"cargo-transfer", "1.0.0", "policy.document.v1", eight, none, plan, render document,
    policyHash plan⟩

/-- The policy with its rules in alphabetical order. -/
def sortedVersion : Policy.Version platform where
  snapshot := policySnapshot sortedPlan
  normal := by
    have hnormal : Policy.normalizeAndValidate (policySnapshot sortedPlan) =
        .ok (policySnapshot sortedPlan) := by decide +kernel
    exact Policy.normalizeAndValidate_normal hnormal
  hash_eq := by decide +kernel

def session : UUID := BitVec.ofNat 128 0x6f1c2d3e4a5b4c6d8e7f901a2b3c4d5e
def evidenceID : UUID := BitVec.ofNat 128 0x0a1b2c3d4e5f4a6b8c7d9e0f1a2b3c4d

/-- The identifiers drawn during one command. -/
def fresh (start : Nat) : List UUID :=
  (List.range 9).map fun index =>
    BitVec.ofNat 128 (0x7d5c1e90b3a2487f9c6a5e4d3c2b1000 + 9 * start + index)

/-- The evaluation gets the third identifier of the command that creates it. -/
def evaluationID : UUID := BitVec.ofNat 128 0x7d5c1e90b3a2487f9c6a5e4d3c2b1002

def measured : Evidence.Input where
  evidenceID := evidenceID
  sessionID := session
  sourceID := "scale-17"
  sourceType := "SCALE"
  evidenceType := "WEIGHT"
  observedAt := eight
  receivedAt := eight
  payload := render weight
  confidence := none
  provenance := []
  schemaVersion := ""
  runtimeVersion := ""
  acquisitionMethod := "HTTP"

/-- One client that runs a command to its end at eight o'clock. -/
def alone {lib : Platform} (command : Command lib) (start : Nat) :
    List (Action (Command lib) Surroundings) :=
  .invoke command :: (fresh start).map fun id => .advance 0 ⟨eight, id⟩

/-- A decision from the activation of the policy to its completion. -/
def decision {lib : Platform} (version : Policy.Version lib) :
    List (Action (Command lib) Surroundings) :=
  alone (.add ⟨version, eight⟩) 1 ++
  alone (.ingest ⟨"evidence.v1", "runtime.v1"⟩ measured) 2 ++
  alone (.createForPolicy session "cargo-transfer") 0 ++
  alone (.start evaluationID) 3 ++
  alone (.qualifyAndBind evaluationID) 4 ++
  alone (.execute evaluationID) 5 ++
  alone (.complete evaluationID) 6

/-- The completed evaluation, where all rules pass. -/
def completed {lib : Platform} (version : Policy.Version lib) : EvaluationSnapshot where
  evaluationID := evaluationID
  sessionID := session
  state := .completed
  result := .verified
  reasonCodes := []
  createdAt := eight
  startedAt := some eight
  completedAt := some eight
  cancelledAt := none
  expiredAt := none
  cancellationReason := ""
  version := 8
  requiredRuleIDs := version.snapshot.requiredRuleIDs
  ruleOutcomes := [⟨"presence", .pass, [], eight⟩, ⟨"weight", .pass, [], eight⟩]
  checkpoints := []
  history := []
  evidenceBinding := some ⟨session, .qualified, "qualification.v1", eight, [],
    [⟨evidenceID, .qualified, []⟩]⟩
  policyBinding := some ⟨"cargo-transfer", "1.0.0", version.snapshot.hash, eight⟩

end Crate

/-- The decision on the crate is completed, and it is grounded in the policy. -/
theorem crate_decision_grounded :
    (worldAfter Crate.platform (Crate.decision Crate.sortedVersion)).store.snapshots
        Crate.evaluationID = some (Crate.completed Crate.sortedVersion) ∧
      (Crate.completed Crate.sortedVersion).state = .completed ∧
      ∃ version policy,
        (worldAfter Crate.platform (Crate.decision Crate.sortedVersion)).registry.Knows version ∧
        (Crate.completed Crate.sortedVersion).policyBinding = some policy ∧
        Names policy version ∧ version.snapshot.requiredRuleIDs = ["presence", "weight"] := by
  have hstored : (worldAfter Crate.platform
      (Crate.decision Crate.sortedVersion)).store.snapshots Crate.evaluationID =
      some (Crate.completed Crate.sortedVersion) := by decide +kernel
  obtain ⟨version, policy, _, _, hknown, hpolicy, hnames, hplan, _⟩ :=
    completed_decision_grounded Crate.platform (Crate.decision Crate.sortedVersion)
      Crate.evaluationID (Crate.completed Crate.sortedVersion) hstored rfl
  exact ⟨hstored, rfl, version, policy, hknown, hpolicy, hnames, hplan.symm⟩

end Pds
end CargoPds
