import CargoPds.Concurrency.Retry
import CargoPds.Pds.Decisions
import CargoPds.Pds.Outbox

/-!
# Retrying a command

A client that does not know whether its command was carried out sends it once more.
`Start`, `QualifyAndBind`, `Execute`, `Complete` and `ExpireTimedOut` are made for
that: on an evaluation that is already where the command leads, they return it.

* `Attained` says for each of the five what is stored when a call returns successfully;
  `Command.attains` proves it along the text of the command, with any number of other
  clients at work during the call;
* `Command.yields`: alone in such a world, the command returns the same response and
  leaves the world as it is.  For four of them this is the early return.  `Execute` has
  none when the plan has no rules; then it goes through the whole text, and writes back
  what is stored;
* `retries_are_idempotent` puts the two together.
-/

namespace CargoPds
namespace Pds

open Evaluation Concurrency Fallible Text

variable {lib : Platform}
variable {id : UUID} {s : EvaluationSnapshot} {err : Error} {world before : World lib}
variable {e e' : EvaluationAggregate}

/-! ## What is stored when a call returns -/

/-- If the client returns a value, `P` holds of it and of the stores then. -/
abbrev Attains {α : Type} (program : Client lib α) (P : α → World lib → Prop)
    (world : World lib) : Prop :=
  Program.Returns (handle lib) (fun w => w.store.Tidy) Grows program P world

/-- Operations keep the store tidy. -/
theorem tidy_of_handle (op : Op lib) (input : Surroundings) (world : World lib)
    (h : world.store.Tidy) :
    (handle lib op input world).2.store.Tidy ∧ Grows world (handle lib op input world).2 := by
  refine ⟨?_, handle_grows op input world⟩
  cases op with
  | saveEvaluation snapshot expectedVersion records => exact h.saveEvaluation _ _ _
  | _ => exact h

section
variable {α β : Type} {P : β → World lib → Prop} {world : World lib}
variable {f : α → Client lib β}

theorem attains_anything (program : Client lib α) (world : World lib) :
    Attains program (fun _ _ => True) world :=
  (Program.returns_iff_wp _).mpr
    (Program.wp_mono _ (fun _ _ _ _ _ => trivial)
      (Program.wp_of_handle _ tidy_of_handle program.run world))

/-- A part of a command of whose value nothing has to be known. -/
theorem Attains.skip {program : Client lib α}
    (hnext : ∀ value w, Grows world w → Attains (f value) P w) :
    Attains (program >>= f) P world :=
  Program.Returns.bind _ (attains_anything program world)
    fun value w hgrows _ => hnext value w hgrows

theorem attains_evaluated {x : Except Evaluation.Error α}
    (hnext : ∀ value, x = .ok value → Attains (f value) P world) :
    Attains (Client.evaluated x >>= f) P world :=
  Program.Returns.compute_bind _ fun value hvalue => hnext value (mapError_eq_ok.mp hvalue)

theorem attains_rejectIf {refused : Prop} [Decidable refused] {f : Unit → Client lib β}
    (hnext : ¬ refused → Attains (f ()) P world) :
    Attains (Client.rejectIf refused err >>= f) P world :=
  Program.Returns.compute_bind _ fun _ hguard => hnext (rejectIf_eq_ok.mp hguard)

theorem attains_required {field : Option α}
    (hnext : ∀ value, field = some value → Attains (f value) P world) :
    Attains (Client.required field err >>= f) P world :=
  Program.Returns.compute_bind _ fun value hvalue => hnext value (Client.deref_eq_ok hvalue)

end

/-- An evaluation as it is stored. -/
structure Found (id : UUID) (e : EvaluationAggregate) (world : World lib) : Prop where
  stored : world.store.snapshots id = some e.snapshot
  keyed : e.evaluationID = id
  restored : e.snapshot.restored = e.snapshot

theorem found_of_findEvaluation {e : EvaluationAggregate} (htidy : world.store.Tidy)
    (h : world.store.findEvaluation id = .ok e) :
    Found id e world := by
  obtain ⟨s, hs, hrehydrate⟩ := MemoryStore.findEvaluation_eq_ok h
  rw [htidy.restored id s hs] at hrehydrate
  obtain rfl := Except.ok.inj hrehydrate
  obtain ⟨-, hfix⟩ := rehydrateEvaluation_eq_ok_iff.mp (htidy.restored id s hs)
  exact ⟨hs, htidy.keyed id s hs, (congrArg EvaluationAggregate.snapshot hfix).symm⟩

theorem find_attains (id : UUID) (world : World lib) :
    Attains (find lib id) (Found id) world := by
  refine (Program.returns_iff_wp _).mpr ?_
  intro w _ htidy input
  obtain ⟨htidy', hgrows⟩ := tidy_of_handle (.findEvaluation id) input w htidy
  exact ⟨htidy', hgrows, fun e he => found_of_findEvaluation htidy he⟩

/-- What is read again after a lost race. -/
theorem latest_attains {α : Type} {P : α → World lib → Prop} (id : UUID)
    {accept : EvaluationAggregate → Option α}
    (h : ∀ e w value, Found id e w → accept e = some value → P value w) (world : World lib) :
    Attains (latest lib id accept) (fun found w => ∀ value, found = some value → P value w)
      world :=
  Program.Returns.bind _ (find_attains id world) fun e w _ hfound =>
    Program.Returns.pure _ fun value hvalue => h e w value hfound hvalue

/-- The changes of the five commands do not touch these fields. -/
structure SameFrame (e e' : EvaluationAggregate) : Prop where
  evaluationID : e'.evaluationID = e.evaluationID
  createdAt : e'.createdAt = e.createdAt
  checkpoints : e'.checkpoints = e.checkpoints

theorem SameFrame.restored (h : SameFrame e e')
    (hrestored : e.snapshot.restored = e.snapshot) : e'.snapshot.restored = e'.snapshot := by
  have hcreated : e.createdAt.toUTC = e.createdAt :=
    congrArg EvaluationSnapshot.createdAt hrestored
  have hcheckpoints : e.checkpoints.insertionSort ByName = e.checkpoints :=
    congrArg EvaluationSnapshot.checkpoints hrestored
  unfold EvaluationSnapshot.restored EvaluationAggregate.snapshot
  rw [h.createdAt, h.checkpoints, hcreated, hcheckpoints, ← h.createdAt, ← h.checkpoints]

/-- An accepted write stores what was written. -/
theorem MemoryStore.stored_of_saveEvaluation {m : MemoryStore} {snapshot : EvaluationSnapshot}
    {expectedVersion : Nat} {records : List OutboxRecord}
    (h : (m.saveEvaluation snapshot expectedVersion records).1 = .ok ()) :
    (m.saveEvaluation snapshot expectedVersion records).2.snapshots snapshot.evaluationID =
      some snapshot.restored := by
  unfold saveEvaluation at h ⊢
  split at h
  · exact absurd h (by simp)
  · rename_i hconflict
    rw [if_neg hconflict]
    split at h
    · exact absurd h (by simp)
    · rename_i aggregate haggregate
      rw [← snapshot_of_rehydrateEvaluation haggregate]
      exact Function.update_self ..

/-- The last lines of a command: what is stored is what was written. -/
theorem save_return_attains {α : Type} {P : α → World lib → Prop}
    (hfound : Found id e before) (hsame : SameFrame e e') (expectedVersion : Nat) {value : α}
    (hP : ∀ w, Grows world w → w.store.snapshots id = some e'.snapshot → P value w) :
    Attains (do save lib e' expectedVersion; return value) P world := by
  have hsave : Attains (save lib e' expectedVersion)
      (fun _ w => w.store.snapshots id = some e'.snapshot) world := by
    refine Attains.skip fun now w₁ _ => Attains.skip fun records w₂ _ => ?_
    refine (Program.returns_iff_wp _).mpr ?_
    intro w _ htidy input
    obtain ⟨htidy', hgrows⟩ :=
      tidy_of_handle (.saveEvaluation e'.snapshot expectedVersion records) input w htidy
    refine ⟨htidy', hgrows, ?_⟩
    rintro ⟨⟩ haccepted
    have hid : e'.snapshot.evaluationID = id := hsame.evaluationID.trans hfound.keyed
    have hwritten := MemoryStore.stored_of_saveEvaluation haccepted
    rw [hid, hsame.restored hfound.restored] at hwritten
    exact hwritten
  exact Program.Returns.bind _ hsave fun _ w hgrows hstored =>
    Program.Returns.pure _ (hP w hgrows hstored)

/-- The end of the commands of the lifecycle: the change is written, or another client has
made it already. -/
theorem reach_attains {α : Type} {P : α → World lib → Prop}
    (hfound : Found id e before) (hsame : SameFrame e e') (value : EvaluationAggregate → α)
    (Reached : EvaluationAggregate → Prop) [DecidablePred Reached] (hreached : Reached e')
    (hP : ∀ stored w, w.store.snapshots id = some stored.snapshot → Reached stored → P (value
      stored) w) (expectedVersion : Nat) (world : World lib) :
    Attains (Program.orElse isConcurrentModification
      (do save lib e' expectedVersion; return value e')
      (latest lib id fun stored => if Reached stored then some (value stored) else none))
      P world := by
  refine Program.Returns.orElse _ ?_ fun w => latest_attains id ?_ w
  · exact save_return_attains hfound hsame _ fun w _ hstored => hP e' w hstored hreached
  · intro stored w result hstored hresult
    split at hresult
    · rename_i hstate
      obtain rfl := Option.some.inj hresult
      exact hP stored w hstored.stored hstate
    · exact absurd hresult (by simp)

/-! ## The lifecycle -/

theorem start_attains (id : UUID) (world : World lib) :
    Attains (start lib id)
      (fun s w => w.store.snapshots id = some s ∧ s.state = .running) world := by
  refine Program.Returns.bind _ (find_attains id world) fun e w₁ _ hfound => ?_
  by_cases hrunning : e.state = .running
  · rw [if_pos hrunning]
    exact Program.Returns.pure _ ⟨hfound.stored, hrunning⟩
  · rw [if_neg hrunning]
    refine Attains.skip fun now w₂ _ => attains_evaluated fun started hstarted => ?_
    have hstarted := EvaluationAggregate.start_eq_ok hstarted
    have hsame : SameFrame e started := by
      rw [hstarted]
      exact ⟨rfl, rfl, rfl⟩
    have hstate : started.state = .running := by
      rw [hstarted]
      rfl
    exact reach_attains hfound hsame EvaluationAggregate.snapshot (·.state = .running) hstate
      (fun _ _ hstored hreached => ⟨hstored, hreached⟩) _ w₂

theorem expireTimedOut_attains (id : UUID) (p : TimeoutPolicy) (world : World lib) :
    Attains (expireTimedOut lib id p)
      (fun s w => w.store.snapshots id = some s ∧ s.state = .expired) world := by
  refine Program.Returns.bind _ (find_attains id world) fun e w₁ _ hfound => ?_
  by_cases hexpired : e.state = .expired
  · rw [if_pos hexpired]
    exact Program.Returns.pure _ ⟨hfound.stored, hexpired⟩
  · rw [if_neg hexpired]
    refine Attains.skip fun deadline w₂ _ => Attains.skip fun now w₃ _ => ?_
    refine attains_rejectIf fun _ => attains_evaluated fun expired hexpire => ?_
    have hexpire := EvaluationAggregate.expire_eq_ok hexpire
    have hsame : SameFrame e expired := by
      rw [hexpire]
      exact ⟨rfl, rfl, rfl⟩
    have hstate : expired.state = .expired := by
      rw [hexpire]
      rfl
    exact reach_attains hfound hsame EvaluationAggregate.snapshot (·.state = .expired) hstate
      (fun _ _ hstored hreached => ⟨hstored, hreached⟩) _ w₃

/-- The trace of a stored evaluation. -/
def traceOf (s : EvaluationSnapshot) : DecisionTrace :=
  ({ s with domainEvents := [] } : EvaluationAggregate).decisionTrace

theorem complete_attains (id : UUID) (world : World lib) :
    Attains (complete lib id)
      (fun trace w => ∃ s, w.store.snapshots id = some s ∧ s.state = .completed ∧
        trace = traceOf s) world := by
  refine Program.Returns.bind _ (find_attains id world) fun e w₁ _ hfound => ?_
  by_cases hcompleted : e.state = .completed
  · rw [if_pos hcompleted]
    exact Program.Returns.pure _ ⟨_, hfound.stored, hcompleted, rfl⟩
  · rw [if_neg hcompleted]
    refine attains_evaluated fun derived _ => Attains.skip fun now w₂ _ => ?_
    refine attains_evaluated fun completed hcomplete => ?_
    obtain ⟨-, -, nr, -, hcomplete⟩ := EvaluationAggregate.completeAt_eq_ok hcomplete
    have hsame : SameFrame e completed := by
      rw [hcomplete]
      exact ⟨rfl, rfl, rfl⟩
    have hstate : completed.state = .completed := by
      rw [hcomplete]
      rfl
    exact reach_attains hfound hsame EvaluationAggregate.decisionTrace (·.state = .completed)
      hstate (fun _ _ hstored hreached => ⟨_, hstored, hreached, rfl⟩) _ w₂

/-! ## Qualification -/

/-- Binding evidence leaves the evaluation with a binding. -/
theorem bindEvidenceSet_bound {binding : EvidenceSetBinding}
    (h : e.bindEvidenceSet binding = .ok e') : SameFrame e e' ∧ e'.evidenceBinding ≠ none := by
  simp only [EvaluationAggregate.bindEvidenceSet, bind_eq_ok] at h
  obtain ⟨-, -, -, -, normalized, -, -, -, hbind⟩ := h
  split at hbind
  · rename_i bound hbound
    split at hbind
    · obtain rfl := Except.ok.inj hbind
      exact ⟨⟨rfl, rfl, rfl⟩, by simp [hbound]⟩
    · exact absurd hbind (by simp)
  · obtain rfl := pure_eq_ok.mp hbind
    exact ⟨⟨rfl, rfl, rfl⟩, by simp [EvaluationAggregate.raise]⟩

theorem bindEvidenceQualification_attains (id : UUID)
    (result : Evidence.SessionQualificationResult) (world : World lib) :
    Attains (bindEvidenceQualification lib id result)
      (fun s w => w.store.snapshots id = some s ∧ s.evidenceBinding ≠ none) world := by
  refine Program.Returns.bind _ (find_attains id world) fun e w₁ _ hfound => ?_
  refine attains_evaluated fun bound hbound => ?_
  obtain ⟨hsame, hset⟩ := bindEvidenceSet_bound hbound
  exact save_return_attains hfound hsame _ fun w _ hstored => ⟨hstored, hset⟩

theorem qualifyAndBind_attains (id : UUID) (world : World lib) :
    Attains (qualifyAndBind lib id)
      (fun s w => w.store.snapshots id = some s ∧ s.evidenceBinding ≠ none) world := by
  refine Program.Returns.bind _ (find_attains id world) fun e w₁ _ hfound => ?_
  by_cases hbound : e.evidenceBinding ≠ none
  · rw [if_pos hbound]
    exact Program.Returns.pure _ ⟨hfound.stored, hbound⟩
  · rw [if_neg hbound]
    refine Attains.skip fun binding w₂ _ => Attains.skip fun version w₃ _ => ?_
    refine attains_rejectIf fun _ => Attains.skip fun policy w₄ _ => ?_
    refine Attains.skip fun qualifier w₅ _ => Attains.skip fun result w₆ _ => ?_
    refine Program.Returns.orElse _ (bindEvidenceQualification_attains id result w₆)
      fun w => latest_attains id ?_ w
    intro stored w value hstored hvalue
    split at hvalue
    · rename_i hset
      obtain rfl := Option.some.inj hvalue
      exact ⟨hstored.stored, hset⟩
    · exact absurd hvalue (by simp)

/-! ## Rule execution -/

/-- The reference can be followed. -/
def Available (world : World lib) (sessionID : UUID) (reference : EvidenceReference) : Prop :=
  reference.status = .qualified ∧ reference.evidenceID ≠ UUID.nil ∧
    ∃ snapshot, Backs world sessionID reference snapshot

/-- What `Execute` has left behind: an outcome for every rule, or, of a plan without rules,
an evaluation that it can go through again. -/
structure Concluded (world : World lib) (s : EvaluationSnapshot) (binding : EvidenceSetBinding)
    (policy : PolicyBinding) : Prop where
  evidence_bound : s.evidenceBinding = some binding
  qualified : binding.status = .qualified
  policy_bound : s.policyBinding = some policy
  outcomes : (s.ruleOutcomes ≠ [] ∧ s.missingRequiredRuleIDs = []) ∨
    (s.ruleOutcomes = [] ∧ s.requiredRuleIDs = [] ∧ s.state = .running ∧
      ∀ reference ∈ binding.evidence, Available world s.sessionID reference)

theorem boundEvidence_attains (sessionID : UUID) (reference : EvidenceReference)
    (world : World lib) :
    Attains (boundEvidence lib sessionID reference)
      (fun _ w => Available w sessionID reference) world := by
  refine attains_rejectIf fun hqualified => ?_
  have hfind : Attains (Client.findEvidence lib reference.evidenceID)
      (fun object w => reference.evidenceID ≠ UUID.nil ∧
        w.evidence.lookup reference.evidenceID = some object.snapshot) world := by
    refine (Program.returns_iff_wp _).mpr ?_
    intro w _ htidy input
    obtain ⟨htidy', hgrows⟩ :=
      tidy_of_handle (.findEvidence reference.evidenceID) input w htidy
    refine ⟨htidy', hgrows, ?_⟩
    intro object hobject
    have hfound := mapError_eq_ok.mp hobject
    refine ⟨?_, Evidence.MemoryRepository.findEvidence_eq_ok lib hfound⟩
    simp only [Evidence.MemoryRepository.findEvidence, bind_eq_ok, rejectIf_eq_ok,
      exists_const] at hfound
    exact hfound.1
  refine Program.Returns.bind _ hfind fun object w _ hobject => ?_
  refine attains_rejectIf fun hmatch => ?_
  refine Program.Returns.compute_bind _ fun copy hcopy => ?_
  have hintact := ((Evidence.rehydrate_eq_ok lib).mp (mapError_eq_ok.mp hcopy)).1
  rw [not_or, not_not, not_not] at hmatch
  exact Program.Returns.pure _ ⟨not_not.mp hqualified, hobject.1, object.snapshot, hobject.2,
    hmatch.2, hintact⟩

theorem Available.of_grows {after : World lib} (hgrows : Grows before after) {sessionID : UUID}
    {reference : EvidenceReference} (h : Available before sessionID reference) :
    Available after sessionID reference := by
  obtain ⟨hqualified, hset, snapshot, hbacks⟩ := h
  exact ⟨hqualified, hset, snapshot, hbacks.of_grows hgrows⟩

/-- The rules of the plan are those that the outcomes are of. -/
theorem ruleIDs_of_evaluateRule {input : RuleOperator.RuleInput} {evaluatedAt : Time}
    {plan : List String} {operators : List RuleOperator.Operator} {outcomes : List RuleOutcome}
    (hlength : plan.length = operators.length)
    (h : (plan.zip operators).mapM (evaluateRule lib input evaluatedAt) = .ok outcomes) :
    outcomes.map (·.ruleID) = plan := by
  have hpairs := mapM_eq_ok.mp h
  have hids : outcomes.map (·.ruleID) = (plan.zip operators).map Prod.fst := by
    clear h
    generalize plan.zip operators = rules at hpairs
    induction hpairs with
    | nil => rfl
    | cons hhead _ ih =>
        rw [List.map_cons, List.map_cons, ih, evaluateRule_eq_ok hhead]
        rfl
  rw [hids, List.map_fst_zip (Nat.le_of_eq hlength)]

/-- Recording the outcomes of a whole plan leaves none missing. -/
theorem recorded_concluded {outcomes : List RuleOutcome} {t : Time}
    (hempty : e.ruleOutcomes = []) (hids : outcomes.map (·.ruleID) = e.requiredRuleIDs)
    (hcanonical : ∀ ruleID ∈ e.requiredRuleIDs, trimSpace ruleID = ruleID)
    (h : e.recordRuleOutcomeBatch outcomes t = .ok e') :
    (e' = e ∧ e.requiredRuleIDs = [] ∧ e.state = .running) ∨
      ∃ normalized body, e' = ({ e with ruleOutcomes := normalized } :
          EvaluationAggregate).raise body ∧
        normalized ≠ [] ∧ e'.missingRequiredRuleIDs = [] := by
  by_cases hsome : outcomes = []
  · left
    simp only [EvaluationAggregate.recordRuleOutcomeBatch, if_pos hsome, bind_eq_ok,
      rejectIf_eq_ok, exists_const, ne_eq, not_not] at h
    obtain ⟨hstate, hsame⟩ := h
    rw [hsome] at hids
    exact ⟨(Except.ok.inj hsame).symm, hids.symm, hstate⟩
  · right
    obtain ⟨normalized, hnormalized, rfl⟩ :=
      EvaluationAggregate.recordRuleOutcomeBatch_first hempty hsome h
    refine ⟨normalized, _, rfl,
      EvaluationAggregate.validateRuleOutcomeBatch_ne_nil hsome hnormalized, ?_⟩
    change e.requiredRuleIDs.filter (fun id => id ∉ normalized.map (·.ruleID)) = []
    rw [List.filter_eq_nil_iff]
    intro ruleID hruleID hmissing
    have hmem := hids.symm ▸ hruleID
    obtain ⟨outcome, houtcome, rfl⟩ := List.mem_map.mp hmem
    have hcovered :=
      EvaluationAggregate.validateRuleOutcomeBatch_covers hnormalized outcome houtcome
    rw [hcanonical _ hruleID] at hcovered
    exact of_decide_eq_true hmissing hcovered

theorem execute_attains (id : UUID) (world : World lib) :
    Attains (execute lib id)
      (fun s w => w.store.snapshots id = some s ∧
        ∃ binding policy, Concluded w s binding policy) world := by
  refine Program.Returns.bind _ (find_attains id world) fun e w₁ _ hfound => ?_
  refine attains_required fun binding hbinding => attains_rejectIf fun hqualified => ?_
  refine attains_required fun policy hpolicy => ?_
  rw [not_not] at hqualified
  by_cases hsome : e.ruleOutcomes ≠ []
  · rw [if_pos hsome]
    by_cases hmissing : e.missingRequiredRuleIDs = []
    · rw [if_pos hmissing]
      exact Program.Returns.pure _ ⟨hfound.stored, binding, policy, hbinding, hqualified, hpolicy,
        Or.inl ⟨hsome, hmissing⟩⟩
    · rw [if_neg hmissing]
      exact Program.Returns.compute _ fun _ h => absurd h (by simp)
  · rw [if_neg hsome]
    rw [not_not] at hsome
    -- the operator of a rule has its trimmed identifier
    have hoperators : Attains (Program.forEach (requiredOperator lib policy) e.requiredRuleIDs)
        (fun operators w => List.Forall₂
          (fun ruleID (_ : RuleOperator.Operator) => trimSpace ruleID = ruleID)
          e.requiredRuleIDs operators) w₁ := by
      refine Program.Returns.forEach _ (fun ruleID _ _ => trimSpace ruleID = ruleID)
        (fun _ _ _ _ _ h => h) fun ruleID _ w _ => ?_
      refine Attains.skip fun operator w' _ => attains_rejectIf fun hmatch => ?_
      rw [not_not] at hmatch
      refine Program.Returns.pure _ ?_
      rw [← hmatch, trimSpace_trimSpace]
    have hevidence : ∀ w, Attains
        (Program.forEach (boundEvidence lib e.sessionID) binding.evidence)
        (fun evidence w' => List.Forall₂
          (fun reference (_ : Evidence.Snapshot) => Available w' e.sessionID reference)
          binding.evidence evidence) w := fun w =>
      Program.Returns.forEach _ (fun reference _ w' => Available w' e.sessionID reference)
        (fun _ _ _ _ hgrows h => h.of_grows hgrows)
        fun reference _ w' _ => boundEvidence_attains e.sessionID reference w'
    refine Program.Returns.bind _ hoperators fun operators w₂ _ hcanonical => ?_
    refine Program.Returns.bind _ (hevidence w₂) fun evidence w₃ _ havailable => ?_
    refine Attains.skip fun now w₄ hgrows => ?_
    refine Program.Returns.compute_bind _ fun outcomes houtcomes => ?_
    refine attains_evaluated fun recorded hrecorded => ?_
    have hids := ruleIDs_of_evaluateRule hcanonical.length_eq houtcomes
    rcases recorded_concluded hsome hids
      (fun ruleID hruleID => (exists_of_mem_left hcanonical hruleID).elim fun _ h => h.2)
      hrecorded with ⟨rfl, hplan, hstate⟩ | ⟨normalized, body, hrecord, hset, hmissing⟩
    · refine save_return_attains hfound ⟨rfl, rfl, rfl⟩ _ fun w hlater hstored => ?_
      refine ⟨hstored, binding, policy, hbinding, hqualified, hpolicy,
        Or.inr ⟨hsome, hplan, hstate, ?_⟩⟩
      intro reference hreference
      obtain ⟨_, _, h⟩ := exists_of_mem_left havailable hreference
      exact (h.of_grows hgrows).of_grows hlater
    · have hsame : SameFrame e recorded := by
        rw [hrecord]
        exact ⟨rfl, rfl, rfl⟩
      refine save_return_attains hfound hsame _ fun w _ hstored => ⟨hstored, binding, policy, ?_⟩
      rw [hrecord] at hmissing ⊢
      exact ⟨hbinding, hqualified, hpolicy, Or.inl ⟨hset, hmissing⟩⟩

/-! ## Going through a command again -/

section
variable {α β : Type} {world : World lib} {result : β}

/-- Alone in the world, the client returns the value and changes nothing. -/
abbrev Settled (world : World lib) (client : Client lib α) (value : α) : Prop :=
  Program.Yields (handle lib) world client value

theorem settled_rejectIf {refused : Prop} [Decidable refused] {f : Unit → Client lib β}
    (hguard : ¬ refused) (hnext : Settled world (f ()) result) :
    Settled world (Client.rejectIf refused err >>= f) result :=
  (Program.Yields.compute (rejectIf_eq_ok.mpr hguard)).bind hnext

theorem settled_required {field : Option α} {f : α → Client lib β} {value : α}
    (hfield : field = some value) (hnext : Settled world (f value) result) :
    Settled world (Client.required field err >>= f) result := by
  have hderef : Client.deref field err = .ok value := by
    rw [hfield]
    rfl
  exact (Program.Yields.compute hderef).bind hnext

theorem settled_now {f : Time → Client lib β} (hnext : ∀ now, Settled world (f now) result) :
    Settled world (Client.now lib >>= f) result :=
  Program.Yields.perform_bind (I := interface lib) .now (fun reply => reply) rfl
    fun input => ⟨rfl, input.now, rfl, hnext input.now⟩

/-- Finding a stored evaluation. -/
theorem settled_find (htidy : world.store.Tidy) (hs : world.store.snapshots id = some s)
    {f : EvaluationAggregate → Client lib β}
    (hnext : Settled world (f { s with domainEvents := [] }) result) :
    Settled world (find lib id >>= f) result := by
  have hfind : world.store.findEvaluation id = .ok { s with domainEvents := [] } := by
    unfold MemoryStore.findEvaluation
    rw [hs]
    exact mapError_eq_ok.mpr (htidy.restored id s hs)
  exact Program.Yields.perform_bind (I := interface lib) (.findEvaluation id)
    (fun reply => reply) rfl fun _ => ⟨rfl, _, hfind, hnext⟩

/-- Writing back what is stored, without events, changes nothing. -/
theorem settled_save (htidy : world.store.Tidy) (hs : world.store.snapshots id = some s) :
    Settled world (save lib { s with domainEvents := [] } s.version) () := by
  have hid : s.evaluationID = id := htidy.keyed id s hs
  have hrehydrate := htidy.restored id s hs
  have hversion := (rehydrateEvaluation_eq_ok_iff.mp hrehydrate).1.version_pos
  have hconflict : ¬ MemoryStore.Conflicts (world.store.snapshots s.evaluationID) s.version := by
    rw [hid, hs]
    rintro (⟨hzero, -⟩ | ⟨-, hother⟩)
    · exact hversion hzero
    · exact hother rfl
  have hsave : world.store.saveEvaluation s s.version [] = (.ok (), world.store) := by
    simp only [MemoryStore.saveEvaluation, if_neg hconflict, hrehydrate, List.append_nil]
    change (Except.ok (), MemoryStore.mk (Function.update world.store.snapshots s.evaluationID
      (some s)) world.store.outbox) = _
    rw [hid, ← hs, Function.update_eq_self]
  refine settled_now fun now => Program.Yields.pure.bind ?_
  refine Program.Yields.perform (I := interface lib) (.saveEvaluation s s.version [])
    (fun reply => reply) rfl fun input => ⟨?_, congrArg Prod.fst hsave⟩
  change ({ world with store := (world.store.saveEvaluation s s.version []).2 } :
    World lib) = world
  rw [hsave]

/-- Following a reference once more. -/
theorem settled_boundEvidence {sessionID : UUID} {reference : EvidenceReference}
    (h : Available world sessionID reference) :
    ∃ value, Settled world (boundEvidence lib sessionID reference) value := by
  obtain ⟨hqualified, hset, snapshot, hbacks⟩ := h
  have hrehydrate : Evidence.rehydrate lib snapshot = .ok ⟨snapshot⟩ :=
    (Evidence.rehydrate_eq_ok lib).mpr ⟨hbacks.intact, rfl⟩
  have hfind : world.evidence.findEvidence lib reference.evidenceID = .ok ⟨snapshot⟩ := by
    simp only [Evidence.MemoryRepository.findEvidence, hbacks.stored, bind_eq_ok,
      rejectIf_eq_ok, exists_const]
    exact ⟨hset, hrehydrate⟩
  refine ⟨snapshot, settled_rejectIf (not_not.mpr hqualified) ?_⟩
  refine Program.Yields.perform_bind (I := interface lib) (.findEvidence reference.evidenceID)
    (fun reply => reply) rfl fun input => ⟨rfl, ⟨snapshot⟩, mapError_eq_ok.mpr hfind, ?_⟩
  refine settled_rejectIf ?_ ?_
  · rw [not_or, not_not, not_not]
    exact ⟨Evidence.MemoryRepository.lookup_evidenceID hbacks.stored, hbacks.session⟩
  · exact (Program.Yields.compute (mapError_eq_ok.mpr hrehydrate)).bind Program.Yields.pure

/-- **`Execute` once more**: the early return, or the whole text for a plan without rules. -/
theorem settled_execute {binding : EvidenceSetBinding} {policy : PolicyBinding}
    (htidy : world.store.Tidy) (hs : world.store.snapshots id = some s)
    (h : Concluded world s binding policy) :
    Settled world (execute lib id) s := by
  refine settled_find htidy hs (settled_required h.evidence_bound ?_)
  refine settled_rejectIf (not_not.mpr h.qualified) (settled_required h.policy_bound ?_)
  rcases h.outcomes with ⟨hsome, hmissing⟩ | ⟨hempty, hplan, hstate, havailable⟩
  · rw [if_pos hsome, if_pos hmissing]
    exact Program.Yields.pure
  · rw [if_neg (not_not.mpr hempty)]
    obtain ⟨evidence, hevidence⟩ := Program.Yields.forEach
      fun reference hreference => settled_boundEvidence (havailable reference hreference)
    unfold executeRules
    simp only [hplan]
    refine Program.Yields.pure.bind (hevidence.bind (settled_now fun now => ?_))
    refine (Program.Yields.compute rfl).bind ?_
    have hrecord : ({ s with domainEvents := [] } : EvaluationAggregate).recordRuleOutcomeBatch []
        now.toUTC = .ok { s with domainEvents := [] } := by
      simp only [EvaluationAggregate.recordRuleOutcomeBatch, if_true, bind_eq_ok, rejectIf_eq_ok,
        exists_const, ne_eq, not_not]
      exact ⟨hstate, trivial⟩
    refine (Program.Yields.compute (mapError_eq_ok.mpr hrecord)).bind ?_
    exact (settled_save htidy hs).bind Program.Yields.pure

end

/-! ## Retries -/

/-- The commands that may be sent again. -/
def Command.Retryable : Command lib → Prop
  | .start _ => True
  | .qualifyAndBind _ => True
  | .execute _ => True
  | .complete _ => True
  | .expireTimedOut _ _ => True
  | _ => False

/-- What is stored when a call of such a command has returned the response. -/
def Attained (world : World lib) : Command lib → Response → Prop
  | .start id, .evaluation s => world.store.snapshots id = some s ∧ s.state = .running
  | .qualifyAndBind id, .evaluation s =>
      world.store.snapshots id = some s ∧ s.evidenceBinding ≠ none
  | .execute id, .evaluation s =>
      world.store.snapshots id = some s ∧ ∃ binding policy, Concluded world s binding policy
  | .complete id, .trace trace =>
      ∃ s, world.store.snapshots id = some s ∧ s.state = .completed ∧ trace = traceOf s
  | .expireTimedOut id _, .evaluation s =>
      world.store.snapshots id = some s ∧ s.state = .expired
  | _, _ => False

/-- A successful call leaves the evaluation where its command leads. -/
theorem Command.attains (command : Command lib) (hretry : command.Retryable)
    (world : World lib) :
    Attains command.serve (fun response w => Attained w command response) world := by
  have hreturn : ∀ {α : Type} {client : Client lib α} {P : α → World lib → Prop}
      {wrap : α → Response}, Attains client P world →
      (∀ value w, P value w → Attained w command (wrap value)) →
      Attains (do return wrap (← client)) (fun response w => Attained w command response)
        world := fun hclient hP =>
    Program.Returns.bind _ hclient fun value w _ hvalue =>
      Program.Returns.pure _ (hP value w hvalue)
  cases command with
  | start id => exact hreturn (start_attains id world) fun _ _ h => h
  | qualifyAndBind id => exact hreturn (qualifyAndBind_attains id world) fun _ _ h => h
  | execute id => exact hreturn (execute_attains id world) fun _ _ h => h
  | complete id => exact hreturn (complete_attains id world) fun _ _ h => h
  | expireTimedOut id p => exact hreturn (expireTimedOut_attains id p world) fun _ _ h => h
  | createForPolicy | ingest | add | suspend | retire => exact hretry.elim

/-- **The repetition.**  On what a successful call has left, the command returns the same
and changes nothing. -/
theorem Command.yields {command : Command lib} {response : Response} (htidy : world.store.Tidy)
    (h : Attained world command response) :
    Settled world command.serve response := by
  cases command with
  | start id =>
      cases response with
      | evaluation s =>
          refine Program.Yields.bind (settled_find htidy h.1 ?_) Program.Yields.pure
          rw [if_pos h.2]
          exact Program.Yields.pure
      | trace | evidence | done => exact h.elim
  | qualifyAndBind id =>
      cases response with
      | evaluation s =>
          refine Program.Yields.bind (settled_find htidy h.1 ?_) Program.Yields.pure
          rw [if_pos h.2]
          exact Program.Yields.pure
      | trace | evidence | done => exact h.elim
  | execute id =>
      cases response with
      | evaluation s =>
          obtain ⟨hs, binding, policy, hconcluded⟩ := h
          exact (settled_execute htidy hs hconcluded).bind Program.Yields.pure
      | trace | evidence | done => exact h.elim
  | complete id =>
      cases response with
      | trace trace =>
          obtain ⟨s, hs, hstate, rfl⟩ := h
          refine Program.Yields.bind (settled_find htidy hs ?_) Program.Yields.pure
          rw [if_pos hstate]
          exact Program.Yields.pure
      | evaluation | evidence | done => exact h.elim
  | expireTimedOut id p =>
      cases response with
      | evaluation s =>
          refine Program.Yields.bind (settled_find htidy h.1 ?_) Program.Yields.pure
          rw [if_pos h.2]
          exact Program.Yields.pure
      | trace | evidence | done => exact h.elim
  | createForPolicy | ingest | add | suspend | retire => exact h.elim

/-- What is known of every call: only the five commands matter. -/
def Returned (command : ServiceCommand lib) (result : Except Error Response)
    (world : World lib) : Prop :=
  ∀ retried response, command = .governed retried → retried.Retryable → result = .ok response →
    Attained world retried response

theorem ServiceCommand.wp_returned (command : ServiceCommand lib) (world : World lib) :
    Program.wp (handle lib) (fun w => w.store.Tidy) Grows command.serve.run (Returned command)
      world := by
  have hfree : (∀ retried, command = .governed retried → ¬ retried.Retryable) →
      Program.wp (handle lib) (fun w => w.store.Tidy) Grows command.serve.run (Returned command)
        world := fun hother =>
    Program.wp_mono _
      (fun _ _ _ retried _ hcommand hretry => absurd hretry (hother retried hcommand))
      (Program.wp_of_handle _ tidy_of_handle _ _)
  cases command with
  | governed command =>
      by_cases hretry : command.Retryable
      · refine Program.wp_mono _ ?_ ((Program.returns_iff_wp _).mp (command.attains hretry world))
        rintro result w hresult retried response hcommand - rfl
        obtain rfl := ServiceCommand.governed.inj hcommand
        exact hresult response rfl
      · refine hfree fun retried hcommand => ?_
        obtain rfl := ServiceCommand.governed.inj hcommand
        exact hretry
  | create | recordOutcome | bindEvidenceQualification | bindVerificationPolicy
  | resolveAndBindPolicy | snapshot | trace => exact hfree fun _ h => absurd h (by simp)

/-- **Retries are idempotent.**  After every schedule of the commands of the service, when
a call of `Start`, `QualifyAndBind`, `Execute`, `Complete` or `ExpireTimedOut` returns
successfully, also one during which others were at work, then the same command alone,
with whatever clock and identifiers, returns the same response and leaves the stores as
they are. -/
theorem retries_are_idempotent (evidence : Evidence.MemoryRepository)
    (registry : Policy.Registry lib) (schedule : List (ServiceAction lib))
    (action : ServiceAction lib) (command : Command lib)
    (hretry : command.Retryable) (response : Response)
    (hreturned : (serviceAfter ⟨.empty, evidence, registry⟩ (schedule ++ [action])).finished =
      (serviceAfter ⟨.empty, evidence, registry⟩ schedule).finished ++
        [(.governed command, .ok response)]) (inputs : Nat → Surroundings) :
    let world := (serviceAfter ⟨.empty, evidence, registry⟩ (schedule ++ [action])).shared
    ∃ count, command.serve.run.runAlone (handle lib) ((List.range count).map inputs) world =
      some (.ok response, [], world) := by
  intro world
  have hcommands := fun (command : ServiceCommand lib) (w : World lib) (_ : w.store.Tidy) =>
    command.wp_returned w
  have hawaits : Pool.Awaits (handle lib) (fun w : World lib => w.store.Tidy) Grows Returned
      (serviceAfter ⟨.empty, evidence, registry⟩ schedule) :=
    Pool.Awaits.run _ hcommands MemoryStore.Tidy.empty schedule
  obtain ⟨hafter, hpost⟩ := hawaits.step _ hcommands action
  rw [serviceAfter_append] at hreturned
  have hattained : Attained world command response := by
    have hlast := hpost _ _ hreturned command response rfl hretry rfl
    simp only [world, serviceAfter_append]
    exact hlast
  have htidy : world.store.Tidy := by
    simp only [world, serviceAfter_append]
    exact hafter.1
  have hsettles := Program.yields_iff_settles.mp (Command.yields htidy hattained)
  exact hsettles.runAlone _ inputs

namespace Crate

/-- One step of the only client. -/
def stepAt (now : Time) (id : Nat) : Action (ServiceCommand platform) Surroundings :=
  .advance 0 ⟨now, BitVec.ofNat 128 id⟩

/-- An evaluation is created at eight, and its start at nine is about to be written. -/
def opening : List (Action (ServiceCommand platform) Surroundings) :=
  .invoke (.create session []) :: [1, 2, 3, 4, 5].map (stepAt eight) ++
  .invoke (.governed (.start 2)) :: [6, 7, 8, 9].map (stepAt (eight.add hour))

/-- The evaluation after its start. -/
def running : EvaluationSnapshot where
  evaluationID := 2
  sessionID := session
  state := .running
  result := .unknown
  reasonCodes := []
  createdAt := eight
  startedAt := some (eight.add hour)
  completedAt := none
  cancelledAt := none
  expiredAt := none
  cancellationReason := ""
  version := 2
  requiredRuleIDs := []
  ruleOutcomes := []
  checkpoints := []
  history := []
  evidenceBinding := none
  policyBinding := none

/-- The start is sent again at ten: it is still the one of nine. -/
theorem start_sent_again :
    let after := serviceAfter ⟨.empty, .empty, .empty⟩ (opening ++ [stepAt (eight.add hour) 10])
    (Command.start 2 : Command platform).Retryable ∧
      after.finished = (serviceAfter ⟨.empty, .empty, .empty⟩ opening).finished ++
        [(.governed (.start 2), .ok (.evaluation running))] ∧
      ∃ count, (Command.start 2 : Command platform).serve.run.runAlone (handle platform)
        ((List.range count).map fun index =>
          ⟨eight.add (2 * hour), BitVec.ofNat 128 (11 + index)⟩) after.shared =
        some (.ok (.evaluation running), [], after.shared) :=
  ⟨trivial, rfl, retries_are_idempotent .empty .empty opening (stepAt (eight.add hour) 10)
    (.start 2) trivial (.evaluation running) rfl _⟩

end Crate

end Pds
end CargoPds
