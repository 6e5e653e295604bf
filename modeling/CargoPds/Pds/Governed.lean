import CargoPds.Concurrency.Rely
import CargoPds.Pds.Service

/-!
# Governed evaluations

Five commands change one evaluation through separate reads and writes.  What
keeps them together is an invariant of the stores: every stored evaluation is
*governed* by a registered policy version.  It has that version's plan, its
outcomes are those of the version's rules on the bound evidence, and once it is
completed its result is the one derived from them.

The commands of other clients may do anything in between that only adds to the
registry and to the evidence.  This is the relation `Grows`; a governed
evaluation stays governed along it, so an evaluation that was read before such
steps may still be written after them.
-/

namespace CargoPds
namespace Pds

open Evaluation Concurrency Fallible Text

variable {lib : Platform}
variable {version : Policy.Version lib} {world : World lib} {s : EvaluationSnapshot}

/-! ## Governed evaluations -/

/-- What the clients of the stores may rely on: registered versions and stored
evidence stay. -/
structure Grows (before after : World lib) : Prop where
  registry : ∀ version, before.registry.Knows version → after.registry.Knows version
  evidence : ∀ id snapshot, before.evidence.lookup id = some snapshot →
    after.evidence.lookup id = some snapshot

instance : Std.Refl (@Grows lib) := ⟨fun _ => ⟨fun _ h => h, fun _ _ h => h⟩⟩

instance : IsTrans (World lib) Grows :=
  ⟨fun _ _ _ first second => ⟨fun version h => second.registry version (first.registry version h),
    fun id snapshot h => second.evidence id snapshot (first.evidence id snapshot h)⟩⟩

/-- The binding names the version. -/
structure Names (binding : PolicyBinding) (version : Policy.Version lib) : Prop where
  policyID : binding.policyID = version.snapshot.policyID
  label : binding.version = version.snapshot.version
  hash : binding.hash = version.snapshot.hash

/-- The stored object behind a reference of an evidence binding. -/
structure Backs (world : World lib) (sessionID : UUID) (reference : EvidenceReference)
    (snapshot : Evidence.Snapshot) : Prop where
  stored : world.evidence.lookup reference.evidenceID = some snapshot
  session : snapshot.sessionID = sessionID
  intact : Evidence.verifySnapshot lib snapshot = .ok ()

/-- The outcome is the decision of the compiled rule it is filed under. -/
def DecidedBy (version : Policy.Version lib) (input : RuleOperator.RuleInput)
    (outcome : RuleOutcome) : Prop :=
  ∃ operator, RuleOperator.compileRule lib version outcome.ruleID = .ok operator ∧
    operator.evaluate lib input = ⟨outcome.status, outcome.reasonCodes⟩

/-- The rules of the version have been run on the bound evidence. -/
structure Executed (world : World lib) (version : Policy.Version lib) (s : EvaluationSnapshot)
    (policy : PolicyBinding) (binding : EvidenceSetBinding)
    (evidence : List Evidence.Snapshot) : Prop where
  policy_bound : s.policyBinding = some policy
  evidence_bound : s.evidenceBinding = some binding
  qualified : binding.status = .qualified
  backed : List.Forall₂ (Backs world s.sessionID) binding.evidence evidence
  one_per_rule : (s.ruleOutcomes.map (·.ruleID)).Perm s.requiredRuleIDs
  sorted : s.ruleOutcomes.Pairwise ByRuleID
  decided : ∀ outcome ∈ s.ruleOutcomes,
    DecidedBy version (ruleInput s.evaluationID s.sessionID policy evidence) outcome

/-- Every part of the evaluation comes from the version. -/
structure GovernedBy (world : World lib) (version : Policy.Version lib)
    (s : EvaluationSnapshot) : Prop where
  known : world.registry.Knows version
  policy : ∃ binding, s.policyBinding = some binding ∧ Names binding version
  plan : s.requiredRuleIDs = version.snapshot.requiredRuleIDs
  evidence : ∀ binding, s.evidenceBinding = some binding → binding.Coherent
  executed : s.ruleOutcomes ≠ [] →
    ∃ policy binding evidence, Executed world version s policy binding evidence
  completed : s.state = .completed → s.deriveResult = .ok (s.result, s.reasonCodes)

/-- The invariant of the stores. -/
def Governed (world : World lib) : Prop :=
  ∀ id s, world.store.snapshots id = some s → ∃ version, GovernedBy world version s

theorem Backs.of_grows {before after : World lib} (hgrows : Grows before after)
    {sessionID : UUID} {reference : EvidenceReference} {snapshot : Evidence.Snapshot}
    (h : Backs before sessionID reference snapshot) :
    Backs after sessionID reference snapshot :=
  ⟨hgrows.evidence _ _ h.stored, h.session, h.intact⟩

/-- A governed evaluation stays governed while the stores grow. -/
theorem GovernedBy.of_grows {before after : World lib} (hgrows : Grows before after)
    (h : GovernedBy before version s) :
    GovernedBy after version s := by
  refine ⟨hgrows.registry _ h.known, h.policy, h.plan, h.evidence, ?_, h.completed⟩
  intro hsome
  obtain ⟨policy, binding, evidence, hrun⟩ := h.executed hsome
  exact ⟨policy, binding, evidence, hrun.policy_bound, hrun.evidence_bound, hrun.qualified,
    hrun.backed.imp fun _ _ hbacks => hbacks.of_grows hgrows, hrun.one_per_rule, hrun.sorted,
    hrun.decided⟩

/-- The two snapshots agree in everything that the rules of a policy determine or
depend on. -/
structure SameBasis (s s' : EvaluationSnapshot) : Prop where
  evaluationID : s'.evaluationID = s.evaluationID
  sessionID : s'.sessionID = s.sessionID
  policyBinding : s'.policyBinding = s.policyBinding
  evidenceBinding : s'.evidenceBinding = s.evidenceBinding
  requiredRuleIDs : s'.requiredRuleIDs = s.requiredRuleIDs
  ruleOutcomes : s'.ruleOutcomes = s.ruleOutcomes

/-- A change of the lifecycle keeps an evaluation governed. -/
theorem GovernedBy.of_sameBasis {s' : EvaluationSnapshot} (h : GovernedBy world version s)
    (hsame : SameBasis s s')
    (hcompleted : s'.state = .completed → s'.deriveResult = .ok (s'.result, s'.reasonCodes)) :
    GovernedBy world version s' := by
  obtain ⟨hid, hsession, hpolicy, hevidence, hplan, houtcomes⟩ := hsame
  refine ⟨h.known, ?_, ?_, ?_, ?_, hcompleted⟩
  · rw [hpolicy]
    exact h.policy
  · rw [hplan]
    exact h.plan
  · rw [hevidence]
    exact h.evidence
  · intro hsome
    rw [houtcomes] at hsome
    obtain ⟨policy, binding, evidence, hrun⟩ := h.executed hsome
    refine ⟨policy, binding, evidence, ?_, ?_, hrun.qualified, ?_, ?_, ?_, ?_⟩
    · rw [hpolicy]
      exact hrun.policy_bound
    · rw [hevidence]
      exact hrun.evidence_bound
    · rw [hsession]
      exact hrun.backed
    · rw [houtcomes, hplan]
      exact hrun.one_per_rule
    · rw [houtcomes]
      exact hrun.sorted
    · rw [houtcomes, hid, hsession]
      exact hrun.decided

/-- What rehydration changes is not part of the invariant. -/
theorem GovernedBy.restored (h : GovernedBy world version s) :
    GovernedBy world version s.restored :=
  h.of_sameBasis ⟨rfl, rfl, rfl, rfl, rfl, rfl⟩ h.completed

/-- The policy binding of a governed evaluation names its version. -/
theorem GovernedBy.names (h : GovernedBy world version s) {policy : PolicyBinding}
    (hpolicy : s.policyBinding = some policy) : Names policy version := by
  obtain ⟨other, hother, hnames⟩ := h.policy
  rw [hpolicy] at hother
  exact Option.some.inj hother ▸ hnames

/-! ## The operations -/

/-- Every operation only adds to the registry and to the evidence. -/
theorem handle_grows (op : Op lib) (surroundings : Surroundings) (world : World lib) :
    Grows world (handle lib op surroundings world).2 := by
  have hsame : Grows world world := Std.Refl.refl world
  cases op with
  | saveEvidence snapshot =>
      exact ⟨hsame.registry, fun _ _ h => Evidence.MemoryRepository.lookup_saveEvidence lib h⟩
  | add activated => exact ⟨fun _ h => h.add activated, hsame.evidence⟩
  | suspend policyID version t =>
      exact ⟨fun _ h => h.transition policyID version .suspended t, hsame.evidence⟩
  | retire policyID version t =>
      exact ⟨fun _ h => h.transition policyID version .retired t, hsame.evidence⟩
  | saveEvaluation snapshot expectedVersion records => exact ⟨hsame.registry, hsame.evidence⟩
  | _ => exact hsame

/-- Only a write can break the invariant. -/
theorem governed_of_store_eq {before after : World lib} (hgrows : Grows before after)
    (hstore : after.store = before.store) (h : Governed before) : Governed after := by
  intro id s hs
  rw [hstore] at hs
  obtain ⟨version, hversion⟩ := h id s hs
  exact ⟨version, hversion.of_grows hgrows⟩

/-- Writing a governed evaluation keeps the invariant. -/
theorem governed_saveEvaluation (h : Governed world) {snapshot : EvaluationSnapshot}
    (hsnapshot : GovernedBy world version snapshot) (expectedVersion : Nat)
    (records : List OutboxRecord) :
    Governed { world with
      store := (world.store.saveEvaluation snapshot expectedVersion records).2 } := by
  have hgrows : Grows world { world with
      store := (world.store.saveEvaluation snapshot expectedVersion records).2 } :=
    ⟨fun _ hknown => hknown, fun _ _ hentry => hentry⟩
  intro id s hs
  rcases MemoryStore.snapshots_saveEvaluation hs with rfl | hbefore
  · exact ⟨version, hsnapshot.restored.of_grows hgrows⟩
  · obtain ⟨other, hother⟩ := h id s hbefore
    exact ⟨other, hother.of_grows hgrows⟩

/-- The statement about a client of the stores that returns a value. -/
abbrev Ensures {α : Type} (program : Client lib α) (P : α → World lib → Prop)
    (world : World lib) : Prop :=
  Program.Returns (handle lib) Governed Grows program P world

/-- The client keeps the invariant. -/
abbrev Preserves {α : Type} (program : Client lib α) (world : World lib) : Prop :=
  Ensures program (fun _ _ => True) world

section
variable {α β : Type} {P : β → World lib → Prop} {world : World lib}

/-- The rule for a step of the evaluation package. -/
theorem ensures_evaluated {x : Except Evaluation.Error α} {f : α → Client lib β}
    (hnext : ∀ value, x = .ok value → Ensures (f value) P world) :
    Ensures (Client.evaluated x >>= f) P world :=
  Program.Returns.compute_bind _ fun value hvalue => hnext value (mapError_eq_ok.mp hvalue)

/-- The rule for a guard. -/
theorem ensures_rejectIf {refused : Prop} [Decidable refused] {err : Error}
    {f : Unit → Client lib β} (hnext : ¬ refused → Ensures (f ()) P world) :
    Ensures (Client.rejectIf refused err >>= f) P world :=
  Program.Returns.compute_bind _ fun _ hguard => hnext (rejectIf_eq_ok.mp hguard)

/-- The rule for a pointer that must not be nil. -/
theorem ensures_required {field : Option α} {err : Error} {f : α → Client lib β}
    (hnext : ∀ value, field = some value → Ensures (f value) P world) :
    Ensures (Client.required field err >>= f) P world :=
  Program.Returns.compute_bind _ fun value hvalue => hnext value (Client.deref_eq_ok hvalue)

end

/-- The rule for an operation that writes no evaluation. -/
theorem wp_operation (op : Op lib)
    (hstore : ∀ surroundings world, (handle lib op surroundings world).2.store = world.store)
    {post : Op.Reply op → World lib → Prop}
    (h : ∀ after, Grows world after → Governed after → ∀ surroundings, post (handle lib op
      surroundings after).1 (handle lib op surroundings after).2) :
    Program.wp (handle lib) Governed Grows (Program.perform (I := interface lib) op) post
      world := by
  intro after hgrows hgoverned surroundings
  have hstep := handle_grows op surroundings after
  exact ⟨governed_of_store_eq hstep (hstore _ _) hgoverned, hstep,
    h after hgrows hgoverned surroundings⟩

section
variable (world : World lib)

theorem now_preserves : Preserves (Client.now lib) world :=
  (Program.returns_iff_wp _).mpr
    (wp_operation .now (fun _ _ => rfl) fun _ _ _ _ _ _ => trivial)

theorem newUUID_preserves : Preserves (Client.newUUID lib) world :=
  (Program.returns_iff_wp _).mpr
    (wp_operation .newUUID (fun _ _ => rfl) fun _ _ _ _ _ _ => trivial)

theorem listEvidenceBySession_preserves (sessionID : UUID) :
    Preserves (Client.listEvidenceBySession lib sessionID) world :=
  (Program.returns_iff_wp _).mpr (wp_operation (.listEvidenceBySession sessionID)
    (fun _ _ => rfl) fun _ _ _ _ _ _ => trivial)

theorem saveEvidence_preserves (snapshot : Evidence.Snapshot) :
    Preserves (Client.saveEvidence lib snapshot) world :=
  (Program.returns_iff_wp _).mpr
    (wp_operation (.saveEvidence snapshot) (fun _ _ => rfl) fun _ _ _ _ _ _ => trivial)

theorem add_preserves (activated : Policy.ActivatedVersion lib) :
    Preserves (Client.add lib activated) world :=
  (Program.returns_iff_wp _).mpr
    (wp_operation (.add activated) (fun _ _ => rfl) fun _ _ _ _ _ _ => trivial)

theorem suspend_preserves (policyID version : String) (t : Time) :
    Preserves (Client.suspend lib policyID version t) world :=
  (Program.returns_iff_wp _).mpr (wp_operation (.suspend policyID version t)
    (fun _ _ => rfl) fun _ _ _ _ _ _ => trivial)

theorem retire_preserves (policyID version : String) (t : Time) :
    Preserves (Client.retire lib policyID version t) world :=
  (Program.returns_iff_wp _).mpr (wp_operation (.retire policyID version t)
    (fun _ _ => rfl) fun _ _ _ _ _ _ => trivial)

theorem findVersion_preserves (policyID version hash : String) :
    Preserves (Client.findVersion lib policyID version hash) world :=
  (Program.returns_iff_wp _).mpr (wp_operation (.findVersion policyID version hash)
    (fun _ _ => rfl) fun _ _ _ _ _ _ => trivial)

theorem find_ensures (id : UUID) :
    Ensures (find lib id) (fun aggregate after =>
      ∃ version, GovernedBy after version aggregate.toEvaluationSnapshot) world := by
  refine (Program.returns_iff_wp _).mpr (wp_operation (.findEvaluation id) (fun _ _ => rfl) ?_)
  intro after _ hgoverned _ aggregate haggregate
  obtain ⟨s, hs, hrehydrate⟩ := MemoryStore.findEvaluation_eq_ok haggregate
  obtain ⟨version, hversion⟩ := hgoverned id s hs
  refine ⟨version, ?_⟩
  rw [rehydrateEvaluation_eq_ok hrehydrate]
  exact hversion.restored

theorem latest_preserves {α : Type} (id : UUID) (accept : EvaluationAggregate → Option α) :
    Ensures (latest lib id accept) (fun found _ => ∀ value, found = some value → True) world :=
  Program.Returns.bind _ (find_ensures world id) fun _ _ _ _ =>
    Program.Returns.pure _ fun _ _ => trivial

theorem resolve_ensures (policyID : String) (t : Time) :
    Ensures (Client.resolve lib policyID t) (fun version after => after.registry.Knows version)
      world := by
  refine (Program.returns_iff_wp _).mpr (wp_operation (.resolve policyID t) (fun _ _ => rfl) ?_)
  intro after _ _ _ version hversion
  exact Policy.Registry.resolve_knows (mapError_eq_ok.mp hversion)

theorem findEvidence_ensures (id : UUID) :
    Ensures (Client.findEvidence lib id)
      (fun object after => after.evidence.lookup id = some object.snapshot) world := by
  refine (Program.returns_iff_wp _).mpr (wp_operation (.findEvidence id) (fun _ _ => rfl) ?_)
  intro after _ _ _ object hobject
  exact Evidence.MemoryRepository.findEvidence_eq_ok lib (mapError_eq_ok.mp hobject)

end

section
variable {world : World lib} {version : Policy.Version lib}

/-- Looking up a known version finds it. -/
theorem findVersion_ensures (hknown : world.registry.Knows version) (hash : String) :
    Ensures (Client.findVersion lib version.snapshot.policyID version.snapshot.version hash)
      (fun found _ => found = version) world := by
  refine (Program.returns_iff_wp _).mpr
    (wp_operation (.findVersion _ _ hash) (fun _ _ => rfl) ?_)
  intro after hgrows _ _ found hfound
  exact (hgrows.registry _ hknown).findVersion_eq hash (mapError_eq_ok.mp hfound)

/-- Writing back a governed evaluation keeps the invariant, whatever happened since
it was read. -/
theorem save_preserves {aggregate : EvaluationAggregate}
    (h : GovernedBy world version aggregate.toEvaluationSnapshot) (expectedVersion : Nat) :
    Preserves (save lib aggregate expectedVersion) world := by
  refine Program.Returns.bind _ (now_preserves world) fun now w₁ hgrows₁ _ => ?_
  have hrecords : Preserves (buildOutboxRecords lib aggregate.domainEvents now.toUTC) w₁ := by
    refine Program.Returns.mono _ (fun _ _ _ => trivial)
      (Program.Returns.forEach _ (fun _ _ _ => True) (fun _ _ _ _ _ _ => trivial) ?_)
    intro event _ w _
    refine Program.Returns.bind _ (newUUID_preserves w) fun id w' _ _ => ?_
    exact Program.Returns.compute _ fun _ _ => trivial
  refine Program.Returns.bind _ hrecords fun records w₂ hgrows₂ _ => ?_
  refine (Program.returns_iff_wp _).mpr ?_
  intro w₃ hgrows₃ hgoverned surroundings
  have hnow := ((h.of_grows hgrows₁).of_grows hgrows₂).of_grows hgrows₃
  exact ⟨governed_saveEvaluation hgoverned hnow expectedVersion records,
    handle_grows (.saveEvaluation _ _ _) surroundings w₃, fun _ _ => trivial⟩

/-- The last lines of every command. -/
theorem save_return_preserves {α : Type} {aggregate : EvaluationAggregate}
    (h : GovernedBy world version aggregate.toEvaluationSnapshot) (expectedVersion : Nat)
    (value : α) :
    Preserves (do save lib aggregate expectedVersion; return value) world :=
  Program.Returns.bind _ (save_preserves h expectedVersion) fun _ _ _ _ =>
    Program.Returns.pure _ trivial

end

end Pds
end CargoPds
