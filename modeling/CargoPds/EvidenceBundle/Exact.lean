import CargoPds.EvidenceBundle.Agreement
import CargoPds.Evaluation.Invariant

/-!
# Built bundles are exact

A bundle holds the trace, the policy and the evidence that the trace is bound to, and
nothing else: the supplied evidence and the references of the binding name the same
objects, each once.  The paths tell the objects apart, so sorting by path leaves one order,
and the order in which the evidence was supplied is forgotten.  `BuildWithPolicySnapshot`
rewrites one object of a finished bundle and computes the manifest again.
-/

namespace CargoPds
namespace EvidenceBundle

open Fallible Text Evaluation

variable {lib : Platform} {enc : Encoding}

variable (lib enc) in
/-- The bundle passes `Verify` and consists of the trace, one object for the policy and one
object for each evidence that the trace is bound to. -/
structure Exact (input : BuildInput) (policyObject : Object) (bundle : Bundle) : Prop where
  intact : verify lib enc bundle = .ok ()
  objects : ∃ binding tracePayload evidenceObjects,
    input.trace.evidenceBinding = some binding ∧
    enc.marshalTrace input.trace = some tracePayload ∧
    (input.evidence.map (·.evidenceID)).Perm (binding.evidence.map (·.evidenceID)) ∧
    List.Forall₂ (Carries lib input.evidence) binding.evidence evidenceObjects ∧
    bundle.objects.Perm (⟨decisionTracePath, "application/json", tracePayload⟩ :: policyObject ::
      evidenceObjects)
  increasing : (bundle.objects.map (·.path)).Pairwise (· < ·)

/-! ## Paths -/

section
variable {snapshots : List Evidence.Snapshot} {references : List EvidenceReference}
  {evidenceObjects : List Object}

theorem map_path_of_carries
    (h : List.Forall₂ (Carries lib snapshots) references evidenceObjects) :
    evidenceObjects.map (·.path) = (references.map (·.evidenceID)).map evidencePath := by
  rw [List.map_map]
  refine map_key_of_forall₂ h ?_
  rintro reference _ ⟨_, _, -, -, rfl⟩
  rfl

/-- The paths of a bundle tell its objects apart. -/
theorem nodup_paths (h : List.Forall₂ (Carries lib snapshots) references evidenceObjects)
    (hdistinct : (references.map (·.evidenceID)).Nodup) {trace policy : Object}
    (htrace : trace.path = decisionTracePath)
    (hpolicy : policy.path ≠ decisionTracePath ∧ ¬ startsWith policy.path "evidence/" = true) :
    ((trace :: policy :: evidenceObjects).map (·.path)).Nodup := by
  have hpaths := evidence_paths h
  rw [List.map_cons, List.map_cons, List.nodup_cons, List.nodup_cons, List.mem_cons, not_or]
  refine ⟨⟨fun hsame => hpolicy.1 (hsame.symm.trans htrace), ?_⟩, ?_, ?_⟩
  · intro hmem
    obtain ⟨object, hobject, hpath⟩ := List.mem_map.mp hmem
    exact not_startsWith_of_trace (hpath.trans htrace) (hpaths object hobject)
  · intro hmem
    obtain ⟨object, hobject, hpath⟩ := List.mem_map.mp hmem
    exact hpolicy.2 (hpath ▸ hpaths object hobject)
  · rw [map_path_of_carries h]
    exact hdistinct.map fun _ _ => evidencePath_inj

/-- Sorted objects with distinct paths stand in the order of their paths. -/
theorem increasing_paths {objects : List Object} (hsorted : objects.Pairwise ByPath)
    (hdistinct : (objects.map (·.path)).Nodup) : (objects.map (·.path)).Pairwise (· < ·) := by
  rw [List.pairwise_map]
  rw [List.Nodup, List.pairwise_map] at hdistinct
  exact (hsorted.and hdistinct).imp fun h => lt_of_le_of_ne h.1 h.2

/-- As many snapshots as references, with distinct identifiers on both sides, are the
evidence of the references. -/
theorem perm_evidenceIDs (h : List.Forall₂ (Carries lib snapshots) references evidenceObjects)
    (hdistinct : (references.map (·.evidenceID)).Nodup)
    (hlength : snapshots.length = references.length) :
    (snapshots.map (·.evidenceID)).Perm (references.map (·.evidenceID)) := by
  have hsubset : references.map (·.evidenceID) ⊆ snapshots.map (·.evidenceID) := by
    intro id hid
    obtain ⟨reference, hreference, rfl⟩ := List.mem_map.mp hid
    obtain ⟨_, -, snapshot, _, hfind, -⟩ := exists_of_mem_left h hreference
    have hsame : snapshot.evidenceID = reference.evidenceID := by
      simpa using List.find?_some hfind
    rw [← hsame]
    exact List.mem_map_of_mem (List.mem_of_find?_eq_some hfind)
  refine ((hdistinct.subperm hsubset).perm_of_length_le ?_).symm
  rw [List.length_map, List.length_map, hlength]

end

/-! ## The two ways to build -/

section
variable {input : BuildInput} {bundle : Bundle}

/-- What `Build` returns passes `Verify`. -/
theorem verified_assembled {policy : PolicyBinding} {binding : EvidenceSetBinding}
    {objects : List Object}
    (hchecked : Checked input policy binding) (hsorted : objects.Pairwise ByPath)
    (hvalid : ∀ object ∈ objects, validateObject enc object = .ok ()) :
    Verified lib enc (assembled lib enc input policy objects) := by
  have hidentity := hchecked.identity
  have hscope := hchecked.scope
  rw [not_or] at hidentity
  rw [not_or, not_or] at hscope
  exact {
    schema := rfl
    bundleID := hidentity.1
    evaluationID := hscope.1
    sessionID := hscope.2.1
    generatedAt := hidentity.2
    algorithm := rfl
    root := rfl
    valid := hvalid
    described := congrArg (List.map (describe lib)) hsorted.insertionSort_eq }

theorem exact_of_build (hcoherent : ∀ binding ∈ input.trace.evidenceBinding, binding.Coherent)
    (h : build lib enc input = .ok bundle) :
    ∃ policy payload, input.trace.policyBinding = some policy ∧
      enc.marshalReference ⟨policy.policyID, policy.version, policy.hash⟩ = some payload ∧
      Exact lib enc input ⟨policyReferencePath, "application/json", payload⟩ bundle := by
  obtain ⟨policy, binding, objects, hchecked, hobjects, rfl⟩ := build_iff.mp h
  have hdistinct := (hcoherent binding hchecked.evidence_bound).nodup
  obtain ⟨tracePayload, policyPayload, evidenceObjects, -, hlength, htrace, hpolicy, hcarries,
    hvalid, rfl⟩ := buildObjects_iff.mp hobjects
  have hperm := List.perm_insertionSort ByPath
    (madeObjects tracePayload policyPayload evidenceObjects)
  have hsorted := List.pairwise_insertionSort ByPath
    (madeObjects tracePayload policyPayload evidenceObjects)
  refine ⟨policy, policyPayload, hchecked.policy_bound, hpolicy, ?_, ?_, ?_⟩
  · exact verify_eq_ok.mpr (verified_assembled hchecked hsorted hvalid)
  · exact ⟨binding, tracePayload, evidenceObjects, hchecked.evidence_bound, htrace,
      perm_evidenceIDs hcarries hdistinct hlength, hcarries, hperm⟩
  · refine increasing_paths hsorted ((hperm.map _).nodup_iff.mpr ?_)
    have hapart : policyReferencePath ≠ decisionTracePath ∧
        ¬ startsWith policyReferencePath "evidence/" = true := by decide
    exact nodup_paths hcarries hdistinct rfl hapart

/-- The order of the evidence does not matter to `Build`. -/
theorem build_perm {evidence : List Evidence.Snapshot} (hperm : evidence.Perm input.evidence)
    (h : build lib enc input = .ok bundle) :
    build lib enc { input with evidence := evidence } = .ok bundle := by
  obtain ⟨policy, binding, objects, hchecked, hobjects, rfl⟩ := build_iff.mp h
  obtain ⟨tracePayload, policyPayload, evidenceObjects, hsupplied, hlength, htrace, hpolicy,
    hcarries, hvalid, hmade⟩ := buildObjects_iff.mp hobjects
  refine build_iff.mpr ⟨policy, binding, objects, { hchecked with }, ?_, rfl⟩
  refine buildObjects_iff.mpr ⟨tracePayload, policyPayload, evidenceObjects,
    hsupplied.perm hperm, hperm.length_eq.trans hlength, htrace, hpolicy, ?_, hvalid, hmade⟩
  rw [carries_perm hsupplied.distinct hperm]
  exact hcarries

theorem buildWithPolicySnapshot_perm {snapshot : Policy.Snapshot}
    {evidence : List Evidence.Snapshot} (hperm : evidence.Perm input.evidence)
    (h : buildWithPolicySnapshot lib enc input snapshot = .ok bundle) :
    buildWithPolicySnapshot lib enc { input with evidence := evidence } snapshot = .ok bundle := by
  obtain ⟨version, built, payload, objects, hrestored, hnames, hbuilt, hrest⟩ :=
    buildWithPolicySnapshot_iff.mp h
  exact buildWithPolicySnapshot_iff.mpr ⟨version, built, payload, objects, hrestored, hnames,
    build_perm hperm hbuilt, hrest⟩

theorem exact_of_buildWithPolicySnapshot {snapshot : Policy.Snapshot}
    (hcoherent : ∀ binding ∈ input.trace.evidenceBinding, binding.Coherent)
    (h : buildWithPolicySnapshot lib enc input snapshot = .ok bundle) :
    ∃ version payload, Policy.rehydrate lib snapshot = .ok version ∧
      enc.marshalPolicy version.snapshot = some payload ∧
      Exact lib enc input ⟨policySnapshotPath, "application/json", payload⟩ bundle := by
  obtain ⟨version, built, payload, objects, hrestored, -, hbuilt, hpayload, hreplace, rfl,
    embedded, hembedded⟩ := buildWithPolicySnapshot_iff.mp h
  obtain ⟨policy, binding, made, hchecked, hobjects, rfl⟩ := build_iff.mp hbuilt
  have hdistinct := (hcoherent binding hchecked.evidence_bound).nodup
  obtain ⟨tracePayload, referencePayload, evidenceObjects, -, hlength, htrace, -, hcarries, -,
    rfl⟩ := buildObjects_iff.mp hobjects
  have hperm := (List.perm_insertionSort ByPath objects).trans
    (perm_of_replaceReference hcarries (List.perm_insertionSort _ _) hreplace)
  refine ⟨version, payload, hrestored, hpayload, ?_, ?_, ?_⟩
  · obtain ⟨hverify, -⟩ := policySnapshot_eq_ok hembedded
    exact hverify
  · exact ⟨binding, tracePayload, evidenceObjects, hchecked.evidence_bound, htrace,
      perm_evidenceIDs hcarries hdistinct hlength, hcarries, hperm⟩
  · refine increasing_paths (List.pairwise_insertionSort ByPath objects)
      ((hperm.map _).nodup_iff.mpr ?_)
    have hapart : policySnapshotPath ≠ decisionTracePath ∧
        ¬ startsWith policySnapshotPath "evidence/" = true := by decide
    exact nodup_paths hcarries hdistinct rfl hapart

/-- The policy is read back from the bundle if JSON carries it faithfully. -/
theorem policySnapshot_of_buildWithPolicySnapshot {snapshot : Policy.Snapshot}
    {version : Policy.Version lib} {payload : Bytes}
    (h : buildWithPolicySnapshot lib enc input snapshot = .ok bundle)
    (hrestored : Policy.rehydrate lib snapshot = .ok version)
    (hpayload : enc.marshalPolicy version.snapshot = some payload)
    (hcodec : enc.unmarshalPolicy payload = some version.snapshot) :
    policySnapshot lib enc bundle = .ok version.snapshot := by
  obtain ⟨restored, hsame, _, _, _, _, _, hbuilt⟩ := buildWithPolicySnapshot_built h
  obtain rfl := Except.ok.inj (hsame.symm.trans hrestored)
  refine (hbuilt.policySnapshot_eq ?_).2.1
  intro other hother
  rw [← Option.some.inj (hpayload.symm.trans hother)]
  exact hcodec

end

/-- Bundles of decisions.  Take the trace of any evaluation that a client can reach; the
builders refuse it unless it is completed or expired.  Whatever `Build` makes of it passes
`Verify` and consists of the trace, the reference to its policy and the evidence of its
binding, sorted by distinct paths, in whichever order the evidence is supplied.
`BuildWithPolicySnapshot` does the same with the policy in place of the reference, and if
JSON carries that policy faithfully, `PolicySnapshot` returns it. -/
theorem built_bundles_exact {id sessionID : UUID} {createdAt : Time}
    {created e : EvaluationAggregate} (hnew : newEvaluation id sessionID createdAt = .ok created)
    (client : Script) (he : e ∈ client.states created) (lib : Platform) (enc : Encoding)
    (input : BuildInput) (htrace : input.trace = e.decisionTrace) :
    (∀ bundle, build lib enc input = .ok bundle →
      (∃ policy payload, e.policyBinding = some policy ∧
        enc.marshalReference ⟨policy.policyID, policy.version, policy.hash⟩ = some payload ∧
        Exact lib enc input ⟨policyReferencePath, "application/json", payload⟩ bundle) ∧
      ∀ evidence, evidence.Perm input.evidence →
        build lib enc { input with evidence := evidence } = .ok bundle) ∧
    (∀ snapshot bundle, buildWithPolicySnapshot lib enc input snapshot = .ok bundle →
      ∃ version payload, Policy.rehydrate lib snapshot = .ok version ∧
        enc.marshalPolicy version.snapshot = some payload ∧
        Exact lib enc input ⟨policySnapshotPath, "application/json", payload⟩ bundle ∧
        (∀ evidence, evidence.Perm input.evidence →
          buildWithPolicySnapshot lib enc { input with evidence := evidence } snapshot =
            .ok bundle) ∧
        (enc.unmarshalPolicy payload = some version.snapshot →
          policySnapshot lib enc bundle = .ok version.snapshot)) := by
  have hsound := Script.states_sound (newEvaluation_sound hnew) he
  have hcoherent : ∀ binding ∈ input.trace.evidenceBinding, binding.Coherent := by
    rw [htrace]
    exact fun binding hbinding =>
      (normalizeEvidenceBinding_eq_ok (hsound.evidence binding hbinding).1).2
  constructor
  · intro bundle hbuilt
    obtain ⟨policy, payload, hpolicy, hpayload, hexact⟩ := exact_of_build hcoherent hbuilt
    rw [htrace] at hpolicy
    exact ⟨⟨policy, payload, hpolicy, hpayload, hexact⟩, fun _ hperm => build_perm hperm hbuilt⟩
  · intro snapshot bundle hbuilt
    obtain ⟨version, payload, hrestored, hpayload, hexact⟩ :=
      exact_of_buildWithPolicySnapshot hcoherent hbuilt
    exact ⟨version, payload, hrestored, hpayload, hexact,
      fun _ hperm => buildWithPolicySnapshot_perm hperm hbuilt,
      policySnapshot_of_buildWithPolicySnapshot hbuilt hrestored hpayload⟩

namespace Crate

open Pds.Crate

/-- The evaluation of the crate when it is created. -/
def opened : EvaluationAggregate :=
  { Inspection.created with
    evaluationID := evaluationID
    sessionID := session
    createdAt := eight
    domainEvents := [⟨evaluationID, session, 1, .evaluationCreated eight⟩] }

/-- The decision on the crate as one client makes it. -/
def deciding : Script := .sequence [
  .bindVerificationPolicy ⟨"cargo-transfer", "1.0.0", (policyOf sortedPlan).hash, eight⟩,
  .registerRequiredRuleAt "presence" eight,
  .registerRequiredRuleAt "weight" eight,
  .start eight,
  .bindEvidenceSet ⟨session, .qualified, "qualification.v1", eight, [],
    [⟨evidenceID, .qualified, []⟩]⟩,
  .recordRuleOutcomeBatch [⟨"presence", .pass, [], eight⟩, ⟨"weight", .pass, [], eight⟩] eight,
  .completeAt .verified [] eight]

/-- The evaluation at the end. -/
def decided : EvaluationAggregate := (deciding.run opened).2

end Crate

/-- Both bundles of the decision on the crate are exact, and the policy can be read from
the second one. -/
theorem crate_bundles_exact :
    (∃ payload bundle, build Crate.sorted.library Crate.sorted.encoding Crate.sorted.input =
        .ok bundle ∧
      Exact Crate.sorted.library Crate.sorted.encoding Crate.sorted.input
        ⟨policyReferencePath, "application/json", payload⟩ bundle) ∧
    ∃ payload, buildWithPolicySnapshot Crate.sorted.library Crate.sorted.encoding
        Crate.sorted.input Crate.sortedPolicy.snapshot = .ok Crate.sorted.bundle ∧
      Exact Crate.sorted.library Crate.sorted.encoding Crate.sorted.input
        ⟨policySnapshotPath, "application/json", payload⟩ Crate.sorted.bundle ∧
      policySnapshot Crate.sorted.library Crate.sorted.encoding Crate.sorted.bundle =
        .ok Crate.sortedPolicy.snapshot := by
  have hsome : (build Crate.sorted.library Crate.sorted.encoding Crate.sorted.input).map
      (·.manifest.policy) = .ok Crate.sorted.manifest.policy := by decide +kernel
  obtain ⟨bundle, hbuilt, -⟩ := map_eq_ok.mp hsome
  have hexact := @built_bundles_exact Pds.Crate.evaluationID Pds.Crate.session Pds.Crate.eight
    Crate.opened Crate.decided (by decide) Crate.deciding (by decide +kernel)
    Crate.sorted.library Crate.sorted.encoding Crate.sorted.input (by decide +kernel)
  obtain ⟨⟨policy, reference, -, -, hreferring⟩, -⟩ := hexact.1 _ hbuilt
  obtain ⟨version, payload, hrestored, hpayload, hcarrying, -, hread⟩ :=
    hexact.2 _ _ Crate.sorted_built
  obtain rfl := Policy.rehydrate_snapshot _ hrestored
  exact ⟨⟨reference, _, hbuilt, hreferring⟩, payload, Crate.sorted_built, hcarrying,
    hread (Crate.sorted.policy_roundTrip payload hpayload)⟩

end EvidenceBundle
end CargoPds
