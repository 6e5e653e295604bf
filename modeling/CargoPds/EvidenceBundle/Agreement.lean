import CargoPds.EvidenceBundle.Soundness
import CargoPds.EvidenceBundle.Building

/-!
# Execution and replay

A bundle that is built from a completed decision meets every condition of
`VerifyDecision` but one.  Outcomes are stored in the order of their rule
identifiers, while the replay compares them with the plan index by index.  So
the replay agrees with the execution exactly when the plan lists its rules in
that order.
-/

namespace CargoPds
namespace EvidenceBundle

open Fallible Text Evaluation

variable {lib : Platform} {enc : Encoding}
variable {evidence : List Evidence.Snapshot} {objects : List Object}

/-! ## What a built bundle embeds -/

/-- Objects of evidence hold no trace. -/
theorem tracesOf_evidence (h : ∀ object ∈ objects, startsWith object.path "evidence/" = true) :
    tracesOf enc objects = [] := by
  unfold tracesOf
  rw [List.filterMap_eq_nil_iff]
  intro object hmem
  exact if_neg fun hpath => not_startsWith_of_trace hpath (h object hmem)

section
variable {world : Pds.World lib} {snapshots : List Evidence.Snapshot} {sessionID : UUID}

/-- The object that stands for a reference holds the stored evidence behind it. -/
theorem Carries.decode {reference : EvidenceReference} {object : Object}
    {snapshot : Evidence.Snapshot} (h : Carries lib snapshots reference object)
    (hbacks : Pds.Backs world sessionID reference snapshot)
    (hstored : ∀ given ∈ snapshots, world.evidence.lookup given.evidenceID = some given)
    (hcodec : ∀ given ∈ snapshots, ∀ payload, lib.marshalEvidence given = some payload →
      enc.unmarshalEvidence payload = some given) :
    enc.unmarshalEvidence object.payload = some snapshot := by
  obtain ⟨given, payload, hfind, hpayload, rfl⟩ := h
  have hmem : given ∈ snapshots := List.mem_of_find?_eq_some hfind
  have hid : given.evidenceID = reference.evidenceID := by
    simpa using List.find?_some hfind
  have hsame := hstored given hmem
  rw [hid, hbacks.stored] at hsame
  rw [Option.some.inj hsame]
  exact hcodec given hmem payload hpayload

/-- The objects of evidence decode to the bound evidence, in the order of the
references. -/
theorem evidenceOf_carried {references : List EvidenceReference}
    (hcarries : List.Forall₂ (Carries lib snapshots) references objects)
    (hbacked : List.Forall₂ (Pds.Backs world sessionID) references evidence)
    (hstored : ∀ given ∈ snapshots, world.evidence.lookup given.evidenceID = some given)
    (hcodec : ∀ given ∈ snapshots, ∀ payload, lib.marshalEvidence given = some payload →
      enc.unmarshalEvidence payload = some given) :
    evidenceOf enc objects = evidence ∧ ∀ object ∈ objects, Readable lib enc object := by
  induction hcarries generalizing evidence with
  | nil =>
      cases hbacked
      exact ⟨rfl, fun object hmem => absurd hmem (by simp)⟩
  | cons hobject _ ih =>
      cases hbacked with
      | cons hbacks hrest =>
      obtain ⟨hdecoded, hreadable⟩ := ih hrest
      have hdecode := hobject.decode hbacks hstored hcodec
      refine ⟨?_, List.forall_mem_cons.mpr ⟨⟨?_, ?_⟩, hreadable⟩⟩
      · rw [evidenceOf_cons_of_startsWith hobject.path hdecode, hdecoded]
      · exact fun htrace => absurd hobject.path (not_startsWith_of_trace htrace)
      · exact fun _ => ⟨_, hdecode, hbacks.intact⟩

end

/-- The loop that looks for the policy returns the payload of an object under its
path, or what it started with. -/
theorem findPolicyPayload_eq_ok {start payload : Bytes}
    (h : objects.foldlM findPolicyPayload start = .ok payload) :
    payload = start ∨
      ∃ object ∈ objects, object.path = policySnapshotPath ∧ object.payload = payload := by
  induction objects generalizing start with
  | nil => exact Or.inl (pure_eq_ok.mp h).symm
  | cons object rest ih =>
      rw [List.foldlM_cons] at h
      obtain ⟨middle, hmiddle, hrest⟩ := bind_eq_ok.mp h
      rcases ih hrest with rfl | ⟨other, hmem, hother⟩
      · unfold findPolicyPayload at hmiddle
        split at hmiddle
        · rename_i hpath
          simp only [bind_eq_ok, rejectIf_eq_ok, exists_const, pure_eq_ok] at hmiddle
          exact Or.inr ⟨object, List.mem_cons_self, hpath, hmiddle.2⟩
        · exact Or.inl (Except.ok.inj hmiddle).symm
      · exact Or.inr ⟨other, List.mem_cons_of_mem _ hmem, hother⟩

namespace Built

variable {input : BuildInput} {version : Policy.Version lib} {bundle : Bundle}
  {policy : PolicyBinding} {binding : EvidenceSetBinding} {tracePayload policyPayload : Bytes}
  {evidenceObjects : List Object}

/-- The policy comes out of the bundle as it went in. -/
theorem policySnapshot_eq (h : Built enc input version bundle policy binding tracePayload
      policyPayload evidenceObjects)
    (hcodec : ∀ payload, enc.marshalPolicy version.snapshot = some payload →
      enc.unmarshalPolicy payload = some version.snapshot) :
    verify lib enc bundle = .ok () ∧ policySnapshot lib enc bundle = .ok version.snapshot ∧
      Policy.rehydrate lib version.snapshot = .ok version := by
  obtain ⟨snapshot, hsnapshot⟩ := h.readable
  obtain ⟨hverify, payload, decoded, found, hpayload, hsome, hdecode, hfound, rfl⟩ :=
    policySnapshot_eq_ok hsnapshot
  have hsame : payload = policyPayload := by
    rcases findPolicyPayload_eq_ok hpayload with hnone | ⟨object, hmem, hpath, rfl⟩
    · exact absurd hnone hsome
    rcases List.mem_cons.mp (h.objects.mem_iff.mp hmem) with rfl | hmem
    · have hclash : decisionTracePath = policySnapshotPath := hpath
      exact absurd hclash (by decide)
    rcases List.mem_cons.mp hmem with rfl | hmem
    · rfl
    · have hevidence := evidence_paths h.carries object hmem
      rw [hpath] at hevidence
      exact absurd hevidence (by decide)
  rw [hsame, hcodec policyPayload h.policy_marshalled] at hdecode
  obtain rfl := Option.some.inj hdecode
  obtain rfl := Policy.rehydrate_snapshot lib hfound
  exact ⟨hverify, hsnapshot, hfound⟩

/-- The trace and the evidence come out of the bundle as they went in. -/
theorem embeds {world : Pds.World lib}
    (h : Built enc input version bundle policy binding tracePayload policyPayload evidenceObjects)
    (hcoherent : binding.Coherent) (hqualified : binding.status = .qualified)
    (hbacked : List.Forall₂ (Pds.Backs world input.trace.sessionID) binding.evidence evidence)
    (hstored : ∀ given ∈ input.evidence, world.evidence.lookup given.evidenceID = some given)
    (htrace : ∀ payload, enc.marshalTrace input.trace = some payload → enc.unmarshalTrace payload =
      some input.trace)
    (hcodec : ∀ given ∈ input.evidence, ∀ payload, lib.marshalEvidence given = some payload →
      enc.unmarshalEvidence payload = some given) :
    Embeds lib enc bundle input.trace binding evidence := by
  have hdecode := htrace tracePayload h.trace_marshalled
  have hpaths := evidence_paths h.carries
  obtain ⟨hevidence, hreadable⟩ := evidenceOf_carried h.carries hbacked hstored hcodec
  -- the three kinds of paths are apart
  have htracePath : ¬ startsWith decisionTracePath "evidence/" = true := by decide
  have hpolicyPath : ¬ startsWith policySnapshotPath "evidence/" = true := by decide
  have hapart : policySnapshotPath ≠ decisionTracePath := by decide
  have htraces : (tracesOf enc bundle.objects).Perm [input.trace] := by
    refine (h.objects.filterMap _).trans (List.Perm.of_eq ?_)
    change tracesOf enc (_ :: _ :: evidenceObjects) = _
    rw [tracesOf_cons_of_eq rfl hdecode, tracesOf_cons_of_ne hapart, tracesOf_evidence hpaths]
  have hcomplete : (evidenceOf enc bundle.objects).Perm evidence := by
    refine (h.objects.filterMap _).trans (List.Perm.of_eq ?_)
    change evidenceOf enc (_ :: _ :: evidenceObjects) = _
    rw [evidenceOf_cons_of_not htracePath, evidenceOf_cons_of_not hpolicyPath, hevidence]
  have hrefers : List.Forall₂ (Refers input.trace.sessionID) binding.evidence evidence := by
    have hboth := (List.forall₂_and_left _ _).mpr ⟨hcoherent.qualified hqualified, hbacked⟩
    exact hboth.imp fun _ _ hpair => ⟨hpair.1,
      Evidence.MemoryRepository.lookup_evidenceID hpair.2.stored, hpair.2.session⟩
  have hids : binding.evidence.map (·.evidenceID) = evidence.map (·.evidenceID) := by
    rw [← List.forall₂_eq_eq_eq, List.forall₂_map_left_iff, List.forall₂_map_right_iff]
    exact hrefers.imp fun _ _ href => href.evidenceID.symm
  refine ⟨?_, List.perm_singleton.mp htraces, h.evidence_bound, ?_, hcomplete, hrefers⟩
  · intro object hmem
    rcases List.mem_cons.mp (h.objects.mem_iff.mp hmem) with rfl | hmem
    · exact ⟨fun _ => ⟨input.trace, hdecode⟩, fun hpath => absurd hpath htracePath⟩
    rcases List.mem_cons.mp hmem with rfl | hmem
    · exact ⟨fun hpath => absurd hpath hapart, fun hpath => absurd hpath hpolicyPath⟩
    · exact hreadable object hmem
  · rw [(hcomplete.map _).nodup_iff, ← hids]
    exact hcoherent.nodup

end Built

/-! ## The replay of an execution -/

/-- The rules see the same evidence in both runs. -/
theorem DecidedBy.of_evidence {version : Policy.Version lib} {left right : RuleOperator.RuleInput}
    {outcome : RuleOutcome} (h : Pds.DecidedBy version left outcome)
    (hevidence : right.evidence = left.evidence) : Pds.DecidedBy version right outcome := by
  obtain ⟨operator, hcompile, hdecision⟩ := h
  exact ⟨operator, hcompile, (operator.evaluate_congr lib hevidence).trans hdecision⟩

/-- Everything that `VerifyDecision` asks of a built bundle holds, apart from the
order of the outcomes. -/
theorem Built.replayed {world : Pds.World lib} {version : Policy.Version lib}
    {s : EvaluationSnapshot} {input : BuildInput} {bundle : Bundle} {policy : PolicyBinding}
    {binding : EvidenceSetBinding} {tracePayload policyPayload : Bytes}
    {evidenceObjects : List Object}
    (h : Built enc input version bundle policy binding tracePayload policyPayload evidenceObjects)
    (hgoverned : Pds.GovernedBy world version s)
    (hrun : Pds.Executed world version s policy binding evidence)
    (hcompleted : s.state = .completed)
    (hinput : input.trace = ({ s.restored with domainEvents := [] } :
      EvaluationAggregate).decisionTrace)
    (hadmitted : RuleOperator.validatePolicyDocument lib version = .ok ())
    (hpolicy : ∀ payload, enc.marshalPolicy version.snapshot = some payload → enc.unmarshalPolicy
      payload = some version.snapshot)
    (hembeds : Embeds lib enc bundle input.trace binding evidence)
    (hordered : s.ruleOutcomes.map (·.ruleID) = s.requiredRuleIDs) :
    Replayed enc bundle input.trace binding evidence version := by
  obtain ⟨hintact, hsnapshot, hrestored⟩ := h.policySnapshot_eq hpolicy
  obtain ⟨hcomplete, -, -, hresult⟩ :=
    EvaluationSnapshot.deriveResult_eq_ok.mp (hgoverned.completed hcompleted)
  have hstate : input.trace.state = .completed := by
    rw [hinput]
    exact hcompleted
  have hscope : InScope input.trace := by
    refine ⟨hstate, ?_, ?_, ?_, ?_⟩
    · obtain ⟨t, ht⟩ := h.final
      rw [finalizedAt, if_pos hstate] at ht
      rw [ht]
      exact Option.some_ne_none t
    · rw [hinput]
      change s.requiredRuleIDs ≠ []
      rw [hgoverned.plan]
      exact version.normal.plan_nonempty
    · rw [hinput]
      exact hcomplete
    · rw [hinput]
      change s.ruleOutcomes.length = s.requiredRuleIDs.length
      simpa using congrArg List.length hordered
  have hbelongs : BelongsTo input.trace bundle.manifest version.snapshot :=
    ⟨h.evaluationID.symm, h.sessionID.symm, policy, h.policy_bound, h.names.policyID,
      h.names.label, h.names.hash⟩
  refine ⟨hintact, hsnapshot, hrestored, hembeds, hscope, hbelongs, ?_, hadmitted, ?_, ?_, ?_⟩
  · rw [hinput]
    exact hgoverned.plan
  · rw [hinput]
    exact hordered
  · intro outcome hmem
    rw [hinput] at hmem
    exact DecidedBy.of_evidence (hrun.decided outcome hmem) rfl
  · rw [hinput, replayedResult_eq_deriveStep _ (.verified, [])]
    exact hresult

/-- **Execution and replay.**  Take any evaluation that some run of the commands has
completed under a registered and admitted policy version, and the bundle built
from its trace, that version and the stored evidence it is bound to.  If JSON
carries these values faithfully, `VerifyDecision` confirms the stored result
exactly when the plan of the version lists its rules in increasing order. -/
theorem replay_agrees_iff_plan_sorted (lib : Platform) (enc : Encoding)
    (schedule : List (Concurrency.Action (Pds.Command lib) Pds.Surroundings)) (id : UUID)
    (s : EvaluationSnapshot) (aggregate : EvaluationAggregate) (version : Policy.Version lib)
    (input : BuildInput) (bundle : Bundle)
    (hstored : (Pds.worldAfter lib schedule).store.snapshots id = some s)
    (hcompleted : s.state = .completed)
    (hfound : rehydrateEvaluation s = .ok aggregate)
    (hknown : (Pds.worldAfter lib schedule).registry.Knows version)
    (hadmitted : RuleOperator.validatePolicyDocument lib version = .ok ())
    (hinput : input.trace = aggregate.decisionTrace)
    (hevidence : ∀ snapshot ∈ input.evidence,
      (Pds.worldAfter lib schedule).evidence.lookup snapshot.evidenceID = some snapshot)
    (hbuilt : buildWithPolicySnapshot lib enc input version.snapshot = .ok bundle)
    (htrace : ∀ payload, enc.marshalTrace input.trace = some payload →
      enc.unmarshalTrace payload = some input.trace)
    (hpolicy : ∀ payload, enc.marshalPolicy version.snapshot = some payload →
      enc.unmarshalPolicy payload = some version.snapshot)
    (hcodec : ∀ snapshot ∈ input.evidence, ∀ payload,
      lib.marshalEvidence snapshot = some payload →
      enc.unmarshalEvidence payload = some snapshot) :
    (∃ report, verifyDecision lib enc bundle = .ok report ∧ report.verified = true ∧
        report.recalculatedResult = s.result) ↔
      version.snapshot.requiredRuleIDs.Pairwise (· < ·) := by
  obtain ⟨governing, hgoverned⟩ := Pds.worldAfter_governed schedule id s hstored
  obtain ⟨policy, binding, evidence, hrun⟩ := hgoverned.executed_of_completed hcompleted
  obtain ⟨policy', binding', tracePayload, policyPayload, evidenceObjects, hmade⟩ :=
    buildWithPolicySnapshot_eq_ok hbuilt
  rw [rehydrateEvaluation_eq_ok hfound] at hinput
  -- the bundle carries the bindings of the evaluation, and its version is the governing one
  obtain rfl : policy' = policy := by
    have hbound := hmade.policy_bound
    rw [hinput] at hbound
    exact Option.some.inj (hbound.symm.trans hrun.policy_bound)
  obtain rfl : binding' = binding := by
    have hbound := hmade.evidence_bound
    rw [hinput] at hbound
    exact Option.some.inj (hbound.symm.trans hrun.evidence_bound)
  obtain rfl : governing = version := by
    have hnames := hgoverned.names hrun.policy_bound
    exact hgoverned.known.eq_of_key hknown
      (hnames.policyID.symm.trans hmade.names.policyID)
      (hnames.label.symm.trans hmade.names.label)
  have hembeds := hmade.embeds (hgoverned.evidence _ hrun.evidence_bound) hrun.qualified
    (by rw [hinput]; exact hrun.backed) hevidence htrace hcodec
  -- the stored outcomes are in the order of their identifiers
  have hnodup : (s.ruleOutcomes.map (·.ruleID)).Nodup := by
    rw [hrun.one_per_rule.nodup_iff, hgoverned.plan]
    exact governing.normal.plan_normal.nodup
  have hsorted := pairwise_lt_of_byRuleID hrun.sorted hnodup
  constructor
  · rintro ⟨report, hreport, -, -⟩
    obtain ⟨trace, _, _, _, hreplayed, -⟩ := verifyDecision_eq_ok.mp hreport
    have hsame : [trace] = [input.trace] :=
      hreplayed.embeds.one_trace.symm.trans hembeds.one_trace
    obtain rfl := List.singleton_inj.mp hsame
    have hids := hreplayed.ruleIDs
    rw [hinput] at hids
    change s.ruleOutcomes.map (·.ruleID) = s.requiredRuleIDs at hids
    rw [← hgoverned.plan, ← hids]
    exact hsorted
  · intro hplan
    have hordered : s.ruleOutcomes.map (·.ruleID) = s.requiredRuleIDs := by
      rw [← hgoverned.plan] at hplan
      exact hrun.one_per_rule.eq_of_pairwise (fun _ _ _ _ hlt hgt => absurd hlt hgt.asymm)
        hsorted hplan
    have hreplayed := hmade.replayed hgoverned hrun hcompleted hinput hadmitted hpolicy hembeds
      hordered
    refine ⟨_, verifyDecision_eq_ok.mpr ⟨_, _, _, _, hreplayed, rfl⟩, rfl, ?_⟩
    rw [hinput]
    rfl

/-! ## Two orders of one plan -/

namespace Crate

open Pds.Crate

section
variable (c : Case) (payload : Bytes)

theorem Case.trace_roundTrip (h : c.encoding.marshalTrace c.trace = some payload) :
    c.encoding.unmarshalTrace payload = some c.trace := by
  obtain rfl := Option.some.inj h
  simp [Case.encoding]

theorem Case.policy_roundTrip
    (h : c.encoding.marshalPolicy (policyOf c.plan) = some payload) :
    c.encoding.unmarshalPolicy payload = some (policyOf c.plan) := by
  obtain rfl := Option.some.inj h
  simp [Case.encoding]

theorem Case.evidence_roundTrip (h : c.library.marshalEvidence c.evidence = some payload) :
    c.encoding.unmarshalEvidence payload = some c.evidence := by
  obtain rfl := Option.some.inj h
  simp [Case.encoding]

/-- The input of the bundle. -/
def Case.input : BuildInput := ⟨c.manifest.bundleID, c.manifest.generatedAt, c.trace, [c.evidence]⟩

end

/-- The bundle of the decision under the plan in alphabetical order. -/
def sorted : Case where
  plan := sortedPlan
  trace := trace sortedPlan
  evidence := weighed "scale-17" weight weightDigest
  traceSize := 1026
  traceSum := 0xed6c66bb435e826deee5849a592251736f3a9745a1690d0e43e893b9459bb908
  evidenceSum := 0xb5de642373242a37c6162027e2535c05facea8fc2686aa93cacd6e4bad304add
  policySum := 0x3f0cd9525696a54b0df141e4c03de6c02359fecbf4b4e9acff805bf9dd18879d
  root := 0xb76313e925ab86d5c243a1eba05b5803b72c0cdb1369d32f672777169fc36411

/-- The bundle of the decision under the other plan. -/
def reversed : Case where
  plan := reversedPlan
  trace := trace reversedPlan
  evidence := weighed "scale-17" weight weightDigest
  traceSize := 1026
  traceSum := 0x21555ba5d23aa571c2431f4a0576bd55beecd82ddfe286f1ae91a69dd47ff63f
  evidenceSum := 0xb5de642373242a37c6162027e2535c05facea8fc2686aa93cacd6e4bad304add
  policySum := 0xb201279814e31c2fc0ee40ada8b61be37f2f56f2b92a050e6e733e09ee4991f0
  root := 0xee3929a2f6249ec8b2a9792df3a09661452a21b2a0b5a0f1e615bae7e42c3792

def sortedPolicy : Policy.Version sorted.library where
  snapshot := policyOf sortedPlan
  normal := sortedVersion.normal
  hash_eq := by decide +kernel

def reversedPolicy : Policy.Version reversed.library where
  snapshot := policyOf reversedPlan
  normal := by
    have hnormal : Policy.normalizeAndValidate (policyOf reversedPlan) =
        .ok (policyOf reversedPlan) := by decide +kernel
    exact Policy.normalizeAndValidate_normal hnormal
  hash_eq := by decide +kernel

/-- The stored evaluation, read back. -/
def aggregate {lib : Platform} (version : Policy.Version lib) : EvaluationAggregate :=
  { completed version with domainEvents := [] }

/-- What a decision leaves in the stores. -/
structure Left {lib : Platform} (version : Policy.Version lib) (evidence : Evidence.Snapshot) :
    Prop where
  stored : (Pds.worldAfter lib (decision version)).store.snapshots evaluationID =
    some (completed version)
  known : (Pds.worldAfter lib (decision version)).registry.Knows version
  evidence : (Pds.worldAfter lib (decision version)).evidence.lookup evidenceID = some evidence

/-- A decision can be run to see what it leaves. -/
theorem left_of_run {lib : Platform} {version : Policy.Version lib}
    {evidence : Evidence.Snapshot}
    (h : let world := Pds.worldAfter lib (decision version)
      (world.store.snapshots evaluationID, (world.registry.lookup (version.snapshot.policyID,
        version.snapshot.version)).map (·.version.snapshot), world.evidence.lookup evidenceID) =
      (some (completed version), some version.snapshot, some evidence)) :
    Left version evidence := by
  simp only [Prod.mk.injEq, Option.map_eq_some_iff] at h
  obtain ⟨hstored, ⟨entry, hentry, hsnapshot⟩, hevidence⟩ := h
  exact ⟨hstored, ⟨entry, hentry, Policy.Version.ext_snapshot hsnapshot⟩, hevidence⟩

theorem sorted_built : buildWithPolicySnapshot sorted.library sorted.encoding sorted.input
    sortedPolicy.snapshot = .ok sorted.bundle := by
  decide +kernel

end Crate

/-- The decision under the plan in alphabetical order is confirmed by the replay. -/
theorem sorted_plan_replays :
    (Pds.worldAfter Crate.sorted.library (Pds.Crate.decision Crate.sortedPolicy)).store.snapshots
        Pds.Crate.evaluationID = some (Pds.Crate.completed Crate.sortedPolicy) ∧
      buildWithPolicySnapshot Crate.sorted.library Crate.sorted.encoding Crate.sorted.input
        Crate.sortedPolicy.snapshot = .ok Crate.sorted.bundle ∧
      ∃ report, verifyDecision Crate.sorted.library Crate.sorted.encoding Crate.sorted.bundle =
        .ok report ∧ report.verified = true ∧ report.recalculatedResult = .verified := by
  have hleft : Crate.Left Crate.sortedPolicy Crate.sorted.evidence :=
    Crate.left_of_run (by decide +kernel)
  refine ⟨hleft.stored, Crate.sorted_built, (replay_agrees_iff_plan_sorted Crate.sorted.library
    Crate.sorted.encoding (Pds.Crate.decision Crate.sortedPolicy) Pds.Crate.evaluationID
    (Pds.Crate.completed Crate.sortedPolicy) (Crate.aggregate Crate.sortedPolicy)
    Crate.sortedPolicy Crate.sorted.input Crate.sorted.bundle hleft.stored rfl (by decide)
    hleft.known (by decide +kernel) (by decide) ?_ Crate.sorted_built
    Crate.sorted.trace_roundTrip Crate.sorted.policy_roundTrip ?_).mpr (by decide)⟩
  · exact List.forall_mem_singleton.mpr hleft.evidence
  · exact List.forall_mem_singleton.mpr Crate.sorted.evidence_roundTrip

/-- The same decision under the plan in the other order is completed with the same
result, and its bundle is refused. -/
theorem reversed_plan_refused :
    (Pds.worldAfter Crate.reversed.library
        (Pds.Crate.decision Crate.reversedPolicy)).store.snapshots Pds.Crate.evaluationID =
        some (Pds.Crate.completed Crate.reversedPolicy) ∧
      (Pds.worldAfter Crate.reversed.library
        (Pds.Crate.decision Crate.reversedPolicy)).registry.Knows Crate.reversedPolicy ∧
      (Pds.worldAfter Crate.reversed.library
        (Pds.Crate.decision Crate.reversedPolicy)).evidence.lookup Pds.Crate.evidenceID =
        some Crate.reversed.evidence ∧
      RuleOperator.validatePolicyDocument Crate.reversed.library Crate.reversedPolicy = .ok () ∧
      rehydrateEvaluation (Pds.Crate.completed Crate.reversedPolicy) =
        .ok (Crate.aggregate Crate.reversedPolicy) ∧
      Crate.reversed.input.trace = (Crate.aggregate Crate.reversedPolicy).decisionTrace ∧
      Crate.reversed.input.evidence = [Crate.reversed.evidence] ∧
      buildWithPolicySnapshot Crate.reversed.library Crate.reversed.encoding
        Crate.reversed.input Crate.reversedPolicy.snapshot = .ok Crate.reversed.bundle ∧
      verifyDecision Crate.reversed.library Crate.reversed.encoding Crate.reversed.bundle =
        .error .independentVerificationFailed := by
  have hleft : Crate.Left Crate.reversedPolicy Crate.reversed.evidence :=
    Crate.left_of_run (by decide +kernel)
  refine ⟨hleft.stored, hleft.known, hleft.evidence, ?_⟩
  decide +kernel

end EvidenceBundle
end CargoPds
