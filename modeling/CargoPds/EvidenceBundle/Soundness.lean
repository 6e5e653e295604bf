import CargoPds.EvidenceBundle.Replay
import CargoPds.EvidenceBundle.Root
import CargoPds.Pds.Decisions

/-!
# What a verified bundle says

`VerifyDecision` succeeds exactly on the bundles described by `Replayed`.  From
this description follows what a relying party may conclude: the outcomes and the
result are those of the policy's rules on the embedded evidence.  The forged
bundle at the end of the file is accepted as well; its evidence does not qualify
and its reasons are invented.
-/

namespace CargoPds
namespace EvidenceBundle

open Fallible Text Evaluation

section
variable {lib : Platform} {enc : Encoding}

/-! ## The replay -/

/-- What the report says of an outcome of the trace. -/
def recalculated (outcome : RuleOutcome) : RecalculatedOutcome :=
  ⟨outcome.ruleID, outcome.status, outcome.reasonCodes⟩

/-- The result that the loop derives from the outcomes it has confirmed. -/
def replayedResult (start : VerificationResult) (outcomes : List RuleOutcome) :
    VerificationResult :=
  outcomes.foldl (fun result outcome => updateVerificationResult result outcome.status) start

/-- The replay derives the result as `DeriveResult` does. -/
theorem replayedResult_eq_deriveStep (outcomes : List RuleOutcome)
    (acc : VerificationResult × List ReasonCode) :
    replayedResult acc.1 outcomes = (outcomes.foldl deriveStep acc).1 := by
  induction outcomes generalizing acc with
  | nil => rfl
  | cons outcome rest ih =>
      have hstep : updateVerificationResult acc.1 outcome.status = (deriveStep acc outcome).1 := by
        cases hstatus : outcome.status <;> simp [updateVerificationResult, deriveStep, hstatus]
      rw [List.foldl_cons, ← ih, ← hstep]
      rfl

section
variable {version : Policy.Version lib} {input : RuleOperator.RuleInput}

theorem replayRule_eq_ok {state next : Recalculation} {ruleID : String} {outcome : RuleOutcome} :
    replayRule lib version input state (ruleID, outcome) = .ok next ↔
      outcome.ruleID = ruleID ∧ Pds.DecidedBy version input outcome ∧
        next = ⟨state.outcomes ++ [recalculated outcome],
          updateVerificationResult state.result outcome.status⟩ := by
  simp only [replayRule, bind_eq_ok, rejectIf_eq_ok, mapError_eq_ok, pure_eq_ok, exists_const,
    ne_eq, not_or, not_not]
  constructor
  · rintro ⟨rfl, operator, hcompile, ⟨hstatus, hreasons⟩, rfl⟩
    refine ⟨rfl, ⟨operator, hcompile, ?_⟩, ?_⟩
    · rw [hstatus, hreasons]
    · rw [recalculated, hstatus, hreasons]
  · rintro ⟨rfl, ⟨operator, hcompile, hdecision⟩, rfl⟩
    exact ⟨rfl, operator, hcompile, by simp [hdecision], by simp [hdecision, recalculated]⟩

/-- The loop of `VerifyDecision` confirms the outcomes of the plan, one by one. -/
theorem replayRules_eq_ok {plan : List String} {outcomes : List RuleOutcome}
    {state final : Recalculation} (hlength : outcomes.length = plan.length) :
    (plan.zip outcomes).foldlM (replayRule lib version input) state = .ok final ↔
      outcomes.map (·.ruleID) = plan ∧
        (∀ outcome ∈ outcomes, Pds.DecidedBy version input outcome) ∧
        final = ⟨state.outcomes ++ outcomes.map recalculated,
          replayedResult state.result outcomes⟩ := by
  induction outcomes generalizing plan state with
  | nil =>
      cases List.eq_nil_of_length_eq_zero hlength.symm
      rw [List.zip_nil_right, List.foldlM_nil, pure_eq_ok]
      simp [replayedResult, eq_comm]
  | cons outcome rest ih =>
      cases plan with
      | nil => exact absurd hlength (by simp)
      | cons ruleID plan =>
          have hrest : rest.length = plan.length := by simpa using hlength
          simp only [List.zip_cons_cons, List.foldlM_cons, bind_eq_ok, replayRule_eq_ok,
            ih hrest, List.map_cons, List.cons.injEq, List.forall_mem_cons]
          constructor
          · rintro ⟨_, ⟨rfl, hdecided, rfl⟩, rfl, hall, rfl⟩
            exact ⟨⟨rfl, rfl⟩, ⟨hdecided, hall⟩, by simp [replayedResult]⟩
          · rintro ⟨⟨rfl, rfl⟩, ⟨hdecided, hall⟩, rfl⟩
            exact ⟨_, ⟨rfl, hdecided, rfl⟩, rfl, hall, by simp [replayedResult]⟩

end

variable (enc) in
/-- A bundle that was verified, with all that `VerifyDecision` took out of it. -/
structure Replayed (bundle : Bundle) (trace : DecisionTrace) (binding : EvidenceSetBinding)
    (evidence : List Evidence.Snapshot) (version : Policy.Version lib) : Prop where
  intact : verify lib enc bundle = .ok ()
  policy : policySnapshot lib enc bundle = .ok version.snapshot
  restored : Policy.rehydrate lib version.snapshot = .ok version
  embeds : Embeds lib enc bundle trace binding evidence
  scope : InScope trace
  belongs : BelongsTo trace bundle.manifest version.snapshot
  plan : trace.requiredRuleIDs = version.snapshot.requiredRuleIDs
  admitted : RuleOperator.validatePolicyDocument lib version = .ok ()
  ruleIDs : trace.ruleOutcomes.map (·.ruleID) = trace.requiredRuleIDs
  decided : ∀ outcome ∈ trace.ruleOutcomes,
    Pds.DecidedBy version (replayInput trace version.snapshot evidence) outcome
  result : replayedResult .verified trace.ruleOutcomes = trace.result

/-- The policy that `PolicySnapshot` returns is a version. -/
theorem policySnapshot_eq_ok {bundle : Bundle} {snapshot : Policy.Snapshot}
    (h : policySnapshot lib enc bundle = .ok snapshot) :
    verify lib enc bundle = .ok () ∧
      ∃ payload decoded, ∃ version : Policy.Version lib,
        bundle.objects.foldlM findPolicyPayload [] = .ok payload ∧ payload ≠ [] ∧
        enc.unmarshalPolicy payload = some decoded ∧
        Policy.rehydrate lib decoded = .ok version ∧ snapshot = version.snapshot := by
  simp only [policySnapshot, bind_eq_ok, rejectIf_eq_ok, exists_const] at h
  obtain ⟨_, hverify, payload, hpayload, hsome, h⟩ := h
  refine ⟨hverify, payload, ?_⟩
  cases hdecode : enc.unmarshalPolicy payload with
  | none => exact absurd h (by simp [hdecode])
  | some decoded =>
      simp only [hdecode, bind_eq_ok, rejectIf_eq_ok, mapError_eq_ok, pure_eq_ok,
        exists_const] at h
      obtain ⟨-, version, hversion, -, rfl⟩ := h
      exact ⟨decoded, version, hpayload, hsome, rfl, hversion, rfl⟩

/-- The specification of `VerifyDecision`. -/
theorem verifyDecision_eq_ok {bundle : Bundle} {report : IndependentVerificationReport} :
    verifyDecision lib enc bundle = .ok report ↔
      ∃ trace binding evidence, ∃ version : Policy.Version lib,
        Replayed enc bundle trace binding evidence version ∧
        report = ⟨bundle.manifest.bundleID, trace.evaluationID, bundle.manifest.policy,
          trace.result, trace.result, trace.ruleOutcomes.map recalculated, true⟩ := by
  simp only [verifyDecision, bind_eq_ok, rejectIf_eq_ok, mapError_eq_ok, pure_eq_ok,
    exists_const, ne_eq, not_not]
  constructor
  · rintro ⟨_, hintact, snapshot, hpolicy, ⟨trace, evidence⟩, hinputs, hscope, hbelongs, hplan,
      version, hrestored, _, hadmitted, replay, hreplay, hresult, rfl⟩
    obtain ⟨-, _, _, found, -, -, -, -, rfl⟩ := policySnapshot_eq_ok hpolicy
    obtain rfl := Policy.rehydrate_snapshot lib hrestored
    obtain ⟨binding, hembeds⟩ := verificationInputs_eq_ok.mp hinputs
    obtain ⟨hids, hdecided, rfl⟩ := (replayRules_eq_ok hscope.2.2.2.2).mp hreplay
    refine ⟨trace, binding, evidence, version, ⟨hintact, hpolicy, hrestored, hembeds, hscope,
      hbelongs, hplan, hadmitted, hids, hdecided, hresult⟩, ?_⟩
    simp only at hresult
    rw [hresult, List.nil_append]
  · rintro ⟨trace, binding, evidence, version, h, rfl⟩
    refine ⟨(), h.intact, version.snapshot, h.policy, (trace, evidence),
      verificationInputs_eq_ok.mpr ⟨binding, h.embeds⟩, h.scope, h.belongs, h.plan, version,
      h.restored, (), h.admitted, _, (replayRules_eq_ok h.scope.2.2.2.2).mpr
        ⟨h.ruleIDs, h.decided, rfl⟩, h.result, ?_⟩
    simp only [h.result, List.nil_append]

/-- The evidence of an embedded trace is intact. -/
theorem Embeds.intact {bundle : Bundle} {trace : DecisionTrace} {binding : EvidenceSetBinding}
    {evidence : List Evidence.Snapshot} (h : Embeds lib enc bundle trace binding evidence)
    {snapshot : Evidence.Snapshot} (hmem : snapshot ∈ evidence) :
    Evidence.verifySnapshot lib snapshot = .ok () := by
  obtain ⟨object, hobject, hdecode⟩ := List.mem_filterMap.mp (h.complete.mem_iff.mpr hmem)
  split at hdecode
  · rename_i hpath
    obtain ⟨_, hother, hintact⟩ := (h.readable object hobject).evidence hpath
    rw [hdecode] at hother
    exact Option.some.inj hother ▸ hintact
  · exact absurd hdecode (by simp)

/-- The reasons of confirmed outcomes can be recorded as they are. -/
theorem DecidedBy.matches {version : Policy.Version lib} {input : RuleOperator.RuleInput}
    {outcome : RuleOutcome} (h : Pds.DecidedBy version input outcome) :
    ∀ code ∈ outcome.reasonCodes, MatchesCode 1 63 code := by
  obtain ⟨operator, -, hdecision⟩ := h
  have hnormal := operator.evaluate_normal lib input
  rw [hdecision] at hnormal
  exact hnormal.reasons_normal.2

/-- The result of a replayed trace is the one that `DeriveResult` returns. -/
theorem Replayed.deriveResult {bundle : Bundle} {trace : DecisionTrace}
    {binding : EvidenceSetBinding} {evidence : List Evidence.Snapshot}
    {version : Policy.Version lib} (h : Replayed enc bundle trace binding evidence version)
    {s : EvaluationSnapshot} (hplan : s.requiredRuleIDs = trace.requiredRuleIDs)
    (houtcomes : s.ruleOutcomes = trace.ruleOutcomes) :
    ∃ reasons, s.deriveResult = .ok (trace.result, reasons) := by
  have hcodes : ∀ code ∈ (s.ruleOutcomes.foldl deriveStep (.verified, [])).2,
      MatchesCode 1 63 code := by
    intro code hcode
    rcases mem_reasons_of_deriveStep hcode with hnone | ⟨outcome, hmem, hreason⟩
    · exact absurd hnone (by simp)
    · rw [houtcomes] at hmem
      exact DecidedBy.matches (h.decided outcome hmem) code hreason
  have hcomplete : s.RequiredRulesComplete := by
    unfold EvaluationSnapshot.RequiredRulesComplete EvaluationSnapshot.missingRequiredRuleIDs
    rw [houtcomes, h.ruleIDs, hplan, List.filter_eq_nil_iff]
    intro ruleID hmem
    simpa using hmem
  have hsome : s.ruleOutcomes ≠ [] := by
    rw [houtcomes]
    intro hempty
    have hids := h.ruleIDs
    rw [hempty] at hids
    exact h.scope.2.2.1 hids.symm
  refine ⟨_, EvaluationSnapshot.deriveResult_eq_ok.mpr ⟨hcomplete, hsome,
    normalizeReasonCodes_of_matches hcodes, ?_⟩⟩
  rw [houtcomes, ← replayedResult_eq_deriveStep trace.ruleOutcomes (.verified, [])]
  exact h.result

end

/-- What a verified bundle says of its decision.  The outcomes are those of the
policy's rules, in the order of the plan, on the embedded evidence; the result is
the one derived from them.  The evidence is intact, of one session and marked as
qualified; its qualification is not computed again, and nothing is said of
`trace.reasonCodes`. -/
theorem verified_decision_replays (lib : Platform) (enc : Encoding) (bundle : Bundle)
    (report : IndependentVerificationReport) (h : verifyDecision lib enc bundle = .ok report) :
    ∃ trace binding evidence, ∃ version : Policy.Version lib,
      Embeds lib enc bundle trace binding evidence ∧
      policySnapshot lib enc bundle = .ok version.snapshot ∧
      (∀ snapshot ∈ evidence, Evidence.verifySnapshot lib snapshot = .ok ()) ∧
      trace.requiredRuleIDs = version.snapshot.requiredRuleIDs ∧
      trace.ruleOutcomes.map (·.ruleID) = trace.requiredRuleIDs ∧
      (∀ outcome ∈ trace.ruleOutcomes,
        Pds.DecidedBy version (replayInput trace version.snapshot evidence) outcome) ∧
      ∀ s : EvaluationSnapshot, s.requiredRuleIDs = trace.requiredRuleIDs →
        s.ruleOutcomes = trace.ruleOutcomes →
        ∃ reasons, s.deriveResult = .ok (trace.result, reasons) := by
  obtain ⟨trace, binding, evidence, version, hreplayed, -⟩ := verifyDecision_eq_ok.mp h
  exact ⟨trace, binding, evidence, version, hreplayed.embeds, hreplayed.policy,
    fun _ hmem => hreplayed.embeds.intact hmem, hreplayed.plan, hreplayed.ruleIDs,
    hreplayed.decided, fun _ hplan houtcomes => hreplayed.deriveResult hplan houtcomes⟩

/-! ## A worked bundle

The bundle of the decision on the crate, made of the trace, the policy and one
weight.  As before, the library does on these values what the standard library
does. -/

namespace Crate

open Pds.Crate

def stateJson : EvaluationState → Json
  | .created => .string "CREATED"
  | .running => .string "RUNNING"
  | .completed => .string "COMPLETED"
  | .cancelled => .string "CANCELLED"
  | .expired => .string "EXPIRED"
  | .other text => .string text

/-- A pointer, written as null when it is nil. -/
def pointerJson {α : Type} (json : α → Json) (pointer : Option α) : Json :=
  (pointer.map json).getD .null

def traceJson (trace : DecisionTrace) : Json := .object [
  ("EvaluationID", idJson trace.evaluationID), ("SessionID", idJson trace.sessionID),
  ("Version", .number (toString trace.version)), ("State", stateJson trace.state),
  ("Result", resultJson trace.result), ("ReasonCodes", textsJson trace.reasonCodes),
  ("RequiredRuleIDs", textsJson trace.requiredRuleIDs),
  ("MissingRuleIDs", textsJson trace.missingRuleIDs),
  ("RuleOutcomes", .array (trace.ruleOutcomes.map outcomeJson)),
  ("CreatedAt", timeJson trace.createdAt), ("StartedAt", pointerJson timeJson trace.startedAt),
  ("CompletedAt", pointerJson timeJson trace.completedAt),
  ("ExpiredAt", pointerJson timeJson trace.expiredAt),
  ("EvidenceBinding", pointerJson (evidenceBindingJson textsJson) trace.evidenceBinding),
  ("PolicyBinding", pointerJson policyBindingJson trace.policyBinding)]

def evidenceJson (snapshot : Evidence.Snapshot) : Json := .object [
  ("evidence_id", idJson snapshot.evidenceID), ("session_id", idJson snapshot.sessionID),
  ("source_id", .string snapshot.sourceID), ("source_type", .string snapshot.sourceType),
  ("evidence_type", .string snapshot.evidenceType),
  ("observed_at", timeJson snapshot.observedAt), ("received_at", timeJson snapshot.receivedAt),
  ("payload", (decode snapshot.payload).getD .null),
  ("integrity", .object [
    ("algorithm", .string snapshot.integrity.algorithm),
    ("payload_digest", .string snapshot.integrity.payloadDigest),
    ("schema_version", .string snapshot.integrity.schemaVersion),
    ("runtime_version", .string snapshot.integrity.runtimeVersion),
    ("acquisition_method", .string snapshot.integrity.acquisitionMethod)])]

def policyJson (snapshot : Policy.Snapshot) : Json := .object [
  ("policy_id", .string snapshot.policyID), ("version", .string snapshot.version),
  ("schema_version", .string snapshot.schemaVersion),
  ("effective_from", timeJson snapshot.effectiveFrom),
  ("required_rule_ids", .array (snapshot.requiredRuleIDs.map .string)),
  ("document", (decode snapshot.document).getD .null), ("hash", .string snapshot.hash)]

def referenceJson (reference : PolicyReference) : Json := .object [
  ("policy_id", .string reference.policyID), ("version", .string reference.version),
  ("hash", .string reference.hash)]

def manifestJson (manifest : Manifest) : Json := .object [
  ("schema_version", .string manifest.schemaVersion), ("bundle_id", idJson manifest.bundleID),
  ("evaluation_id", idJson manifest.evaluationID), ("session_id", idJson manifest.sessionID),
  ("generated_at", timeJson manifest.generatedAt),
  ("hash_algorithm", .string manifest.hashAlgorithm), ("policy", referenceJson manifest.policy),
  ("objects", .array (manifest.objects.map fun object => .object [
    ("path", .string object.path), ("media_type", .string object.mediaType),
    ("size", .number (toString object.size)), ("digest", .string object.digest)])),
  ("bundle_root", .string manifest.bundleRoot)]

/-- The policy with its rules in the given order. -/
def policyOf (plan : List String) : Policy.Snapshot := Pds.Crate.policySnapshot plan

/-- The trace of the decision under the policy with this plan. -/
def trace (plan : List String) : DecisionTrace where
  evaluationID := evaluationID
  sessionID := session
  version := 8
  state := .completed
  result := .verified
  reasonCodes := []
  requiredRuleIDs := plan
  missingRuleIDs := []
  ruleOutcomes := [⟨"presence", .pass, [], eight⟩, ⟨"weight", .pass, [], eight⟩]
  createdAt := eight
  startedAt := some eight
  completedAt := some eight
  expiredAt := none
  evidenceBinding := some ⟨session, .qualified, "qualification.v1", eight, [],
    [⟨evidenceID, .qualified, []⟩]⟩
  policyBinding := some ⟨"cargo-transfer", "1.0.0", (policyOf plan).hash, eight⟩

/-- A weight from one of two scales; the policy trusts the one with number 17. -/
def weighed (sourceID : String) (payload : Json) (payloadDigest : String) :
    Evidence.Snapshot where
  evidenceID := evidenceID
  sessionID := session
  sourceID := sourceID
  sourceType := "SCALE"
  evidenceType := "WEIGHT"
  observedAt := eight
  receivedAt := eight
  payload := render payload
  confidence := none
  provenance := []
  integrity := ⟨"SHA-256", payloadDigest, "evidence.v1", "runtime.v1", "HTTP"⟩

/-- The digest of the weight. -/
def weightDigest : String :=
  "sha256:21543574f899760d2c2c1d5200a8ab6853f92a3f0d17a8ec7a1560e3354f4711"

/-- What goes into a bundle, and the SHA-256 sums of its objects and of its manifest. -/
structure Case where
  plan : List String
  trace : DecisionTrace
  evidence : Evidence.Snapshot
  traceSize : Nat
  traceSum : Digest
  evidenceSum : Digest
  policySum : Digest
  root : Digest

/-- The manifest, as it is hashed. -/
def Case.manifest (c : Case) : Manifest where
  schemaVersion := schemaVersion
  bundleID := BitVec.ofNat 128 0x2f6d8b1c9e4a4d7fb0c35a7e6d4c3b2a
  evaluationID := evaluationID
  sessionID := session
  generatedAt := eight.add hour
  hashAlgorithm := hashAlgorithm
  policy := ⟨"cargo-transfer", "1.0.0", (policyOf c.plan).hash⟩
  objects := [
    ⟨decisionTracePath, "application/json", c.traceSize, c.traceSum.text⟩,
    ⟨evidencePath evidenceID, "application/json", 502, c.evidenceSum.text⟩,
    ⟨policySnapshotPath, "application/json", 645, c.policySum.text⟩]
  bundleRoot := ""

def Case.bundle (c : Case) : Bundle where
  manifest := { c.manifest with bundleRoot := c.root.text }
  objects := [
    ⟨decisionTracePath, "application/json", render (traceJson c.trace)⟩,
    ⟨evidencePath evidenceID, "application/json", render (evidenceJson c.evidence)⟩,
    ⟨policySnapshotPath, "application/json", render (policyJson (policyOf c.plan))⟩]

/-- The sums of what is hashed for a bundle. -/
def Case.sums (c : Case) : List (Bytes × Digest) := [
  (render (traceJson c.trace), c.traceSum), (render (evidenceJson c.evidence), c.evidenceSum),
  (render (policyJson (policyOf c.plan)), c.policySum),
  (render (manifestJson c.manifest), c.root)]

def Case.library (c : Case) : Platform :=
  { platform with
    sha256 := fun payload => (c.sums.lookup payload).getD (platform.sha256 payload)
    marshalEvidence := fun snapshot => some (render (evidenceJson snapshot)) }

def Case.encoding (c : Case) : Encoding where
  marshalTrace trace := some (render (traceJson trace))
  unmarshalTrace payload := if payload = render (traceJson c.trace) then some c.trace else none
  marshalPolicy snapshot := some (render (policyJson snapshot))
  unmarshalPolicy payload :=
    if payload = render (policyJson (policyOf c.plan)) then some (policyOf c.plan) else none
  unmarshalEvidence payload :=
    if payload = render (evidenceJson c.evidence) then some c.evidence else none
  marshalReference reference := some (render (referenceJson reference))
  marshalManifest manifest := some (render (manifestJson manifest))
  valid _ := true

/-- A bundle with evidence from the scale that is not trusted, and with a reason that
no rule has given. -/
def forged : Case where
  plan := sortedPlan
  trace := { trace sortedPlan with reasonCodes := ["FORGED_REASON"] }
  evidence := weighed "scale-99" weight weightDigest
  traceSize := 1039
  traceSum := 0xeebe1a1a4e7a4229e1e2dbb9bb07cc69945941c144ed9f61c009e2e3b9400538
  evidenceSum := 0x748ffd0fb24ce81970618bb98ccd69550f4d38ccf1e5e613a388a111ff3cea89
  policySum := 0x3f0cd9525696a54b0df141e4c03de6c02359fecbf4b4e9acff805bf9dd18879d
  root := 0xd6c1b8dd8053250df05643073b39ca5a8251fec6e695962250316553be9dd680

/-- What `VerifyDecision` reports on it. -/
def forgedReport : IndependentVerificationReport where
  bundleID := forged.manifest.bundleID
  evaluationID := evaluationID
  policy := forged.manifest.policy
  storedResult := .verified
  recalculatedResult := .verified
  outcomes := [⟨"presence", .pass, []⟩, ⟨"weight", .pass, []⟩]
  verified := true

/-- The policy of the bundle. -/
def forgedVersion : Policy.Version forged.library where
  snapshot := policyOf sortedPlan
  normal := sortedVersion.normal
  hash_eq := by decide +kernel

/-- The qualification section of the policy. -/
def qualifier : Evidence.Qualifier := ⟨⟨"qualification.v1", [("scale-17", true)],
  [("WEIGHT", true)], [("HTTP", true)], 0, 0, false, none, [], []⟩⟩

theorem verifyDecision_forged :
    verifyDecision forged.library forged.encoding forged.bundle = .ok forgedReport := by
  decide +kernel

end Crate

/-- What is true of every verified bundle is true of the forged one. -/
theorem forged_decision_replays :
    verifyDecision Crate.forged.library Crate.forged.encoding Crate.forged.bundle =
        .ok Crate.forgedReport ∧
      ∃ trace evidence, ∃ version : Policy.Version Crate.forged.library,
        policySnapshot Crate.forged.library Crate.forged.encoding Crate.forged.bundle =
          .ok version.snapshot ∧
        ∀ outcome ∈ trace.ruleOutcomes,
          Pds.DecidedBy version (replayInput trace version.snapshot evidence) outcome := by
  obtain ⟨trace, _, evidence, version, -, hpolicy, -, -, -, hdecided, -⟩ :=
    verified_decision_replays Crate.forged.library Crate.forged.encoding Crate.forged.bundle
      Crate.forgedReport Crate.verifyDecision_forged
  exact ⟨Crate.verifyDecision_forged, trace, evidence, version, hpolicy, hdecided⟩

/-- The forged bundle is verified although `QualifySet` rejects its evidence and
`DeriveResult` gives no reason where the trace has one. -/
theorem forged_bundle_verifies :
    verifyDecision Crate.forged.library Crate.forged.encoding Crate.forged.bundle =
        .ok Crate.forgedReport ∧
      tracesOf Crate.forged.encoding Crate.forged.bundle.objects = [Crate.forged.trace] ∧
      evidenceOf Crate.forged.encoding Crate.forged.bundle.objects = [Crate.forged.evidence] ∧
      RuleOperator.compileQualificationPolicy Crate.forged.library Crate.forgedVersion =
        .ok Crate.qualifier.policy ∧
      Evidence.newQualifier Crate.qualifier.policy = .ok Crate.qualifier ∧
      Crate.qualifier.qualifySet Crate.forged.library Crate.forged.trace.sessionID
          [some ⟨Crate.forged.evidence⟩] Pds.Crate.eight =
        .ok ⟨Pds.Crate.session, .rejected, Pds.Crate.eight, "qualification.v1", [],
          [⟨Pds.Crate.evidenceID, .rejected, Pds.Crate.eight, "qualification.v1",
            [⟨.sourceUntrusted, "source_id"⟩]⟩]⟩ ∧
      ∀ s : EvaluationSnapshot, s.requiredRuleIDs = Crate.forged.trace.requiredRuleIDs →
        s.ruleOutcomes = Crate.forged.trace.ruleOutcomes →
        s.deriveResult = .ok (.verified, []) ∧
        s.deriveResult ≠ .ok (Crate.forged.trace.result, Crate.forged.trace.reasonCodes) := by
  refine ⟨Crate.verifyDecision_forged, by decide +kernel, by decide +kernel, by decide +kernel,
    by decide, by decide, ?_⟩
  intro s hplan houtcomes
  have hresult : s.deriveResult = .ok (.verified, []) := by
    simp only [EvaluationSnapshot.deriveResult, EvaluationSnapshot.RequiredRulesComplete,
      EvaluationSnapshot.missingRequiredRuleIDs, hplan, houtcomes]
    rfl
  refine ⟨hresult, ?_⟩
  rw [hresult]
  decide

end EvidenceBundle
end CargoPds
