import CargoPds.EvidenceBundle.Replay
import CargoPds.EvidenceBundle.Root
import CargoPds.Foundation.Loops

/-!
# What a built bundle consists of

`Build` and `BuildWithPolicySnapshot` are inverted here: what they check, and the objects
that they make.  The evidence may be given in any order; it is looked up by its
identifier, and the objects are sorted by their paths.
-/

namespace CargoPds
namespace EvidenceBundle

open Fallible Text Evaluation

variable {lib : Platform} {enc : Encoding}
variable {snapshots : List Evidence.Snapshot} {input : BuildInput} {trace : DecisionTrace}
variable {bundle : Bundle} {objects : List Object} {object : Object}

theorem marshalled_eq_ok {payload : Option Bytes} {bytes : Bytes} :
    marshalled payload = .ok bytes ↔ payload = some bytes := by
  cases payload <;> simp [marshalled]

/-! ## Paths -/

theorem startsWith_evidencePath (id : UUID) : startsWith (evidencePath id) "evidence/" = true := by
  unfold startsWith evidencePath
  rw [String.toList_append, String.toList_append, List.append_assoc, List.isPrefixOf_iff_prefix]
  exact List.prefix_append _ _

theorem evidencePath_inj {left right : UUID} (h : evidencePath left = evidencePath right) :
    left = right := by
  have htexts := congrArg String.toList h
  simp only [evidencePath, String.toList_append, List.append_assoc, List.append_cancel_left_eq,
    List.append_cancel_right_eq] at htexts
  exact UUID.text_inj (String.toList_inj.mp htexts)

/-! ## The evidence of a trace -/

variable (lib) in
/-- What `Build` asks of the evidence that goes with a trace. -/
structure Supplied (trace : DecisionTrace) (snapshots : List Evidence.Snapshot) : Prop where
  intact : ∀ snapshot ∈ snapshots, Evidence.verifySnapshot lib snapshot = .ok ()
  session : ∀ snapshot ∈ snapshots, snapshot.sessionID = trace.sessionID
  distinct : (snapshots.map (·.evidenceID)).Nodup

theorem Supplied.perm {others : List Evidence.Snapshot} (h : Supplied lib trace snapshots)
    (hperm : others.Perm snapshots) :
    Supplied lib trace others where
  intact snapshot hmem := h.intact snapshot (hperm.mem_iff.mp hmem)
  session snapshot hmem := h.session snapshot (hperm.mem_iff.mp hmem)
  distinct := (hperm.map _).nodup_iff.mpr h.distinct

theorem collectEvidence_iff {collected result : List Evidence.Snapshot}
    {snapshot : Evidence.Snapshot} :
    collectEvidence lib trace collected snapshot = .ok result ↔
      Evidence.verifySnapshot lib snapshot = .ok () ∧ snapshot.sessionID = trace.sessionID ∧
        snapshot.evidenceID ∉ collected.map (·.evidenceID) ∧ collected ++ [snapshot] = result := by
  simp only [collectEvidence, bind_eq_ok, mapError_eq_ok, Evidence.rehydrate_eq_ok,
    rejectIf_eq_ok, pure_eq_ok, exists_const, ne_eq, not_not]
  constructor
  · rintro ⟨_, ⟨hintact, rfl⟩, hsession, hnew, rfl⟩
    exact ⟨hintact, hsession, byID_eq_none.mp hnew, rfl⟩
  · rintro ⟨hintact, hsession, hnew, rfl⟩
    exact ⟨_, ⟨hintact, rfl⟩, hsession, byID_eq_none.mpr hnew, rfl⟩

/-- The loop collects the evidence as it is given. -/
theorem collected_iff {result : List Evidence.Snapshot} :
    snapshots.foldlM (collectEvidence lib trace) [] = .ok result ↔
      Supplied lib trace snapshots ∧ snapshots = result := by
  have hloop : ∀ collected : List Evidence.Snapshot, Supplied lib trace collected →
      (snapshots.foldlM (collectEvidence lib trace) collected = .ok result ↔
        Supplied lib trace (collected ++ snapshots) ∧ collected ++ snapshots = result) := by
    induction snapshots with
    | nil =>
        intro collected hcollected
        simp [hcollected]
    | cons snapshot rest ih =>
        intro collected hcollected
        have hshift : collected ++ snapshot :: rest = collected ++ [snapshot] ++ rest := by simp
        rw [List.foldlM_cons, bind_eq_ok, hshift]
        constructor
        · rintro ⟨middle, hmiddle, hrest⟩
          obtain ⟨hintact, hsession, hnew, rfl⟩ := collectEvidence_iff.mp hmiddle
          refine (ih _ ⟨?_, ?_, ?_⟩).mp hrest
          · exact List.forall_mem_append.mpr ⟨hcollected.intact, by simpa using hintact⟩
          · exact List.forall_mem_append.mpr ⟨hcollected.session, by simpa using hsession⟩
          · have hdistinct := nodup_appendNew snapshot.evidenceID hcollected.distinct
            rwa [appendNew_of_not_mem hnew, ← List.map_singleton (f := fun s : Evidence.Snapshot =>
              s.evidenceID), ← List.map_append] at hdistinct
        · rintro ⟨hall, hresult⟩
          have hmiddle : Supplied lib trace (collected ++ [snapshot]) :=
            ⟨fun s hs => hall.intact s (List.mem_append_left _ hs),
              fun s hs => hall.session s (List.mem_append_left _ hs),
              hall.distinct.sublist ((List.sublist_append_left _ _).map _)⟩
          have hmem : snapshot ∈ collected ++ [snapshot] := by simp
          refine ⟨collected ++ [snapshot], collectEvidence_iff.mpr ⟨hmiddle.intact _ hmem,
            hmiddle.session _ hmem, ?_, rfl⟩, (ih _ hmiddle).mpr ⟨hall, hresult⟩⟩
          have hdistinct := hmiddle.distinct
          rw [List.map_append] at hdistinct
          exact fun hold => List.disjoint_of_nodup_append hdistinct hold (by simp)
  exact hloop [] ⟨by simp, by simp, List.nodup_nil⟩

variable (lib) in
/-- The object that stands for a reference in the bundle. -/
def Carries (snapshots : List Evidence.Snapshot) (reference : EvidenceReference)
    (object : Object) : Prop :=
  ∃ snapshot payload, byID snapshots reference.evidenceID = some snapshot ∧
    lib.marshalEvidence snapshot = some payload ∧
    object = ⟨evidencePath reference.evidenceID, "application/json", payload⟩

theorem evidenceObject_iff {reference : EvidenceReference} :
    evidenceObject lib snapshots reference = .ok object ↔
      Carries lib snapshots reference object := by
  unfold evidenceObject Carries
  cases hfind : byID snapshots reference.evidenceID with
  | none => simp
  | some snapshot =>
      simp only [bind_eq_ok, marshalled_eq_ok, pure_eq_ok, Option.some_inj]
      constructor
      · rintro ⟨payload, hpayload, rfl⟩
        exact ⟨snapshot, payload, rfl, hpayload, rfl⟩
      · rintro ⟨_, payload, rfl, hpayload, rfl⟩
        exact ⟨payload, hpayload, rfl⟩

/-- Evidence with identifiers of its own is found wherever it stands. -/
theorem byID_perm {others : List Evidence.Snapshot}
    (hdistinct : (snapshots.map (·.evidenceID)).Nodup) (hperm : others.Perm snapshots) (id : UUID) :
    byID others id = byID snapshots id := by
  have hothers : (others.map (·.evidenceID)).Nodup := (hperm.map _).nodup_iff.mpr hdistinct
  cases hfind : byID snapshots id with
  | none =>
      rw [byID_eq_none] at hfind ⊢
      rwa [(hperm.map _).mem_iff]
  | some snapshot =>
      have hid : snapshot.evidenceID = id := by simpa using List.find?_some hfind
      subst hid
      exact find?_key_of_nodup (hperm.mem_iff.mpr (List.mem_of_find?_eq_some hfind)) hothers

theorem carries_perm {others : List Evidence.Snapshot}
    (hdistinct : (snapshots.map (·.evidenceID)).Nodup) (hperm : others.Perm snapshots) :
    Carries lib others = Carries lib snapshots := by
  funext reference object
  simp only [Carries, byID_perm hdistinct hperm]

/-! ## `Build` -/

/-- The objects that are made of three kinds of payloads. -/
def madeObjects (tracePayload policyPayload : Bytes) (evidenceObjects : List Object) :
    List Object :=
  ⟨decisionTracePath, "application/json", tracePayload⟩ ::
    ⟨policyReferencePath, "application/json", policyPayload⟩ :: evidenceObjects

theorem buildObjects_iff {policy : PolicyBinding} {binding : EvidenceSetBinding} :
    buildObjects lib enc trace policy binding snapshots = .ok objects ↔
      ∃ tracePayload policyPayload evidenceObjects,
        Supplied lib trace snapshots ∧ snapshots.length = binding.evidence.length ∧
        enc.marshalTrace trace = some tracePayload ∧
        enc.marshalReference ⟨policy.policyID, policy.version, policy.hash⟩ =
          some policyPayload ∧
        List.Forall₂ (Carries lib snapshots) binding.evidence evidenceObjects ∧
        (∀ object ∈ objects, validateObject enc object = .ok ()) ∧
        (madeObjects tracePayload policyPayload evidenceObjects).insertionSort ByPath =
          objects := by
  have hvalid : ∀ objects : List Object, (∃ checked, objects.mapM (validateObject enc) =
      .ok checked) ↔ ∀ object ∈ objects, validateObject enc object = .ok () := by
    intro objects
    simp only [mapM_eq_ok, exists_forall₂_iff]
    exact ⟨fun h object hmem => (h object hmem).elim fun _ hok => hok,
      fun h object hmem => ⟨(), h object hmem⟩⟩
  simp only [buildObjects, bind_eq_ok, rejectIf_eq_ok, marshalled_eq_ok, mapM_eq_ok, pure_eq_ok,
    exists_const, collected_iff, ne_eq, not_not, evidenceObject_iff]
  constructor
  · rintro ⟨_, ⟨hsupplied, rfl⟩, hlength, tracePayload, htrace, policyPayload, hpolicy,
      evidenceObjects, hcarries, checked, hchecked, rfl⟩
    exact ⟨tracePayload, policyPayload, evidenceObjects, hsupplied, hlength, htrace, hpolicy,
      hcarries, (hvalid _).mp ⟨checked, mapM_eq_ok.mpr hchecked⟩, rfl⟩
  · rintro ⟨tracePayload, policyPayload, evidenceObjects, hsupplied, hlength, htrace, hpolicy,
      hcarries, hall, rfl⟩
    obtain ⟨checked, hchecked⟩ := (hvalid _).mpr hall
    exact ⟨_, ⟨hsupplied, rfl⟩, hlength, tracePayload, htrace, policyPayload, hpolicy,
      evidenceObjects, hcarries, checked, mapM_eq_ok.mp hchecked, rfl⟩

/-- What `Build` checks before it makes the objects. -/
structure Checked (input : BuildInput) (policy : PolicyBinding) (binding : EvidenceSetBinding) :
    Prop where
  identity : ¬ (input.bundleID = UUID.nil ∨ input.generatedAt.IsZero)
  scope : ¬ (input.trace.evaluationID = UUID.nil ∨ input.trace.sessionID = UUID.nil ∨
    (input.trace.state ≠ .completed ∧ input.trace.state ≠ .expired))
  ended : ¬ ∀ t ∈ finalizedAt input.trace, input.generatedAt.Before t
  policy_bound : input.trace.policyBinding = some policy
  policy_named : ¬ (trimSpace policy.policyID = "" ∨ trimSpace policy.version = "" ∨
    ¬ Digest.IsText policy.hash)
  evidence_bound : input.trace.evidenceBinding = some binding
  session : binding.sessionID = input.trace.sessionID

variable (lib enc) in
/-- The bundle that `Build` makes of its objects. -/
def assembled (input : BuildInput) (policy : PolicyBinding) (objects : List Object) : Bundle :=
  ⟨withRoot lib enc ⟨schemaVersion, input.bundleID, input.trace.evaluationID,
    input.trace.sessionID, input.generatedAt.toUTC, hashAlgorithm,
    ⟨policy.policyID, policy.version, policy.hash⟩, objects.map (describe lib), ""⟩, objects⟩

theorem build_iff :
    build lib enc input = .ok bundle ↔
      ∃ policy binding objects, Checked input policy binding ∧
        buildObjects lib enc input.trace policy binding input.evidence = .ok objects ∧
        assembled lib enc input policy objects = bundle := by
  simp only [build, bind_eq_ok, rejectIf_eq_ok, exists_const]
  constructor
  · rintro ⟨hidentity, hscope, hended, h⟩
    cases hpolicy : input.trace.policyBinding with
    | none => exact absurd h (by simp [hpolicy])
    | some policy =>
        cases hbinding : input.trace.evidenceBinding with
        | none => exact absurd h (by simp [hpolicy, hbinding])
        | some binding =>
            simp only [hpolicy, hbinding, bind_eq_ok, rejectIf_eq_ok, exists_const, ne_eq,
              not_not, pure_eq_ok] at h
            obtain ⟨hnamed, hsession, objects, hobjects, rfl⟩ := h
            exact ⟨policy, binding, objects, ⟨hidentity, hscope, hended, hpolicy, hnamed,
              hbinding, hsession⟩, hobjects, rfl⟩
  · rintro ⟨policy, binding, objects, hchecked, hobjects, rfl⟩
    refine ⟨hchecked.identity, hchecked.scope, hchecked.ended, ?_⟩
    simp only [hchecked.policy_bound, hchecked.evidence_bound, bind_eq_ok, rejectIf_eq_ok,
      exists_const, ne_eq, not_not, pure_eq_ok]
    exact ⟨hchecked.policy_named, hchecked.session, objects, hobjects, rfl⟩

theorem Checked.final {policy : PolicyBinding} {binding : EvidenceSetBinding}
    (h : Checked input policy binding) : ∃ t, finalizedAt input.trace = some t := by
  refine Option.ne_none_iff_exists'.mp fun hnone => h.ended ?_
  rw [hnone]
  exact fun t ht => absurd ht (by simp)

/-! ## `BuildWithPolicySnapshot` -/

/-- One reference gives way to the new object; the other objects stay. -/
theorem replaceReference_eq_some {result : List Object}
    (h : replaceReference object objects = some result) :
    ∃ reference others, reference.path = policyReferencePath ∧
      objects.Perm (reference :: others) ∧ result.Perm (object :: others) := by
  induction objects generalizing result with
  | nil => exact absurd h (by simp [replaceReference])
  | cons head rest ih =>
      unfold replaceReference at h
      split at h
      · rename_i hpath
        obtain rfl := Option.some.inj h
        exact ⟨head, rest, hpath, List.Perm.refl _, List.Perm.refl _⟩
      · obtain ⟨replaced, hreplaced, rfl⟩ := Option.map_eq_some_iff.mp h
        obtain ⟨reference, others, hpath, hbefore, hafter⟩ := ih hreplaced
        exact ⟨reference, head :: others, hpath,
          (hbefore.cons head).trans (List.Perm.swap ..),
          (hafter.cons head).trans (List.Perm.swap ..)⟩

/-- No evidence object has the path of the policy reference. -/
theorem Carries.path {reference : EvidenceReference} (h : Carries lib snapshots reference object) :
    startsWith object.path "evidence/" = true := by
  obtain ⟨_, _, -, -, rfl⟩ := h
  exact startsWith_evidencePath _

theorem evidence_paths {references : List EvidenceReference}
    (h : List.Forall₂ (Carries lib snapshots) references objects) :
    ∀ object ∈ objects, startsWith object.path "evidence/" = true := by
  induction h with
  | nil => exact fun object hmem => absurd hmem (by simp)
  | cons hobject _ ih => exact List.forall_mem_cons.mpr ⟨hobject.path, ih⟩

variable (lib enc) in
/-- The bundle with a policy in place of its reference. -/
def reassembled (built : Bundle) (objects : List Object) : Bundle :=
  ⟨withRoot lib enc { built.manifest with
    objects := (objects.insertionSort ByPath).map (describe lib) }, objects.insertionSort ByPath⟩

theorem buildWithPolicySnapshot_iff {snapshot : Policy.Snapshot} :
    buildWithPolicySnapshot lib enc input snapshot = .ok bundle ↔
      ∃ version built payload objects, Policy.rehydrate lib snapshot = .ok version ∧
        (∃ policy ∈ input.trace.policyBinding, Pds.Names policy version) ∧
        build lib enc input = .ok built ∧
        enc.marshalPolicy version.snapshot = some payload ∧
        replaceReference ⟨policySnapshotPath, "application/json", payload⟩ built.objects =
          some objects ∧
        reassembled lib enc built objects = bundle ∧
        ∃ embedded, policySnapshot lib enc bundle = .ok embedded := by
  have hnames : ∀ version : Policy.Version lib, (¬ ∀ binding ∈ input.trace.policyBinding,
      version.snapshot.policyID ≠ binding.policyID ∨ version.snapshot.version ≠ binding.version ∨
        version.snapshot.hash ≠ binding.hash) ↔
      ∃ policy ∈ input.trace.policyBinding, Pds.Names policy version := by
    intro version
    simp only [not_forall, not_or, ne_eq, not_not, exists_prop]
    exact exists_congr fun policy => and_congr_right fun _ =>
      ⟨fun h => ⟨h.1.symm, h.2.1.symm, h.2.2.symm⟩,
        fun h => ⟨h.policyID.symm, h.label.symm, h.hash.symm⟩⟩
  simp only [buildWithPolicySnapshot, bind_eq_ok, mapError_eq_ok, rejectIf_eq_ok,
    marshalled_eq_ok, exists_const, hnames]
  constructor
  · rintro ⟨version, hrestored, hnamed, built, hbuilt, payload, hpayload, h⟩
    cases hreplace : replaceReference ⟨policySnapshotPath, "application/json", payload⟩
        built.objects with
    | none => exact absurd h (by simp [hreplace])
    | some objects =>
        simp only [hreplace, bind_eq_ok, pure_eq_ok] at h
        obtain ⟨embedded, hembedded, rfl⟩ := h
        exact ⟨version, built, payload, objects, hrestored, hnamed, hbuilt, hpayload, hreplace,
          rfl, embedded, hembedded⟩
  · rintro ⟨version, built, payload, objects, hrestored, hnamed, hbuilt, hpayload, hreplace,
      rfl, embedded, hembedded⟩
    refine ⟨version, hrestored, hnamed, built, hbuilt, payload, hpayload, ?_⟩
    simp only [hreplace, bind_eq_ok, pure_eq_ok]
    exact ⟨embedded, hembedded, rfl⟩

/-- The policy takes the place of its reference, and the other objects stay. -/
theorem perm_of_replaceReference {tracePayload referencePayload : Bytes}
    {references : List EvidenceReference} {evidenceObjects built : List Object}
    {policyObject : Object}
    (hcarries : List.Forall₂ (Carries lib snapshots) references evidenceObjects)
    (hbuilt : built.Perm (madeObjects tracePayload referencePayload evidenceObjects))
    (h : replaceReference policyObject built = some objects) :
    objects.Perm (⟨decisionTracePath, "application/json", tracePayload⟩ :: policyObject ::
      evidenceObjects) := by
  obtain ⟨reference, others, hpath, hbefore, hafter⟩ := replaceReference_eq_some h
  have hall := hbuilt.symm.trans hbefore
  have hothers : others.Perm
      (⟨decisionTracePath, "application/json", tracePayload⟩ :: evidenceObjects) := by
    -- the object that was replaced is the one that `Build` made for the reference
    rcases List.mem_cons.mp (hall.mem_iff.mpr List.mem_cons_self) with rfl | hmem
    · have hclash : decisionTracePath = policyReferencePath := hpath
      exact absurd hclash (by decide)
    rcases List.mem_cons.mp hmem with rfl | hmem
    · exact ((List.Perm.swap ..).trans hall).cons_inv.symm
    · have hevidence := evidence_paths hcarries reference hmem
      rw [hpath] at hevidence
      exact absurd hevidence (by decide)
  exact hafter.trans ((hothers.cons _).trans (List.Perm.swap ..))

variable (enc) in
/-- A bundle built with the snapshot of a policy version. -/
structure Built (input : BuildInput) (version : Policy.Version lib) (bundle : Bundle)
    (policy : PolicyBinding) (binding : EvidenceSetBinding) (tracePayload policyPayload : Bytes)
    (evidenceObjects : List Object) : Prop where
  final : ∃ t, finalizedAt input.trace = some t
  evaluationID : bundle.manifest.evaluationID = input.trace.evaluationID
  sessionID : bundle.manifest.sessionID = input.trace.sessionID
  policy_bound : input.trace.policyBinding = some policy
  names : Pds.Names policy version
  evidence_bound : input.trace.evidenceBinding = some binding
  trace_marshalled : enc.marshalTrace input.trace = some tracePayload
  policy_marshalled : enc.marshalPolicy version.snapshot = some policyPayload
  carries : List.Forall₂ (Carries lib input.evidence) binding.evidence evidenceObjects
  objects : bundle.objects.Perm (⟨decisionTracePath, "application/json", tracePayload⟩ ::
    ⟨policySnapshotPath, "application/json", policyPayload⟩ :: evidenceObjects)
  readable : ∃ snapshot, policySnapshot lib enc bundle = .ok snapshot

theorem buildWithPolicySnapshot_built {snapshot : Policy.Snapshot}
    (h : buildWithPolicySnapshot lib enc input snapshot = .ok bundle) :
    ∃ version, Policy.rehydrate lib snapshot = .ok version ∧
      ∃ policy binding tracePayload policyPayload evidenceObjects,
        Built enc input version bundle policy binding tracePayload policyPayload
          evidenceObjects := by
  obtain ⟨version, built, policyPayload, objects, hrestored, ⟨policy, hpolicy, hnames⟩, hbuilt,
    hpayload, hreplace, rfl, hreadable⟩ := buildWithPolicySnapshot_iff.mp h
  obtain ⟨policy', binding, made, hchecked, hobjects, rfl⟩ := build_iff.mp hbuilt
  obtain rfl := Option.some.inj (hpolicy.symm.trans hchecked.policy_bound)
  obtain ⟨tracePayload, referencePayload, evidenceObjects, -, -, htrace, -, hcarries, -, rfl⟩ :=
    buildObjects_iff.mp hobjects
  refine ⟨version, hrestored, policy, binding, tracePayload, policyPayload, evidenceObjects,
    hchecked.final, rfl, rfl, hpolicy, hnames, hchecked.evidence_bound, htrace, hpayload,
    hcarries, ?_, hreadable⟩
  exact (List.perm_insertionSort _ _).trans
    (perm_of_replaceReference hcarries (List.perm_insertionSort _ _) hreplace)

theorem buildWithPolicySnapshot_eq_ok {version : Policy.Version lib}
    (h : buildWithPolicySnapshot lib enc input version.snapshot = .ok bundle) :
    ∃ policy binding tracePayload policyPayload evidenceObjects,
      Built enc input version bundle policy binding tracePayload policyPayload
        evidenceObjects := by
  obtain ⟨restored, hrestored, hbuilt⟩ := buildWithPolicySnapshot_built h
  obtain rfl := Policy.rehydrate_snapshot lib hrestored
  exact hbuilt

end EvidenceBundle
end CargoPds
