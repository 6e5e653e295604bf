import CargoPds.Foundation.Loops
import CargoPds.Foundation.Platform
import CargoPds.Foundation.Text

/-!
# Policy versions

A policy version is immutable: its fields are normalised when it is made, and
its hash is the digest of their JSON form.  `Version` carries both facts, so
that a version with other fields or another hash cannot be built.
-/

namespace CargoPds
namespace Policy

open Fallible Text

variable {snapshot : Snapshot} {plan : List String}

/-! ## Normalisation -/

/-- One round of the loop over the required rules. -/
def normalizeRequiredRule (accepted : List String) (ruleID : String) :
    Except Error (List String) := do
  rejectIf (trimSpace ruleID = "") .requiredRulesMissing
  rejectIf (trimSpace ruleID ∈ accepted) (.duplicateRequiredRule (trimSpace ruleID))
  return accepted ++ [trimSpace ruleID]

def normalizeAndValidate (snapshot : Snapshot) : Except Error Snapshot := do
  rejectIf (trimSpace snapshot.policyID = "") .policyIDRequired
  rejectIf (trimSpace snapshot.version = "") .versionRequired
  rejectIf (trimSpace snapshot.schemaVersion = "") .schemaVersionRequired
  rejectIf snapshot.effectiveFrom.IsZero .effectiveFromRequired
  rejectIf (∃ effectiveUntil ∈ snapshot.effectiveUntil,
    ¬ effectiveUntil.After snapshot.effectiveFrom) .invalidEffectivePeriod
  rejectIf (snapshot.requiredRuleIDs = []) .requiredRulesMissing
  let plan ← snapshot.requiredRuleIDs.foldlM normalizeRequiredRule []
  return { snapshot with
    policyID := trimSpace snapshot.policyID
    version := trimSpace snapshot.version
    schemaVersion := trimSpace snapshot.schemaVersion
    effectiveFrom := snapshot.effectiveFrom.toUTC
    effectiveUntil := snapshot.effectiveUntil.map Time.toUTC
    requiredRuleIDs := plan }

/-- A plan of distinct, trimmed rule identifiers. -/
structure NormalPlan (plan : List String) : Prop where
  nodup : plan.Nodup
  canonical : ∀ ruleID ∈ plan, Canonical ruleID

/-- The form of the fields of a policy version. -/
structure Snapshot.Normal (snapshot : Snapshot) : Prop where
  policyID_canonical : Canonical snapshot.policyID
  version_canonical : Canonical snapshot.version
  schemaVersion_canonical : Canonical snapshot.schemaVersion
  effectiveFrom_set : ¬ snapshot.effectiveFrom.IsZero
  effectiveFrom_utc : snapshot.effectiveFrom.IsUTC
  effectiveUntil_utc : ∀ effectiveUntil ∈ snapshot.effectiveUntil, effectiveUntil.IsUTC
  period : ∀ effectiveUntil ∈ snapshot.effectiveUntil,
    effectiveUntil.After snapshot.effectiveFrom
  plan_nonempty : snapshot.requiredRuleIDs ≠ []
  plan_normal : NormalPlan snapshot.requiredRuleIDs

theorem NormalPlan.of_loop {normalized : List String}
    (h : plan.foldlM normalizeRequiredRule [] = .ok normalized) : NormalPlan normalized := by
  refine foldlM_invariant NormalPlan ?_ ⟨List.nodup_nil, by simp⟩ h
  intro acc ruleID acc' hacc hstep
  simp only [normalizeRequiredRule, bind_eq_ok, rejectIf_eq_ok, exists_const,
    pure_eq_ok] at hstep
  obtain ⟨hsome, hnew, rfl⟩ := hstep
  constructor
  · have hnodup := nodup_appendNew (trimSpace ruleID) hacc.nodup
    rwa [appendNew_of_not_mem hnew] at hnodup
  · intro other hother
    rcases List.mem_append.mp hother with hold | hlast
    · exact hacc.canonical other hold
    · rw [List.mem_singleton.mp hlast]
      exact canonical_trimSpace hsome

/-- A normal plan passes through the loop unchanged. -/
theorem NormalPlan.loop (h : NormalPlan plan) :
    plan.foldlM normalizeRequiredRule [] = .ok plan := by
  have hloop : ∀ acc : List String, (acc ++ plan).Nodup →
      plan.foldlM normalizeRequiredRule acc = .ok (acc ++ plan) := by
    obtain ⟨-, hcanonical⟩ := h
    induction plan with
    | nil =>
        intro acc _
        rw [List.append_nil]
        rfl
    | cons ruleID rest ih =>
        intro acc hdistinct
        have hid := hcanonical ruleID List.mem_cons_self
        have htrim : trimSpace ruleID = ruleID := hid.2.symm
        have hnew : ruleID ∉ acc := fun hmem =>
          List.disjoint_of_nodup_append hdistinct hmem List.mem_cons_self
        have hstep : normalizeRequiredRule acc ruleID = .ok (acc ++ [ruleID]) := by
          simp only [normalizeRequiredRule, htrim, rejectIf_of_not _ hid.1,
            rejectIf_of_not _ hnew, ok_bind]
          rfl
        have hshift : acc ++ ruleID :: rest = acc ++ [ruleID] ++ rest := by simp
        rw [hshift] at hdistinct ⊢
        rw [List.foldlM_cons, hstep, ok_bind]
        exact ih (fun id hmem => hcanonical id (List.mem_cons_of_mem _ hmem)) _ hdistinct
  exact hloop [] (by simpa using h.nodup)

theorem normalizeAndValidate_normal {normalized : Snapshot}
    (h : normalizeAndValidate snapshot = .ok normalized) : normalized.Normal := by
  simp only [normalizeAndValidate, bind_eq_ok, rejectIf_eq_ok, exists_const, pure_eq_ok,
    not_exists, not_and, not_not] at h
  obtain ⟨hid, hversion, hschema, hfrom, hperiod, hsome, plan, hplan, rfl⟩ := h
  refine ⟨canonical_trimSpace hid, canonical_trimSpace hversion, canonical_trimSpace hschema,
    hfrom, Time.toUTC_isUTC _, ?_, ?_, ?_, NormalPlan.of_loop hplan⟩
  · intro effectiveUntil hmem
    obtain ⟨original, -, rfl⟩ := Option.map_eq_some_iff.mp hmem
    exact Time.toUTC_isUTC original
  · intro effectiveUntil hmem
    obtain ⟨original, horiginal, rfl⟩ := Option.map_eq_some_iff.mp hmem
    exact hperiod original horiginal
  · -- the loop of a non-empty plan appends at least its first rule
    change plan ≠ []
    rintro rfl
    cases hrules : snapshot.requiredRuleIDs with
    | nil => exact hsome hrules
    | cons ruleID rest =>
        rw [hrules, List.foldlM_cons] at hplan
        obtain ⟨first, hfirst, hrest⟩ := bind_eq_ok.mp hplan
        have hgrow : ([] : List String) ≠ [] := by
          refine foldlM_invariant (fun acc : List String => acc ≠ []) ?_ ?_ hrest
          · intro acc id acc' hacc hstep
            simp only [normalizeRequiredRule, bind_eq_ok, rejectIf_eq_ok, exists_const,
              pure_eq_ok] at hstep
            obtain ⟨-, -, rfl⟩ := hstep
            simp
          · simp only [normalizeRequiredRule, bind_eq_ok, rejectIf_eq_ok, exists_const,
              pure_eq_ok] at hfirst
            obtain ⟨-, -, rfl⟩ := hfirst
            simp
        exact hgrow rfl

/-- Normalising a normal snapshot changes nothing. -/
theorem Snapshot.Normal.normalize (h : snapshot.Normal) :
    normalizeAndValidate snapshot = .ok snapshot := by
  have huntil : snapshot.effectiveUntil.map Time.toUTC = snapshot.effectiveUntil := by
    cases hcase : snapshot.effectiveUntil with
    | none => rfl
    | some effectiveUntil =>
        rw [Option.map_some, Time.toUTC_eq_of_isUTC (h.effectiveUntil_utc _ hcase)]
  simp only [normalizeAndValidate, bind_eq_ok, rejectIf_eq_ok, exists_const, pure_eq_ok,
    not_exists, not_and, not_not]
  refine ⟨h.policyID_canonical.trimSpace_ne_empty, h.version_canonical.trimSpace_ne_empty,
    h.schemaVersion_canonical.trimSpace_ne_empty, h.effectiveFrom_set, h.period,
    h.plan_nonempty, snapshot.requiredRuleIDs, h.plan_normal.loop, ?_⟩
  rw [← h.policyID_canonical.2, ← h.version_canonical.2, ← h.schemaVersion_canonical.2,
    Time.toUTC_eq_of_isUTC h.effectiveFrom_utc, huntil]

/-! ## Versions -/

variable (lib : Platform)

def calculateHash (snapshot : Snapshot) : String :=
  lib.digest ((lib.marshalPolicyEnvelope ⟨snapshot.policyID, snapshot.version,
    snapshot.schemaVersion, snapshot.effectiveFrom, snapshot.effectiveUntil,
    snapshot.requiredRuleIDs, snapshot.document⟩).getD [])

/-- A policy version: its fields are normal and its hash belongs to them. -/
structure Version where
  snapshot : Snapshot
  normal : snapshot.Normal
  hash_eq : snapshot.hash = calculateHash lib snapshot

variable {lib}

theorem Version.ext_snapshot {left right : Version lib}
    (h : left.snapshot = right.snapshot) : left = right := by
  cases left
  cases right
  cases h
  rfl

/-- The plan of a version is what registering its rules one by one gives. -/
theorem NormalPlan.register (h : NormalPlan plan) :
    (plan.map trimSpace).foldl appendNew [] = plan := by
  have htrim : plan.map trimSpace = plan := by
    rw [List.map_congr_left fun ruleID hmem => (h.canonical ruleID hmem).2.symm, List.map_id']
  rw [htrim, foldl_appendNew_of_nodup (by simpa using h.nodup), List.nil_append]

/-- A hash has no white space that trimming could remove. -/
theorem Version.trimSpace_hash (version : Version lib) :
    trimSpace version.snapshot.hash = version.snapshot.hash := by
  have hdigit : ∀ value : Nat, isSpace (Hex.digit value) = false := by
    intro value
    have hsmall : ∀ small < 16, isSpace (Hex.digit small) = false := by decide
    rw [← Hex.digit_mod]
    exact hsmall _ (Nat.mod_lt _ (by decide))
  rw [version.hash_eq]
  apply trimSpace_of_no_space
  intro c hc
  unfold calculateHash Platform.digest Digest.text at hc
  rw [String.toList_append, List.mem_append] at hc
  rcases hc with hlabel | hdigits
  · -- a check of the list: a quantifier over characters may be decided by enumeration
    have hlabels : "sha256:".toList.all (fun c => !isSpace c) = true := by decide
    have hc := List.all_eq_true.mp hlabels c hlabel
    simpa using hc
  · rw [String.toList_ofList] at hdigits
    obtain ⟨index, -, rfl⟩ := List.mem_map.mp hdigits
    exact hdigit _

variable (lib)

def newVersion (input : Input) : Except Error (Version lib) :=
  match lib.canonicalJSON input.document with
  | none => .error .invalidDocument
  | some document =>
      match h : normalizeAndValidate ⟨input.policyID, input.version, input.schemaVersion,
        input.effectiveFrom, input.effectiveUntil, input.requiredRuleIDs, document, ""⟩ with
      | .error err => .error err
      | .ok snapshot =>
          have hnormal := normalizeAndValidate_normal h
          .ok ⟨{ snapshot with hash := calculateHash lib snapshot },
            ⟨hnormal.policyID_canonical, hnormal.version_canonical,
              hnormal.schemaVersion_canonical, hnormal.effectiveFrom_set,
              hnormal.effectiveFrom_utc, hnormal.effectiveUntil_utc, hnormal.period,
              hnormal.plan_nonempty, hnormal.plan_normal⟩, rfl⟩

/-- `Rehydrate`. -/
def rehydrate (snapshot : Snapshot) : Except Error (Version lib) :=
  match h : normalizeAndValidate snapshot with
  | .error err => .error err
  | .ok copy =>
      match lib.canonicalJSON copy.document with
      | none => .error .invalidDocument
      | some canonical =>
          if canonical ≠ copy.document then .error .nonCanonicalDocument
          else if hhash : copy.hash = calculateHash lib copy then
            .ok ⟨copy, normalizeAndValidate_normal h, hhash⟩
          else .error .hashMismatch

theorem rehydrate_eq_ok {version : Version lib} (h : rehydrate lib snapshot = .ok version) :
    normalizeAndValidate snapshot = .ok version.snapshot := by
  unfold rehydrate at h
  split at h
  · exact absurd h (by simp)
  · rename_i copy hcopy
    split at h
    · exact absurd h (by simp)
    · split at h
      · exact absurd h (by simp)
      · split at h
        · rw [hcopy, ← Except.ok.inj h]
        · exact absurd h (by simp)

/-- The snapshot of a version can be restored if its document is canonical. -/
theorem rehydrate_of_canonical (version : Version lib)
    (h : lib.canonicalJSON version.snapshot.document = some version.snapshot.document) :
    rehydrate lib version.snapshot = .ok version := by
  unfold rehydrate
  split
  · rename_i err herr
    rw [version.normal.normalize] at herr
    exact absurd herr (by simp)
  · rename_i copy hcopy
    rw [version.normal.normalize] at hcopy
    obtain rfl := Except.ok.inj hcopy
    rw [h]
    simp [version.hash_eq]

/-- Restoring the snapshot of a version gives that version, or fails. -/
theorem rehydrate_snapshot {version restored : Version lib}
    (h : rehydrate lib version.snapshot = .ok restored) : restored = version := by
  have hsnapshot := rehydrate_eq_ok lib h
  rw [version.normal.normalize] at hsnapshot
  exact Version.ext_snapshot (Except.ok.inj hsnapshot).symm

end Policy
end CargoPds
