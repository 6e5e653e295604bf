import CargoPds.Evaluation.Types
import CargoPds.Foundation.Loops
import CargoPds.Foundation.Text

/-!
# Normal forms

Everything that enters an evaluation is normalised first: identifiers are
trimmed, codes are put into upper case and freed of repetitions, times are
moved to UTC.  For each kind of value this file has the function of the source,
a predicate `Normal` for its results, and the fact that a normal value is left
alone.
-/

namespace CargoPds
namespace Evaluation

open Fallible Text

variable {codes : List ReasonCode}

/-! ## Reason codes -/

def newReasonCode (value : String) : Except Error ReasonCode := do
  let v := toUpper (trimSpace value)
  rejectIf (¬ MatchesCode 1 63 v) .invalidReasonCode
  return v

def normalizeReasonCodes (codes : List ReasonCode) : Except Error (List ReasonCode) :=
  codes.foldlM (fun out code => do return appendNew out (← newReasonCode code)) []

/-- Distinct codes of the required form. -/
def NormalReasonCodes (codes : List ReasonCode) : Prop :=
  codes.Nodup ∧ ∀ code ∈ codes, MatchesCode 1 63 code

theorem newReasonCode_eq_ok {value : String} {code : ReasonCode} :
    newReasonCode value = .ok code ↔
      MatchesCode 1 63 code ∧ toUpper (trimSpace value) = code := by
  simp only [newReasonCode, bind_eq_ok, rejectIf_eq_ok, pure_eq_ok, exists_const, not_not]
  exact and_congr_left fun hcode => by rw [hcode]

theorem newReasonCode_of_matches {code : ReasonCode} (h : MatchesCode 1 63 code) :
    newReasonCode code = .ok code := by
  rw [newReasonCode_eq_ok, h.trimSpace_eq, h.toUpper_eq]
  exact ⟨h, rfl⟩

theorem normalizeReasonCodes_normal {out : List ReasonCode}
    (h : normalizeReasonCodes codes = .ok out) : NormalReasonCodes out := by
  refine foldlM_invariant NormalReasonCodes ?_ ⟨List.nodup_nil, by simp⟩ h
  rintro acc code acc' ⟨hnodup, hall⟩ hstep
  obtain ⟨c, hc, hacc⟩ := bind_eq_ok.mp hstep
  obtain rfl := pure_eq_ok.mp hacc
  refine ⟨nodup_appendNew c hnodup, ?_⟩
  intro other hother
  rcases mem_appendNew.mp hother with hold | rfl
  · exact hall other hold
  · exact (newReasonCode_eq_ok.mp hc).1

/-- Normalising codes of the required form only drops repetitions. -/
theorem normalizeReasonCodes_of_matches (h : ∀ code ∈ codes, MatchesCode 1 63 code) :
    normalizeReasonCodes codes = .ok (codes.foldl appendNew []) := by
  -- the induction is on the codes that are left, for any codes kept so far
  have hloop : ∀ acc : List ReasonCode,
      codes.foldlM (fun out code => do return appendNew out (← newReasonCode code)) acc =
        (.ok (codes.foldl appendNew acc) : Except Error (List ReasonCode)) := by
    induction codes with
    | nil => exact fun acc => rfl
    | cons code rest ih =>
        intro acc
        rw [List.foldlM_cons, newReasonCode_of_matches (h code List.mem_cons_self)]
        exact ih (fun c hc => h c (List.mem_cons_of_mem _ hc)) _
  exact hloop []

/-- Normalising a list of codes twice is normalising it once. -/
theorem NormalReasonCodes.normalize (h : NormalReasonCodes codes) :
    normalizeReasonCodes codes = .ok codes := by
  rw [normalizeReasonCodes_of_matches h.2, foldl_appendNew_of_nodup (by simpa using h.1),
    List.nil_append]

/-! ## Rule outcomes -/

def normalizeRuleOutcome (o : RuleOutcome) : Except Error RuleOutcome := do
  rejectIf (trimSpace o.ruleID = "") .ruleIDRequired
  rejectIf (¬ o.status.IsValid ∨ o.evaluatedAt.IsZero) .invalidRuleOutcome
  let reasons ← normalizeReasonCodes o.reasonCodes
  rejectIf (o.status = .pass ∧ reasons ≠ []) .invalidRuleOutcome
  rejectIf (o.status ≠ .pass ∧ reasons = []) .invalidRuleOutcome
  return ⟨trimSpace o.ruleID, o.status, reasons, o.evaluatedAt.toUTC⟩

/-- The form of a recorded outcome: only a pass needs no reason. -/
structure RuleOutcome.Normal (o : RuleOutcome) : Prop where
  ruleID_canonical : Canonical o.ruleID
  status_valid : o.status.IsValid
  evaluated : ¬ o.evaluatedAt.IsZero
  utc : o.evaluatedAt.IsUTC
  reasons_normal : NormalReasonCodes o.reasonCodes
  pass_iff : o.status = .pass ↔ o.reasonCodes = []

theorem normalizeRuleOutcome_normal {o normalized : RuleOutcome}
    (h : normalizeRuleOutcome o = .ok normalized) : normalized.Normal := by
  simp only [normalizeRuleOutcome, bind_eq_ok, rejectIf_eq_ok, pure_eq_ok, exists_const,
    not_or, not_not, not_and] at h
  obtain ⟨hid, ⟨hstatus, htime⟩, reasons, hreasons, hpass, hother, rfl⟩ := h
  refine ⟨canonical_trimSpace hid, hstatus, htime, Time.toUTC_isUTC _,
    normalizeReasonCodes_normal hreasons, ?_⟩
  constructor
  · exact hpass
  · intro hempty
    by_contra hne
    exact hother hne hempty

theorem ruleID_of_normalizeRuleOutcome {o normalized : RuleOutcome}
    (h : normalizeRuleOutcome o = .ok normalized) : normalized.ruleID = trimSpace o.ruleID := by
  simp only [normalizeRuleOutcome, bind_eq_ok, pure_eq_ok] at h
  obtain ⟨-, -, -, -, -, -, -, -, -, -, rfl⟩ := h
  rfl

theorem RuleOutcome.Normal.normalize {o : RuleOutcome} (h : o.Normal) :
    normalizeRuleOutcome o = .ok o := by
  have hid : trimSpace o.ruleID = o.ruleID := h.ruleID_canonical.2.symm
  simp only [normalizeRuleOutcome, bind_eq_ok, rejectIf_eq_ok, pure_eq_ok, exists_const,
    not_or, not_not, not_and]
  refine ⟨h.ruleID_canonical.trimSpace_ne_empty, ⟨h.status_valid, h.evaluated⟩, o.reasonCodes,
    h.reasons_normal.normalize, h.pass_iff.mp, ?_, ?_⟩
  · exact fun hne hempty => hne (h.pass_iff.mpr hempty)
  · rw [hid, Time.toUTC_eq_of_isUTC h.utc]

/-- `ruleOutcomesEqual`: times are compared as instants. -/
def RuleOutcomesEqual (left right : RuleOutcome) : Prop :=
  left.ruleID = right.ruleID ∧ left.status = right.status ∧
    left.evaluatedAt.Equal right.evaluatedAt ∧ left.reasonCodes = right.reasonCodes
deriving Decidable

/-! ## Evidence bindings -/

def normalizeEvidenceReasons (reasons : List String) : Except Error (List String) :=
  reasons.foldlM (fun out reason =>
    if toUpper (trimSpace reason) = "" then .ok out
    else do
      rejectIf (¬ MatchesCode 1 63 (toUpper (trimSpace reason))) .evidenceBindingRequired
      return appendNew out (toUpper (trimSpace reason))) []

/-- One round of the loop over the references of a binding. -/
def normalizeEvidenceReference (accepted : List EvidenceReference)
    (reference : EvidenceReference) : Except Error (List EvidenceReference) := do
  rejectIf (reference.evidenceID = UUID.nil ∨ ¬ reference.status.IsValid)
    .evidenceBindingRequired
  rejectIf (reference.evidenceID ∈ accepted.map (·.evidenceID)) .evidenceBindingRequired
  let reasons ← normalizeEvidenceReasons reference.reasons
  rejectIf (reference.status = .qualified ∧ reasons ≠ []) .evidenceBindingRequired
  rejectIf (reference.status ≠ .qualified ∧ reasons = []) .evidenceBindingRequired
  return accepted ++ [{ reference with reasons := reasons }]

def normalizeEvidenceBinding (binding : EvidenceSetBinding) :
    Except Error EvidenceSetBinding := do
  rejectIf (binding.sessionID = UUID.nil ∨ ¬ binding.status.IsValid ∨
    trimSpace binding.policyVersion = "" ∨ binding.qualifiedAt.IsZero) .evidenceBindingRequired
  let reasons ← normalizeEvidenceReasons binding.reasons
  let evidence ← binding.evidence.foldlM normalizeEvidenceReference []
  rejectIf (binding.status = .qualified ∧
    (evidence = [] ∨ reasons ≠ [] ∨ ∃ reference ∈ evidence, reference.status ≠ .qualified))
    .evidenceBindingRequired
  rejectIf (binding.status = .unavailable ∧ (evidence ≠ [] ∨ reasons = []))
    .evidenceBindingRequired
  rejectIf (binding.status = .rejected ∧
    ¬ (reasons ≠ [] ∨ ∃ reference ∈ evidence, reference.status ≠ .qualified))
    .evidenceBindingRequired
  return ⟨binding.sessionID, binding.status, trimSpace binding.policyVersion,
    binding.qualifiedAt.toUTC, reasons, evidence⟩

/-- What later code relies on in a bound evidence set: distinct objects, all of
them qualified when the set is. -/
structure EvidenceSetBinding.Coherent (binding : EvidenceSetBinding) : Prop where
  nodup : (binding.evidence.map (·.evidenceID)).Nodup
  qualified : binding.status = .qualified →
    ∀ reference ∈ binding.evidence, reference.status = .qualified

theorem normalizeEvidenceReference_nodup {accepted result : List EvidenceReference}
    {reference : EvidenceReference} (hnodup : (accepted.map (·.evidenceID)).Nodup)
    (h : normalizeEvidenceReference accepted reference = .ok result) :
    (result.map (·.evidenceID)).Nodup := by
  simp only [normalizeEvidenceReference, bind_eq_ok, rejectIf_eq_ok, pure_eq_ok,
    exists_const] at h
  obtain ⟨-, hnew, reasons, -, -, -, rfl⟩ := h
  have happend := nodup_appendNew reference.evidenceID hnodup
  rw [appendNew_of_not_mem hnew] at happend
  rw [List.map_append, List.map_singleton]
  exact happend

theorem normalizeEvidenceBinding_eq_ok {binding normalized : EvidenceSetBinding}
    (h : normalizeEvidenceBinding binding = .ok normalized) :
    normalized.sessionID = binding.sessionID ∧ normalized.Coherent := by
  simp only [normalizeEvidenceBinding, bind_eq_ok, rejectIf_eq_ok, pure_eq_ok, exists_const,
    not_and, not_or, not_exists, not_not] at h
  obtain ⟨-, reasons, -, evidence, hevidence, hqualified, -, -, rfl⟩ := h
  refine ⟨rfl, ?_, ?_⟩
  · refine foldlM_invariant (fun acc => (acc.map EvidenceReference.evidenceID).Nodup) ?_
      List.nodup_nil hevidence
    intro acc reference acc' hacc hstep
    exact normalizeEvidenceReference_nodup hacc hstep
  · intro hstatus reference hreference
    exact (hqualified hstatus).2.2 reference hreference

/-! ### Normalising twice -/

theorem normalizeEvidenceReasons_normal {reasons out : List String}
    (h : normalizeEvidenceReasons reasons = .ok out) : NormalReasonCodes out := by
  refine foldlM_invariant NormalReasonCodes ?_ ⟨List.nodup_nil, by simp⟩ h
  rintro acc reason acc' ⟨hnodup, hall⟩ hstep
  -- as a variable, since the pattern would be evaluated on the expression
  generalize toUpper (trimSpace reason) = code at hstep
  split at hstep
  · rw [← Except.ok.inj hstep]
    exact ⟨hnodup, hall⟩
  · simp only [bind_eq_ok, rejectIf_eq_ok, exists_const, pure_eq_ok, not_not] at hstep
    obtain ⟨hcode, rfl⟩ := hstep
    refine ⟨nodup_appendNew _ hnodup, ?_⟩
    intro other hother
    rcases mem_appendNew.mp hother with hold | rfl
    · exact hall other hold
    · exact hcode

/-- Reasons that are codes already are kept, each of them once. -/
theorem normalizeEvidenceReasons_of_matches {codes : List String}
    (h : ∀ code ∈ codes, MatchesCode 1 63 code) :
    normalizeEvidenceReasons codes = .ok (codes.foldl appendNew []) := by
  unfold normalizeEvidenceReasons
  generalize ([] : List String) = acc
  induction codes generalizing acc with
  | nil => rfl
  | cons code rest ih =>
      have hcode := h code List.mem_cons_self
      have hsome : code ≠ "" := by
        rintro rfl
        exact absurd hcode (by decide)
      rw [List.foldlM_cons, hcode.trimSpace_eq, hcode.toUpper_eq, if_neg hsome,
        rejectIf_of_not _ (not_not.mpr hcode)]
      exact ih (fun c hc => h c (List.mem_cons_of_mem _ hc)) _

theorem NormalReasonCodes.normalizeEvidenceReasons {codes : List String}
    (h : NormalReasonCodes codes) : normalizeEvidenceReasons codes = .ok codes := by
  rw [normalizeEvidenceReasons_of_matches h.2,
    foldl_appendNew_of_nodup (by simpa using h.1), List.nil_append]

/-- The form of a reference in a bound evidence set. -/
structure EvidenceReference.Normal (reference : EvidenceReference) : Prop where
  evidenceID_set : reference.evidenceID ≠ UUID.nil
  status_valid : reference.status.IsValid
  reasons_normal : NormalReasonCodes reference.reasons
  qualified_iff : reference.status = .qualified ↔ reference.reasons = []

theorem normalizeEvidenceReference_normal {accepted result : List EvidenceReference}
    {reference : EvidenceReference} (haccepted : ∀ other ∈ accepted, other.Normal)
    (h : normalizeEvidenceReference accepted reference = .ok result) :
    ∀ other ∈ result, other.Normal := by
  simp only [normalizeEvidenceReference, bind_eq_ok, rejectIf_eq_ok, pure_eq_ok, exists_const,
    not_or, not_not, not_and] at h
  obtain ⟨⟨hid, hstatus⟩, -, reasons, hreasons, hqualified, hother, rfl⟩ := h
  intro other hmem
  rcases List.mem_append.mp hmem with hold | hlast
  · exact haccepted other hold
  · rw [List.mem_singleton.mp hlast]
    refine ⟨hid, hstatus, normalizeEvidenceReasons_normal hreasons, hqualified, ?_⟩
    intro hempty
    by_contra hne
    exact hother hne hempty

/-- What the loop over the references asks of one of them; `reasons` are its reasons
after they have been normalised. -/
structure EvidenceReference.Acceptable (reference : EvidenceReference) (reasons : List String) :
    Prop where
  evidenceID_set : reference.evidenceID ≠ UUID.nil
  status_valid : reference.status.IsValid
  reasons_eq : normalizeEvidenceReasons reference.reasons = .ok reasons
  qualified_iff : reference.status = .qualified ↔ reasons = []

/-- Distinct acceptable references pass through the loop. -/
theorem normalizeEvidenceReferences_of_acceptable {references : List EvidenceReference}
    {reasons : EvidenceReference → List String}
    (hall : ∀ reference ∈ references, reference.Acceptable (reasons reference))
    (hnodup : (references.map (·.evidenceID)).Nodup) :
    references.foldlM normalizeEvidenceReference [] =
      .ok (references.map fun reference => { reference with reasons := reasons reference }) := by
  have hloop : ∀ acc : List EvidenceReference,
      ((acc ++ references).map (·.evidenceID)).Nodup →
      references.foldlM normalizeEvidenceReference acc = .ok (acc ++
        references.map fun reference => { reference with reasons := reasons reference }) := by
    clear hnodup
    induction references with
    | nil =>
        intro acc _
        rw [List.map_nil, List.append_nil]
        rfl
    | cons reference rest ih =>
        intro acc hdistinct
        have href := hall reference List.mem_cons_self
        have hnew : reference.evidenceID ∉ acc.map (·.evidenceID) := by
          rw [List.map_append, List.map_cons] at hdistinct
          exact fun hmem =>
            List.disjoint_of_nodup_append hdistinct hmem List.mem_cons_self
        have hstep : normalizeEvidenceReference acc reference =
            .ok (acc ++ [{ reference with reasons := reasons reference }]) := by
          simp only [normalizeEvidenceReference, bind_eq_ok, rejectIf_eq_ok, pure_eq_ok,
            exists_const, not_or, not_not, not_and]
          exact ⟨⟨href.evidenceID_set, href.status_valid⟩, hnew, reasons reference,
            href.reasons_eq, href.qualified_iff.mp,
            fun hne hempty => hne (href.qualified_iff.mpr hempty), rfl⟩
        rw [List.foldlM_cons, hstep, ok_bind,
          ih (fun other hmem => hall other (List.mem_cons_of_mem _ hmem)) _
            (by simpa using hdistinct),
          List.append_assoc, List.map_cons, List.singleton_append]
  exact hloop [] (by simpa using hnodup)

/-- Distinct normal references pass through the loop unchanged. -/
theorem normalizeEvidenceReferences_of_normal {references : List EvidenceReference}
    (hnormal : ∀ reference ∈ references, reference.Normal)
    (hnodup : (references.map (·.evidenceID)).Nodup) :
    references.foldlM normalizeEvidenceReference [] = .ok references := by
  have hall : ∀ reference ∈ references, reference.Acceptable reference.reasons := by
    intro reference hmem
    have hreference := hnormal reference hmem
    exact ⟨hreference.evidenceID_set, hreference.status_valid,
      hreference.reasons_normal.normalizeEvidenceReasons, hreference.qualified_iff⟩
  rw [normalizeEvidenceReferences_of_acceptable hall hnodup, List.map_id']

/-- A normalised binding is in normal form. -/
theorem normalizeEvidenceBinding_idem {binding normalized : EvidenceSetBinding}
    (h : normalizeEvidenceBinding binding = .ok normalized) :
    normalizeEvidenceBinding normalized = .ok normalized := by
  have hnodup := (normalizeEvidenceBinding_eq_ok h).2.nodup
  simp only [normalizeEvidenceBinding, bind_eq_ok, rejectIf_eq_ok, pure_eq_ok,
    exists_const] at h ⊢
  obtain ⟨hhead, reasons, hreasons, evidence, hevidence, hqualified, hunavailable, hrejected,
    rfl⟩ := h
  have hnormal : ∀ reference ∈ evidence, reference.Normal :=
    foldlM_invariant (fun acc => ∀ reference ∈ acc, EvidenceReference.Normal reference)
      (fun _ _ _ hacc hstep => normalizeEvidenceReference_normal hacc hstep)
      (fun _ hmem => absurd hmem List.not_mem_nil) hevidence
  refine ⟨?_, reasons, (normalizeEvidenceReasons_normal hreasons).normalizeEvidenceReasons,
    evidence, normalizeEvidenceReferences_of_normal hnormal hnodup, hqualified, hunavailable,
    hrejected, ?_⟩
  · rw [trimSpace_trimSpace]
    exact hhead
  · rw [trimSpace_trimSpace, Time.toUTC_toUTC]

/-- `evidenceBindingsEqual`: times are compared as instants. -/
def EvidenceBindingsEqual (left right : EvidenceSetBinding) : Prop :=
  left.sessionID = right.sessionID ∧ left.status = right.status ∧
    left.policyVersion = right.policyVersion ∧ left.qualifiedAt.Equal right.qualifiedAt ∧
    left.reasons = right.reasons ∧ left.evidence = right.evidence
deriving Decidable

/-! ## Policy bindings -/

def normalizePolicyBinding (binding : PolicyBinding) : Except Error PolicyBinding := do
  rejectIf (trimSpace binding.policyID = "" ∨ trimSpace binding.version = "" ∨
    ¬ Digest.IsText (trimSpace binding.hash) ∨ binding.boundAt.IsZero) .policyBindingRequired
  return ⟨trimSpace binding.policyID, trimSpace binding.version, trimSpace binding.hash,
    binding.boundAt.toUTC⟩

theorem normalizePolicyBinding_eq_ok {binding normalized : PolicyBinding}
    (h : normalizePolicyBinding binding = .ok normalized) :
    normalized = ⟨trimSpace binding.policyID, trimSpace binding.version,
      trimSpace binding.hash, binding.boundAt.toUTC⟩ := by
  simp only [normalizePolicyBinding, bind_eq_ok, rejectIf_eq_ok, pure_eq_ok,
    exists_const] at h
  exact h.2.symm

theorem normalizePolicyBinding_idem {binding normalized : PolicyBinding}
    (h : normalizePolicyBinding binding = .ok normalized) :
    normalizePolicyBinding normalized = .ok normalized := by
  simp only [normalizePolicyBinding, bind_eq_ok, rejectIf_eq_ok, pure_eq_ok,
    exists_const] at h ⊢
  obtain ⟨hfields, rfl⟩ := h
  simp only [trimSpace_trimSpace, Time.toUTC_toUTC, and_true]
  exact hfields

end Evaluation
end CargoPds
