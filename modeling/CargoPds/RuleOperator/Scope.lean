import CargoPds.Policy.Hash
import CargoPds.RuleOperator.Compiler

/-!
# What a policy can be satisfied by

A required rule looks at evidence of certain types and sources.  `ValidatePolicyDocument`
admits it if the qualification policy of the same document does not exclude them.  The
texts of the document pass through several normalisations on the way: the operators trim
the source but not the type, the scope check trims both, and evidence can only be made
with a type of the form `[A-Z][A-Z0-9_]{0,63}`.
-/

namespace CargoPds
namespace RuleOperator

open Fallible Text Policy

variable {lib : Platform}
variable {qualification : Evidence.QualificationPolicy} {operator : Operator} {ruleID : String}
variable {written : Selector} {version : Version lib}

/-! ## Selectors before and after compilation -/

/-- The selectors through which an operator looks at the evidence. -/
def Operator.selectors : Operator → List Selector
  | .match _ selector _ => [selector]
  | .range _ selector _ _ => [selector]
  | .tolerance _ selector _ _ => [selector]
  | .existence _ evidenceType sourceID _ => [⟨evidenceType, sourceID, ""⟩]
  | .sequence _ steps _ _ => steps.map (·.selector)

/-- The selectors that a rule of a document has, by its operator. -/
def writtenSelectors (rule : PolicyRuleV1) : List SelectorV1 :=
  match operatorName rule.operator with
  | .error _ => []
  | .ok .existence => [⟨rule.evidenceType.getD "", rule.sourceID.getD "", ""⟩]
  | .ok .sequence => rule.steps.map (·.selector)
  | .ok _ => rule.selector.toList

theorem required_eq_ok {α : Type} {field : Option α} {value : α} :
    required field = .ok value ↔ field = some value := by
  cases field <;> simp [required]

theorem normalizeRuleID_eq_ok {normalized : String} (h : normalizeRuleID ruleID = .ok normalized) :
    normalized = trimSpace ruleID := by
  simp only [normalizeRuleID, bind_eq_ok, rejectIf_eq_ok, pure_eq_ok, exists_const] at h
  exact h.2.symm

/-- The compiled selector has the type as it is written and the trimmed source. -/
def Keeps (written compiled : Selector) : Prop :=
  compiled.evidenceType = written.evidenceType ∧
    compiled.sourceID = trimSpace written.sourceID

theorem normalizeSelector_keeps {compiled : Selector}
    (h : normalizeSelector written = .ok compiled) :
    Keeps written compiled := by
  simp only [normalizeSelector, bind_eq_ok, rejectIf_eq_ok, pure_eq_ok, exists_const] at h
  obtain ⟨-, -, -, rfl⟩ := h
  exact ⟨rfl, rfl⟩

/-- The operator has the identifier and the selectors that it was made with. -/
structure MadeFrom (ruleID : String) (written : List Selector) (operator : Operator) : Prop where
  ruleID : operator.ruleID = trimSpace ruleID
  selectors : List.Forall₂ Keeps written operator.selectors

/-- An operator with one selector. -/
theorem MadeFrom.single {normalized : String} {compiled : Selector}
    (hid : normalizeRuleID ruleID = .ok normalized)
    (hselector : normalizeSelector written = .ok compiled) (hruleID : operator.ruleID = normalized)
    (hselectors : operator.selectors = [compiled]) : MadeFrom ruleID [written] operator := by
  refine ⟨hruleID.trans (normalizeRuleID_eq_ok hid), ?_⟩
  rw [hselectors]
  exact .cons (normalizeSelector_keeps hselector) .nil

theorem newMatchOperator_madeFrom {expected : Bytes}
    (h : newMatchOperator lib ruleID written expected = .ok operator) :
    MadeFrom ruleID [written] operator := by
  simp only [newMatchOperator, bind_eq_ok, pure_eq_ok] at h
  obtain ⟨_, hid, _, hselector, _, -, rfl⟩ := h
  exact .single hid hselector rfl rfl

theorem newRangeOperator_madeFrom {minimum maximum : String}
    (h : newRangeOperator lib ruleID written minimum maximum = .ok operator) :
    MadeFrom ruleID [written] operator := by
  simp only [newRangeOperator, bind_eq_ok, rejectIf_eq_ok, pure_eq_ok, exists_const] at h
  obtain ⟨_, hid, _, hselector, _, -, _, -, -, rfl⟩ := h
  exact .single hid hselector rfl rfl

theorem newToleranceOperator_madeFrom {expected tolerance : String}
    (h : newToleranceOperator lib ruleID written expected tolerance = .ok operator) :
    MadeFrom ruleID [written] operator := by
  simp only [newToleranceOperator, bind_eq_ok, rejectIf_eq_ok, pure_eq_ok, exists_const] at h
  obtain ⟨_, hid, _, hselector, _, -, _, -, -, rfl⟩ := h
  exact .single hid hselector rfl rfl

theorem newExistenceOperator_madeFrom {sourceID : String} {evidenceType : Evidence.EvidenceType}
    {minimumCount : UInt32}
    (h : newExistenceOperator ruleID evidenceType sourceID minimumCount = .ok operator) :
    MadeFrom ruleID [⟨evidenceType, sourceID, ""⟩] operator := by
  simp only [newExistenceOperator, bind_eq_ok, rejectIf_eq_ok, pure_eq_ok, exists_const] at h
  obtain ⟨_, hid, compiled, hselector, -, rfl⟩ := h
  -- the operator keeps the type and the source of the selector, but no pointer
  have hkeeps := normalizeSelector_keeps hselector
  exact ⟨normalizeRuleID_eq_ok hid, .cons ⟨hkeeps.1, hkeeps.2⟩ .nil⟩

theorem newSequenceOperator_madeFrom {steps : List SequenceStep} {maxGap maxDuration : Int}
    (h : newSequenceOperator lib ruleID steps maxGap maxDuration = .ok operator) :
    MadeFrom ruleID (steps.map (·.selector)) operator := by
  simp only [newSequenceOperator, bind_eq_ok, rejectIf_eq_ok, pure_eq_ok, exists_const] at h
  obtain ⟨_, hid, -, -, normalized, hsteps, rfl⟩ := h
  refine ⟨normalizeRuleID_eq_ok hid, ?_⟩
  change List.Forall₂ Keeps (steps.map (·.selector)) (normalized.map (·.selector))
  rw [List.forall₂_map_left_iff, List.forall₂_map_right_iff]
  refine (mapM_eq_ok.mp hsteps).imp ?_
  intro step compiled hstep
  simp only [bind_eq_ok, pure_eq_ok] at hstep
  obtain ⟨_, hselector, _, -, rfl⟩ := hstep
  exact normalizeSelector_keeps hselector

/-- One case for each operator. -/
theorem compilePolicyRule_madeFrom {rule : PolicyRuleV1}
    (h : compilePolicyRule lib rule = .ok operator) :
    MadeFrom (trimSpace rule.ruleID) ((writtenSelectors rule).map selector) operator := by
  unfold compilePolicyRule at h
  obtain ⟨name, hname, h⟩ := bind_eq_ok.mp h
  unfold writtenSelectors
  rw [hname]
  cases name with
  | «match» =>
      simp only [bind_eq_ok, rejectIf_eq_ok, exists_const, required_eq_ok] at h
      obtain ⟨-, written, hwritten, h⟩ := h
      simp only [hwritten, Option.toList_some, List.map_cons, List.map_nil]
      exact newMatchOperator_madeFrom h
  | range =>
      simp only [bind_eq_ok, rejectIf_eq_ok, exists_const, required_eq_ok] at h
      obtain ⟨-, written, hwritten, _, -, _, -, h⟩ := h
      simp only [hwritten, Option.toList_some, List.map_cons, List.map_nil]
      exact newRangeOperator_madeFrom h
  | tolerance =>
      simp only [bind_eq_ok, rejectIf_eq_ok, exists_const, required_eq_ok] at h
      obtain ⟨-, written, hwritten, _, -, _, -, h⟩ := h
      simp only [hwritten, Option.toList_some, List.map_cons, List.map_nil]
      exact newToleranceOperator_madeFrom h
  | existence =>
      simp only [bind_eq_ok, rejectIf_eq_ok, exists_const, required_eq_ok] at h
      obtain ⟨-, written, hwritten, _, -, h⟩ := h
      simp only [hwritten, Option.getD_some]
      exact newExistenceOperator_madeFrom h
  | sequence =>
      simp only [bind_eq_ok, rejectIf_eq_ok, exists_const] at h
      obtain ⟨-, -, _, -, _, -, h⟩ := h
      have hmade := newSequenceOperator_madeFrom h
      rw [List.map_map] at hmade ⊢
      exact hmade

/-- The rule of a document that has the given identifier. -/
def ruleOf (document : PolicyDocumentV1) (ruleID : String) : Option PolicyRuleV1 :=
  document.rules.find? fun rule => trimSpace rule.ruleID = trimSpace ruleID

theorem compileRule_eq_ok (h : compileRule lib version ruleID = .ok operator) :
    ∃ document rule, decodePolicyDocument lib version = .ok document ∧
      ruleOf document ruleID = some rule ∧
      MadeFrom ruleID ((writtenSelectors rule).map selector) operator := by
  simp only [compileRule, bind_eq_ok, rejectIf_eq_ok, exists_const] at h
  obtain ⟨document, hdocument, -, -, _, -, h⟩ := h
  cases hrule : document.rules.find? fun rule => trimSpace rule.ruleID = trimSpace ruleID with
  | none =>
      rw [hrule] at h
      exact absurd h (by simp)
  | some rule =>
      rw [hrule] at h
      have hmade := compilePolicyRule_madeFrom h
      have hid : trimSpace rule.ruleID = trimSpace ruleID := by simpa using List.find?_some hrule
      refine ⟨document, rule, hdocument, hrule, ?_, hmade.selectors⟩
      rw [hmade.ruleID, trimSpace_trimSpace, hid]

/-! ## The scope check -/

/-- The qualification policy excludes neither the type nor an explicit source, once both
are trimmed. -/
def InScope (qualification : Evidence.QualificationPolicy) (written : SelectorV1) : Prop :=
  ¬ Evidence.Denies qualification.allowedTypes (trimSpace written.evidenceType) ∧
    (trimSpace written.sourceID = "" ∨
      ¬ Evidence.Denies qualification.trustedSources (trimSpace written.sourceID))

theorem validateEvidenceQualificationScope_eq_ok {written : SelectorV1} {u : Unit} :
    validateEvidenceQualificationScope written.evidenceType written.sourceID qualification =
      .ok u ↔ InScope qualification written := by
  simp only [validateEvidenceQualificationScope, bind_eq_ok, rejectIf_eq_ok, exists_const,
    not_and_or, ne_eq, not_not, InScope]

theorem validateRuleQualificationScope_eq_ok {rules : List PolicyRuleV1}
    (h : validateRuleQualificationScope rules ruleID qualification = .ok ()) :
    ∃ rule, (rules.find? fun rule => trimSpace rule.ruleID = ruleID) = some rule ∧
      ∀ written ∈ writtenSelectors rule, InScope qualification written := by
  unfold validateRuleQualificationScope at h
  cases hrule : rules.find? fun rule => trimSpace rule.ruleID = ruleID with
  | none =>
      rw [hrule] at h
      exact absurd h (by simp)
  | some rule =>
      rw [hrule] at h
      refine ⟨rule, rfl, ?_⟩
      obtain ⟨name, hname, h⟩ := bind_eq_ok.mp h
      unfold writtenSelectors
      rw [hname]
      have hselector : ∀ written, (do
            validateSelectorQualificationScope (← required rule.selector) qualification) =
            .ok () → written ∈ rule.selector.toList → InScope qualification written := by
        intro written hscope hwritten
        obtain ⟨value, hvalue, hscope⟩ := bind_eq_ok.mp hscope
        rw [required_eq_ok.mp hvalue, Option.toList_some, List.mem_singleton] at hwritten
        rw [hwritten]
        exact validateEvidenceQualificationScope_eq_ok.mp hscope
      cases name with
      | «match» => exact fun written => hselector written h
      | range => exact fun written => hselector written h
      | tolerance => exact fun written => hselector written h
      | existence =>
          obtain ⟨value, hvalue, hscope⟩ := bind_eq_ok.mp h
          intro written hwritten
          simp only [required_eq_ok.mp hvalue, Option.getD_some, List.mem_singleton] at hwritten
          rw [hwritten]
          exact validateEvidenceQualificationScope_eq_ok.mp hscope
      | sequence =>
          obtain ⟨checked, hchecked, -⟩ := bind_eq_ok.mp h
          intro written hwritten
          obtain ⟨step, hstep, rfl⟩ := List.mem_map.mp hwritten
          obtain ⟨_, -, hscope⟩ := exists_of_mem_left (mapM_eq_ok.mp hchecked) hstep
          exact validateEvidenceQualificationScope_eq_ok.mp hscope

/-! ## The qualification policy -/

/-- A set of trimmed texts. -/
def TrimmedSet (set : List (String × Bool)) : Prop :=
  ∀ entry ∈ set, Canonical entry.1 ∧ entry.2 = true

theorem stringSet_trimmed {values : List String} {set : List (String × Bool)}
    (h : stringSet values = .ok set) : TrimmedSet set := by
  refine foldlM_invariant TrimmedSet ?_ ?_ h
  · intro acc value acc' hacc hstep
    simp only [bind_eq_ok, rejectIf_eq_ok, exists_const, pure_eq_ok, not_or] at hstep
    obtain ⟨⟨hsome, -⟩, rfl⟩ := hstep
    intro entry hentry
    rcases List.mem_append.mp hentry with hold | hlast
    · exact hacc entry hold
    · rw [List.mem_singleton.mp hlast]
      exact ⟨canonical_trimSpace hsome, rfl⟩
  · intro entry hentry
    exact absurd hentry List.not_mem_nil

/-- What is known of a compiled qualification policy. -/
structure Qualifies (qualification : Evidence.QualificationPolicy)
    (qualifier : Evidence.Qualifier) : Prop where
  made : Evidence.newQualifier qualification = .ok qualifier
  sources : TrimmedSet qualification.trustedSources
  trustedSources : qualifier.policy.trustedSources = qualification.trustedSources
  allowedTypes : qualifier.policy.allowedTypes = qualification.allowedTypes

theorem compileQualificationPolicy_eq_ok
    (h : compileQualificationPolicy lib version = .ok qualification) :
    ∃ qualifier, Qualifies qualification qualifier := by
  unfold compileQualificationPolicy at h
  obtain ⟨document, -, h⟩ := bind_eq_ok.mp h
  split at h
  · exact absurd h (by simp)
  · simp only [bind_eq_ok, pure_eq_ok, orElseError_eq_ok] at h
    obtain ⟨_, -, _, -, sources, hsources, _, -, _, -, _, -, types, -, qualifier, hqualifier,
      rfl⟩ := h
    have htrimmed := stringSet_trimmed hsources
    refine ⟨qualifier, hqualifier, htrimmed, ?_, ?_⟩
    · simp only [Evidence.newQualifier, bind_eq_ok, rejectIf_eq_ok, exists_const,
        pure_eq_ok] at hqualifier
      obtain ⟨-, -, -, -, rfl⟩ := hqualifier
      -- trimming the sources again changes nothing
      change sources.map (fun entry => (trimSpace entry.1, entry.2)) = sources
      rw [List.map_congr_left fun entry hentry => by rw [← (htrimmed entry hentry).1.2],
        List.map_id']
    · simp only [Evidence.newQualifier, bind_eq_ok, rejectIf_eq_ok, exists_const,
        pure_eq_ok] at hqualifier
      obtain ⟨-, -, -, -, rfl⟩ := hqualifier
      rfl

/-- What `ValidatePolicyDocument` accepts. -/
structure Validated (version : Version lib) (qualification : Evidence.QualificationPolicy)
    (document : PolicyDocumentV1) : Prop where
  compiled : compileQualificationPolicy lib version = .ok qualification
  decoded : decodePolicyDocument lib version = .ok document
  rules : ∀ ruleID ∈ version.snapshot.requiredRuleIDs, ∃ operator,
    compileRule lib version ruleID = .ok operator
  scope : ∀ ruleID ∈ version.snapshot.requiredRuleIDs, ∃ rule,
    ruleOf document ruleID = some rule ∧
      ∀ written ∈ writtenSelectors rule, InScope qualification written

theorem validatePolicyDocument_eq_ok (h : validatePolicyDocument lib version = .ok ()) :
    ∃ qualification document, Validated version qualification document := by
  simp only [validatePolicyDocument, bind_eq_ok] at h
  obtain ⟨qualification, hcompiled, document, hdecoded, checked, hchecked, -⟩ := h
  have hrule : ∀ ruleID ∈ version.snapshot.requiredRuleIDs,
      (∃ operator, compileRule lib version ruleID = .ok operator) ∧
        validateRuleQualificationScope document.rules ruleID qualification = .ok () := by
    intro ruleID hmem
    obtain ⟨_, -, hround⟩ := exists_of_mem_left (mapM_eq_ok.mp hchecked) hmem
    obtain ⟨operator, hoperator, hscope⟩ := bind_eq_ok.mp hround
    exact ⟨⟨operator, hoperator⟩, hscope⟩
  refine ⟨qualification, document, hcompiled, hdecoded, fun ruleID hmem => (hrule ruleID hmem).1,
    ?_⟩
  intro ruleID hmem
  obtain ⟨rule, hfind, hscope⟩ := validateRuleQualificationScope_eq_ok (hrule ruleID hmem).2
  have hid := (version.normal.plan_normal.canonical ruleID hmem).2
  refine ⟨rule, ?_, hscope⟩
  rw [ruleOf, ← hid]
  exact hfind

/-! ## Evidence for a selector -/

/-- Evidence of any admissible type and from any source can be made. -/
theorem exists_newObject {source canonical : Bytes} {evidenceType : Evidence.EvidenceType}
    {sourceID : String} (hpayload : lib.canonicalJSON source = some canonical)
    (htype : MatchesCode 0 63 evidenceType) (hsource : Canonical sourceID) :
    ∃ input object, Evidence.newObject lib input = .ok object ∧
      object.snapshot.evidenceType = evidenceType ∧ object.snapshot.sourceID = sourceID := by
  have hname : trimSpace (trimSpace sourceID) ≠ "" := by
    rw [trimSpace_trimSpace]
    exact hsource.trimSpace_ne_empty
  have htext : trimSpace (trimSpace "text") ≠ "" := by decide
  let t : Time := ⟨1, .utc⟩
  let id : UUID := 1
  let input : Evidence.Input := ⟨id, id, sourceID, "text", evidenceType, t, t, source, none, [],
    "text", "text", "text"⟩
  have hid : id ≠ UUID.nil := by decide
  have ht : ¬ t.toUTC.IsZero := by decide
  have horder : ¬ t.toUTC.Before t.toUTC := by decide
  have hvalid : Evidence.validateSnapshot (Evidence.snapshotOf lib input canonical) = .ok () := by
    simp only [Evidence.validateSnapshot, bind_eq_ok, rejectIf_eq_ok, exists_const, not_not]
    refine ⟨hid, hid, hname, htext, htype, ht, ht, horder, ?_, htext, htext, htext⟩
    rintro ⟨confidence, hconfidence, -⟩
    exact absurd hconfidence (by simp [input, Evidence.snapshotOf])
  refine ⟨input, ⟨Evidence.snapshotOf lib input canonical⟩, ?_, rfl, hsource.2.symm⟩
  simp only [Evidence.newObject, Evidence.canonicalJSON, input, hpayload, ok_bind]
  rw [hvalid]
  rfl

theorem newObject_type {input : Evidence.Input} {object : Evidence.Object}
    (h : Evidence.newObject lib input = .ok object) :
    MatchesCode 0 63 object.snapshot.evidenceType := by
  simp only [Evidence.newObject, bind_eq_ok, pure_eq_ok, Evidence.validateSnapshot,
    rejectIf_eq_ok, exists_const, not_not] at h
  obtain ⟨_, -, ⟨-, -, -, -, htype, -⟩, rfl⟩ := h
  exact htype

/-- The qualifier has nothing against the type and the source of an object at any time. -/
def AdmitsScope (lib : Platform) (qualifier : Evidence.Qualifier) (snapshot : Evidence.Snapshot) :
    Prop :=
  ∀ t, ∀ reason ∈ qualifier.objections lib snapshot t,
    reason.code ≠ .sourceUntrusted ∧ reason.code ≠ .typeNotAllowed

theorem admitsScope_of_not_denies {qualifier : Evidence.Qualifier} {snapshot : Evidence.Snapshot}
    (hsource : ¬ Evidence.Denies qualifier.policy.trustedSources snapshot.sourceID)
    (htype : ¬ Evidence.Denies qualifier.policy.allowedTypes snapshot.evidenceType) :
    AdmitsScope lib qualifier snapshot := by
  -- the other checks give other codes
  have hother : ∀ (applies : Prop) [Decidable applies] (code : Evidence.QualificationReasonCode)
      (field : String) (reason : Evidence.QualificationReason),
      reason ∈ Evidence.reasonIf applies code field → reason.code = code := by
    intro applies _ code field reason hreason
    unfold Evidence.reasonIf at hreason
    split at hreason
    · rw [List.mem_singleton.mp hreason]
    · exact absurd hreason List.not_mem_nil
  intro t reason hreason
  unfold Evidence.Qualifier.objections at hreason
  simp only [List.mem_append, List.mem_flatMap] at hreason
  rcases hreason with (((((hreason | hreason) | hreason) | hreason) | hreason) | hreason) | hreason
  · rw [Evidence.reasonIf, if_neg hsource] at hreason
    exact absurd hreason List.not_mem_nil
  · rw [Evidence.reasonIf, if_neg htype] at hreason
    exact absurd hreason List.not_mem_nil
  · split at hreason
    · rw [List.mem_singleton.mp hreason]
      simp
    · simp [hother _ _ _ _ hreason]
  · split at hreason <;> simp [hother _ _ _ _ hreason]
  · obtain ⟨_, -, hreason⟩ := hreason
    simp [hother _ _ _ _ hreason]
  · obtain ⟨_, -, hreason⟩ := hreason
    simp [hother _ _ _ _ hreason]
  · simp [hother _ _ _ _ hreason]

/-- Evidence can be made that the selector matches and whose type and source the qualifier
does not reject. -/
def Satisfiable (lib : Platform) (qualifier : Evidence.Qualifier) (selector : Selector) : Prop :=
  ∃ input object, Evidence.newObject lib input = .ok object ∧
    SelectorMatches object.snapshot selector ∧ AdmitsScope lib qualifier object.snapshot

/-- A source that the qualification policy trusts. -/
theorem exists_trusted_source (hsources : TrimmedSet qualification.trustedSources) :
    ∃ sourceID, Canonical sourceID ∧
      ¬ Evidence.Denies qualification.trustedSources sourceID := by
  cases hset : qualification.trustedSources with
  | nil => exact ⟨"source", ⟨by decide, by decide⟩, fun hdenies => hdenies.1 rfl⟩
  | cons entry rest =>
      have hentry := hsources entry (by rw [hset]; exact List.mem_cons_self)
      refine ⟨entry.1, hentry.1, fun hdenies => hdenies.2 ?_⟩
      rw [List.lookup_cons, beq_self_eq_true]
      exact congrArg some hentry.2

/-- A selector that is in scope is satisfiable if evidence can have its type. -/
theorem satisfiable_of_inScope {qualifier : Evidence.Qualifier} {written : SelectorV1}
    {compiled : Selector} {source canonical : Bytes}
    (hpayload : lib.canonicalJSON source = some canonical)
    (hqualifies : Qualifies qualification qualifier) (hscope : InScope qualification written)
    (hkeeps : Keeps (selector written) compiled) (htype : MatchesCode 0 63 written.evidenceType) :
    Satisfiable lib qualifier compiled := by
  -- the source of the selector, or one that is trusted if the selector names none
  obtain ⟨sourceID, hcanonical, htrusted, hselected⟩ : ∃ sourceID, Canonical sourceID ∧
      ¬ Evidence.Denies qualification.trustedSources sourceID ∧
        (compiled.sourceID = "" ∨ sourceID = compiled.sourceID) := by
    by_cases hnone : trimSpace written.sourceID = ""
    · obtain ⟨sourceID, hcanonical, htrusted⟩ := exists_trusted_source hqualifies.sources
      exact ⟨sourceID, hcanonical, htrusted, Or.inl (hkeeps.2.trans hnone)⟩
    · exact ⟨trimSpace written.sourceID, canonical_trimSpace hnone,
        hscope.2.resolve_left hnone, Or.inr hkeeps.2.symm⟩
  obtain ⟨input, object, hobject, hobjectType, hobjectSource⟩ :=
    exists_newObject hpayload htype hcanonical
  refine ⟨input, object, hobject, ⟨?_, ?_⟩, admitsScope_of_not_denies ?_ ?_⟩
  · exact hobjectType.trans hkeeps.1.symm
  · rw [hobjectSource]
    exact hselected
  · rw [hobjectSource, hqualifies.trustedSources]
    exact htrusted
  · have hallowed := hscope.1
    rw [htype.trimSpace_eq] at hallowed
    rw [hobjectType, hqualifies.allowedTypes]
    exact hallowed

/-- Every selector of a required rule of an accepted policy is satisfiable if and only if
every evidence type that the required rules name is one that evidence can have. -/
theorem required_selectors_satisfiable_iff {version : Version lib} (haccepted : version.Accepted)
    (hvalid : validatePolicyDocument lib version = .ok ()) :
    (∀ ruleID ∈ version.snapshot.requiredRuleIDs, ∃ operator policy qualifier,
        compileRule lib version ruleID = .ok operator ∧
        compileQualificationPolicy lib version = .ok policy ∧
        Evidence.newQualifier policy = .ok qualifier ∧
        ∀ selector ∈ operator.selectors, Satisfiable lib qualifier selector) ↔
      ∀ document, decodePolicyDocument lib version = .ok document →
        ∀ ruleID ∈ version.snapshot.requiredRuleIDs, ∀ rule, ruleOf document ruleID = some rule →
          ∀ written ∈ writtenSelectors rule, MatchesCode 0 63 written.evidenceType := by
  obtain ⟨qualification, document, hvalidated⟩ := validatePolicyDocument_eq_ok hvalid
  obtain ⟨source, hpayload⟩ := haccepted.canonical.document
  constructor
  · intro hsatisfiable document' hdocument' ruleID hruleID rule hrule written hwritten
    obtain ⟨operator, policy, qualifier, hoperator, -, -, hselectors⟩ := hsatisfiable ruleID hruleID
    obtain ⟨document'', rule', hdocument'', hrule', hmade⟩ := compileRule_eq_ok hoperator
    obtain rfl : document' = document'' := Except.ok.inj (hdocument'.symm.trans hdocument'')
    obtain rfl : rule = rule' := Option.some.inj (hrule.symm.trans hrule')
    obtain ⟨compiled, hcompiled, hkeeps⟩ :=
      exists_of_mem_left hmade.selectors (List.mem_map_of_mem hwritten)
    obtain ⟨input, object, hobject, hmatches, -⟩ := hselectors compiled hcompiled
    have htype := newObject_type hobject
    rw [hmatches.1, hkeeps.1] at htype
    exact htype
  · intro htypes ruleID hruleID
    obtain ⟨operator, hoperator⟩ := hvalidated.rules ruleID hruleID
    obtain ⟨qualifier, hqualifies⟩ := compileQualificationPolicy_eq_ok hvalidated.compiled
    refine ⟨operator, qualification, qualifier, hoperator, hvalidated.compiled, hqualifies.made, ?_⟩
    obtain ⟨document', rule, hdocument', hrule, hmade⟩ := compileRule_eq_ok hoperator
    obtain rfl : document = document' :=
      Except.ok.inj (hvalidated.decoded.symm.trans hdocument')
    obtain ⟨rule', hrule', hscope⟩ := hvalidated.scope ruleID hruleID
    obtain rfl : rule = rule' := Option.some.inj (hrule.symm.trans hrule')
    intro compiled hcompiled
    obtain ⟨_, hmem, hkeeps⟩ := exists_of_mem_right hmade.selectors hcompiled
    obtain ⟨written, hwritten, rfl⟩ := List.mem_map.mp hmem
    exact satisfiable_of_inScope hpayload hqualifies (hscope written hwritten) hkeeps
      (htypes document hdocument' ruleID hruleID rule hrule written hwritten)

/-! ## A blank too many -/

namespace Scale

/-- A policy document with one rule: evidence of the given type exists. -/
def text (ruleID evidenceType : String) : Bytes :=
  utf8 "\x7b\"evidence_qualification\":\x7b\"allowed_types\":[\"WEIGHT\"]," ++
  utf8 "\"version\":\"qualification.v1\"\x7d,\"rules\":[\x7b\"evidence_type\":\"" ++
  utf8 evidenceType ++
  utf8 "\",\"minimum_count\":1,\"operator\":\"EXISTENCE\",\"rule_id\":\"" ++ utf8 ruleID ++
  utf8 "\"\x7d]\x7d"

def json (ruleID evidenceType : String) : Json := .object [
  ("evidence_qualification", .object [("allowed_types", .array [.string "WEIGHT"]),
    ("version", .string "qualification.v1")]),
  ("rules", .array [.object [("evidence_type", .string evidenceType),
    ("minimum_count", .number "1"), ("operator", .string "EXISTENCE"),
    ("rule_id", .string ruleID)]])]

def rule (ruleID evidenceType : String) : PolicyRuleV1 where
  ruleID := ruleID
  operator := "EXISTENCE"
  selector := none
  expected := []
  minimum := none
  maximum := none
  tolerance := none
  evidenceType := some evidenceType
  sourceID := none
  minimumCount := some 1
  steps := []
  maxGap := none
  maxDuration := none

def document (ruleID evidenceType : String) : PolicyDocumentV1 where
  evidenceQualification := some {
    version := "qualification.v1"
    trustedSources := []
    allowedTypes := ["WEIGHT"]
    allowedAcquisitionMethods := []
    maxAge := none
    futureTolerance := none
    requireConfidence := false
    minimumConfidence := none
    requiredProvenance := []
    requiredPayloadFields := [] }
  rules := [rule ruleID evidenceType]

/-- The rules and types of the documents of the example. -/
def documents : List (String × String) :=
  [("presence", "WEIGHT"), ("presence", " WEIGHT "), ("weight", "WEIGHT")]

/-- The document with the given text. -/
def find (payload : Bytes) : Option (String × String) :=
  documents.find? fun entry => text entry.1 entry.2 = payload

/-- The policy that requires the one rule of its document from eight o'clock on the first
of March 2026. -/
def envelope (evidenceType : String) : Envelope :=
  ⟨"cargo-transfer", "1.0.0", "policy.document.v1", Mode.eight, none, ["presence"],
    text "presence" evidenceType⟩

/-- The JSON of the policies. -/
def texts : List (Envelope × Bytes) :=
  ["WEIGHT", " WEIGHT "].map fun evidenceType => (envelope evidenceType,
    utf8 "\x7b\"policy_id\":\"cargo-transfer\",\"version\":\"1.0.0\"," ++
    utf8 "\"schema_version\":\"policy.document.v1\"," ++
    utf8 "\"effective_from\":\"2026-03-01T08:00:00Z\",\"required_rule_ids\":[\"presence\"]," ++
    utf8 "\"document\":" ++ text "presence" evidenceType ++ utf8 "\x7d")

/-- The SHA-256 sums of the empty message and of these texts. -/
def sums : List (Bytes × Digest) :=
  ([] :: texts.map (·.2)).zip [
    0xe3b0c44298fc1c149afbf4c8996fb92427ae41e4649b934ca495991b7852b855,
    0x09aa0c444225d7a367e1ef39d177bac3940cd20b5d295c9f19774346997c3a89,
    0xe79ee8f8fbad66623e62f3afa49054c8cf5271a4e4ecdba9de9c770116727497]

noncomputable def platform : Platform where
  __ := Platform.silent
  sha256 payload := (sums.lookup payload).getD Digest.zero
  decodeJSON payload := (find payload).map fun entry => json entry.1 entry.2
  marshalJSON
    | .object [_, ("rules", .array [.object [("evidence_type", .string evidenceType), _, _,
        ("rule_id", .string ruleID)]])] => some (text ruleID evidenceType)
    | _ => none
  decodePolicyDocument payload := (find payload).map fun entry => document entry.1 entry.2
  marshalPolicyEnvelope envelope :=
    if envelope.Writable then some (Tabled.encode 255 texts envelope) else none

def input (effectiveFrom : Time) (ruleID evidenceType : String) : Input :=
  ⟨"cargo-transfer", "1.0.0", "policy.document.v1", effectiveFrom, none, [ruleID],
    text ruleID evidenceType⟩

/-- The snapshot that `NewVersion` makes of an input. -/
def snapshot (input : Input) (hash : String) : Snapshot :=
  ⟨input.policyID, input.version, input.schemaVersion, input.effectiveFrom.toUTC,
    input.effectiveUntil, input.requiredRuleIDs, input.document, hash⟩

/-- The policy whose rule names the type with blanks, and the one that names it as it is
allowed. -/
def blankSnapshot : Snapshot := snapshot (input Mode.eight "presence" " WEIGHT ")
  "sha256:e79ee8f8fbad66623e62f3afa49054c8cf5271a4e4ecdba9de9c770116727497"

def plainSnapshot : Snapshot := snapshot (input Mode.eight "presence" "WEIGHT")
  "sha256:09aa0c444225d7a367e1ef39d177bac3940cd20b5d295c9f19774346997c3a89"

/-- The version that `NewVersion` makes when its snapshot is known. -/
noncomputable def made {input : Input} {snapshot : Snapshot}
    (h : (newVersion platform input).map (·.snapshot) = .ok snapshot) : Version platform where
  snapshot := snapshot
  normal := by
    obtain ⟨version, -, rfl⟩ := map_eq_ok.mp h
    exact version.normal
  hash_eq := by
    obtain ⟨version, -, rfl⟩ := map_eq_ok.mp h
    exact version.hash_eq

theorem newVersion_made {input : Input} {snapshot : Snapshot}
    (h : (newVersion platform input).map (·.snapshot) = .ok snapshot) :
    newVersion platform input = .ok (made h) := by
  obtain ⟨version, hversion, hsnapshot⟩ := map_eq_ok.mp h
  have hmade : version = made h := Version.ext_snapshot hsnapshot
  rw [hversion, hmade]

theorem blankSnapshot_made : (newVersion platform
    (input Mode.eight "presence" " WEIGHT ")).map (·.snapshot) = .ok blankSnapshot := by
  decide +kernel

theorem plainSnapshot_made : (newVersion platform
    (input Mode.eight "presence" "WEIGHT")).map (·.snapshot) = .ok plainSnapshot := by
  decide +kernel

noncomputable def blank : Version platform := made blankSnapshot_made

noncomputable def plain : Version platform := made plainSnapshot_made

end Scale

/-- A policy with blanks around the type of its rule is accepted, but no evidence can ever
match the selector of that rule. -/
theorem blank_type_unsatisfiable :
    ∃ version operator, newVersion Scale.platform
        (Scale.input Mode.eight "presence" " WEIGHT ") = .ok version ∧
      validatePolicyDocument Scale.platform version = .ok () ∧
      "presence" ∈ version.snapshot.requiredRuleIDs ∧
      compileRule Scale.platform version "presence" = .ok operator ∧
      ∃ selector ∈ operator.selectors, ∀ input object,
        Evidence.newObject Scale.platform input = .ok object →
          ¬ SelectorMatches object.snapshot selector := by
  refine ⟨Scale.blank, .existence "presence" " WEIGHT " "" 1, Scale.newVersion_made _,
    by decide +kernel, List.mem_singleton_self _, by decide +kernel, ⟨" WEIGHT ", "", ""⟩,
    List.mem_singleton_self _, ?_⟩
  intro input object hobject hmatches
  have htype := newObject_type hobject
  rw [hmatches.1] at htype
  exact absurd htype (by decide)

/-- The same policy without the blanks can be satisfied. -/
theorem plain_type_satisfiable :
    ∃ version, newVersion Scale.platform (Scale.input Mode.eight "presence" "WEIGHT") =
        .ok version ∧ validatePolicyDocument Scale.platform version = .ok () ∧
      ∀ ruleID ∈ version.snapshot.requiredRuleIDs, ∃ operator policy qualifier,
        compileRule Scale.platform version ruleID = .ok operator ∧
        compileQualificationPolicy Scale.platform version = .ok policy ∧
        Evidence.newQualifier policy = .ok qualifier ∧
        ∀ selector ∈ operator.selectors, Satisfiable Scale.platform qualifier selector := by
  have hvalid : validatePolicyDocument Scale.platform Scale.plain = .ok () := by decide +kernel
  refine ⟨Scale.plain, Scale.newVersion_made _, hvalid,
    (required_selectors_satisfiable_iff (Or.inl ⟨_, Scale.newVersion_made _⟩) hvalid).mpr ?_⟩
  intro document hdocument ruleID hruleID rule hrule written hwritten
  have hdecoded : decodePolicyDocument Scale.platform Scale.plain =
      .ok (Scale.document "presence" "WEIGHT") := by decide +kernel
  obtain rfl := Except.ok.inj (hdecoded.symm.trans hdocument)
  obtain rfl : ruleID = "presence" := List.mem_singleton.mp hruleID
  have hfound : ruleOf (Scale.document "presence" "WEIGHT") "presence" =
      some (Scale.rule "presence" "WEIGHT") := by decide
  obtain rfl := Option.some.inj (hfound.symm.trans hrule)
  have hselectors : writtenSelectors (Scale.rule "presence" "WEIGHT") = [⟨"WEIGHT", "", ""⟩] := by
    decide
  rw [hselectors, List.mem_singleton] at hwritten
  rw [hwritten]
  decide

end RuleOperator
end CargoPds
