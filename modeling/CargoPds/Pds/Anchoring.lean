import CargoPds.Concurrency.Amid
import CargoPds.Evidence.Duplicates
import CargoPds.Evaluation.Invariant
import CargoPds.Pds.Listing
import CargoPds.Pds.Retries

/-!
# Every qualification can be anchored

`QualifySession` produces results, and `BindEvidenceSet` checks them by rules of its own:
which reasons go with which status, when the set may be empty, that no object is named
twice.  The two packages state these rules independently.

* `Consistent` says what a result looks like; `qualifySession_consistent` proves it for
  every result over a repository that was filled by its own operations;
* `normalizeEvidenceBinding_of_consistent`: the checks accept such a result.  They keep
  it, except that a reason code which an object has several times (two missing fields,
  say) is kept once;
* `qualification_results_bound` follows the call through the store, with other clients
  at work that leave the evaluation alone.
-/

namespace CargoPds

/-- The times in an event. -/
def Evaluation.EventBody.times : EventBody → List Time
  | evidenceSetBound binding => [binding.qualifiedAt]
  | verificationPolicyBound binding => [binding.boundAt]
  | ruleOutcomeBatchRecorded outcomes recordedAt =>
      recordedAt :: outcomes.map (·.evaluatedAt)
  | ruleOutcomeReplaced previous replacement replacedAt =>
      [previous.evaluatedAt, replacement.evaluatedAt, replacedAt]
  | ruleOutcomeBatchReplaced previous replacements replacedAt =>
      replacedAt :: (previous ++ replacements).map (·.evaluatedAt)
  | ruleOutcomeRemoved outcome removedAt => [outcome.evaluatedAt, removedAt]
  | ruleOutcomeBatchRemoved outcomes removedAt => removedAt :: outcomes.map (·.evaluatedAt)
  | ruleOutcomesReset outcomes resetAt => resetAt :: outcomes.map (·.evaluatedAt)
  | body => [body.occurredAt]

namespace Pds

open Evaluation Evidence Concurrency Fallible Text

variable {lib : Platform}
variable {e : EvaluationAggregate} {sessionID : UUID} {normalized : EvidenceSetBinding}

/-- A time that survives being written as JSON and read again. -/
def Kept (t : Time) : Prop := t.IsUTC ∧ t.Writable

/-! ## What a qualification looks like -/

/-- The form of the results of `QualifySession`. -/
structure Consistent (result : SessionQualificationResult) : Prop where
  session_set : result.sessionID ≠ UUID.nil
  version_canonical : Canonical result.policyVersion
  time_set : ¬ result.evaluatedAt.IsZero
  time_utc : result.evaluatedAt.IsUTC
  ids_set : ∀ verdict ∈ result.evidence, verdict.evidenceID ≠ UUID.nil
  ids_distinct : (result.evidence.map (·.evidenceID)).Nodup
  judged : ∀ verdict ∈ result.evidence, verdict.status = .qualified ↔ verdict.reasons = []
  status : (result.evidence = [] ∧ result.status = .unavailable ∧
      result.reasons = [⟨.evidenceUnavailable, ""⟩]) ∨
    (result.evidence ≠ [] ∧ result.reasons = [] ∧
      result.status = if ∃ verdict ∈ result.evidence, verdict.status ≠ .qualified
        then .rejected else .qualified)

/-- The reasons of the session turn a qualified object into a rejected one. -/
theorem applySession_qualified_iff {result : QualificationResult}
    {extra : List QualificationReason} (h : result.status = .qualified ↔ result.reasons = []) :
    (applySession result extra).status = .qualified ↔ (applySession result extra).reasons = [] := by
  by_cases hempty : result.reasons ++ extra = []
  · have hreasons := (List.append_eq_nil_iff.mp hempty).1
    simp [applySession, hempty, h.mpr hreasons]
  · by_cases hqualified : result.status = .qualified
    · simp [applySession, hempty, hqualified]
    · simp [applySession, hempty, hqualified]

section
variable {verdict : Option Object → QualificationResult} {sessionID : UUID}
  {ordered : List (Option Object)}

theorem mem_settled {result : QualificationResult}
    (h : result ∈ settled verdict sessionID ordered) :
    ∃ object ∈ ordered, ∃ extra, result = applySession (verdict object) extra := by
  obtain ⟨⟨judgement, object, index⟩, hentry, rfl⟩ := List.mem_map.mp h
  obtain ⟨position, hposition, hentry⟩ := List.mem_iff_getElem.mp hentry
  simp only [List.getElem_zip, List.getElem_map, List.getElem_zipIdx, Prod.mk.injEq] at hentry
  obtain ⟨rfl, rfl, -⟩ := hentry
  exact ⟨_, List.getElem_mem _, _, rfl⟩

theorem settled_ids :
    (settled verdict sessionID ordered).map (·.evidenceID) =
      ordered.map fun object => (verdict object).evidenceID := by
  apply List.ext_getElem
  · simp [settled]
  · intro index _ _
    simp [settled, applySession]

end

theorem qualifySet_consistent {q : Qualifier} {objects : List Object} {evaluatedAt : Time}
    {result : SessionQualificationResult} (hversion : Canonical q.policy.version)
    (hids : DistinctIDs (objects.map (·.snapshot)))
    (hset : ∀ object ∈ objects, object.snapshot.evidenceID ≠ UUID.nil)
    (h : q.qualifySet lib sessionID (objects.map some) evaluatedAt = .ok result) :
    Consistent result ∧ result.sessionID = sessionID ∧ result.evaluatedAt = evaluatedAt.toUTC := by
  simp only [Qualifier.qualifySet, bind_eq_ok, rejectIf_eq_ok, exists_const] at h
  obtain ⟨hsession, hzero, h⟩ := h
  have hperm := List.perm_insertionSort (fun left right => ¬ QualifiedLess right left)
    (objects.map some)
  generalize ((objects.map some).insertionSort fun left right => ¬ QualifiedLess right left) =
    ordered at h hperm
  by_cases hempty : ordered = []
  · rw [if_pos hempty] at h
    obtain rfl := pure_eq_ok.mp h
    exact ⟨⟨hsession, hversion, hzero, Time.toUTC_isUTC _, by simp, List.nodup_nil, by simp,
      .inl ⟨rfl, rfl, rfl⟩⟩, rfl, rfl⟩
  · obtain ⟨verdict, hverdict⟩ :=
      q.qualify_total lib (show ¬ evaluatedAt.toUTC.IsZero from hzero)
    rw [if_neg hempty, mapM_qualify hverdict, ok_bind, pure_eq_ok] at h
    obtain rfl := h
    have hid : ∀ object : Object, (verdict (some object)).evidenceID = object.snapshot.evidenceID :=
      fun object => (Qualifier.qualify_eq_ok (hverdict (some object))).2.2
    have hevidence : ((settled verdict sessionID ordered).map (·.evidenceID)).Perm
        (objects.map (·.snapshot.evidenceID)) := by
      rw [settled_ids]
      refine (hperm.map _).trans (List.Perm.of_eq ?_)
      rw [List.map_map]
      exact List.map_congr_left fun object _ => hid object
    refine ⟨⟨hsession, hversion, hzero, Time.toUTC_isUTC _, ?_, ?_, ?_, .inr ⟨?_, rfl, rfl⟩⟩,
      rfl, rfl⟩
    · intro result hresult
      obtain ⟨object, hobject, heq⟩ :=
        List.mem_map.mp (hevidence.subset (List.mem_map_of_mem hresult))
      rw [← heq]
      exact hset object hobject
    · refine hevidence.nodup_iff.mpr ?_
      have hdistinct := hids
      rwa [DistinctIDs, List.map_map] at hdistinct
    · intro result hresult
      obtain ⟨object, -, extra, rfl⟩ := mem_settled hresult
      exact applySession_qualified_iff (Qualifier.qualify_eq_ok (hverdict object)).1
    · intro hnone
      have hlength := congrArg List.length hnone
      simp only [List.length_map, List.length_zip, List.length_zipIdx, min_self,
        List.length_nil] at hlength
      exact hempty (List.eq_nil_of_length_eq_zero hlength)

/-! ## Worlds that operations lead to -/

/-- The worlds that are reached by operations of the stores, in any order and with any
arguments. -/
inductive Reached (lib : Platform) : World lib → Prop
  | empty : Reached lib (World.empty lib)
  | step {world : World lib} (h : Reached lib world) (op : Op lib) (surroundings : Surroundings) :
      Reached lib (handle lib op surroundings world).2

theorem Reached.tidy {world : World lib} (h : Reached lib world) : world.store.Tidy := by
  induction h with
  | empty => exact MemoryStore.Tidy.empty
  | step _ op surroundings ih => exact (tidy_of_handle op surroundings _ ih).1

theorem Reached.distinctIDs {world : World lib} (h : Reached lib world) :
    DistinctIDs world.evidence.objects := by
  induction h with
  | empty => exact List.nodup_nil
  | step _ op surroundings ih =>
      cases op with
      | saveEvidence snapshot => exact MemoryRepository.distinctIDs_saveEvidence ih snapshot
      | _ => exact ih

/-- What is listed has been verified. -/
theorem listed_verified {m : MemoryRepository} {objects : List Object}
    (h : m.listEvidenceBySession lib sessionID = .ok objects) :
    ∀ object ∈ objects, verifySnapshot lib object.snapshot = .ok () := by
  simp only [MemoryRepository.listEvidenceBySession, bind_eq_ok, rejectIf_eq_ok,
    exists_const] at h
  intro object hobject
  obtain ⟨stored, -, hstored⟩ := exists_of_mem_right (mapM_eq_ok.mp h.2) hobject
  obtain ⟨hverify, rfl⟩ := (rehydrate_eq_ok lib).mp hstored
  exact hverify

theorem evidenceID_set_of_verified {snapshot : Evidence.Snapshot}
    (h : verifySnapshot lib snapshot = .ok ()) : snapshot.evidenceID ≠ UUID.nil := by
  simp only [verifySnapshot, bind_eq_ok, validateSnapshot, rejectIf_eq_ok, exists_const] at h
  exact h.1.1

theorem newQualifier_version {policy : QualificationPolicy} {qualifier : Qualifier}
    (h : newQualifier policy = .ok qualifier) : Canonical qualifier.policy.version := by
  simp only [newQualifier, bind_eq_ok, rejectIf_eq_ok, exists_const, pure_eq_ok] at h
  obtain ⟨hversion, -, -, -, rfl⟩ := h
  exact canonical_trimSpace hversion

/-- `QualifySession` as one computation: it reads the clock once, and changes nothing. -/
theorem execute_qualifySession (world : World lib) (sessionID : UUID) (qualifier : Qualifier)
    (clock : Surroundings) :
    (qualifySession lib sessionID qualifier).run.execute (handle lib) clock world =
      (do
        rejectIf (sessionID = UUID.nil) (.evidence .sessionIDRequired)
        let objects ← (world.evidence.listEvidenceBySession lib sessionID).mapError .evidence
        (qualifier.qualifySet lib sessionID (objects.map some) clock.now.toUTC).mapError
          .evidence, world) := by
  unfold qualifySession Client.rejectIf
  by_cases hsession : sessionID = UUID.nil
  · simp only [rejectIf, if_pos hsession]
    rfl
  · simp only [rejectIf, if_neg hsession]
    change Program.execute (handle lib) clock (ExceptT.bindCont _
      ((world.evidence.listEvidenceBySession lib sessionID).mapError Error.evidence)) world = _
    cases (world.evidence.listEvidenceBySession lib sessionID).mapError Error.evidence <;> rfl

theorem qualifySession_consistent {world : World lib} (hworld : Reached lib world)
    {policy : QualificationPolicy} {qualifier : Qualifier}
    (hpolicy : newQualifier policy = .ok qualifier) {clock : Surroundings}
    {result : SessionQualificationResult}
    (h : ((qualifySession lib sessionID qualifier).run.execute (handle lib) clock world).1 = .ok
      result) :
    Consistent result ∧ result.sessionID = sessionID ∧
      result.evaluatedAt = clock.now.toUTC := by
  rw [execute_qualifySession] at h
  simp only [bind_eq_ok, rejectIf_eq_ok, exists_const, mapError_eq_ok] at h
  obtain ⟨-, objects, hlisted, hresult⟩ := h
  exact qualifySet_consistent (newQualifier_version hpolicy)
    (MemoryRepository.distinctIDs_listEvidenceBySession hworld.distinctIDs hlisted)
    (fun object hobject => evidenceID_set_of_verified (listed_verified hlisted object hobject))
    hresult

/-! ## The checks of the binding -/

theorem matches_text (code : QualificationReasonCode) : MatchesCode 1 63 code.text := by
  cases code <;> decide

/-- What the evaluation keeps of a result. -/
def anchored (result : SessionQualificationResult) : EvidenceSetBinding :=
  { evidenceBinding result with
    evidence := (evidenceBinding result).evidence.map fun reference =>
      { reference with reasons := reference.reasons.foldl appendNew [] } }

theorem normalize_qualificationReasons (reasons : List QualificationReason) :
    normalizeEvidenceReasons (qualificationReasons reasons) =
      .ok ((qualificationReasons reasons).foldl appendNew []) := by
  refine normalizeEvidenceReasons_of_matches ?_
  intro code hcode
  obtain ⟨reason, -, rfl⟩ := List.mem_map.mp hcode
  exact matches_text reason.code

theorem bindingStatus_valid (status : QualificationStatus) : (bindingStatus status).IsValid := by
  cases status <;> trivial

theorem bindingStatus_eq_qualified {status : QualificationStatus} :
    bindingStatus status = .qualified ↔ status = .qualified := by
  cases status <;> simp [bindingStatus]

section
variable {result : SessionQualificationResult} {evidence : List EvidenceReference}

/-- A qualified set has objects, all of them qualified, and no reasons. -/
theorem Consistent.not_qualified_check (h : Consistent result)
    (hempty : evidence = [] ↔ result.evidence = [])
    (hunqualified : (∃ reference ∈ evidence, reference.status ≠ .qualified) ↔
      ∃ verdict ∈ result.evidence, verdict.status ≠ .qualified) :
    ¬ (bindingStatus result.status = .qualified ∧
      (evidence = [] ∨ qualificationReasons result.reasons ≠ [] ∨
        ∃ reference ∈ evidence, reference.status ≠ .qualified)) := by
  rintro ⟨hqualified, hfault⟩
  rw [bindingStatus_eq_qualified] at hqualified
  rw [hempty, hunqualified] at hfault
  rcases h.status with ⟨-, hstatus, -⟩ | ⟨hsome, hreason, hstatus⟩
  · exact absurd (hqualified.symm.trans hstatus) (by simp)
  · rcases hfault with hnone | hreasoned | hother
    · exact hsome hnone
    · exact hreasoned (by simp [qualificationReasons, hreason])
    · rw [if_pos hother, hqualified] at hstatus
      exact absurd hstatus (by simp)

/-- An unavailable set has no objects and a reason. -/
theorem Consistent.not_unavailable_check (h : Consistent result)
    (hempty : evidence = [] ↔ result.evidence = []) :
    ¬ (bindingStatus result.status = .unavailable ∧
      (evidence ≠ [] ∨ qualificationReasons result.reasons = [])) := by
  rintro ⟨hunavailable, hfault⟩
  rcases h.status with ⟨hnone, -, hreason⟩ | ⟨-, -, hstatus⟩
  · rcases hfault with hlisted | hsilent
    · exact hlisted (hempty.mpr hnone)
    · exact absurd hsilent (by simp [qualificationReasons, hreason])
  · rw [hstatus] at hunavailable
    split at hunavailable <;> exact absurd hunavailable (by simp [bindingStatus])

/-- A rejected set has a reason or an object that is not qualified. -/
theorem Consistent.not_rejected_check (h : Consistent result)
    (hunqualified : (∃ reference ∈ evidence, reference.status ≠ .qualified) ↔
      ∃ verdict ∈ result.evidence, verdict.status ≠ .qualified) :
    ¬ (bindingStatus result.status = .rejected ∧
      ¬ (qualificationReasons result.reasons ≠ [] ∨
        ∃ reference ∈ evidence, reference.status ≠ .qualified)) := by
  rintro ⟨hrejected, hfault⟩
  rw [hunqualified, not_or] at hfault
  rcases h.status with ⟨-, hstatus, -⟩ | ⟨-, -, hstatus⟩
  · rw [hstatus] at hrejected
    exact absurd hrejected (by simp [bindingStatus])
  · rw [hstatus, if_neg hfault.2] at hrejected
    exact absurd hrejected (by simp [bindingStatus])

end

theorem normalizeEvidenceBinding_of_consistent {result : SessionQualificationResult}
    (h : Consistent result) :
    normalizeEvidenceBinding (evidenceBinding result) = .ok (anchored result) := by
  have hreferences : (evidenceBinding result).evidence.foldlM normalizeEvidenceReference [] =
      .ok (anchored result).evidence := by
    refine normalizeEvidenceReferences_of_acceptable ?_ ?_
    · intro reference hreference
      obtain ⟨verdict, hverdict, rfl⟩ := List.mem_map.mp hreference
      refine ⟨h.ids_set verdict hverdict, bindingStatus_valid _,
        normalize_qualificationReasons _, ?_⟩
      rw [foldl_appendNew_eq_nil, qualificationReasons, List.map_eq_nil_iff,
        bindingStatus_eq_qualified]
      exact h.judged verdict hverdict
    · have hids := h.ids_distinct
      simpa [evidenceBinding, Function.comp_def] using hids
  have hunqualified : (∃ reference ∈ (anchored result).evidence, reference.status ≠ .qualified) ↔
      ∃ verdict ∈ result.evidence, verdict.status ≠ .qualified := by
    simp [anchored, evidenceBinding, bindingStatus_eq_qualified]
  have hempty : (anchored result).evidence = [] ↔ result.evidence = [] := by
    simp [anchored, evidenceBinding]
  have hreasons : normalizeEvidenceReasons (evidenceBinding result).reasons =
      .ok (anchored result).reasons := by
    rw [show (evidenceBinding result).reasons = qualificationReasons result.reasons from rfl,
      normalize_qualificationReasons]
    rcases h.status with ⟨-, -, hreasons⟩ | ⟨-, hreasons, -⟩
    · rw [show (anchored result).reasons = qualificationReasons result.reasons from rfl, hreasons]
      rfl
    · rw [show (anchored result).reasons = qualificationReasons result.reasons from rfl, hreasons]
      rfl
  simp only [normalizeEvidenceBinding, bind_eq_ok, rejectIf_eq_ok, pure_eq_ok, exists_const]
  refine ⟨?_, _, hreasons, _, hreferences, ?_⟩
  · simp only [not_or, not_not]
    exact ⟨h.session_set, bindingStatus_valid _, h.version_canonical.trimSpace_ne_empty,
      h.time_set⟩
  have hsame : (⟨result.sessionID, bindingStatus result.status, trimSpace result.policyVersion,
      result.evaluatedAt.toUTC, (anchored result).reasons, (anchored result).evidence⟩ :
        EvidenceSetBinding) = anchored result := by
    rw [← h.version_canonical.2, Time.toUTC_eq_of_isUTC h.time_utc]
    rfl
  exact ⟨h.not_qualified_check hempty hunqualified, h.not_unavailable_check hempty,
    h.not_rejected_check hunqualified, hsame⟩

/-! ## The call -/

/-- What is bound says what the qualification said. -/
structure Anchors (result : SessionQualificationResult) (binding : EvidenceSetBinding) :
    Prop where
  status : binding.status = bindingStatus result.status
  policyVersion : binding.policyVersion = result.policyVersion
  qualifiedAt : binding.qualifiedAt = result.evaluatedAt
  evidence : List.Forall₂ (fun verdict reference =>
    reference.evidenceID = verdict.evidenceID ∧
    reference.status = bindingStatus verdict.status ∧
    ∀ code, code ∈ reference.reasons ↔ code ∈ qualificationReasons verdict.reasons)
    result.evidence binding.evidence

theorem anchors_anchored (result : SessionQualificationResult) :
    Anchors result (anchored result) := by
  refine ⟨rfl, rfl, rfl, ?_⟩
  unfold anchored evidenceBinding
  rw [List.map_map, List.forall₂_map_right_iff]
  refine List.forall₂_same.mpr fun verdict _ => ⟨rfl, rfl, fun code => ?_⟩
  simp [mem_foldl_appendNew]

/-- `json.Marshal` writes every event with times that it can write. -/
def WritesEvents (lib : Platform) : Prop :=
  ∀ event : DomainEvent, (∀ t ∈ event.body.times, Kept t) →
    ∃ payload, lib.marshalEvent event = some payload

/-- The evaluation with a bound evidence set. -/
def bound (e : EvaluationAggregate) (binding : EvidenceSetBinding) : EvaluationAggregate :=
  ({ e with evidenceBinding := some binding } : EvaluationAggregate).raise
    (.evidenceSetBound binding)

theorem bindEvidenceSet_of_normalized {binding : EvidenceSetBinding} (hstate : ¬ e.state.IsTerminal)
    (houtcomes : e.ruleOutcomes = []) (hunbound : e.evidenceBinding = none)
    (hbinding : normalizeEvidenceBinding binding = .ok normalized)
    (hsession : normalized.sessionID = e.sessionID) :
    e.bindEvidenceSet binding = .ok (bound e normalized) := by
  simp only [EvaluationAggregate.bindEvidenceSet, bind_eq_ok, rejectIf_eq_ok, exists_const,
    ne_eq, not_not, hunbound, pure_eq_ok]
  exact ⟨hstate, houtcomes, normalized, hbinding, hsession, rfl⟩

theorem restored_bound (binding : EvidenceSetBinding) (h : e.snapshot.restored = e.snapshot) :
    (bound e binding).snapshot.restored = (bound e binding).snapshot := by
  have hcreated : e.createdAt.toUTC = e.createdAt := congrArg EvaluationSnapshot.createdAt h
  have hcheckpoints : e.checkpoints.insertionSort ByName = e.checkpoints :=
    congrArg EvaluationSnapshot.checkpoints h
  change { (bound e binding).snapshot with
    createdAt := e.createdAt.toUTC
    checkpoints := e.checkpoints.insertionSort ByName } = (bound e binding).snapshot
  rw [hcreated, hcheckpoints]
  rfl

/-- What is stored after the binding is what the caller gets. -/
theorem rehydrate_bound {binding : EvidenceSetBinding} (hchecked : e.snapshot.Checked)
    (hrestored : e.snapshot.restored = e.snapshot)
    (hbinding : normalizeEvidenceBinding binding = .ok normalized)
    (hsession : normalized.sessionID = e.sessionID) :
    rehydrateEvaluation (bound e normalized).snapshot =
      .ok { (bound e normalized).snapshot with domainEvents := [] } := by
  refine rehydrateEvaluation_eq_ok_iff.mpr ⟨?_, ?_⟩
  · refine { hchecked with version_pos := Nat.succ_ne_zero _, evidence := ?_ }
    rintro _ ⟨⟩
    exact ⟨normalized, normalizeEvidenceBinding_idem hbinding, hsession⟩
  · rw [restored_bound normalized hrestored]

/-- A write under the version that was read. -/
theorem saveEvaluation_bound {m : MemoryStore} {id : UUID} {binding : EvidenceSetBinding}
    (hchecked : e.snapshot.Checked) (hrestored : e.snapshot.restored = e.snapshot)
    (hstored : m.snapshots id = some e.snapshot) (hkeyed : e.evaluationID = id)
    (hbinding : normalizeEvidenceBinding binding = .ok normalized)
    (hsession : normalized.sessionID = e.sessionID) (records : List OutboxRecord) :
    m.saveEvaluation (bound e normalized).snapshot e.version records =
      (.ok (), ⟨Function.update m.snapshots id (some (bound e normalized).snapshot),
        m.outbox ++ records⟩) := by
  have hid : (bound e normalized).snapshot.evaluationID = id := hkeyed
  have hconflict : ¬ MemoryStore.Conflicts (m.snapshots id) e.version := by
    rw [hstored]
    rintro (⟨hzero, -⟩ | ⟨-, hother⟩)
    · exact hchecked.version_pos hzero
    · exact hother rfl
  simp only [MemoryStore.saveEvaluation, hid, if_neg hconflict,
    rehydrate_bound hchecked hrestored hbinding hsession]
  rfl

/-- The event of the binding becomes a record. -/
theorem newOutboxRecord_of_bound (hevents : WritesEvents lib) {binding : EvidenceSetBinding}
    (hchecked : e.snapshot.Checked) (hkept : Kept binding.qualifiedAt)
    (hset : ¬ binding.qualifiedAt.IsZero) {createdAt : Time} (hcreated : ¬ createdAt.IsZero)
    (fresh : UUID) :
    ∃ record, newOutboxRecord lib ⟨e.evaluationID, e.sessionID, e.version + 1,
      .evidenceSetBound binding⟩ createdAt fresh = .ok record := by
  obtain ⟨payload, hpayload⟩ := hevents
    ⟨e.evaluationID, e.sessionID, e.version + 1, .evidenceSetBound binding⟩
    (by simpa [EventBody.times] using hkept)
  simp only [newOutboxRecord, bind_eq_ok, rejectIf_eq_ok, exists_const, not_or, hpayload,
    pure_eq_ok]
  exact ⟨_, hcreated, ⟨hchecked.evaluationID_set, hchecked.sessionID_set,
    Nat.succ_ne_zero _⟩, hset, rfl⟩

/-- The call, from the evaluation that it finds to the one that it stores. -/
theorem executeAmid_bindEvidenceQualification (hevents : WritesEvents lib) {world : World lib}
    {id : UUID} (hfound : world.store.findEvaluation id = .ok e) (hpending : e.domainEvents = [])
    (hkeyed : e.evaluationID = id) (hstored : world.store.snapshots id = some e.snapshot)
    (hchecked : e.snapshot.Checked) (hrestored : e.snapshot.restored = e.snapshot)
    {result : SessionQualificationResult}
    (hnormalized : normalizeEvidenceBinding (evidenceBinding result) = .ok normalized)
    (hbind : e.bindEvidenceSet (evidenceBinding result) = .ok (bound e normalized))
    (hsession : normalized.sessionID = e.sessionID) (hkept : Kept normalized.qualifiedAt)
    (hset : ¬ normalized.qualifiedAt.IsZero) {surroundings : Nat → Surroundings}
    (hclock : ∀ count, ¬ (surroundings count).now.IsZero) {others : Nat → World lib → World lib}
    (hothers : ∀ count world, (others count world).store.snapshots id = world.store.snapshots id) :
    ∃ after, (bindEvidenceQualification lib id result).run.executeAmid (handle lib) surroundings
        others 0 world = (.ok (bound e normalized).snapshot, after) ∧
      after.store.snapshots id = some (bound e normalized).snapshot := by
  have hread : (others 0 world).store.findEvaluation id = .ok e := by
    unfold MemoryStore.findEvaluation
    rw [hothers]
    exact hfound
  have hannounced : (bound e normalized).domainEvents =
      [⟨e.evaluationID, e.sessionID, e.version + 1, .evidenceSetBound normalized⟩] := by
    change e.domainEvents ++ _ = _
    rw [hpending]
    rfl
  obtain ⟨record, hrecord⟩ := newOutboxRecord_of_bound hevents hchecked hkept hset
    (show ¬ (surroundings 1).now.toUTC.IsZero from hclock 1) (surroundings 2).fresh
  -- the world in which the write happens
  generalize hworld : others 3 (others 2 (others 1 (others 0 world))) = writing
  have hunwritten : writing.store.snapshots id = some e.snapshot := by
    rw [← hworld, hothers, hothers, hothers, hothers, hstored]
  have hsaved := saveEvaluation_bound hchecked hrestored hunwritten hkeyed hnormalized hsession
    [record]
  obtain ⟨after, hafter, hreply⟩ : ∃ after : World lib,
      after.store.snapshots id = some (bound e normalized).snapshot ∧
      handle lib (.saveEvaluation (bound e normalized).snapshot e.version [record])
        (surroundings 3) writing = (.ok (), after) := by
    refine ⟨{ writing with store := ⟨Function.update writing.store.snapshots id
      (some (bound e normalized).snapshot), writing.store.outbox ++ [record]⟩ },
      Function.update_self .., ?_⟩
    simp only [handle, hsaved]
  refine ⟨after, ?_, hafter⟩
  rw [← hworld] at hreply
  refine (Program.executeAmid_perform_bind (I := interface lib) (.findEvaluation id)
    (fun reply => reply) rfl hread).trans ?_
  refine (Program.executeAmid_compute_bind (mapError_eq_ok.mpr hbind)).trans ?_
  unfold save buildOutboxRecords
  rw [hannounced]
  simp only [Program.forEach, bind_assoc, pure_bind]
  refine (Program.executeAmid_perform_bind (I := interface lib) .now
    (fun reply => reply) rfl rfl).trans ?_
  refine (Program.executeAmid_perform_bind (I := interface lib) .newUUID
    (fun reply => reply) rfl rfl).trans ?_
  refine (Program.executeAmid_compute_bind (mapError_eq_ok.mpr hrecord)).trans ?_
  refine (Program.executeAmid_perform_bind (I := interface lib)
    (.saveEvaluation (bound e normalized).snapshot e.version [record])
    (fun reply => reply) rfl (congrArg Prod.fst hreply)).trans ?_
  exact congrArg (fun reply : Except Error Unit × World lib =>
    (Except.ok (bound e normalized).snapshot, reply.2)) hreply

/-- **Every qualification result can be bound.**  The result was returned by
`QualifySession`, in whatever world; the call of `BindEvidenceQualification` runs among
clients that do not write the evaluation. -/
theorem qualification_results_bound (hevents : WritesEvents lib)
    {qualifying binding : World lib} (hqualifying : Reached lib qualifying)
    (hbinding : Reached lib binding)
    {policy : QualificationPolicy} {qualifier : Qualifier}
    (hpolicy : newQualifier policy = .ok qualifier)
    {sessionID : UUID} {clock : Surroundings} {result : SessionQualificationResult}
    (hresult : ((qualifySession lib sessionID qualifier).run.execute (handle lib) clock
      qualifying).1 = .ok result)
    (hyears : 0 ≤ clock.now.instant ∧ clock.now.instant < Time.yearTenThousand)
    {id : UUID} {e : EvaluationAggregate} (hfound : binding.store.findEvaluation id = .ok e)
    (hsession : e.sessionID = sessionID) (hstate : ¬ e.state.IsTerminal)
    (hunbound : e.evidenceBinding = none) (houtcomes : e.ruleOutcomes = [])
    {surroundings : Nat → Surroundings} (hclock : ∀ count, ¬ (surroundings count).now.IsZero)
    {others : Nat → World lib → World lib}
    (hothers : ∀ count world, (others count world).store.snapshots id = world.store.snapshots id) :
    ∃ snapshot after,
      (bindEvidenceQualification lib id result).run.executeAmid (handle lib) surroundings others
        0 binding = (.ok snapshot, after) ∧
      after.store.snapshots id = some snapshot ∧
      ∃ stored, snapshot.evidenceBinding = some stored ∧ Anchors result stored := by
  obtain ⟨hconsistent, hsame, htime⟩ := qualifySession_consistent hqualifying hpolicy hresult
  have hnormalized := normalizeEvidenceBinding_of_consistent hconsistent
  have hanchored : (anchored result).sessionID = e.sessionID := hsame.trans hsession.symm
  have hstored := found_of_findEvaluation hbinding.tidy hfound
  obtain ⟨hchecked, -⟩ := rehydrateEvaluation_eq_ok_iff.mp
    (hbinding.tidy.restored id e.snapshot hstored.stored)
  obtain ⟨s, -, hrehydrate⟩ := MemoryStore.findEvaluation_eq_ok hfound
  have hpending : e.domainEvents = [] := by
    rw [rehydrateEvaluation_eq_ok hrehydrate]
  have hkept : Kept (anchored result).qualifiedAt := by
    refine ⟨hconsistent.time_utc, ?_⟩
    change result.evaluatedAt.Writable
    rw [htime]
    exact Time.writable_iff.mpr ⟨le_trans (by decide) hyears.1, hyears.2⟩
  obtain ⟨after, hrun, hafter⟩ := executeAmid_bindEvidenceQualification hevents hfound hpending
    hstored.keyed hstored.stored hchecked hstored.restored hnormalized
    (bindEvidenceSet_of_normalized hstate houtcomes hunbound hnormalized hanchored) hanchored
    hkept hconsistent.time_set hclock hothers
  exact ⟨_, after, hrun, hafter, _, rfl, anchors_anchored result⟩

/-! The scale of `Evidence.Duplicates` has sent one weight twice, and the policy asks for
two fields that it does not send.  Each object has one reason code twice. -/

namespace Gate

def library : Platform :=
  { Weighbridge.library with
    marshalEvent := fun event => some (((Crate.eventJson event).map Crate.render).getD []) }

theorem library_writesEvents : WritesEvents library :=
  fun _ _ => ⟨_, rfl⟩

def policy : QualificationPolicy :=
  { Weighbridge.policy with
    version := " qualification.v1 "
    requiredPayloadFields := ["kg", "driver", "axles"] }

def qualifier : Qualifier :=
  ⟨{ Weighbridge.policy with requiredPayloadFields := ["axles", "driver", "kg"] }⟩

def clock : Surroundings := ⟨Weighbridge.eight, BitVec.ofNat 128 9⟩

def created : EvaluationSnapshot where
  evaluationID := BitVec.ofNat 128 5
  sessionID := Weighbridge.session
  state := .created
  result := .unknown
  reasonCodes := []
  createdAt := Weighbridge.eight
  startedAt := none
  completedAt := none
  cancelledAt := none
  expiredAt := none
  cancellationReason := ""
  requiredRuleIDs := []
  ruleOutcomes := []
  checkpoints := []
  history := []
  evidenceBinding := none
  policyBinding := none
  version := 1

/-- The two weights have arrived, and the evaluation is there. -/
def world : World library :=
  (handle library (.saveEvaluation created 0 []) clock
    (handle library (.saveEvidence (Weighbridge.weighing 2).snapshot) clock
      (handle library (.saveEvidence (Weighbridge.weighing 1).snapshot) clock
        (World.empty library)).2).2).2

theorem world_reached : Reached library world :=
  (Reached.empty.step _ _).step _ _ |>.step _ _

/-- The verdict on an object, with the reasons that it has besides the missing fields. -/
def verdict (number : Nat) (others : List QualificationReason) : QualificationResult :=
  ⟨BitVec.ofNat 128 number, .rejected, Weighbridge.eight, "qualification.v1",
    [⟨.payloadFieldMissing, "axles"⟩, ⟨.payloadFieldMissing, "driver"⟩] ++ others⟩

def result : SessionQualificationResult :=
  ⟨Weighbridge.session, .rejected, Weighbridge.eight, "qualification.v1", [],
    [verdict 1 [], verdict 2 [⟨.duplicateObservation, "evidence_id"⟩]]⟩

end Gate

theorem repeated_weight_bound :
    ∃ snapshot after,
      (bindEvidenceQualification Gate.library (BitVec.ofNat 128 5) Gate.result).run.executeAmid
        (handle Gate.library) (fun _ => Gate.clock) (fun _ world => { world with
          evidence := .empty }) 0 Gate.world = (.ok snapshot, after) ∧
      after.store.snapshots (BitVec.ofNat 128 5) = some snapshot ∧
      ∃ stored, snapshot.evidenceBinding = some stored ∧ Anchors Gate.result stored :=
  qualification_results_bound Gate.library_writesEvents Gate.world_reached Gate.world_reached
    (show newQualifier Gate.policy = .ok Gate.qualifier by decide +kernel)
    (show ((qualifySession Gate.library Weighbridge.session Gate.qualifier).run.execute
      (handle Gate.library) Gate.clock Gate.world).1 = .ok Gate.result by decide +kernel)
    (by decide)
    (show Gate.world.store.findEvaluation (BitVec.ofNat 128 5) =
      .ok { Gate.created with domainEvents := [] } by decide +kernel)
    rfl (by decide) rfl rfl (fun _ => by decide) fun _ _ => rfl

end Pds
end CargoPds
