import CargoPds.EvidenceBundle.Manifest
import CargoPds.Pds.Governed

/-!
# Independent verification of a decision

`VerifyDecision` has nothing but the bundle.  It takes the policy, the trace and
the evidence out of it, runs every rule of the plan again and compares.  What it
compares is each outcome and the result; what it does not compute again is the
qualification of the evidence and the reasons of the decision.
-/

namespace CargoPds
namespace EvidenceBundle

open Fallible Text Evaluation

variable {object : Object}

structure RecalculatedOutcome where
  ruleID : String
  status : RuleOutcomeStatus
  reasonCodes : List ReasonCode
deriving DecidableEq, Repr

structure IndependentVerificationReport where
  bundleID : UUID
  evaluationID : UUID
  policy : PolicyReference
  storedResult : VerificationResult
  recalculatedResult : VerificationResult
  outcomes : List RecalculatedOutcome
  verified : Bool
deriving DecidableEq, Repr

/-- What the first loop of `verificationInputs` has found so far. -/
structure Inputs where
  trace : Option DecisionTrace
  byID : List Evidence.Snapshot
deriving DecidableEq, Repr

section
variable (lib : Platform) (enc : Encoding)

/-! ## The inputs -/

/-- One round of the first loop. -/
def readObject (inputs : Inputs) (object : Object) : Except Error Inputs :=
  if object.path = decisionTracePath then
    match inputs.trace, enc.unmarshalTrace object.payload with
    | none, some trace => .ok { inputs with trace := some trace }
    | _, _ => .error .decisionTraceRequired
  else if startsWith object.path "evidence/" = true then
    match enc.unmarshalEvidence object.payload with
    | none => .error .evidenceObjectMismatch
    | some snapshot => do
        let rehydrated ← (Evidence.rehydrate lib snapshot).mapError Error.evidence
        rejectIf (byID inputs.byID rehydrated.snapshot.evidenceID ≠ none)
          .evidenceObjectMismatch
        return { inputs with byID := inputs.byID ++ [rehydrated.snapshot] }
  else .ok inputs

/-- The evidence put in order so far, and the evidence not used yet. -/
structure Ordering where
  ordered : List Evidence.Snapshot
  remaining : List Evidence.Snapshot
deriving DecidableEq, Repr

/-- One round of the second loop. -/
def orderReference (sessionID : UUID) (state : Ordering) (reference : EvidenceReference) :
    Except Error Ordering := do
  rejectIf (reference.status ≠ .qualified) .independentVerificationScope
  match byID state.remaining reference.evidenceID with
  | none => .error .evidenceObjectMismatch
  | some snapshot => do
      rejectIf (snapshot.sessionID ≠ sessionID) .evidenceObjectMismatch
      return ⟨state.ordered ++ [snapshot],
        state.remaining.filter fun other => other.evidenceID ≠ reference.evidenceID⟩

def verificationInputs (bundle : Bundle) :
    Except Error (DecisionTrace × List Evidence.Snapshot) := do
  let inputs ← bundle.objects.foldlM (readObject lib enc) ⟨none, []⟩
  match inputs.trace with
  | none => .error .decisionTraceRequired
  | some trace =>
      match trace.evidenceBinding with
      | none => .error .decisionTraceRequired
      | some binding => do
          rejectIf (inputs.byID.length ≠ binding.evidence.length) .decisionTraceRequired
          let state ← binding.evidence.foldlM (orderReference trace.sessionID) ⟨[], inputs.byID⟩
          rejectIf (state.remaining ≠ []) .evidenceObjectMismatch
          return (trace, state.ordered)

/-! ## The decision -/

/-- `updateVerificationResult`. -/
def updateVerificationResult (result : VerificationResult) (status : RuleOutcomeStatus) :
    VerificationResult :=
  match status with
  | .fail => .rejected
  | .inconclusive => if result ≠ .rejected then .manualReview else result
  | .warning => if result = .verified then .verifiedWithException else result
  | _ => result

/-- The outcomes recalculated so far and the result that follows from them. -/
structure Recalculation where
  outcomes : List RecalculatedOutcome
  result : VerificationResult
deriving DecidableEq, Repr

/-- What the operators are given. -/
def replayInput (trace : DecisionTrace) (snapshot : Policy.Snapshot)
    (evidence : List Evidence.Snapshot) : RuleOperator.RuleInput where
  evaluationID := trace.evaluationID
  sessionID := trace.sessionID
  policyID := snapshot.policyID
  policyVersion := snapshot.version
  policyHash := snapshot.hash
  evidence := evidence

/-- One round of the loop of `VerifyDecision`: the rule at some index of the plan
and the outcome at the same index of the trace. -/
def replayRule (version : Policy.Version lib) (input : RuleOperator.RuleInput)
    (state : Recalculation) (entry : String × RuleOutcome) : Except Error Recalculation := do
  rejectIf (entry.2.ruleID ≠ entry.1) .independentVerificationFailed
  let operator ← (RuleOperator.compileRule lib version entry.1).mapError Error.operator
  let decision := operator.evaluate lib input
  rejectIf (entry.2.status ≠ decision.status ∨ entry.2.reasonCodes ≠ decision.reasonCodes)
    (.recalculatedOutcomeMismatch entry.1)
  return ⟨state.outcomes ++ [⟨entry.1, decision.status, decision.reasonCodes⟩],
    updateVerificationResult state.result decision.status⟩

/-- A decision that can be verified at all. -/
def InScope (trace : DecisionTrace) : Prop :=
  trace.state = .completed ∧ trace.completedAt ≠ none ∧ trace.requiredRuleIDs ≠ [] ∧
    trace.missingRuleIDs = [] ∧ trace.ruleOutcomes.length = trace.requiredRuleIDs.length
deriving Decidable

/-- The trace belongs to the manifest and to the policy. -/
def BelongsTo (trace : DecisionTrace) (manifest : Manifest) (snapshot : Policy.Snapshot) :
    Prop :=
  trace.evaluationID = manifest.evaluationID ∧ trace.sessionID = manifest.sessionID ∧
    ∃ binding ∈ trace.policyBinding, binding.policyID = snapshot.policyID ∧
      binding.version = snapshot.version ∧ binding.hash = snapshot.hash
deriving Decidable

def verifyDecision (bundle : Bundle) : Except Error IndependentVerificationReport := do
  verify lib enc bundle
  let snapshot ← policySnapshot lib enc bundle
  let inputs ← verificationInputs lib enc bundle
  rejectIf (¬ InScope inputs.1) .independentVerificationScope
  rejectIf (¬ BelongsTo inputs.1 bundle.manifest snapshot) .independentVerificationFailed
  rejectIf (inputs.1.requiredRuleIDs ≠ snapshot.requiredRuleIDs) .independentVerificationFailed
  let version ← (Policy.rehydrate lib snapshot).mapError Error.policy
  (RuleOperator.validatePolicyDocument lib version).mapError Error.operator
  let replay ← (inputs.1.requiredRuleIDs.zip inputs.1.ruleOutcomes).foldlM
    (replayRule lib version (replayInput inputs.1 snapshot inputs.2)) ⟨[], .verified⟩
  rejectIf (replay.result ≠ inputs.1.result)
    (.recalculatedDecisionMismatch inputs.1.result replay.result)
  return ⟨bundle.manifest.bundleID, inputs.1.evaluationID, bundle.manifest.policy,
    inputs.1.result, replay.result, replay.outcomes, true⟩

/-! ## What a bundle embeds

The two loops of `verificationInputs` are described by what they leave behind:
the trace and the evidence that the objects of the bundle decode to, and the
evidence in the order of the references. -/

/-- The traces among some objects. -/
def tracesOf (objects : List Object) : List DecisionTrace :=
  objects.filterMap fun object =>
    if object.path = decisionTracePath then enc.unmarshalTrace object.payload else none

/-- The evidence among some objects. -/
def evidenceOf (objects : List Object) : List Evidence.Snapshot :=
  objects.filterMap fun object =>
    if startsWith object.path "evidence/" = true then enc.unmarshalEvidence object.payload
    else none

/-- An object that the first loop does not reject on its own account. -/
structure Readable (object : Object) : Prop where
  trace : object.path = decisionTracePath → ∃ trace, enc.unmarshalTrace object.payload = some trace
  evidence : startsWith object.path "evidence/" = true →
    ∃ snapshot, enc.unmarshalEvidence object.payload = some snapshot ∧
      Evidence.verifySnapshot lib snapshot = .ok ()

/-- What the first loop does to its state. -/
structure Read (objects : List Object) (start final : Inputs) : Prop where
  readable : ∀ object ∈ objects, Readable lib enc object
  trace : final.trace.toList = start.trace.toList ++ tracesOf enc objects
  evidence : final.byID = start.byID ++ evidenceOf enc objects
  distinct : (final.byID.map (·.evidenceID)).Nodup

/-- The reference admits the snapshot into the decision of a session. -/
structure Refers (sessionID : UUID) (reference : EvidenceReference)
    (snapshot : Evidence.Snapshot) : Prop where
  qualified : reference.status = .qualified
  evidenceID : snapshot.evidenceID = reference.evidenceID
  session : snapshot.sessionID = sessionID

/-- The bundle embeds this trace, with its evidence in the order of its
references. -/
structure Embeds (bundle : Bundle) (trace : DecisionTrace) (binding : EvidenceSetBinding)
    (evidence : List Evidence.Snapshot) : Prop where
  readable : ∀ object ∈ bundle.objects, Readable lib enc object
  one_trace : tracesOf enc bundle.objects = [trace]
  bound : trace.evidenceBinding = some binding
  distinct : ((evidenceOf enc bundle.objects).map (·.evidenceID)).Nodup
  complete : (evidenceOf enc bundle.objects).Perm evidence
  refers : List.Forall₂ (Refers trace.sessionID) binding.evidence evidence

end

section
variable {lib : Platform} {enc : Encoding}

theorem tracesOf_cons_of_eq {trace : DecisionTrace} (hpath : object.path = decisionTracePath)
    (hdecode : enc.unmarshalTrace object.payload = some trace) (rest : List Object) :
    tracesOf enc (object :: rest) = trace :: tracesOf enc rest := by
  unfold tracesOf
  rw [List.filterMap_cons_some]
  rw [if_pos hpath, hdecode]

theorem tracesOf_cons_of_ne (hpath : object.path ≠ decisionTracePath) (rest : List Object) :
    tracesOf enc (object :: rest) = tracesOf enc rest := by
  unfold tracesOf
  rw [List.filterMap_cons_none]
  rw [if_neg hpath]

theorem evidenceOf_cons_of_startsWith {snapshot : Evidence.Snapshot}
    (hpath : startsWith object.path "evidence/" = true)
    (hdecode : enc.unmarshalEvidence object.payload = some snapshot) (rest : List Object) :
    evidenceOf enc (object :: rest) = snapshot :: evidenceOf enc rest := by
  unfold evidenceOf
  rw [List.filterMap_cons_some]
  rw [if_pos hpath, hdecode]

theorem evidenceOf_cons_of_not (hpath : ¬ startsWith object.path "evidence/" = true)
    (rest : List Object) :
    evidenceOf enc (object :: rest) = evidenceOf enc rest := by
  unfold evidenceOf
  rw [List.filterMap_cons_none]
  rw [if_neg hpath]

/-- No path belongs to a trace and to evidence. -/
theorem not_startsWith_of_trace (h : object.path = decisionTracePath) :
    ¬ startsWith object.path "evidence/" = true := by
  rw [h]
  decide

/-- A map that is kept as a list of values finds nothing under a new key. -/
theorem byID_eq_none {snapshots : List Evidence.Snapshot} {id : UUID} :
    byID snapshots id = none ↔ id ∉ snapshots.map (·.evidenceID) := by
  simp only [byID, List.find?_eq_none, decide_eq_true_eq, List.mem_map, not_exists, not_and]

/-- A round that meets the trace. -/
theorem readObject_trace {inputs next : Inputs} (hpath : object.path = decisionTracePath) :
    readObject lib enc inputs object = .ok next ↔
      inputs.trace = none ∧ ∃ trace, enc.unmarshalTrace object.payload = some trace ∧
        next = ⟨some trace, inputs.byID⟩ := by
  unfold readObject
  rw [if_pos hpath]
  cases inputs.trace with
  | some earlier => simp
  | none =>
      cases enc.unmarshalTrace object.payload with
      | none => simp
      | some trace => simp [eq_comm]

/-- A round that meets evidence. -/
theorem readObject_evidence {inputs next : Inputs}
    (hpath : startsWith object.path "evidence/" = true) :
    readObject lib enc inputs object = .ok next ↔
      ∃ snapshot, enc.unmarshalEvidence object.payload = some snapshot ∧
        Evidence.verifySnapshot lib snapshot = .ok () ∧
        snapshot.evidenceID ∉ inputs.byID.map (·.evidenceID) ∧
        next = ⟨inputs.trace, inputs.byID ++ [snapshot]⟩ := by
  have hother : object.path ≠ decisionTracePath := fun h => not_startsWith_of_trace h hpath
  unfold readObject
  rw [if_neg hother, if_pos hpath]
  cases enc.unmarshalEvidence object.payload with
  | none => simp
  | some snapshot =>
      simp only [bind_eq_ok, mapError_eq_ok, Evidence.rehydrate_eq_ok, rejectIf_eq_ok,
        pure_eq_ok, exists_const, ne_eq, not_not, byID_eq_none, Option.some.injEq]
      constructor
      · rintro ⟨_, ⟨hintact, rfl⟩, hnew, rfl⟩
        exact ⟨snapshot, rfl, hintact, hnew, rfl⟩
      · rintro ⟨_, rfl, hintact, hnew, rfl⟩
        exact ⟨⟨snapshot⟩, ⟨hintact, rfl⟩, hnew, rfl⟩

/-- A round that meets anything else. -/
theorem readObject_other {inputs : Inputs} (htrace : object.path ≠ decisionTracePath)
    (hevidence : ¬ startsWith object.path "evidence/" = true) :
    readObject lib enc inputs object = .ok inputs := by
  unfold readObject
  rw [if_neg htrace, if_neg hevidence]

section
variable {object : Object} {rest : List Object} {start final : Inputs}

theorem read_cons_trace (hpath : object.path = decisionTracePath) :
    Read lib enc (object :: rest) start final ↔
      start.trace = none ∧ ∃ trace, enc.unmarshalTrace object.payload = some trace ∧
        Read lib enc rest ⟨some trace, start.byID⟩ final := by
  have hevidence := not_startsWith_of_trace hpath
  constructor
  · intro h
    obtain ⟨hobject, hrest⟩ := List.forall_mem_cons.mp h.readable
    obtain ⟨trace, hdecode⟩ := hobject.trace hpath
    have htrace := h.trace
    rw [tracesOf_cons_of_eq hpath hdecode] at htrace
    have hone : start.trace = none := by
      -- the state has room for one trace
      have hlength := congrArg List.length htrace
      have hfinal : final.trace.toList.length ≤ 1 := Option.length_toList_le
      rw [List.length_append, List.length_cons] at hlength
      cases hstart : start.trace with
      | none => rfl
      | some earlier =>
          rw [hstart, Option.toList_some, List.length_singleton] at hlength
          omega
    refine ⟨hone, trace, hdecode, hrest, ?_, ?_, h.distinct⟩
    · rw [htrace, hone]
      rfl
    · rw [h.evidence, evidenceOf_cons_of_not hevidence]
  · rintro ⟨hone, trace, hdecode, hread⟩
    refine ⟨List.forall_mem_cons.mpr ⟨⟨fun _ => ⟨trace, hdecode⟩, fun h => absurd h hevidence⟩,
      hread.readable⟩, ?_, ?_, hread.distinct⟩
    · rw [hread.trace, tracesOf_cons_of_eq hpath hdecode, hone]
      rfl
    · rw [hread.evidence, evidenceOf_cons_of_not hevidence]

theorem read_cons_evidence (hpath : startsWith object.path "evidence/" = true) :
    Read lib enc (object :: rest) start final ↔
      ∃ snapshot, enc.unmarshalEvidence object.payload = some snapshot ∧
        Evidence.verifySnapshot lib snapshot = .ok () ∧
        snapshot.evidenceID ∉ start.byID.map (·.evidenceID) ∧
        Read lib enc rest ⟨start.trace, start.byID ++ [snapshot]⟩ final := by
  have htrace : object.path ≠ decisionTracePath := fun h => not_startsWith_of_trace h hpath
  constructor
  · intro h
    obtain ⟨hobject, hrest⟩ := List.forall_mem_cons.mp h.readable
    obtain ⟨snapshot, hdecode, hintact⟩ := hobject.evidence hpath
    have hevidence := h.evidence
    rw [evidenceOf_cons_of_startsWith hpath hdecode] at hevidence
    refine ⟨snapshot, hdecode, hintact, ?_, hrest, ?_, ?_, h.distinct⟩
    · intro hold
      have hdistinct := h.distinct
      rw [hevidence, List.map_append, List.map_cons] at hdistinct
      exact List.disjoint_of_nodup_append hdistinct hold List.mem_cons_self
    · rw [h.trace, tracesOf_cons_of_ne htrace]
    · rw [hevidence, List.append_assoc]
      rfl
  · rintro ⟨snapshot, hdecode, hintact, -, hread⟩
    refine ⟨List.forall_mem_cons.mpr ⟨⟨fun h => absurd h htrace,
      fun _ => ⟨snapshot, hdecode, hintact⟩⟩, hread.readable⟩, ?_, ?_, hread.distinct⟩
    · rw [hread.trace, tracesOf_cons_of_ne htrace]
    · rw [hread.evidence, evidenceOf_cons_of_startsWith hpath hdecode, List.append_assoc]
      rfl

theorem read_cons_other (htrace : object.path ≠ decisionTracePath)
    (hevidence : ¬ startsWith object.path "evidence/" = true) :
    Read lib enc (object :: rest) start final ↔ Read lib enc rest start final := by
  have hobject : Readable lib enc object :=
    ⟨fun h => absurd h htrace, fun h => absurd h hevidence⟩
  constructor
  · intro h
    exact ⟨(List.forall_mem_cons.mp h.readable).2,
      by rw [h.trace, tracesOf_cons_of_ne htrace],
      by rw [h.evidence, evidenceOf_cons_of_not hevidence], h.distinct⟩
  · intro h
    exact ⟨List.forall_mem_cons.mpr ⟨hobject, h.readable⟩,
      by rw [h.trace, tracesOf_cons_of_ne htrace],
      by rw [h.evidence, evidenceOf_cons_of_not hevidence], h.distinct⟩

end

/-- The first loop. -/
theorem readObjects_eq_ok {objects : List Object} {start final : Inputs}
    (hstart : (start.byID.map (·.evidenceID)).Nodup) :
    objects.foldlM (readObject lib enc) start = .ok final ↔
      Read lib enc objects start final := by
  induction objects generalizing start with
  | nil =>
      rw [List.foldlM_nil, pure_eq_ok]
      constructor
      · rintro rfl
        exact ⟨by simp, by simp [tracesOf], by simp [evidenceOf], hstart⟩
      · intro h
        have htrace : final.trace.toList = start.trace.toList := by
          rw [h.trace]
          exact List.append_nil _
        have hevidence : final.byID = start.byID := by
          rw [h.evidence]
          exact List.append_nil _
        have hsame : final.trace = start.trace := by
          simpa using congrArg List.head? htrace
        obtain ⟨found, snapshots⟩ := start
        obtain ⟨found', snapshots'⟩ := final
        cases hevidence
        cases hsame
        rfl
  | cons object rest ih =>
      rw [List.foldlM_cons, bind_eq_ok]
      by_cases htrace : object.path = decisionTracePath
      · simp only [readObject_trace htrace, read_cons_trace htrace]
        constructor
        · rintro ⟨_, ⟨hone, trace, hdecode, rfl⟩, hrest⟩
          exact ⟨hone, trace, hdecode, (ih (by exact hstart)).mp hrest⟩
        · rintro ⟨hone, trace, hdecode, hread⟩
          exact ⟨_, ⟨hone, trace, hdecode, rfl⟩, (ih (by exact hstart)).mpr hread⟩
      · by_cases hevidence : startsWith object.path "evidence/" = true
        · simp only [readObject_evidence hevidence, read_cons_evidence hevidence]
          have hgrown : ∀ snapshot : Evidence.Snapshot,
              snapshot.evidenceID ∉ start.byID.map (·.evidenceID) →
              ((start.byID ++ [snapshot]).map (·.evidenceID)).Nodup := by
            intro snapshot hnew
            rw [List.map_append, List.map_singleton, ← List.concat_eq_append]
            exact hstart.concat hnew
          constructor
          · rintro ⟨_, ⟨snapshot, hdecode, hintact, hnew, rfl⟩, hrest⟩
            exact ⟨snapshot, hdecode, hintact, hnew, (ih (hgrown _ hnew)).mp hrest⟩
          · rintro ⟨snapshot, hdecode, hintact, hnew, hread⟩
            exact ⟨_, ⟨snapshot, hdecode, hintact, hnew, rfl⟩, (ih (hgrown _ hnew)).mpr hread⟩
        · rw [read_cons_other htrace hevidence, ← ih hstart]
          simp only [readObject_other htrace hevidence, Except.ok.injEq, exists_eq_left']

/-- One round of the second loop. -/
theorem orderReference_eq_ok {sessionID : UUID} {state next : Ordering}
    {reference : EvidenceReference} :
    orderReference sessionID state reference = .ok next ↔
      ∃ snapshot, Refers sessionID reference snapshot ∧
        byID state.remaining reference.evidenceID = some snapshot ∧
        next = ⟨state.ordered ++ [snapshot],
          state.remaining.filter fun other => other.evidenceID ≠ reference.evidenceID⟩ := by
  unfold orderReference
  cases hfind : byID state.remaining reference.evidenceID with
  | none => simp
  | some snapshot =>
      have hid : snapshot.evidenceID = reference.evidenceID := by
        simpa using List.find?_some hfind
      simp only [bind_eq_ok, rejectIf_eq_ok, pure_eq_ok, exists_const, ne_eq, not_not,
        Option.some.injEq]
      constructor
      · rintro ⟨hqualified, hsession, rfl⟩
        exact ⟨snapshot, ⟨hqualified, hid, hsession⟩, rfl, rfl⟩
      · rintro ⟨_, hrefers, rfl, rfl⟩
        exact ⟨hrefers.qualified, hrefers.session, rfl⟩

/-- The second loop uses up all evidence exactly when the references admit it, one
by one. -/
theorem orderReferences_eq_ok {sessionID : UUID} {references : List EvidenceReference}
    {remaining : List Evidence.Snapshot} {final : Ordering} (ordered : List Evidence.Snapshot)
    (hdistinct : (remaining.map (·.evidenceID)).Nodup) :
    references.foldlM (orderReference sessionID) ⟨ordered, remaining⟩ = .ok final ∧
        final.remaining = [] ↔
      ∃ taken, List.Forall₂ (Refers sessionID) references taken ∧
        remaining.Perm taken ∧ final = ⟨ordered ++ taken, []⟩ := by
  induction references generalizing ordered remaining with
  | nil =>
      simp only [List.foldlM_nil, pure_eq_ok, List.forall₂_nil_left_iff]
      constructor
      · rintro ⟨rfl, hempty⟩
        cases hempty
        exact ⟨[], rfl, List.Perm.nil, by rw [List.append_nil]⟩
      · rintro ⟨_, rfl, hperm, rfl⟩
        cases hperm.eq_nil
        rw [List.append_nil]
        exact ⟨rfl, rfl⟩
  | cons reference rest ih =>
      have hfilter : ((remaining.filter
          fun other => other.evidenceID ≠ reference.evidenceID).map (·.evidenceID)).Nodup :=
        hdistinct.sublist (List.filter_sublist.map _)
      simp only [List.foldlM_cons, bind_eq_ok, orderReference_eq_ok]
      constructor
      · rintro ⟨⟨_, ⟨snapshot, hrefers, hfind, rfl⟩, hrest⟩, hempty⟩
        obtain ⟨taken, htaken, hperm, rfl⟩ := (ih _ hfilter).mp ⟨hrest, hempty⟩
        have hmem : snapshot ∈ remaining := List.mem_of_find?_eq_some hfind
        refine ⟨snapshot :: taken, .cons hrefers htaken, ?_, by simp⟩
        refine (perm_cons_filter_of_nodup hmem hdistinct).trans (List.Perm.cons _ ?_)
        rw [hrefers.evidenceID]
        exact hperm
      · rintro ⟨_, htaken, hperm, rfl⟩
        cases htaken with
        | @cons _ snapshot _ taken hrefers htaken =>
        have hmem : snapshot ∈ remaining := hperm.mem_iff.mpr List.mem_cons_self
        have hfind := find?_key_of_nodup hmem hdistinct
        have hremoved := (perm_cons_filter_of_nodup hmem hdistinct).symm.trans hperm
        rw [hrefers.evidenceID] at hfind hremoved
        have hrest := (ih (ordered ++ [snapshot]) hfilter).mpr
          ⟨taken, htaken, hremoved.cons_inv, by simp⟩
        exact ⟨⟨_, ⟨snapshot, hrefers, hfind, rfl⟩, hrest.1⟩, rfl⟩

/-- `verificationInputs` returns what the bundle embeds. -/
theorem verificationInputs_eq_ok {bundle : Bundle} {trace : DecisionTrace}
    {evidence : List Evidence.Snapshot} :
    verificationInputs lib enc bundle = .ok (trace, evidence) ↔
      ∃ binding, Embeds lib enc bundle trace binding evidence := by
  have hread : ∀ inputs, bundle.objects.foldlM (readObject lib enc) ⟨none, []⟩ = .ok inputs ↔
      Read lib enc bundle.objects ⟨none, []⟩ inputs := fun inputs =>
    readObjects_eq_ok List.nodup_nil
  simp only [verificationInputs, bind_eq_ok, hread]
  constructor
  · rintro ⟨⟨found, snapshots⟩, hinputs, h⟩
    obtain ⟨hreadable, htraces, rfl, hdistinct⟩ := hinputs
    cases found with
    | none => exact absurd h (by simp)
    | some trace' =>
        cases hbound : trace'.evidenceBinding with
        | none => exact absurd h (by simp [hbound])
        | some binding =>
            simp only [hbound, bind_eq_ok, rejectIf_eq_ok, pure_eq_ok, exists_const, ne_eq,
              not_not] at h
            obtain ⟨-, state, hordered, hempty, hreturn⟩ := h
            obtain ⟨rfl, rfl⟩ := Prod.mk.inj hreturn
            obtain ⟨taken, hrefers, hperm, rfl⟩ :=
              (orderReferences_eq_ok [] hdistinct).mp ⟨hordered, hempty⟩
            exact ⟨binding, hreadable, htraces.symm, hbound, hdistinct, hperm, hrefers⟩
  · rintro ⟨binding, h⟩
    refine ⟨⟨some trace, evidenceOf enc bundle.objects⟩, ⟨h.readable, ?_, rfl, h.distinct⟩, ?_⟩
    · rw [h.one_trace]
      rfl
    · have hordered := (orderReferences_eq_ok [] h.distinct).mpr
        ⟨evidence, h.refers, h.complete, rfl⟩
      have hlength : (evidenceOf enc bundle.objects).length = binding.evidence.length := by
        rw [h.complete.length_eq, h.refers.length_eq]
      simp only [h.bound, bind_eq_ok, rejectIf_eq_ok, pure_eq_ok, exists_const, ne_eq, not_not]
      exact ⟨hlength, _, hordered.1, rfl, rfl⟩

end

end EvidenceBundle
end CargoPds
