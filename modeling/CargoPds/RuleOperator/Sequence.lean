import Mathlib.Data.List.Chain
import CargoPds.Evidence.Order
import CargoPds.RuleOperator.Operators

/-!
# Sequences of observations

A sequence takes, step by step, the next observation that the selector of the step
matches, from the one after the observation of the previous step on.  The loop keeps
an index and two times; `Follows` ties them to the chain of observations taken so far,
and a sequence that passes has taken a chain for all of its steps.

When there is no next observation, the loop looks for one from the beginning, and calls
the order wrong if it finds one.  It may find an observation that another step has used,
and it does not look at the steps that are still to come, so that observations can be
missing where it calls the order wrong.
-/

namespace CargoPds
namespace RuleOperator

open Fallible Evaluation

variable {steps rest : List SequenceStep} {evidence chain ordered : List Evidence.Snapshot}
variable {state : Option SequenceState} {snapshot : Evidence.Snapshot} {lib : Platform}
variable {maxDuration maxGap : Int} {step : SequenceStep} {ruleID : String}
variable {decision : RuleDecision} {selector : Selector} {k : Nat}

/-! ## One round -/

theorem nextMatchingEvidence_eq_some {start : Nat} {found : Evidence.Snapshot × Nat}
    (h : nextMatchingEvidence ordered selector start = some found) :
    start ≤ found.2 ∧ ordered[found.2]? = some found.1 ∧ SelectorMatches found.1 selector := by
  have hmem : found ∈ ordered.zipIdx.drop start := List.mem_of_find?_eq_some h
  obtain ⟨offset, hoffset⟩ := List.mem_iff_getElem?.mp hmem
  rw [List.getElem?_drop, List.getElem?_zipIdx] at hoffset
  obtain ⟨snapshot, hsnapshot, rfl⟩ := Option.map_eq_some_iff.mp hoffset
  have hmatches := List.find?_some h
  refine ⟨?_, ?_, of_decide_eq_true hmatches⟩
  · change start ≤ 0 + (start + offset)
    omega
  · change ordered[0 + (start + offset)]? = some snapshot
    rw [Nat.zero_add, hsnapshot]

/-- From the beginning on, an observation is found exactly when there is one. -/
theorem nextMatchingEvidence_zero_isSome :
    (nextMatchingEvidence ordered selector 0).isSome ↔
      ∃ snapshot ∈ ordered, SelectorMatches snapshot selector := by
  unfold nextMatchingEvidence
  rw [List.drop_zero, List.find?_isSome]
  constructor
  · rintro ⟨⟨snapshot, index⟩, hmem, hmatches⟩
    exact ⟨snapshot, (List.mem_zipIdx' hmem).2 ▸ List.getElem_mem _, of_decide_eq_true hmatches⟩
  · rintro ⟨snapshot, hmem, hmatches⟩
    obtain ⟨index, hindex⟩ := List.mem_iff_getElem?.mp hmem
    exact ⟨(snapshot, index), List.mk_mem_zipIdx_iff_getElem?.mpr hindex,
      decide_eq_true hmatches⟩

/-- The observation is one that the step asks for. -/
structure Satisfies (lib : Platform) (step : SequenceStep) (snapshot : Evidence.Snapshot) :
    Prop where
  selected : SelectorMatches snapshot step.selector
  expected : ∃ value, valueAtSnapshot lib snapshot step.selector.jsonPointer = .ok value ∧
    lib.marshalJSON value = some step.expected

theorem observedJSON_eq_ok {pointer : String} {actual : Bytes} :
    observedJSON lib snapshot pointer = .ok actual ↔
      ∃ value, valueAtSnapshot lib snapshot pointer = .ok value ∧
        lib.marshalJSON value = some actual := by
  unfold observedJSON
  cases hvalue : valueAtSnapshot lib snapshot pointer with
  | error reason => simp
  | ok value => cases hactual : lib.marshalJSON value <;> simp [hactual]

section
variable {lib : Platform} {ordered : List Evidence.Snapshot} {maxGap maxDuration : Int}
  {state : Option SequenceState} {step : SequenceStep}

/-- Where the search for the next observation begins. -/
def SequenceState.start (state : Option SequenceState) : Nat :=
  (state.map fun previous => previous.previousIndex + 1).getD 0

theorem nextObservation_eq_ok {found : Evidence.Snapshot × Nat} :
    nextObservation ordered state selector = .ok found ↔
      nextMatchingEvidence ordered selector (SequenceState.start state) = some found := by
  unfold nextObservation SequenceState.start
  split
  · rename_i other hother
    rw [hother, Except.ok.injEq, Option.some.injEq]
  · rename_i hnone
    rw [hnone]
    split <;> simp

/-- What a round that goes on has found. -/
theorem advanceSequence_eq_ok {next : SequenceState}
    (h : advanceSequence lib ordered maxGap maxDuration state step = .ok next) :
    ∃ snapshot, SequenceState.start state ≤ next.previousIndex ∧
      ordered[next.previousIndex]? = some snapshot ∧ Satisfies lib step snapshot ∧
      next.previousAt = snapshot.observedAt.toUTC ∧
      next.firstAt = (state.map SequenceState.firstAt).getD snapshot.observedAt.toUTC ∧
      (∀ previous ∈ state, 0 < maxGap → next.previousAt.sub previous.previousAt ≤ maxGap) ∧
      (0 < maxDuration → next.previousAt.sub next.firstAt ≤ maxDuration) := by
  simp only [advanceSequence, bind_eq_ok, rejectIf_eq_ok, pure_eq_ok, exists_const, ne_eq,
    not_not] at h
  obtain ⟨⟨snapshot, index⟩, hfound, actual, hactual, rfl, hgap, hduration, rfl⟩ := h
  obtain ⟨hstart, hindex, hmatches⟩ :=
    nextMatchingEvidence_eq_some (nextObservation_eq_ok.mp hfound)
  refine ⟨snapshot, hstart, hindex, ⟨hmatches, observedJSON_eq_ok.mp hactual⟩, rfl, rfl, ?_, ?_⟩
  · intro previous hprevious hpositive
    by_contra hexceeded
    exact hgap ⟨previous, hprevious, hpositive, not_le.mp hexceeded⟩
  · intro hpositive
    by_contra hexceeded
    exact hduration ⟨hpositive, not_le.mp hexceeded⟩

end

/-- The failures of a round that has found an observation. -/
def mismatches : List Reason :=
  [.sequenceValueMismatch, .sequenceGapExceeded, .sequenceDurationExceeded]

/-- How a round ends the loop: the order is called wrong, the decision is left open, or an
observation is found that does not fit. -/
theorem advanceSequence_eq_error
    (h : advanceSequence lib ordered maxGap maxDuration state step = .error decision) :
    (decision = fail .sequenceOrderInvalid ∧
      nextMatchingEvidence ordered step.selector (SequenceState.start state) = none ∧
      ∃ snapshot ∈ ordered, SelectorMatches snapshot step.selector) ∨
    decision.status = .inconclusive ∨
    ((∃ found, nextMatchingEvidence ordered step.selector (SequenceState.start state) =
        some found) ∧
      ∃ reason ∈ mismatches, decision = fail reason) := by
  simp only [advanceSequence, bind_eq_error, rejectIf_eq_error] at h
  rcases h with hnext | ⟨found, hfound, hjson | ⟨actual, -, hrest⟩⟩
  · unfold nextObservation at hnext
    split at hnext
    · exact absurd hnext (by simp)
    · rename_i hnone
      split at hnext
      · rename_i hsome
        exact .inl ⟨(Except.error.inj hnext).symm, hnone,
          nextMatchingEvidence_zero_isSome.mp hsome⟩
      · exact .inr (.inl (Except.error.inj hnext ▸ rfl))
  · refine .inr (.inl ?_)
    unfold observedJSON at hjson
    split at hjson
    · exact Except.error.inj hjson ▸ rfl
    · split at hjson
      · exact Except.error.inj hjson ▸ rfl
      · exact absurd hjson (by simp)
  · refine .inr (.inr ⟨⟨found, nextObservation_eq_ok.mp hfound⟩, ?_⟩)
    rcases hrest with ⟨-, rfl⟩ | ⟨_, -, ⟨-, rfl⟩ | ⟨_, -, ⟨-, rfl⟩ | ⟨_, -, hreturn⟩⟩⟩
    · exact ⟨.sequenceValueMismatch, by decide, rfl⟩
    · exact ⟨.sequenceGapExceeded, by decide, rfl⟩
    · exact ⟨.sequenceDurationExceeded, by decide, rfl⟩
    · exact absurd hreturn (by simp [pure, Except.pure])

/-! ## The chain of a run -/

section
variable (lib : Platform) (ordered : List Evidence.Snapshot) (maxGap maxDuration : Int)

/-- The state of the loop when it is through the steps, or the decision that ends it. -/
def reached (steps : List SequenceStep) : Except RuleDecision (Option SequenceState) :=
  steps.foldlM (fun state step =>
    (advanceSequence lib ordered maxGap maxDuration state step).map some) none

/-- The state of the loop belongs to a chain of observations. -/
def SequenceState.Of (chain : List Evidence.Snapshot) : Option SequenceState → Prop
  | none => chain = []
  | some state => ∃ first ∈ chain.head?, ∃ last ∈ chain.getLast?,
      ordered[state.previousIndex]? = some last ∧
      state.firstAt = first.observedAt.toUTC ∧ state.previousAt = last.observedAt.toUTC

/-- The loop has taken the chain of observations for the steps. -/
structure Follows (steps : List SequenceStep) (chain : List Evidence.Snapshot)
    (state : Option SequenceState) : Prop where
  satisfied : List.Forall₂ (Satisfies lib) steps chain
  observed : ∀ snapshot ∈ chain, snapshot ∈ ordered
  increasing : chain.IsChain fun left right => left.rank < right.rank
  gaps : 0 < maxGap → chain.IsChain fun left right =>
    right.observedAt.toUTC.sub left.observedAt.toUTC ≤ maxGap
  duration : 0 < maxDuration → ∀ first ∈ chain.head?, ∀ last ∈ chain.getLast?,
    last.observedAt.toUTC.sub first.observedAt.toUTC ≤ maxDuration
  state_of : SequenceState.Of ordered chain state

end

section
variable {lib : Platform} {ordered : List Evidence.Snapshot} {maxGap maxDuration : Int}

theorem reached_append (steps : List SequenceStep) (step : SequenceStep) :
    reached lib ordered maxGap maxDuration (steps ++ [step]) =
      reached lib ordered maxGap maxDuration steps >>= fun state =>
        (advanceSequence lib ordered maxGap maxDuration state step).map some := by
  unfold reached
  rw [List.foldlM_append]
  congr 1
  funext state
  rw [List.foldlM_cons]
  cases advanceSequence lib ordered maxGap maxDuration state step <;> rfl

theorem follows_nil : Follows lib ordered maxGap maxDuration [] [] none where
  satisfied := .nil
  observed := by simp
  increasing := .nil
  gaps _ := .nil
  duration _ := by simp
  state_of := rfl

/-- An observation further on in the sorted evidence has a higher rank. -/
theorem rank_lt_of_index
    (hsorted : ordered.Pairwise fun left right => left.rank < right.rank) {i j : Nat}
    {left right : Evidence.Snapshot} (hlt : i < j) (hleft : ordered[i]? = some left)
    (hright : ordered[j]? = some right) : left.rank < right.rank := by
  obtain ⟨hi, rfl⟩ := List.getElem?_eq_some_iff.mp hleft
  obtain ⟨hj, rfl⟩ := List.getElem?_eq_some_iff.mp hright
  exact List.pairwise_iff_getElem.mp hsorted i j hi hj hlt

/-- What is found behind the observations of a chain continues it. -/
theorem Follows.increasing_concat {index : Nat}
    (hsorted : ordered.Pairwise fun left right => left.rank < right.rank)
    (h : Follows lib ordered maxGap maxDuration steps chain state)
    (hstart : SequenceState.start state ≤ index) (hindex : ordered[index]? = some snapshot) :
    (chain ++ [snapshot]).IsChain fun left right => left.rank < right.rank := by
  refine List.isChain_append.mpr ⟨h.increasing, .singleton _, ?_⟩
  rintro last hlast _ ⟨⟩
  cases state with
  | none => exact absurd hlast (by simp [show chain = [] from h.state_of])
  | some state =>
      obtain ⟨-, -, last', hlast', hindex', -⟩ := h.state_of
      obtain rfl := Option.mem_unique hlast hlast'
      exact rank_lt_of_index hsorted hstart hindex' hindex

/-- A round that goes on adds one observation to the chain. -/
theorem Follows.advance {next : SequenceState}
    (hsorted : ordered.Pairwise fun left right => left.rank < right.rank)
    (h : Follows lib ordered maxGap maxDuration steps chain state)
    (hadvance : advanceSequence lib ordered maxGap maxDuration state step = .ok next) :
    ∃ snapshot, Follows lib ordered maxGap maxDuration (steps ++ [step])
      (chain ++ [snapshot]) (some next) := by
  obtain ⟨snapshot, hstart, hindex, hsatisfies, hat, hfirst, hgap, hduration⟩ :=
    advanceSequence_eq_ok hadvance
  have hhead : ∃ first ∈ (chain ++ [snapshot]).head?, next.firstAt = first.observedAt.toUTC := by
    cases state with
    | none =>
        obtain rfl : chain = [] := h.state_of
        exact ⟨snapshot, rfl, hfirst⟩
    | some state =>
        obtain ⟨first, hmem, -, -, -, hfirst', -⟩ := h.state_of
        exact ⟨first, List.mem_head?_append_of_mem_head? hmem, hfirst.trans hfirst'⟩
  have hlast : (chain ++ [snapshot]).getLast? = some snapshot := List.getLast?_concat
  refine ⟨snapshot, List.rel_append h.satisfied (.cons hsatisfies .nil), ?_, ?_, ?_, ?_, ?_⟩
  · intro other hother
    rcases List.mem_append.mp hother with hold | hnew
    · exact h.observed other hold
    · rw [List.mem_singleton.mp hnew]
      exact List.mem_of_getElem? hindex
  · exact h.increasing_concat hsorted hstart hindex
  · intro hpositive
    refine List.isChain_append.mpr ⟨h.gaps hpositive, .singleton _, ?_⟩
    rintro last hlast _ ⟨⟩
    cases state with
    | none => exact absurd hlast (by simp [show chain = [] from h.state_of])
    | some state =>
        obtain ⟨-, -, last', hlast', -, -, hat'⟩ := h.state_of
        obtain rfl := Option.mem_unique hlast hlast'
        rw [← hat, ← hat']
        exact hgap state rfl hpositive
  · intro hpositive first hmem last hmem'
    obtain ⟨first', hmem'', hfirst'⟩ := hhead
    obtain rfl := Option.mem_unique hmem hmem''
    rw [hlast, Option.mem_some_iff] at hmem'
    subst hmem'
    rw [← hat, ← hfirst']
    exact hduration hpositive
  · obtain ⟨first, hmem, hfirst'⟩ := hhead
    exact ⟨first, hmem, snapshot, hlast, hindex, hfirst', hat⟩

/-- The chain of a run. -/
theorem reached_follows (hsorted : ordered.Pairwise fun left right => left.rank < right.rank)
    (h : reached lib ordered maxGap maxDuration steps = .ok state) :
    ∃ chain, Follows lib ordered maxGap maxDuration steps chain state := by
  induction steps using List.reverseRecOn generalizing state with
  | nil =>
      obtain rfl := pure_eq_ok.mp h
      exact ⟨[], follows_nil⟩
  | append_singleton steps step ih =>
      rw [reached_append] at h
      obtain ⟨before, hbefore, hstep⟩ := bind_eq_ok.mp h
      obtain ⟨next, hnext, rfl⟩ := map_eq_ok.mp hstep
      obtain ⟨chain, hchain⟩ := ih hbefore
      obtain ⟨snapshot, hfollows⟩ := hchain.advance hsorted hnext
      exact ⟨chain ++ [snapshot], hfollows⟩

/-- The loop gets through `k` steps, and the next one ends it with the decision. -/
def EndsAt (lib : Platform) (ordered : List Evidence.Snapshot) (maxGap maxDuration : Int)
    (steps : List SequenceStep) (k : Nat) (decision : RuleDecision) : Prop :=
  ∃ state step, reached lib ordered maxGap maxDuration (steps.take k) = .ok state ∧
    steps[k]? = some step ∧
    advanceSequence lib ordered maxGap maxDuration state step = .error decision

/-- A loop that is not through its steps has ended at one of them. -/
theorem exists_endsAt (h : reached lib ordered maxGap maxDuration steps = .error decision) :
    ∃ k, EndsAt lib ordered maxGap maxDuration steps k decision := by
  induction steps using List.reverseRecOn with
  | nil => exact absurd h (by simp [reached, pure, Except.pure])
  | append_singleton steps step ih =>
      rw [reached_append] at h
      rcases bind_eq_error.mp h with hbefore | ⟨state, hstate, hstep⟩
      · obtain ⟨k, state, other, hreached, hother, hend⟩ := ih hbefore
        have hlt : k < steps.length := (List.getElem?_eq_some_iff.mp hother).1
        refine ⟨k, state, other, ?_, ?_, hend⟩
        · rwa [List.take_append_of_le_length hlt.le]
        · rwa [List.getElem?_append_left hlt]
      · refine ⟨steps.length, state, step, ?_, List.getElem?_concat_length, ?_⟩
        · rwa [List.take_left]
        · cases hadvance : advanceSequence lib ordered maxGap maxDuration state step with
          | ok next => exact absurd hstep (by simp [hadvance, Except.map])
          | error other =>
              rw [hadvance] at hstep
              exact congrArg _ (Except.error.inj hstep)

/-- What ends the loop is its decision. -/
theorem EndsAt.reached_eq (h : EndsAt lib ordered maxGap maxDuration steps k decision) :
    reached lib ordered maxGap maxDuration steps = .error decision := by
  obtain ⟨state, step, hreached, hstep, hend⟩ := h
  obtain ⟨hlt, rfl⟩ := List.getElem?_eq_some_iff.mp hstep
  unfold reached at hreached ⊢
  rw [← List.take_append_drop k steps, List.foldlM_append, hreached, ok_bind,
    List.drop_eq_getElem_cons hlt, List.foldlM_cons, hend]
  rfl

/-- The decision of the loop. -/
theorem evaluateSteps_eq_reached (steps : List SequenceStep) :
    evaluateSteps lib ordered maxGap maxDuration none steps =
      match reached lib ordered maxGap maxDuration steps with
      | .error decision => decision
      | .ok _ => pass := by
  unfold reached
  generalize (none : Option SequenceState) = state
  induction steps generalizing state with
  | nil => rfl
  | cons step rest ih =>
      rw [evaluateSteps, List.foldlM_cons]
      cases advanceSequence lib ordered maxGap maxDuration state step with
      | error decision => rfl
      | ok next => exact ih (some next)

end

/-! ## Passing -/

/-- The evidence as the operator goes through it. -/
def inOrder (evidence : List Evidence.Snapshot) : List Evidence.Snapshot :=
  evidence.insertionSort fun left right => ¬ Evidence.ObservedLess right left

theorem mem_inOrder :
    snapshot ∈ inOrder evidence ↔ snapshot ∈ evidence :=
  (List.perm_insertionSort _ evidence).mem_iff

theorem evaluate_sequence (lib : Platform) (ruleID : String) (steps : List SequenceStep)
    (maxGap maxDuration : Int) (input : RuleInput) :
    (Operator.sequence ruleID steps maxGap maxDuration).evaluate lib input =
      evaluateSteps lib (inOrder input.evidence) maxGap maxDuration none steps :=
  rfl

/-- The differences between the times of the observations are durations. -/
def ExactTimes (evidence : List Evidence.Snapshot) : Prop :=
  ∀ left ∈ evidence, ∀ right ∈ evidence,
    -Time.maxDuration - 1 ≤ left.observedAt.instant - right.observedAt.instant ∧
      left.observedAt.instant - right.observedAt.instant ≤ Time.maxDuration

theorem ExactTimes.sub_eq (h : ExactTimes evidence) {left right : Evidence.Snapshot}
    (hleft : left ∈ evidence) (hright : right ∈ evidence) :
    left.observedAt.toUTC.sub right.observedAt.toUTC =
      left.observedAt.instant - right.observedAt.instant := by
  obtain ⟨hlow, hhigh⟩ := h left hleft right hright
  unfold Time.sub
  rw [Time.toUTC_instant, Time.toUTC_instant, min_eq_right hhigh, max_eq_right hlow]

/-- One observation for each step, in order and within the windows. -/
structure OrderedChain (lib : Platform) (evidence : List Evidence.Snapshot)
    (steps : List SequenceStep) (maxGap maxDuration : Int) (chain : List Evidence.Snapshot) :
    Prop where
  observed : ∀ snapshot ∈ chain, snapshot ∈ evidence
  satisfied : List.Forall₂ (Satisfies lib) steps chain
  increasing : chain.Pairwise fun left right => left.rank < right.rank
  gaps : 0 < maxGap → chain.IsChain fun left right =>
    right.observedAt.instant - left.observedAt.instant ≤ maxGap
  duration : 0 < maxDuration → ∀ first ∈ chain.head?, ∀ last ∈ chain.getLast?,
    last.observedAt.instant - first.observedAt.instant ≤ maxDuration

theorem Follows.orderedChain (hexact : ExactTimes evidence)
    (h : Follows lib (inOrder evidence) maxGap maxDuration steps chain state) :
    OrderedChain lib evidence steps maxGap maxDuration chain := by
  have hobserved : ∀ snapshot ∈ chain, snapshot ∈ evidence :=
    fun snapshot hmem => mem_inOrder.mp (h.observed snapshot hmem)
  refine ⟨hobserved, h.satisfied, List.isChain_iff_pairwise.mp h.increasing, ?_, ?_⟩
  · intro hpositive
    refine (h.gaps hpositive).imp_of_mem_imp fun left right hleft hright hgap => ?_
    rwa [hexact.sub_eq (hobserved right hright) (hobserved left hleft)] at hgap
  · intro hpositive first hfirst last hlast
    have hduration := h.duration hpositive first hfirst last hlast
    rwa [hexact.sub_eq (hobserved last (List.mem_of_getLast? hlast))
      (hobserved first (List.mem_of_mem_head? hfirst))] at hduration

/-- A sequence passes only for a chain of observations, one for each step, that are in
order and within the windows. -/
theorem passing_sequence_has_chain (lib : Platform) (ruleID : String)
    (steps : List SequenceStep) (maxGap maxDuration : Int) (input : RuleInput)
    (hids : Evidence.DistinctIDs input.evidence) (hexact : ExactTimes input.evidence)
    (hpass : ((Operator.sequence ruleID steps maxGap maxDuration).evaluate lib input).status =
      .pass) :
    ∃ chain, OrderedChain lib input.evidence steps maxGap maxDuration chain := by
  rw [evaluate_sequence, evaluateSteps_eq_reached] at hpass
  cases hreached : reached lib (inOrder input.evidence) maxGap maxDuration steps with
  | error decision =>
      rw [hreached] at hpass
      obtain ⟨k, state, step, -, -, hend⟩ := exists_endsAt hreached
      rcases advanceSequence_eq_error hend with ⟨rfl, -⟩ | hopen | ⟨-, reason, -, rfl⟩
      · exact absurd hpass (by decide)
      · exact absurd (hopen.symm.trans hpass) (by decide)
      · exact absurd hpass (by simp [fail])
  | ok state =>
      obtain ⟨chain, hchain⟩ := reached_follows hids.sorted hreached
      exact ⟨chain, hchain.orderedChain hexact⟩

/-! A support that the target confirms before the source releases it. -/

/-- An observation. -/
def sighting (number : Nat) (evidenceType : Evidence.EvidenceType) (sourceID : String)
    (observedAt : Time) (payload : Bytes) : Evidence.Snapshot where
  evidenceID := BitVec.ofNat 128 number
  sessionID := BitVec.ofNat 128 1
  sourceID := sourceID
  sourceType := "SENSOR"
  evidenceType := evidenceType
  observedAt := observedAt
  receivedAt := observedAt
  payload := payload
  confidence := none
  provenance := []
  integrity := ⟨"SHA-256", "", "v1", "v1", "HTTP"⟩

namespace Contact

def truth : Bytes := utf8 "true"

def confirmation : Bytes := utf8 "\x7b\"confirmed\":true\x7d"

def release : Bytes := utf8 "\x7b\"released\":true\x7d"

def library : Platform where
  __ := Platform.silent
  decodeJSON payload :=
    [(truth, Json.bool true), (confirmation, .object [("confirmed", .bool true)]),
      (release, .object [("released", .bool true)])].lookup payload
  marshalJSON
    | .bool true => some truth
    | _ => none

def confirmed : SequenceStep := ⟨⟨"CONTACT", "target", "/confirmed"⟩, truth⟩

def released : SequenceStep := ⟨⟨"CONTACT", "source", "/released"⟩, truth⟩

def second : Int := 1000000000

/-- The first of March 2026, eight in the morning, and the time after it. -/
def morning (after : Int) : Time := ⟨63907948800 * second + after, .utc⟩

def input (evidence : List Evidence.Snapshot) : RuleInput :=
  ⟨BitVec.ofNat 128 1, BitVec.ofNat 128 1, "cargo-transfer", "1.0.0", "", evidence⟩

def handedOver : RuleInput :=
  input [sighting 2 "CONTACT" "source" (morning second) release,
    sighting 1 "CONTACT" "target" (morning 0) confirmation]

def observedOnce : RuleInput :=
  input [sighting 1 "CONTACT" "target" (morning 0) confirmation]

end Contact

theorem support_has_chain :
    (Operator.sequence "support" [Contact.confirmed, Contact.released] (2 * Contact.second)
      (3 * Contact.second)).evaluate Contact.library Contact.handedOver = pass ∧
    ∃ chain, OrderedChain Contact.library Contact.handedOver.evidence
      [Contact.confirmed, Contact.released] (2 * Contact.second) (3 * Contact.second) chain := by
  have hpass : (Operator.sequence "support" [Contact.confirmed, Contact.released]
      (2 * Contact.second) (3 * Contact.second)).evaluate Contact.library Contact.handedOver =
        pass := by
    decide
  refine ⟨hpass, passing_sequence_has_chain Contact.library "support"
    [Contact.confirmed, Contact.released] (2 * Contact.second) (3 * Contact.second)
    Contact.handedOver ?_ ?_ (congrArg RuleDecision.status hpass)⟩
  · change [BitVec.ofNat 128 2, BitVec.ofNat 128 1].Nodup
    decide
  · unfold ExactTimes
    decide

/-! ## Missing observations -/

/-- The evidence has a distinct observation for each of the steps. -/
def Assigned (evidence : List Evidence.Snapshot) (steps : List SequenceStep) : Prop :=
  ∃ chosen : List Evidence.Snapshot, chosen.Nodup ∧ (∀ snapshot ∈ chosen, snapshot ∈ evidence) ∧
    List.Forall₂ (fun step snapshot => SelectorMatches snapshot step.selector) steps chosen

theorem Assigned.take (h : Assigned evidence steps) (k : Nat) :
    Assigned evidence (steps.take k) := by
  obtain ⟨chosen, hnodup, hmem, hmatches⟩ := h
  exact ⟨chosen.take k, hnodup.sublist (List.take_sublist k chosen),
    fun snapshot hsnapshot => hmem snapshot (List.mem_of_mem_take hsnapshot),
    List.forall₂_take k hmatches⟩

/-- There are not more steps than observations. -/
theorem Assigned.length_le (h : Assigned evidence steps) : steps.length ≤ evidence.length := by
  obtain ⟨chosen, hnodup, hmem, hmatches⟩ := h
  rw [hmatches.length_eq]
  exact (List.subperm_of_subset hnodup hmem).length_le

theorem nodup_of_increasing (h : chain.IsChain fun left right => left.rank < right.rank) :
    chain.Nodup :=
  (List.isChain_iff_pairwise.mp h).imp fun hlt heq => hlt.ne (congrArg _ heq)

/-- The chain of a run is one choice for its steps, -/
theorem Follows.assigned (h : Follows lib (inOrder evidence) maxGap maxDuration steps chain state) :
    Assigned evidence steps :=
  ⟨chain, nodup_of_increasing h.increasing,
    fun snapshot hmem => mem_inOrder.mp (h.observed snapshot hmem),
    h.satisfied.imp fun _ _ hsatisfies => hsatisfies.selected⟩

/-- and another observation makes it one for a further step. -/
theorem Follows.assigned_concat
    (h : Follows lib (inOrder evidence) maxGap maxDuration steps chain state)
    (hmem : snapshot ∈ inOrder evidence) (hmatches : SelectorMatches snapshot step.selector)
    (hnew : snapshot ∉ chain) :
    Assigned evidence (steps ++ [step]) := by
  refine ⟨chain ++ [snapshot], ?_, ?_, ?_⟩
  · rw [← List.concat_eq_append]
    exact (nodup_of_increasing h.increasing).concat hnew
  · intro other hother
    rcases List.mem_append.mp hother with hold | hlast
    · exact mem_inOrder.mp (h.observed other hold)
    · rw [List.mem_singleton.mp hlast]
      exact mem_inOrder.mp hmem
  · exact List.rel_append (h.satisfied.imp fun _ _ hsatisfies => hsatisfies.selected)
      (.cons hmatches .nil)

/-- Where the sequence calls the order wrong, the observations for the steps so far are
there. -/
def OrderHasObservations (lib : Platform) (steps : List SequenceStep)
    (maxGap maxDuration : Int) (evidence : List Evidence.Snapshot) : Prop :=
  ∀ k, EndsAt lib (inOrder evidence) maxGap maxDuration steps k (fail .sequenceOrderInvalid) →
    Assigned evidence (steps.take (k + 1))

/-- What is asked of a sequence on given evidence.  Besides, where observations are
missing, the decision is left open unless an earlier observation does not fit. -/
structure MissingInconclusive (lib : Platform) (ruleID : String) (steps : List SequenceStep)
    (maxGap maxDuration : Int) (input : RuleInput) : Prop where
  order : OrderHasObservations lib steps maxGap maxDuration input.evidence
  missing : ∀ k, ¬ Assigned input.evidence (steps.take k) →
    (∀ j, j + 1 < k → ∀ reason ∈ mismatches,
      ¬ EndsAt lib (inOrder input.evidence) maxGap maxDuration steps j (fail reason)) →
    ((Operator.sequence ruleID steps maxGap maxDuration).evaluate lib input).status =
      .inconclusive

/-- The selectors have an observation in common. -/
def Selector.Overlaps (left right : Selector) : Prop :=
  left.evidenceType = right.evidenceType ∧
    (left.sourceID = "" ∨ right.sourceID = "" ∨ left.sourceID = right.sourceID)

theorem SelectorMatches.overlaps {left right : Selector} (hleft : SelectorMatches snapshot left)
    (hright : SelectorMatches snapshot right) :
    left.Overlaps right := by
  refine ⟨hleft.1.symm.trans hright.1, ?_⟩
  rcases hleft.2 with hany | hleft
  · exact .inl hany
  · rcases hright.2 with hany | hright
    · exact .inr (.inl hany)
    · exact .inr (.inr (hleft.symm.trans hright))

/-- Some payload has the value that the step expects. -/
def Attainable (lib : Platform) (step : SequenceStep) : Prop :=
  ∃ snapshot : Evidence.Snapshot, ∃ value,
    valueAtSnapshot lib snapshot step.selector.jsonPointer = .ok value ∧
      lib.marshalJSON value = some step.expected

section
variable {lib : Platform} {steps : List SequenceStep} {maxGap maxDuration : Int}
  {evidence : List Evidence.Snapshot}

theorem orderInvalid_not_mismatch : ∀ reason ∈ mismatches,
    fail .sequenceOrderInvalid ≠ fail reason := by
  decide

/-- The first step never finds the order wrong. -/
theorem not_orderInvalid_zero :
    ¬ EndsAt lib ordered maxGap maxDuration steps 0 (fail .sequenceOrderInvalid) := by
  rintro ⟨state, step, hreached, -, hend⟩
  obtain rfl : none = state := pure_eq_ok.mp hreached
  rcases advanceSequence_eq_error hend with ⟨-, hnone, hsome⟩ | hopen | ⟨-, reason, hreason, heq⟩
  · have hfound := nextMatchingEvidence_zero_isSome.mpr hsome
    change nextMatchingEvidence ordered step.selector 0 = none at hnone
    rw [hnone] at hfound
    exact absurd hfound (by decide)
  · exact absurd hopen (by decide)
  · exact orderInvalid_not_mismatch reason hreason heq

/-- A round that finds an observation that does not fit has one for every step so far. -/
theorem EndsAt.assigned_of_mismatch (hids : Evidence.DistinctIDs evidence) {reason : Reason}
    (hreason : reason ∈ mismatches)
    (h : EndsAt lib (inOrder evidence) maxGap maxDuration steps k (fail reason)) :
    Assigned evidence (steps.take (k + 1)) := by
  obtain ⟨state, step, hreached, hstep, hend⟩ := h
  obtain ⟨chain, hchain⟩ := reached_follows hids.sorted hreached
  rw [List.take_add_one, hstep]
  rcases advanceSequence_eq_error hend with ⟨heq, -⟩ | hopen | ⟨⟨found, hfound⟩, -⟩
  · exact absurd heq.symm (orderInvalid_not_mismatch reason hreason)
  · exact absurd hopen (by simp [fail])
  · obtain ⟨hstart, hindex, hmatches⟩ := nextMatchingEvidence_eq_some hfound
    have hnodup := nodup_of_increasing (hchain.increasing_concat hids.sorted hstart hindex)
    refine hchain.assigned_concat (List.mem_of_getElem? hindex) hmatches ?_
    rw [← List.concat_eq_append] at hnodup
    exact (List.nodup_concat _ _).mp hnodup |>.1

/-- Where the order is called wrong, an observation matches the step. -/
theorem EndsAt.matches_of_orderInvalid
    (h : EndsAt lib ordered maxGap maxDuration steps k (fail .sequenceOrderInvalid)) :
    ∃ state step, reached lib ordered maxGap maxDuration (steps.take k) = .ok state ∧
      steps[k]? = some step ∧ ∃ snapshot ∈ ordered, SelectorMatches snapshot step.selector := by
  obtain ⟨state, step, hreached, hstep, hend⟩ := h
  rcases advanceSequence_eq_error hend with ⟨-, -, hsome⟩ | hopen | ⟨-, reason, hreason, heq⟩
  · exact ⟨state, step, hreached, hstep, hsome⟩
  · exact absurd hopen (by decide)
  · exact absurd heq (orderInvalid_not_mismatch reason hreason)

/-- A step that shares no observation with the earlier ones finds the order wrong only
where there is an observation for it besides theirs. -/
theorem EndsAt.assigned_of_apart (hids : Evidence.DistinctIDs evidence)
    (hapart : ∀ step ∈ steps[k]?, ∀ earlier ∈ steps.take k, ¬ earlier.selector.Overlaps
      step.selector)
    (h : EndsAt lib (inOrder evidence) maxGap maxDuration steps k (fail .sequenceOrderInvalid)) :
    Assigned evidence (steps.take (k + 1)) := by
  obtain ⟨state, step, hreached, hstep, snapshot, hmem, hmatches⟩ := h.matches_of_orderInvalid
  obtain ⟨chain, hchain⟩ := reached_follows hids.sorted hreached
  rw [List.take_add_one, hstep]
  refine hchain.assigned_concat hmem hmatches fun hused => ?_
  -- an observation of the chain belongs to an earlier step
  obtain ⟨earlier, hearlier, hsatisfies⟩ := exists_of_mem_right hchain.satisfied hused
  exact hapart step hstep earlier hearlier (hsatisfies.selected.overlaps hmatches)

/-- Nothing is wrong where the order is only called wrong when all observations are
there. -/
theorem missingInconclusive_of_order {input : RuleInput}
    (hids : Evidence.DistinctIDs input.evidence)
    (h : ∀ k, EndsAt lib (inOrder input.evidence) maxGap maxDuration steps k (fail
      .sequenceOrderInvalid) → Assigned input.evidence steps) :
    MissingInconclusive lib ruleID steps maxGap maxDuration input := by
  refine ⟨fun k hend => (h k hend).take _, ?_⟩
  intro k hmissing hfits
  rw [evaluate_sequence, evaluateSteps_eq_reached]
  cases hreached : reached lib (inOrder input.evidence) maxGap maxDuration steps with
  | ok state =>
      obtain ⟨chain, hchain⟩ := reached_follows hids.sorted hreached
      exact absurd (hchain.assigned.take k) hmissing
  | error decision =>
      obtain ⟨j, hend⟩ := exists_endsAt hreached
      have hround := hend
      obtain ⟨state, step, -, -, hlast⟩ := hround
      rcases advanceSequence_eq_error hlast with ⟨rfl, -⟩ | hopen | ⟨-, reason, hreason, rfl⟩
      · exact absurd ((h j hend).take k) hmissing
      · exact hopen
      · by_cases hearlier : j + 1 < k
        · exact absurd hend (hfits j hearlier reason hreason)
        · -- the round that does not fit is at the end of the prefix or behind it
          have hassigned := (hend.assigned_of_mismatch hids hreason).take k
          rw [List.take_take, min_eq_left (not_lt.mp hearlier)] at hassigned
          exact absurd hassigned hmissing

/-- Calling the order wrong with fewer observations than steps is what is asked not to
happen. -/
theorem not_missingInconclusive_of_few {input : RuleInput}
    (hend : EndsAt lib (inOrder input.evidence) maxGap maxDuration steps k (fail
      .sequenceOrderInvalid)) (hfew : input.evidence.length < steps.length) :
    ¬ MissingInconclusive lib ruleID steps maxGap maxDuration input := by
  intro h
  have hmissing : ¬ Assigned input.evidence (steps.take steps.length) := by
    rw [List.take_length]
    exact fun hassigned => absurd hassigned.length_le (not_le.mpr hfew)
  have hinconclusive := h.missing steps.length hmissing ?_
  · rw [evaluate_sequence, evaluateSteps_eq_reached, hend.reached_eq] at hinconclusive
    exact absurd hinconclusive (by decide)
  · intro j _ reason hreason hother
    have hsame := hend.reached_eq.symm.trans hother.reached_eq
    exact orderInvalid_not_mismatch reason hreason (Except.error.inj hsame)

end

/-! ### Where it fails -/

/-- The second step calls the order wrong when its observation comes before that of the
first. -/
theorem endsAt_one {first second : SequenceStep} (before : List Evidence.Snapshot)
    (hnone : ∀ other ∈ before, ¬ SelectorMatches other first.selector)
    (hsatisfies : Satisfies lib first snapshot)
    (hsecond : ∃ other ∈ before ++ [snapshot], SelectorMatches other second.selector) :
    EndsAt lib (before ++ [snapshot]) maxGap maxDuration (first :: second :: rest) 1
      (fail .sequenceOrderInvalid) := by
  have hfound : nextMatchingEvidence (before ++ [snapshot]) first.selector 0 =
      some (snapshot, before.length) := by
    unfold nextMatchingEvidence
    rw [List.drop_zero, List.zipIdx_append, List.find?_append]
    have hskip : before.zipIdx.find? (fun entry => SelectorMatches entry.1 first.selector) =
        none := by
      rw [List.find?_eq_none]
      rintro ⟨other, index⟩ hmem
      have hother : other ∈ before := (List.mem_zipIdx' hmem).2 ▸ List.getElem_mem _
      simpa using hnone other hother
    rw [hskip]
    simp [hsatisfies.selected]
  have hadvance : advanceSequence lib (before ++ [snapshot]) maxGap maxDuration none first =
      .ok ⟨before.length, snapshot.observedAt.toUTC, snapshot.observedAt.toUTC⟩ := by
    have hnext : nextObservation (before ++ [snapshot]) none first.selector =
        .ok (snapshot, before.length) := nextObservation_eq_ok.mpr hfound
    have hjson := observedJSON_eq_ok.mpr hsatisfies.expected
    have hsub : snapshot.observedAt.toUTC.sub snapshot.observedAt.toUTC = 0 := by
      unfold Time.sub
      rw [Int.sub_self]
      decide
    simp only [advanceSequence, bind_eq_ok, rejectIf_eq_ok, pure_eq_ok, exists_const, ne_eq,
      not_not]
    refine ⟨(snapshot, before.length), hnext, first.expected, hjson, rfl, by simp, ?_, rfl⟩
    rw [Option.map_none, Option.getD_none, hsub]
    omega
  have hpast : nextMatchingEvidence (before ++ [snapshot]) second.selector
      (before.length + 1) = none := by
    unfold nextMatchingEvidence
    rw [List.drop_of_length_le (by simp)]
    rfl
  refine ⟨some ⟨before.length, snapshot.observedAt.toUTC, snapshot.observedAt.toUTC⟩, second,
    ?_, rfl, ?_⟩
  · change reached lib _ maxGap maxDuration ([] ++ [first]) = _
    rw [reached_append]
    change (advanceSequence lib _ maxGap maxDuration none first).map some = _
    rw [hadvance]
    rfl
  · have hsome := nextMatchingEvidence_zero_isSome.mpr hsecond
    have hnext : nextObservation (before ++ [snapshot])
        (some ⟨before.length, snapshot.observedAt.toUTC, snapshot.observedAt.toUTC⟩)
        second.selector = .error (fail .sequenceOrderInvalid) := by
      unfold nextObservation
      rw [Option.map_some, Option.getD_some, hpast]
      exact if_pos hsome
    unfold advanceSequence
    rw [hnext]
    rfl

/-- A payload that has the value of the first step makes an observation of any type and
source that satisfies it. -/
theorem Attainable.exists_payload (h : Attainable lib step) :
    ∃ payload : Bytes, ∀ number sourceID observedAt,
      step.selector.sourceID = "" ∨ sourceID = step.selector.sourceID →
      Satisfies lib step
        (sighting number step.selector.evidenceType sourceID observedAt payload) := by
  obtain ⟨snapshot, value, hvalue, hmarshal⟩ := h
  exact ⟨snapshot.payload, fun number sourceID observedAt hsource =>
    ⟨⟨rfl, hsource⟩, value, hvalue, hmarshal⟩⟩

/-- One observation for two steps whose selectors it matches. -/
theorem not_missingInconclusive_of_overlaps {first second : SequenceStep}
    (hattainable : Attainable lib first) (h : first.selector.Overlaps second.selector) :
    ∃ input : RuleInput, Evidence.DistinctIDs input.evidence ∧
      ¬ MissingInconclusive lib ruleID (first :: second :: rest) maxGap maxDuration input := by
  obtain ⟨payload, hpayload⟩ := hattainable.exists_payload
  -- the source that both selectors ask for
  obtain ⟨sourceID, hfirst, hsecond⟩ : ∃ sourceID,
      (first.selector.sourceID = "" ∨ sourceID = first.selector.sourceID) ∧
      (second.selector.sourceID = "" ∨ sourceID = second.selector.sourceID) := by
    rcases h.2 with hany | hany | hsame
    · exact ⟨second.selector.sourceID, .inl hany, .inr rfl⟩
    · exact ⟨first.selector.sourceID, .inr rfl, .inl hany⟩
    · exact ⟨first.selector.sourceID, .inr rfl, .inr hsame⟩
  let snapshot := sighting 1 first.selector.evidenceType sourceID Time.zero payload
  have hend : EndsAt lib (inOrder [snapshot]) maxGap maxDuration (first :: second :: rest) 1
      (fail .sequenceOrderInvalid) :=
    endsAt_one [] (by simp) (hpayload _ _ _ hfirst)
      ⟨snapshot, List.mem_singleton_self _, h.1, hsecond⟩
  exact ⟨⟨UUID.nil, UUID.nil, "", "", "", [snapshot]⟩, List.nodup_singleton _,
    not_missingInconclusive_of_few hend (by simp)⟩

/-- Two observations in the wrong order, and none for the third step. -/
theorem not_missingInconclusive_of_third {first second third : SequenceStep}
    (hattainable : Attainable lib first) (h : ¬ first.selector.Overlaps second.selector) :
    ∃ input : RuleInput, Evidence.DistinctIDs input.evidence ∧
      ¬ MissingInconclusive lib ruleID (first :: second :: third :: rest) maxGap maxDuration
        input := by
  obtain ⟨payload, hpayload⟩ := hattainable.exists_payload
  let early := sighting 1 second.selector.evidenceType second.selector.sourceID Time.zero []
  let late := sighting 2 first.selector.evidenceType first.selector.sourceID (Time.zero.add 1)
    payload
  have hearly : SelectorMatches early second.selector := ⟨rfl, .inr rfl⟩
  have hlate : Satisfies lib first late := hpayload _ _ _ (.inr rfl)
  have hids : Evidence.DistinctIDs [early, late] := by
    change [BitVec.ofNat 128 1, BitVec.ofNat 128 2].Nodup
    decide
  have hordered : inOrder [early, late] = [early] ++ [late] := by
    have hless : ¬ Evidence.ObservedLess late early := by
      rw [Evidence.observedLess_iff]
      exact lt_asymm (Prod.Lex.toLex_lt_toLex.mpr (.inl Int.zero_lt_one))
    unfold inOrder
    rw [List.insertionSort_cons, List.insertionSort_cons, List.insertionSort_nil,
      List.orderedInsert_nil, List.orderedInsert_cons_of_le _ _ hless]
    rfl
  have hend : EndsAt lib (inOrder [early, late]) maxGap maxDuration
      (first :: second :: third :: rest) 1 (fail .sequenceOrderInvalid) := by
    rw [hordered]
    refine endsAt_one [early] ?_ hlate ⟨early, List.mem_cons_self, hearly⟩
    rintro other hother hmatches
    obtain rfl := List.mem_singleton.mp hother
    exact h (hmatches.overlaps hearly)
  exact ⟨⟨UUID.nil, UUID.nil, "", "", "", [early, late]⟩, hids,
    not_missingInconclusive_of_few hend (by simp)⟩

/-- A sequence has at least two steps. -/
theorem newSequenceOperator_steps {ruleID' : String} {given : List SequenceStep}
    (h : newSequenceOperator lib ruleID given maxGap maxDuration = .ok (.sequence ruleID' steps
      maxGap maxDuration)) :
    ∃ first second rest, steps = first :: second :: rest := by
  simp only [newSequenceOperator, bind_eq_ok, rejectIf_eq_ok, pure_eq_ok, exists_const] at h
  obtain ⟨_, -, hlength, -, normalized, hnormalized, heq⟩ := h
  obtain ⟨-, rfl, -, -⟩ := Operator.sequence.inj heq
  rw [(mapM_eq_ok.mp hnormalized).length_eq] at hlength
  rcases normalized with - | ⟨first, - | ⟨second, rest⟩⟩
  · exact absurd Nat.zero_lt_two hlength
  · exact absurd Nat.one_lt_two hlength
  · exact ⟨first, second, rest, rfl⟩

/-- A missing step is left open, whatever the evidence, exactly for sequences of two
steps whose selectors have no observation in common, and for those whose first step no
payload can satisfy.  If only the selectors are apart, the order is still never called
wrong without the observations for the steps so far. -/
theorem missing_steps_inconclusive_iff (lib : Platform) (ruleID ruleID' : String)
    (given steps : List SequenceStep) (maxGap maxDuration : Int)
    (hnew : newSequenceOperator lib ruleID given maxGap maxDuration =
      .ok (.sequence ruleID' steps maxGap maxDuration)) :
    ((∀ input : RuleInput, Evidence.DistinctIDs input.evidence →
        MissingInconclusive lib ruleID' steps maxGap maxDuration input) ↔
      (∀ first ∈ steps.head?, ¬ Attainable lib first) ∨
      ∃ first second, steps = [first, second] ∧ ¬ first.selector.Overlaps second.selector) ∧
    (steps.Pairwise (fun earlier later => ¬ earlier.selector.Overlaps later.selector) →
      ∀ input : RuleInput, Evidence.DistinctIDs input.evidence →
        OrderHasObservations lib steps maxGap maxDuration input.evidence) := by
  obtain ⟨first, second, rest, rfl⟩ := newSequenceOperator_steps hnew
  refine ⟨⟨?_, ?_⟩, ?_⟩
  · intro hall
    by_cases hattainable : Attainable lib first
    · refine .inr ?_
      by_cases hoverlaps : first.selector.Overlaps second.selector
      · obtain ⟨input, hids, hfails⟩ := not_missingInconclusive_of_overlaps hattainable hoverlaps
        exact absurd (hall input hids) hfails
      · cases rest with
        | nil => exact ⟨first, second, rfl, hoverlaps⟩
        | cons third rest =>
            obtain ⟨input, hids, hfails⟩ := not_missingInconclusive_of_third hattainable hoverlaps
            exact absurd (hall input hids) hfails
    · exact .inl fun other hother => Option.some.inj hother ▸ hattainable
  · rintro hcondition input hids
    refine missingInconclusive_of_order hids fun k hend => ?_
    have hround := hend
    obtain ⟨state, step, hreached, hstep, -⟩ := hround
    cases k with
    | zero => exact absurd hend not_orderInvalid_zero
    | succ k =>
        rcases hcondition with hunattainable | ⟨first', second', hsteps, hapart⟩
        · -- the loop is through the first step
          obtain ⟨chain, hchain⟩ := reached_follows hids.sorted hreached
          obtain ⟨snapshot, -, hsatisfies, -⟩ := List.forall₂_cons_left_iff.mp hchain.satisfied
          exact absurd ⟨snapshot, hsatisfies.expected⟩ (hunattainable first rfl)
        · obtain ⟨rfl, rfl, rfl⟩ : first = first' ∧ second = second' ∧ rest = [] := by
            simpa using hsteps
          obtain rfl : k = 0 := by
            have hlt := (List.getElem?_eq_some_iff.mp hstep).1
            simp only [List.length_cons, List.length_nil] at hlt
            omega
          refine hend.assigned_of_apart hids ?_
          rintro _ ⟨⟩ earlier hearlier
          obtain rfl := List.mem_singleton.mp hearlier
          exact hapart
  · intro hapart input hids k hend
    refine hend.assigned_of_apart hids ?_
    intro step hstep earlier hearlier
    obtain ⟨hlt, rfl⟩ := List.getElem?_eq_some_iff.mp hstep
    obtain ⟨index, hindex, rfl⟩ := List.mem_take_iff_getElem.mp hearlier
    exact List.pairwise_iff_getElem.mp hapart index k _ hlt (lt_min_iff.mp hindex).1

/-- The support of two different parties: whatever the evidence, a missing observation is
left open. -/
theorem support_missing_inconclusive :
    newSequenceOperator Contact.library " support" [Contact.confirmed, Contact.released] 0 0 =
      .ok (.sequence "support" [Contact.confirmed, Contact.released] 0 0) ∧
    ∀ input : RuleInput, Evidence.DistinctIDs input.evidence →
      MissingInconclusive Contact.library "support" [Contact.confirmed, Contact.released] 0 0
        input := by
  have hnew : newSequenceOperator Contact.library " support"
      [Contact.confirmed, Contact.released] 0 0 =
        .ok (.sequence "support" [Contact.confirmed, Contact.released] 0 0) := by
    decide
  have hapart : ¬ Contact.confirmed.selector.Overlaps Contact.released.selector := by
    unfold Selector.Overlaps
    decide
  exact ⟨hnew, (missing_steps_inconclusive_iff Contact.library " support" "support"
    [Contact.confirmed, Contact.released] [Contact.confirmed, Contact.released] 0 0 hnew).1.mpr
      (.inr ⟨Contact.confirmed, Contact.released, rfl, hapart⟩)⟩

/-- A confirmation that is asked for twice and observed once: the second step calls the
order wrong. -/
theorem repeated_step_called_disordered :
    newSequenceOperator Contact.library "support" [Contact.confirmed, Contact.confirmed] 0 0 =
      .ok (.sequence "support" [Contact.confirmed, Contact.confirmed] 0 0) ∧
    Evidence.DistinctIDs Contact.observedOnce.evidence ∧
    (Operator.sequence "support" [Contact.confirmed, Contact.confirmed] 0 0).evaluate
      Contact.library Contact.observedOnce = fail .sequenceOrderInvalid ∧
    EndsAt Contact.library (inOrder Contact.observedOnce.evidence) 0 0
      [Contact.confirmed, Contact.confirmed] 1 (fail .sequenceOrderInvalid) ∧
    ¬ Assigned Contact.observedOnce.evidence
      ([Contact.confirmed, Contact.confirmed].take 2) := by
  have hmatches : SelectorMatches (sighting 1 "CONTACT" "target" (Contact.morning 0)
      Contact.confirmation) Contact.confirmed.selector := by
    decide
  refine ⟨by decide, List.nodup_singleton _, by decide, ?_, ?_⟩
  · exact endsAt_one [] (by simp) ⟨hmatches, .bool true, rfl, rfl⟩
      ⟨_, List.mem_singleton_self _, hmatches⟩
  · exact fun hassigned => absurd hassigned.length_le (by decide)

end RuleOperator
end CargoPds
