import Mathlib.Data.Prod.Lex
import Mathlib.Data.String.Basic
import Mathlib.Data.Int.ConditionallyCompleteOrder
import Mathlib.Order.ConditionallyCompleteLattice.Finset
import CargoPds.Evidence.Qualification
import CargoPds.Foundation.Grouping
import CargoPds.Foundation.Sorting

/-!
# The order of evidence

`QualifySet` sorts the objects first, by time and identifier, and collects the
observations of one thing in a map, over which it then ranges.  Neither the order in
which the objects are given nor the one in which the map is ranged over can be seen in
the result.

* `qualifySetBy` follows the loops of the source, with the keys and the order of the map as
  parameters, and `qualifySetBy_eq` says that it is `qualifySet` for every such order;
* `qualifySet_perm`: objects with identifiers of their own may come in any order.
-/

namespace CargoPds
namespace Evidence

open Fallible

variable {objects : List (Option Object)} {snapshots : List Snapshot}

/-! ## Sorting -/

/-- What observations are sorted by. -/
def Snapshot.rank (snapshot : Snapshot) : Int ×ₗ String :=
  toLex (snapshot.observedAt.instant, snapshot.evidenceID.text)

theorem observedLess_iff (left right : Snapshot) :
    ObservedLess left right ↔ left.rank < right.rank := by
  unfold ObservedLess Snapshot.rank
  rw [Prod.Lex.toLex_lt_toLex]
  by_cases hequal : left.observedAt.Equal right.observedAt
  · have hinstant : left.observedAt.instant = right.observedAt.instant := hequal
    simp [hequal, hinstant]
  · have hinstant : left.observedAt.instant ≠ right.observedAt.instant := hequal
    simp [hequal, hinstant, Time.Before]

theorem Snapshot.evidenceID_of_rank {left right : Snapshot} (h : left.rank = right.rank) :
    left.evidenceID = right.evidenceID :=
  UUID.text_inj (Prod.mk.inj (toLex.injective h)).2

/-- No two elements have the same identifier. -/
def DistinctIDs (snapshots : List Snapshot) : Prop :=
  (snapshots.map (·.evidenceID)).Nodup

theorem DistinctIDs.eq_of_rank (h : DistinctIDs snapshots) :
    ∀ a ∈ snapshots, ∀ b ∈ snapshots, a.rank = b.rank → a = b :=
  fun _ ha _ hb hrank => List.inj_on_of_nodup_map h ha hb (Snapshot.evidenceID_of_rank hrank)

/-- Observations with identifiers of their own are sorted by strictly rising rank. -/
theorem DistinctIDs.sorted (h : DistinctIDs snapshots) :
    (snapshots.insertionSort fun left right => ¬ ObservedLess right left).Pairwise
      fun left right => left.rank < right.rank := by
  refine Sorting.pairwise_rank_insertionSort_of_nodup Snapshot.rank observedLess_iff ?_
  exact List.pairwise_map.mpr ((List.pairwise_map.mp h).imp fun hne hrank =>
    hne (Snapshot.evidenceID_of_rank hrank))

/-- Observations with identifiers of their own are sorted into one list, however they
are given. -/
theorem sorted_perm {others : List Snapshot} (hids : DistinctIDs snapshots)
    (h : snapshots.Perm others) :
    (snapshots.insertionSort fun left right => ¬ ObservedLess right left) =
      others.insertionSort fun left right => ¬ ObservedLess right left :=
  Sorting.insertionSort_eq_of_rank Snapshot.rank observedLess_iff hids.eq_of_rank h

/-- The rank of an object in `QualifySet`; that of a nil object is the last. -/
def objectRank (object : Option Object) : WithTop (Int ×ₗ String) :=
  object.elim ⊤ fun object => object.snapshot.rank

theorem qualifiedLess_iff (left right : Option Object) :
    QualifiedLess left right ↔ objectRank left < objectRank right := by
  cases left with
  | none => exact iff_of_false id not_top_lt
  | some left =>
      cases right with
      | none => exact iff_of_true trivial (WithTop.coe_lt_top _)
      | some right => exact (observedLess_iff _ _).trans WithTop.coe_lt_coe.symm

/-- The snapshots of the objects that are there. -/
def presentSnapshots (objects : List (Option Object)) : List Snapshot :=
  objects.filterMap (Option.map Object.snapshot)

theorem object_eq_of_id (hids : DistinctIDs (presentSnapshots objects)) {a b : Object}
    (ha : some a ∈ objects) (hb : some b ∈ objects)
    (h : a.snapshot.evidenceID = b.snapshot.evidenceID) : a = b := by
  have hpresent : ∀ object : Object, some object ∈ objects →
      object.snapshot ∈ presentSnapshots objects :=
    fun object hobject => List.mem_filterMap.mpr ⟨some object, hobject, rfl⟩
  have hsame : a.snapshot = b.snapshot :=
    List.inj_on_of_nodup_map hids (hpresent a ha) (hpresent b hb) h
  cases a
  cases b
  exact congrArg Object.mk hsame

theorem object_eq_of_rank (hids : DistinctIDs (presentSnapshots objects)) :
    ∀ a ∈ objects, ∀ b ∈ objects, objectRank a = objectRank b → a = b := by
  intro a ha b hb hrank
  cases a with
  | none =>
      cases b with
      | none => rfl
      | some b => exact absurd hrank.symm WithTop.coe_ne_top
  | some a =>
      cases b with
      | none => exact absurd hrank WithTop.coe_ne_top
      | some b =>
          exact congrArg some (object_eq_of_id hids ha hb
            (Snapshot.evidenceID_of_rank (WithTop.coe_injective hrank)))

/-- The result does not depend on the order of the objects. -/
theorem Qualifier.qualifySet_perm (lib : Platform) (q : Qualifier) (sessionID : UUID)
    {others : List (Option Object)} (hids : DistinctIDs (presentSnapshots objects))
    (h : objects.Perm others) (evaluatedAt : Time) :
    q.qualifySet lib sessionID objects evaluatedAt =
      q.qualifySet lib sessionID others evaluatedAt := by
  have hsorted := Sorting.insertionSort_eq_of_rank objectRank qualifiedLess_iff
    (object_eq_of_rank hids) h
  unfold Qualifier.qualifySet
  rw [hsorted]

/-! ## The loops of the source -/

/-- The map `groups` of the source, as its entries in the order in which their keys
came. -/
abbrev Groups := List (ObservationKey × List Observation)

/-- The results so far and the map, between two rounds of the first loop. -/
structure Collected (κ : Type) where
  evidence : List QualificationResult
  groups : List (κ × List Observation)

/-- Append a reason to the result at an index. -/
def addReason (reason : QualificationReason) (index : Nat)
    (evidence : List QualificationResult) : List QualificationResult :=
  evidence.modify index fun result => { result with reasons := result.reasons ++ [reason] }

/-- One round of the first loop, with the keys of the map. -/
def Qualifier.collect {κ : Type} [DecidableEq κ] (key : Observation → κ) (lib : Platform)
    (q : Qualifier) (sessionID : UUID) (evaluatedAt : Time) (state : Collected κ)
    (object : Option Object) : Except Error (Collected κ) := do
  let qualified ← q.qualify lib object evaluatedAt
  let index := state.evidence.length
  let evidence := state.evidence ++ [qualified]
  match object with
  | none => return { state with evidence := evidence }
  | some object =>
      if object.snapshot.sessionID ≠ sessionID then
        return { state with
          evidence := addReason ⟨.sessionMismatch, "session_id"⟩ index evidence }
      else
        return ⟨evidence, Grouping.insert key ⟨index, ⟨object.snapshot.sourceID,
          object.snapshot.evidenceType, object.snapshot.observedAt.instant⟩,
          object.snapshot.integrity.payloadDigest⟩ state.groups⟩

/-- One round of the second loop, over the groups. -/
def markGroup {κ : Type} (evidence : List QualificationResult) (group : κ × List Observation) :
    List QualificationResult :=
  match group.2 with
  | first :: second :: rest =>
      if ∃ item ∈ second :: rest, item.digest ≠ first.digest then
        (first :: second :: rest).foldl (fun evidence item =>
          addReason ⟨.conflictingObservation, "payload"⟩ item.index evidence) evidence
      else
        (second :: rest).foldl (fun evidence item =>
          addReason ⟨.duplicateObservation, "evidence_id"⟩ item.index evidence) evidence
  | _ => evidence

/-- One round of the third loop. -/
def settleResult (result : QualificationResult) : QualificationResult :=
  { result with
    status := if result.reasons ≠ [] ∧ result.status = .qualified then .rejected
      else result.status }

/-- `QualifySet` with the keys of the map and the order in which it is ranged over. -/
def Qualifier.qualifySetBy {κ : Type} [DecidableEq κ] (key : Observation → κ)
    (iterate : List (κ × List Observation) → List (κ × List Observation)) (lib : Platform)
    (q : Qualifier) (sessionID : UUID) (objects : List (Option Object)) (evaluatedAt : Time) :
    Except Error SessionQualificationResult := do
  rejectIf (sessionID = UUID.nil) .sessionIDRequired
  rejectIf evaluatedAt.IsZero .qualificationTimeRequired
  let ordered := objects.insertionSort fun left right => ¬ QualifiedLess right left
  if ordered = [] then
    return ⟨sessionID, .unavailable, evaluatedAt.toUTC, q.policy.version,
      [⟨.evidenceUnavailable, ""⟩], []⟩
  else do
    let collected ← ordered.foldlM (q.collect key lib sessionID evaluatedAt.toUTC) ⟨[], []⟩
    let evidence := ((iterate collected.groups).foldl markGroup collected.evidence).map
      settleResult
    return ⟨sessionID,
      if ∃ result ∈ evidence, result.status ≠ .qualified then .rejected else .qualified,
      evaluatedAt.toUTC, q.policy.version, [], evidence⟩

/-- `QualifySet` with the order in which the map is ranged over. -/
def Qualifier.qualifySetVia (iterate : Groups → Groups) (lib : Platform) (q : Qualifier)
    (sessionID : UUID) (objects : List (Option Object)) (evaluatedAt : Time) :
    Except Error SessionQualificationResult :=
  q.qualifySetBy Observation.key iterate lib sessionID objects evaluatedAt

/-! ## What the second loop adds

The map may be keyed by anything that tells the observations of different things
apart. -/

section
variable {κ : Type}

/-- Every result with the reasons for its index added. -/
def withReasons (extra : Nat → List QualificationReason) (evidence : List QualificationResult) :
    List QualificationResult :=
  evidence.mapIdx fun index result => { result with reasons := result.reasons ++ extra index }

theorem withReasons_nil (evidence : List QualificationResult) :
    withReasons (fun _ => []) evidence = evidence := by
  apply List.ext_getElem
  · simp [withReasons]
  · intro index _ _
    simp [withReasons]

theorem withReasons_withReasons (first second : Nat → List QualificationReason)
    (evidence : List QualificationResult) :
    withReasons second (withReasons first evidence) =
      withReasons (fun index => first index ++ second index) evidence := by
  simp [withReasons, Function.comp_def]

theorem addReason_eq (reason : QualificationReason) (index : Nat)
    (evidence : List QualificationResult) :
    addReason reason index evidence =
      withReasons (fun other => if other = index then [reason] else []) evidence := by
  apply List.ext_getElem
  · simp [addReason, withReasons]
  · intro other _ _
    by_cases hother : other = index
    · simp [addReason, withReasons, hother]
    · simp [addReason, withReasons, hother, Ne.symm hother]

/-- The same reason for several observations. -/
theorem foldl_addReason (reason : QualificationReason) (items : List Observation)
    (evidence : List QualificationResult) :
    items.foldl (fun evidence item => addReason reason item.index evidence) evidence =
      withReasons (fun index => (items.filter fun item => item.index = index).map
        fun _ => reason) evidence := by
  induction items generalizing evidence with
  | nil => exact (withReasons_nil evidence).symm
  | cons item rest ih =>
      rw [List.foldl_cons, ih, addReason_eq, withReasons_withReasons]
      congr 1
      funext index
      by_cases hindex : index = item.index
      · simp [hindex]
      · simp [hindex, Ne.symm hindex]

/-- The reason that a group gives against one of its observations. -/
def reasonsIn (group : List Observation) (item : Observation) : List QualificationReason :=
  match group with
  | first :: second :: rest =>
      if ∃ other ∈ second :: rest, other.digest ≠ first.digest then
        [⟨.conflictingObservation, "payload"⟩]
      else if item.index = first.index then [] else [⟨.duplicateObservation, "evidence_id"⟩]
  | _ => []

theorem groupReasons_eq (all : List Observation) (item : Observation) :
    groupReasons all item = reasonsIn (all.filter fun other => other.key = item.key) item :=
  rfl

/-- The reasons of a group against the observation at an index. -/
def reasonsAt (group : List Observation) (index : Nat) : List QualificationReason :=
  (group.filter fun item => item.index = index).flatMap (reasonsIn group)

/-- The rounds of the second loop only append reasons. -/
theorem markGroup_eq (evidence : List QualificationResult)
    {group : κ × List Observation} (hindices : (group.2.map (·.index)).Nodup) :
    markGroup evidence group = withReasons (reasonsAt group.2) evidence := by
  obtain ⟨key, items⟩ := group
  match items with
  | [] => exact (withReasons_nil evidence).symm
  | [item] =>
      have hnone : reasonsAt [item] = fun _ => [] := by
        funext index
        simp [reasonsAt, reasonsIn]
      rw [hnone]
      exact (withReasons_nil evidence).symm
  | first :: second :: rest =>
      simp only [markGroup]
      split
      · rename_i hconflict
        rw [foldl_addReason]
        congr 1
        funext index
        have hall : reasonsIn (first :: second :: rest) =
            fun _ => [⟨.conflictingObservation, "payload"⟩] := funext fun _ => if_pos hconflict
        rw [reasonsAt, hall, List.map_eq_flatMap]
      · rename_i hsame
        rw [foldl_addReason]
        congr 1
        funext index
        simp only [List.map_cons, List.nodup_cons, List.mem_cons, not_or] at hindices
        -- the first observation has no reason against it, the others have the same
        have hothers : ∀ item ∈ second :: rest, item.index ≠ first.index := by
          intro item hitem heq
          have hmem : first.index ∈ (second :: rest).map (·.index) :=
            heq ▸ List.mem_map_of_mem hitem
          simp only [List.map_cons, List.mem_cons] at hmem
          exact hmem.elim hindices.1.1 hindices.1.2
        have hfirst : reasonsIn (first :: second :: rest) first = [] := by
          simp only [reasonsIn, if_neg hsame, if_true]
        have hskip : reasonsAt (first :: second :: rest) index =
            ((second :: rest).filter fun item => item.index = index).flatMap
              (reasonsIn (first :: second :: rest)) := by
          rw [reasonsAt, List.filter_cons]
          split
          · rw [List.flatMap_cons, hfirst, List.nil_append]
          · rfl
        rw [hskip, List.map_eq_flatMap]
        apply List.flatMap_congr
        intro item hitem
        have hne := hothers item (List.mem_filter.mp hitem).1
        simp only [reasonsIn, if_neg hsame, if_neg hne]

/-- The second loop, in whatever order it ranges over the groups. -/
theorem foldl_markGroup (groups : List (κ × List Observation)) (evidence : List QualificationResult)
    (hindices : ∀ group ∈ groups, (group.2.map (·.index)).Nodup) :
    groups.foldl markGroup evidence =
      withReasons (fun index => groups.flatMap fun group => reasonsAt group.2 index) evidence := by
  induction groups generalizing evidence with
  | nil => exact (withReasons_nil evidence).symm
  | cons group rest ih =>
      rw [List.foldl_cons, markGroup_eq evidence (hindices group List.mem_cons_self),
        ih _ fun other hother => hindices other (List.mem_cons_of_mem _ hother),
        withReasons_withReasons]
      rfl

/-- The reasons of all groups against the observation at an index are those that
`qualifySet` gives. -/
theorem flatMap_reasonsAt [DecidableEq κ] {key : Observation → κ} {all : List Observation}
    {groups : List (κ × List Observation)} (h : Grouping.Grouped key all groups)
    (hkey : ∀ item ∈ all, ∀ other ∈ all, key item = key other ↔ item.key = other.key)
    (hindices : (all.map (·.index)).Nodup) (index : Nat) :
    groups.flatMap (fun group => reasonsAt group.2 index) =
      (all.filter fun item => item.index = index).flatMap (groupReasons all) := by
  have hgroup : ∀ group ∈ groups, reasonsAt group.2 index =
      ((all.filter fun item => item.index = index).filter fun item =>
        key item = group.1).flatMap (groupReasons all) := by
    intro group hmem
    rw [reasonsAt, h.complete group hmem, List.filter_comm]
    apply List.flatMap_congr
    intro item hitem
    rw [List.mem_filter, decide_eq_true_eq, List.mem_filter] at hitem
    rw [groupReasons_eq, ← hitem.2]
    congr 1
    refine List.filter_congr fun other hother => ?_
    rw [decide_eq_decide]
    exact hkey other hother item hitem.1.1
  rw [List.flatMap_congr hgroup]
  -- at most one observation has the index
  have hone : ((all.filter fun item => item.index = index).map (·.index)).Nodup :=
    hindices.sublist (List.filter_sublist.map _)
  have hat : ∀ item ∈ all.filter fun item => item.index = index, item.index = index :=
    fun item hitem => of_decide_eq_true (List.mem_filter.mp hitem).2
  have hall : ∀ item ∈ all.filter fun item => item.index = index, item ∈ all :=
    fun item hitem => (List.mem_filter.mp hitem).1
  generalize all.filter (fun item => item.index = index) = found at hone hat hall ⊢
  match found with
  | [] => simp
  | [item] =>
      rw [List.flatMap_singleton,
        ← h.flatMap_key (hall item (List.mem_singleton_self item)) (groupReasons all item)]
      apply List.flatMap_congr
      intro group _
      by_cases hmatch : key item = group.1
      · simp [hmatch]
      · simp [hmatch]
  | first :: second :: rest =>
      have hfirst := hat first List.mem_cons_self
      have hsecond := hat second (List.mem_cons_of_mem _ List.mem_cons_self)
      simp [hfirst, hsecond] at hone

end

/-! ## What the first loop collects -/

/-- The observation at an index, if there is one. -/
theorem mem_observations {sessionID : UUID} {ordered : List (Option Object)}
    {item : Observation} (h : item ∈ observations sessionID ordered) :
    ∃ object : Object, ordered[item.index]? = some (some object) ∧
      object.snapshot.sessionID = sessionID := by
  obtain ⟨⟨object, index⟩, hentry, hitem⟩ := List.mem_filterMap.mp h
  cases object with
  | none => exact absurd hitem (by simp)
  | some object =>
      simp only [ne_eq, ite_not, Option.ite_none_right_eq_some, Option.some.injEq] at hitem
      obtain ⟨hsession, rfl⟩ := hitem
      exact ⟨object, List.mem_zipIdx_iff_getElem?.mp hentry, hsession⟩

/-- The observations stand in the order of the objects, -/
theorem observations_increasing (sessionID : UUID) (ordered : List (Option Object)) :
    (observations sessionID ordered).Pairwise fun left right => left.index < right.index := by
  have hpositions : ordered.zipIdx.Pairwise fun left right => left.2 < right.2 := by
    rw [← List.pairwise_map, List.zipIdx_map_snd]
    exact List.pairwise_lt_range'
  refine hpositions.filterMap _ ?_
  rintro ⟨left, i⟩ ⟨right, j⟩ hlt item hitem other hother
  cases left with
  | none => exact absurd hitem (by simp)
  | some left =>
      cases right with
      | none => exact absurd hother (by simp)
      | some right =>
          simp only [ne_eq, ite_not, Option.ite_none_right_eq_some, Option.some.injEq]
            at hitem hother
          rw [← hitem.2, ← hother.2]
          exact hlt

/-- so no two have the same index. -/
theorem observations_indices (sessionID : UUID) (ordered : List (Option Object)) :
    ((observations sessionID ordered).map (·.index)).Nodup :=
  List.pairwise_map.mpr ((observations_increasing sessionID ordered).imp fun hlt => hlt.ne)

/-- What the object at an index adds to the observations. -/
def observationsAt (sessionID : UUID) (index : Nat) : Option Object → List Observation
  | none => []
  | some object =>
      if object.snapshot.sessionID ≠ sessionID then []
      else [⟨index, ⟨object.snapshot.sourceID, object.snapshot.evidenceType,
        object.snapshot.observedAt.instant⟩, object.snapshot.integrity.payloadDigest⟩]

theorem observations_append (sessionID : UUID) (ordered : List (Option Object))
    (object : Option Object) :
    observations sessionID (ordered ++ [object]) =
      observations sessionID ordered ++ observationsAt sessionID ordered.length object := by
  unfold observations
  rw [List.zipIdx_append, List.filterMap_append]
  congr 1
  cases object with
  | none => rfl
  | some object =>
      by_cases hsession : object.snapshot.sessionID = sessionID
      · simp [observationsAt, hsession]
      · simp [observationsAt, hsession]

/-- The reason against an object of another session. -/
def mismatchReasons (sessionID : UUID) : Option Object → List QualificationReason
  | none => []
  | some object =>
      if object.snapshot.sessionID ≠ sessionID then [⟨.sessionMismatch, "session_id"⟩] else []

theorem Qualifier.qualify_total (lib : Platform) (q : Qualifier) {evaluatedAt : Time}
    (h : ¬ evaluatedAt.IsZero) :
    ∃ verdict : Option Object → QualificationResult,
      ∀ object, q.qualify lib object evaluatedAt = .ok (verdict object) := by
  refine ⟨fun object => ((q.qualify lib object evaluatedAt).toOption).getD
    ⟨UUID.nil, .unavailable, evaluatedAt, "", []⟩, fun object => ?_⟩
  simp only [Qualifier.qualify, rejectIf, if_neg h]
  rfl

theorem addReason_last (reason : QualificationReason) (evidence : List QualificationResult)
    (result : QualificationResult) :
    addReason reason evidence.length (evidence ++ [result]) =
      evidence ++ [{ result with reasons := result.reasons ++ [reason] }] := by
  induction evidence with
  | nil => rfl
  | cons head rest ih => exact congrArg (head :: ·) ih

section
variable {lib : Platform} {q : Qualifier} {sessionID : UUID} {evaluatedAt : Time}
  {verdict : Option Object → QualificationResult} {κ : Type} [DecidableEq κ]
  {key : Observation → κ}

/-- The verdict on an object with the reason that it is of another session. -/
def judged (verdict : Option Object → QualificationResult) (sessionID : UUID)
    (object : Option Object) : QualificationResult :=
  { verdict object with
    reasons := (verdict object).reasons ++ mismatchReasons sessionID object }

theorem Qualifier.collect_eq
    (hverdict : ∀ object, q.qualify lib object evaluatedAt = .ok (verdict object))
    (state : Collected κ) (object : Option Object) :
    q.collect key lib sessionID evaluatedAt state object =
      .ok ⟨state.evidence ++ [judged verdict sessionID object],
        (observationsAt sessionID state.evidence.length object).foldl
          (fun groups item => Grouping.insert key item groups) state.groups⟩ := by
  simp only [collect, hverdict]
  cases object with
  | none =>
      simp only [judged, mismatchReasons, List.append_nil]
      rfl
  | some object =>
      by_cases hsession : object.snapshot.sessionID = sessionID
      · simp only [judged, mismatchReasons, observationsAt, hsession, ne_eq, not_true_eq_false,
          if_false, List.append_nil]
        rfl
      · simp only [judged, mismatchReasons, observationsAt, hsession, ne_eq, not_false_eq_true,
          if_true, ← addReason_last]
        rfl

/-- The first loop gives each object its verdict, and the map holds the observations. -/
theorem Qualifier.foldlM_collect (key : Observation → κ) (sessionID : UUID)
    (hverdict : ∀ object, q.qualify lib object evaluatedAt = .ok (verdict object))
    (ordered : List (Option Object)) :
    ∃ groups, ordered.foldlM (q.collect key lib sessionID evaluatedAt) ⟨[], []⟩ =
        .ok ⟨ordered.map (judged verdict sessionID), groups⟩ ∧
      Grouping.Grouped key (observations sessionID ordered) groups := by
  induction ordered using List.reverseRecOn with
  | nil => exact ⟨[], rfl, Grouping.Grouped.nil⟩
  | append_singleton ordered object ih =>
      obtain ⟨groups, hloop, hgrouped⟩ := ih
      refine ⟨(observationsAt sessionID ordered.length object).foldl
        (fun groups item => Grouping.insert key item groups) groups, ?_, ?_⟩
      · rw [List.foldlM_append, hloop, List.map_append, List.map_singleton]
        change q.collect key lib sessionID evaluatedAt ⟨_, groups⟩ object >>= pure = _
        rw [bind_pure, collect_eq hverdict, List.length_map]
      · rw [observations_append]
        exact hgrouped.foldl_insert _

/-- The reasons that the session gives against an object, with those of the groups. -/
theorem sessionReasons_eq (sessionID : UUID) {ordered : List (Option Object)}
    {object : Option Object} {index : Nat} (h : ordered[index]? = some object) :
    sessionReasons sessionID (observations sessionID ordered) object index =
      mismatchReasons sessionID object ++
        ((observations sessionID ordered).filter fun item => item.index = index).flatMap
          (groupReasons (observations sessionID ordered)) := by
  have hmem : ∀ item ∈ (observations sessionID ordered).filter fun item => item.index = index,
      ∃ present : Object, object = some present ∧ present.snapshot.sessionID = sessionID := by
    intro item hitem
    obtain ⟨hobserved, hindex⟩ := List.mem_filter.mp hitem
    obtain ⟨present, hpresent, hsession⟩ := mem_observations hobserved
    rw [of_decide_eq_true hindex, h] at hpresent
    exact ⟨present, Option.some.inj hpresent, hsession⟩
  cases object with
  | none =>
      have hnone : (observations sessionID ordered).filter (fun item => item.index = index) =
          [] := by
        rw [List.eq_nil_iff_forall_not_mem]
        intro item hitem
        obtain ⟨present, hpresent, -⟩ := hmem item hitem
        exact absurd hpresent (by simp)
      rw [hnone]
      rfl
  | some object =>
      by_cases hsession : object.snapshot.sessionID = sessionID
      · simp only [sessionReasons, mismatchReasons, hsession, ne_eq, not_true_eq_false, if_false,
          List.nil_append]
      · have hnone : (observations sessionID ordered).filter
            (fun item => item.index = index) = [] := by
          rw [List.eq_nil_iff_forall_not_mem]
          intro item hitem
          obtain ⟨present, hpresent, hsame⟩ := hmem item hitem
          exact hsession (Option.some.inj hpresent ▸ hsame)
        simp only [sessionReasons, mismatchReasons, hsession, ne_eq, not_false_eq_true, if_true,
          hnone, List.flatMap_nil, List.append_nil]

/-- The results of a session, from the verdicts on its objects. -/
def settled (verdict : Option Object → QualificationResult) (sessionID : UUID)
    (ordered : List (Option Object)) : List QualificationResult :=
  ((ordered.map verdict).zip ordered.zipIdx).map fun entry =>
    applySession entry.1 (sessionReasons sessionID (observations sessionID ordered)
      entry.2.1 entry.2.2)

/-- What the second and third loop make of the verdicts. -/
theorem map_settleResult
    {ordered : List (Option Object)} {groups : List (κ × List Observation)}
    (hgrouped : Grouping.Grouped key (observations sessionID ordered) groups)
    (hkey : ∀ item ∈ observations sessionID ordered, ∀ other ∈ observations sessionID ordered,
      key item = key other ↔ item.key = other.key) :
    (groups.foldl markGroup (ordered.map (judged verdict sessionID))).map settleResult =
      settled verdict sessionID ordered := by
  have hindices := observations_indices sessionID ordered
  have hdistinct : ∀ group ∈ groups, (group.2.map (·.index)).Nodup := by
    intro group hgroup
    rw [hgrouped.complete group hgroup]
    exact hindices.sublist (List.filter_sublist.map _)
  rw [foldl_markGroup _ _ hdistinct, funext (flatMap_reasonsAt hgrouped hkey hindices)]
  unfold settled
  apply List.ext_getElem
  · simp [withReasons]
  · intro index hleft _
    have hindex : index < ordered.length := by simpa [withReasons] using hleft
    have hreasons := sessionReasons_eq sessionID (List.getElem?_eq_getElem hindex)
    simp [withReasons, settleResult, judged, applySession, hreasons]

theorem mapM_qualify
    (hverdict : ∀ object, q.qualify lib object evaluatedAt = .ok (verdict object))
    (ordered : List (Option Object)) :
    ordered.mapM (fun object => q.qualify lib object evaluatedAt) = .ok (ordered.map verdict) := by
  rw [mapM_eq_ok, List.forall₂_map_right_iff]
  exact List.forall₂_same.mpr fun object _ => hverdict object

end

/-- The loops of the source compute `qualifySet`, whatever the order in which the map
is ranged over, if its keys tell the observations of different things apart. -/
theorem Qualifier.qualifySetBy_eq {κ : Type} [DecidableEq κ] {key : Observation → κ}
    {iterate : List (κ × List Observation) → List (κ × List Observation)}
    (hiterate : ∀ groups, (iterate groups).Perm groups) (lib : Platform) (q : Qualifier)
    (sessionID : UUID)
    (hkey : ∀ ordered, ordered.Perm objects → ∀ item ∈ observations sessionID ordered, ∀ other ∈
      observations sessionID ordered, key item = key other ↔ item.key = other.key)
    (evaluatedAt : Time) :
    q.qualifySetBy key iterate lib sessionID objects evaluatedAt =
      q.qualifySet lib sessionID objects evaluatedAt := by
  unfold qualifySetBy qualifySet
  by_cases hsession : sessionID = UUID.nil
  · simp only [rejectIf, if_pos hsession]
    rfl
  by_cases hzero : evaluatedAt.IsZero
  · simp only [rejectIf, if_pos hzero]
    rfl
  simp only [rejectIf, if_neg hsession, if_neg hzero]
  have hperm := List.perm_insertionSort (fun left right => ¬ QualifiedLess right left) objects
  generalize (objects.insertionSort fun left right => ¬ QualifiedLess right left) = ordered
    at hperm
  by_cases hempty : ordered = []
  · simp only [if_pos hempty]
  obtain ⟨verdict, hverdict⟩ := q.qualify_total lib (show ¬ evaluatedAt.toUTC.IsZero from hzero)
  obtain ⟨groups, hloop, hgrouped⟩ := foldlM_collect key sessionID hverdict ordered
  have hmarked := @map_settleResult sessionID verdict κ _ key ordered _
    (hgrouped.perm (hiterate groups)) (hkey ordered hperm)
  simp only [if_neg hempty, hloop, mapM_qualify hverdict, ok_bind, hmarked]
  rfl

theorem Qualifier.qualifySetVia_eq {iterate : Groups → Groups}
    (hiterate : ∀ groups, (iterate groups).Perm groups) (lib : Platform) (q : Qualifier)
    (sessionID : UUID) (objects : List (Option Object)) (evaluatedAt : Time) :
    q.qualifySetVia iterate lib sessionID objects evaluatedAt =
      q.qualifySet lib sessionID objects evaluatedAt :=
  qualifySetBy_eq hiterate lib q sessionID (fun _ _ _ _ _ _ => Iff.rfl) evaluatedAt

end Evidence
end CargoPds
