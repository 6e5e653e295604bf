import Mathlib.Data.List.Pairwise
import CargoPds.Evidence.Order
import CargoPds.Foundation.Layout
import CargoPds.Foundation.Tabled

/-!
# Duplicates and conflicts

`QualifySet` files the observations of a session in a map under a text, made of the
source, the type and the formatted time.  The text tells observations of different things
apart, since a type and a formatted time contain no separator (`text_inj`).

The rule it implements is `SessionStatus`: in a group of observations of the same thing,
the one with the smallest identifier keeps the verdict on it alone and the others are
rejected, and all are rejected when the payloads differ.
-/

namespace CargoPds
namespace Evidence

open Fallible Text

variable {object : Object} {lib : Platform} {index : Nat}

/-! ## The key of the map -/

/-- The key under which an observation is filed. -/
def ObservationKey.text (format : Time → String) (key : ObservationKey) : String :=
  key.sourceID ++ "\x00" ++ key.evidenceType ++ "\x00" ++ format ⟨key.instant, .utc⟩

/-- Formatted times in UTC can be told apart, and contain no separator. -/
structure TellsInstants (format : Time → String) : Prop where
  injective : ∀ t u : Time, t.IsUTC → u.IsUTC → format t = format u → t = u
  zeroFree : ∀ t, '\x00' ∉ (format t).toList

theorem ObservationKey.text_inj {format : Time → String} (hformat : TellsInstants format)
    {key other : ObservationKey} (hkey : '\x00' ∉ key.evidenceType.toList)
    (hother : '\x00' ∉ other.evidenceType.toList) (h : key.text format = other.text format) :
    key = other := by
  have hchars : ∀ k : ObservationKey, (k.text format).toList =
      (k.sourceID.toList ++ '\x00' :: k.evidenceType.toList) ++
        '\x00' :: (format ⟨k.instant, .utc⟩).toList := by
    intro k
    simp [ObservationKey.text]
  have hlist := congrArg String.toList h
  rw [hchars, hchars] at hlist
  -- a source may contain the separator, so the parts are taken off from the end
  obtain ⟨hfront, htime⟩ := append_separator_inj_last (hformat.zeroFree _) (hformat.zeroFree _)
    hlist
  obtain ⟨hsource, htype⟩ := append_separator_inj_last hkey hother hfront
  have hinstant := hformat.injective ⟨key.instant, .utc⟩ ⟨other.instant, .utc⟩ rfl rfl
    (String.toList_inj.mp htime)
  cases key
  cases other
  simp only [ObservationKey.mk.injEq]
  exact ⟨String.toList_inj.mp hsource, String.toList_inj.mp htype, congrArg Time.instant hinstant⟩

/-- An object is made by one of the constructors. -/
def Object.Made (lib : Platform) (object : Object) : Prop :=
  (∃ input, newObject lib input = .ok object) ∨ ∃ snapshot, rehydrate lib snapshot = .ok object

theorem Object.Made.valid (h : object.Made lib) :
    validateSnapshot object.snapshot = .ok () := by
  rcases h with ⟨input, hnew⟩ | ⟨snapshot, hrehydrate⟩
  · simp only [newObject, bind_eq_ok, pure_eq_ok] at hnew
    obtain ⟨payload, -, ⟨⟩, hvalid, rfl⟩ := hnew
    exact hvalid
  · obtain ⟨hverify, rfl⟩ := (rehydrate_eq_ok lib).mp hrehydrate
    simp only [verifySnapshot, bind_eq_ok] at hverify
    obtain ⟨⟨⟩, hvalid, -⟩ := hverify
    exact hvalid

theorem Object.Made.type_zeroFree (h : object.Made lib) :
    '\x00' ∉ object.snapshot.evidenceType.toList := by
  have hvalid := h.valid
  simp only [validateSnapshot, bind_eq_ok, rejectIf_eq_ok, exists_const, not_not] at hvalid
  obtain ⟨-, -, -, -, htype, -⟩ := hvalid
  exact fun hzero => absurd (htype.all_isCodeChar _ hzero) (by decide)

/-! ## Observations and objects -/

/-- The observation of an object at an index. -/
def Object.observation (object : Object) (index : Nat) : Observation :=
  ⟨index, ⟨object.snapshot.sourceID, object.snapshot.evidenceType,
    object.snapshot.observedAt.instant⟩, object.snapshot.integrity.payloadDigest⟩

theorem mem_observations_iff {sessionID : UUID} {ordered : List (Option Object)}
    {item : Observation} :
    item ∈ observations sessionID ordered ↔ ∃ object : Object,
      ordered[item.index]? = some (some object) ∧ object.snapshot.sessionID = sessionID ∧
        item = object.observation item.index := by
  unfold observations
  rw [List.mem_filterMap]
  constructor
  · rintro ⟨⟨object, index⟩, hentry, hitem⟩
    cases object with
    | none => exact absurd hitem (by simp)
    | some object =>
        simp only [ne_eq, ite_not, Option.ite_none_right_eq_some, Option.some.injEq] at hitem
        obtain ⟨hsession, rfl⟩ := hitem
        exact ⟨object, List.mem_zipIdx_iff_getElem?.mp hentry, hsession, rfl⟩
  · rintro ⟨object, hobject, hsession, hitem⟩
    refine ⟨(some object, item.index), List.mem_zipIdx_iff_getElem?.mpr hobject, ?_⟩
    simp only [ne_eq, ite_not, hsession, if_true]
    exact congrArg some hitem.symm

/-- The text is as good a key as the three parts. -/
theorem text_eq_text_iff {format : Time → String} (hformat : TellsInstants format)
    {sessionID : UUID} {objects ordered : List (Option Object)}
    (hmade : ∀ object, some object ∈ objects → object.Made lib) (hperm : ordered.Perm objects) :
    ∀ item ∈ observations sessionID ordered, ∀ other ∈ observations sessionID ordered,
      item.key.text format = other.key.text format ↔ item.key = other.key := by
  have hzero : ∀ item ∈ observations sessionID ordered,
      '\x00' ∉ item.key.evidenceType.toList := by
    intro item hitem
    obtain ⟨object, hobject, -, heq⟩ := mem_observations_iff.mp hitem
    rw [heq]
    exact (hmade object (hperm.mem_iff.mp (List.mem_of_getElem? hobject))).type_zeroFree
  intro item hitem other hother
  exact ⟨ObservationKey.text_inj hformat (hzero item hitem) (hzero other hother),
    fun h => by rw [h]⟩

/-! ## The verdict of a group -/

theorem reasonsIn_ne_nil_iff {group : List Observation} {item : Observation}
    (hsorted : group.Pairwise fun left right => left.index < right.index) (hitem : item ∈ group) :
    reasonsIn group item ≠ [] ↔
      (∃ left ∈ group, ∃ right ∈ group, left.digest ≠ right.digest) ∨
      ∃ other ∈ group, other.index < item.index := by
  match group with
  | [] => exact absurd hitem List.not_mem_nil
  | [only] =>
      obtain rfl := List.mem_singleton.mp hitem
      simp [reasonsIn]
  | first :: second :: rest =>
      rw [List.pairwise_cons] at hsorted
      simp only [reasonsIn]
      by_cases hconflict : ∃ other ∈ second :: rest, other.digest ≠ first.digest
      · rw [if_pos hconflict]
        obtain ⟨other, hother, hdigest⟩ := hconflict
        exact iff_of_true (List.cons_ne_nil _ _)
          (.inl ⟨other, List.mem_cons_of_mem _ hother, first, List.mem_cons_self, hdigest⟩)
      · rw [if_neg hconflict]
        have hdigest : ∀ other ∈ first :: second :: rest, other.digest = first.digest := by
          intro other hother
          rcases List.mem_cons.mp hother with rfl | htail
          · rfl
          · by_contra hne
            exact hconflict ⟨other, htail, hne⟩
        have hagree : ¬ ∃ left ∈ first :: second :: rest, ∃ right ∈ first :: second :: rest,
            left.digest ≠ right.digest := by
          rintro ⟨left, hleft, right, hright, hne⟩
          exact hne ((hdigest left hleft).trans (hdigest right hright).symm)
        rw [or_iff_right hagree]
        rcases List.mem_cons.mp hitem with rfl | htail
        · rw [if_pos rfl]
          refine iff_of_false (fun hne => hne rfl) ?_
          rintro ⟨other, hother, hlt⟩
          rcases List.mem_cons.mp hother with rfl | hother
          · exact lt_irrefl _ hlt
          · exact lt_asymm hlt (hsorted.1 other hother)
        · have hlt := hsorted.1 item htail
          rw [if_neg hlt.ne']
          exact iff_of_true (List.cons_ne_nil _ _) ⟨first, List.mem_cons_self, hlt⟩

/-! ## The rule -/

/-- The observations are of the same thing. -/
def Snapshot.SameObservation (left right : Snapshot) : Prop :=
  left.sourceID = right.sourceID ∧ left.evidenceType = right.evidenceType ∧
    left.observedAt.Equal right.observedAt

/-- The entries of the session that observe the same thing as an object. -/
def Companion (sessionID : UUID) (objects : List (Option Object)) (object other : Object) : Prop :=
  some other ∈ objects ∧ other.snapshot.sessionID = sessionID ∧
    other.snapshot.SameObservation object.snapshot

/-- The payloads of the companions of an object differ. -/
def Conflicting (sessionID : UUID) (objects : List (Option Object)) (object : Object) : Prop :=
  ∃ left, Companion sessionID objects object left ∧
    ∃ right, Companion sessionID objects object right ∧
      left.snapshot.integrity.payloadDigest ≠ right.snapshot.integrity.payloadDigest

/-- The status of an entry in a session, from its status alone. -/
structure SessionStatus (sessionID : UUID) (objects : List (Option Object))
    (entry : Option Object) (alone status : QualificationStatus) : Prop where
  absent : entry = none → status = alone
  foreign : ∀ object ∈ entry, object.snapshot.sessionID ≠ sessionID → status = .rejected
  single : ∀ object ∈ entry, object.snapshot.sessionID = sessionID →
    (∀ other, Companion sessionID objects object other → other = object) → status = alone
  conflict : ∀ object ∈ entry, object.snapshot.sessionID = sessionID →
    Conflicting sessionID objects object → status = .rejected
  canonical : ∀ object ∈ entry, object.snapshot.sessionID = sessionID →
    ¬ Conflicting sessionID objects object →
    (∀ other, Companion sessionID objects object other →
      object.snapshot.evidenceID.text ≤ other.snapshot.evidenceID.text) → status = alone
  duplicate : ∀ object ∈ entry, object.snapshot.sessionID = sessionID →
    (∃ other, Companion sessionID objects object other ∧
      other.snapshot.evidenceID.text < object.snapshot.evidenceID.text) → status = .rejected

/-- The objects in the order of `QualifySet`: those that are there by rising rank. -/
theorem sorted_objects {objects : List (Option Object)}
    (hids : DistinctIDs (presentSnapshots objects)) :
    (objects.insertionSort fun left right => ¬ QualifiedLess right left).Pairwise
      fun left right => ∀ a ∈ left, ∀ b ∈ right, a.snapshot.rank < b.snapshot.rank := by
  have hperm := List.perm_insertionSort (fun left right => ¬ QualifiedLess right left) objects
  have hdistinct : (objects.insertionSort fun left right => ¬ QualifiedLess right left).Pairwise
      fun left right => ∀ a ∈ left, ∀ b ∈ right,
        a.snapshot.evidenceID ≠ b.snapshot.evidenceID := by
    have hnodup : DistinctIDs (presentSnapshots
        (objects.insertionSort fun left right => ¬ QualifiedLess right left)) :=
      ((hperm.filterMap _).map _).nodup_iff.mpr hids
    refine (List.pairwise_filterMap.mp (List.pairwise_map.mp hnodup)).imp ?_
    intro left right hne a ha b hb
    exact hne a.snapshot (Option.map_eq_some_iff.mpr ⟨a, ha, rfl⟩) b.snapshot
      (Option.map_eq_some_iff.mpr ⟨b, hb, rfl⟩)
  refine (Sorting.pairwise_rank_insertionSort objectRank qualifiedLess_iff objects).imp₂ ?_
    hdistinct
  rintro left right hle hne a ⟨⟩ b ⟨⟩
  exact lt_of_le_of_ne (WithTop.coe_le_coe.mp hle) fun hrank =>
    hne a rfl b rfl (Snapshot.evidenceID_of_rank hrank)

section
variable {sessionID : UUID} {objects ordered : List (Option Object)}

theorem index_lt_iff
    (hsorted : ordered.Pairwise fun left right => ∀ a ∈ left, ∀ b ∈ right,
      a.snapshot.rank < b.snapshot.rank) {i j : Nat} {a b : Object}
    (ha : ordered[i]? = some (some a)) (hb : ordered[j]? = some (some b)) :
    i < j ↔ a.snapshot.rank < b.snapshot.rank := by
  obtain ⟨hi, ha'⟩ := List.getElem?_eq_some_iff.mp ha
  obtain ⟨hj, hb'⟩ := List.getElem?_eq_some_iff.mp hb
  have hpairwise := List.pairwise_iff_getElem.mp hsorted
  constructor
  · exact fun hlt => hpairwise i j hi hj hlt a ha' b hb'
  · intro hrank
    rcases lt_trichotomy i j with hlt | rfl | hgt
    · exact hlt
    · rw [ha, Option.some.injEq, Option.some.injEq] at hb
      exact absurd hrank (by rw [hb]; exact lt_irrefl _)
    · exact absurd hrank (lt_asymm (hpairwise j i hj hi hgt b hb' a ha'))

/-- At one instant the identifiers decide. -/
theorem rank_lt_iff_of_sameObservation {a b : Snapshot} (h : a.SameObservation b) :
    a.rank < b.rank ↔ a.evidenceID.text < b.evidenceID.text := by
  have hinstant : a.observedAt.instant = b.observedAt.instant := h.2.2
  unfold Snapshot.rank
  rw [Prod.Lex.toLex_lt_toLex]
  simp [hinstant]

theorem sameObservation_iff_key {a b : Object} {i j : Nat} :
    a.snapshot.SameObservation b.snapshot ↔ (a.observation i).key = (b.observation j).key := by
  simp [Snapshot.SameObservation, Object.observation, Time.Equal]

/-- The observations of a group are those of the companions. -/
theorem exists_group_iff (hperm : ordered.Perm objects) {P : Observation → Prop} :
    (∃ item ∈ (observations sessionID ordered).filter
        fun other => other.key = (object.observation index).key, P item) ↔
      ∃ other i, Companion sessionID objects object other ∧ ordered[i]? = some (some other) ∧
        P (other.observation i) := by
  constructor
  · rintro ⟨item, hitem, hP⟩
    obtain ⟨hmem, hkey⟩ := List.mem_filter.mp hitem
    obtain ⟨other, hother, hsession, heq⟩ := mem_observations_iff.mp hmem
    rw [heq] at hkey hP
    exact ⟨other, item.index, ⟨hperm.mem_iff.mp (List.mem_of_getElem? hother), hsession,
      sameObservation_iff_key.mpr (of_decide_eq_true hkey)⟩, hother, hP⟩
  · rintro ⟨other, i, ⟨-, hsession, hsame⟩, hother, hP⟩
    refine ⟨other.observation i, List.mem_filter.mpr ⟨?_, ?_⟩, hP⟩
    · exact mem_observations_iff.mpr ⟨other, hother, hsession, rfl⟩
    · exact decide_eq_true (sameObservation_iff_key.mp hsame)

theorem Companion.exists_index (hperm : ordered.Perm objects) {other : Object}
    (h : Companion sessionID objects object other) :
    ∃ i : Nat, ordered[i]? = some (some other) :=
  List.mem_iff_getElem?.mp (hperm.mem_iff.mpr h.1)

/-- The session has something against one of its objects exactly when the payloads of the
companions differ or the object is not the first of them. -/
theorem sessionReasons_ne_nil_iff (hperm : ordered.Perm objects)
    (hsorted : ordered.Pairwise fun left right => ∀ a ∈ left, ∀ b ∈ right, a.snapshot.rank <
      b.snapshot.rank) (hobject : ordered[index]? = some (some object))
    (hsession : object.snapshot.sessionID = sessionID) :
    sessionReasons sessionID (observations sessionID ordered) (some object) index ≠ [] ↔
      Conflicting sessionID objects object ∨
      ∃ other, Companion sessionID objects object other ∧
        other.snapshot.evidenceID.text < object.snapshot.evidenceID.text := by
  have hmem : object.observation index ∈ observations sessionID ordered :=
    mem_observations_iff.mpr ⟨object, hobject, hsession, rfl⟩
  have hat : (observations sessionID ordered).filter (fun item => item.index = index) =
      [object.observation index] := by
    -- indices are distinct, so nothing else stands at the index
    have hnodup := (observations_indices sessionID ordered).of_map.filter
      fun item => item.index = index
    have hall : ∀ item ∈ (observations sessionID ordered).filter fun item => item.index = index,
        item = object.observation index := by
      intro item hitem
      obtain ⟨hitem, hindex⟩ := List.mem_filter.mp hitem
      obtain ⟨other, hother, -, heq⟩ := mem_observations_iff.mp hitem
      rw [of_decide_eq_true hindex] at hother heq
      rw [hobject, Option.some.injEq, Option.some.injEq] at hother
      rw [heq, hother]
    refine List.perm_singleton.mp ((List.perm_ext_iff_of_nodup hnodup
      (List.nodup_singleton _)).mpr fun item => ⟨?_, ?_⟩)
    · intro hitem
      exact List.mem_singleton.mpr (hall item hitem)
    · intro hitem
      rw [List.mem_singleton.mp hitem]
      exact List.mem_filter.mpr ⟨hmem, decide_eq_true rfl⟩
  have hincreasing := (observations_increasing sessionID ordered).sublist
    (@List.filter_sublist _
      (fun other : Observation => decide (other.key = (object.observation index).key)) _)
  have hself : object.observation index ∈ (observations sessionID ordered).filter
      fun other => other.key = (object.observation index).key :=
    List.mem_filter.mpr ⟨hmem, decide_eq_true rfl⟩
  simp only [sessionReasons, hsession, ne_eq, not_true_eq_false, if_false, hat,
    List.flatMap_singleton]
  rw [groupReasons_eq, ← ne_eq, reasonsIn_ne_nil_iff hincreasing hself]
  refine or_congr ?_ ?_
  · rw [exists_group_iff hperm]
    constructor
    · rintro ⟨left, i, hleft, -, hright⟩
      obtain ⟨right, j, hright, -, hdigest⟩ := (exists_group_iff hperm).mp hright
      exact ⟨left, hleft, right, hright, hdigest⟩
    · rintro ⟨left, hleft, right, hright, hdigest⟩
      obtain ⟨i, hi⟩ := hleft.exists_index hperm
      obtain ⟨j, hj⟩ := hright.exists_index hperm
      exact ⟨left, i, hleft, hi, (exists_group_iff hperm).mpr ⟨right, j, hright, hj, hdigest⟩⟩
  · rw [exists_group_iff hperm]
    constructor
    · rintro ⟨other, i, hother, hi, hlt⟩
      refine ⟨other, hother, (rank_lt_iff_of_sameObservation hother.2.2).mp ?_⟩
      exact (index_lt_iff hsorted hi hobject).mp hlt
    · rintro ⟨other, hother, hlt⟩
      obtain ⟨i, hi⟩ := hother.exists_index hperm
      refine ⟨other, i, hother, hi, (index_lt_iff hsorted hi hobject).mpr ?_⟩
      exact (rank_lt_iff_of_sameObservation hother.2.2).mpr hlt

end

/-! ## Verdicts -/

/-- The verdict on an object alone. -/
theorem Qualifier.qualify_eq_ok {q : Qualifier} {object : Option Object} {evaluatedAt : Time}
    {verdict : QualificationResult} (h : q.qualify lib object evaluatedAt = .ok verdict) :
    (verdict.status = .qualified ↔ verdict.reasons = []) ∧
      (verdict.status = .unavailable ↔ object = none) ∧
      verdict.evidenceID = (object.map (·.snapshot.evidenceID)).getD UUID.nil := by
  simp only [qualify, bind_eq_ok, pure_eq_ok] at h
  obtain ⟨-, -, rfl⟩ := h
  cases object with
  | none => simp
  | some object =>
      dsimp only
      cases verifySnapshot lib object.snapshot with
      | error err => simp
      | ok _ =>
          dsimp only
          split <;> simp_all

section
variable {result : QualificationResult} {extra : List QualificationReason}

theorem applySession_nil (h : result.status = .qualified ↔ result.reasons = []) :
    (applySession result []).status = result.status := by
  simp only [applySession, List.append_nil]
  exact if_neg fun hboth => hboth.1 (h.mp hboth.2)

theorem applySession_of_ne_nil (h : result.status ≠ .unavailable) (hextra : extra ≠ []) :
    (applySession result extra).status = .rejected := by
  have hreasons : result.reasons ++ extra ≠ [] := by simp [hextra]
  cases hstatus : result.status with
  | qualified => simp [applySession, hstatus, hreasons]
  | rejected => simp [applySession, hstatus]
  | unavailable => exact absurd hstatus h

end

section
variable {lib : Platform} {q : Qualifier} {sessionID : UUID} {evaluatedAt : Time}
  {objects ordered : List (Option Object)}

/-- The rule holds for the entry at every index. -/
theorem sessionStatus_applySession (hperm : ordered.Perm objects)
    (hsorted : ordered.Pairwise fun left right => ∀ a ∈ left, ∀ b ∈ right, a.snapshot.rank <
      b.snapshot.rank) {entry : Option Object} (hentry : ordered[index]? = some entry)
    {alone : QualificationResult} (halone : q.qualify lib entry evaluatedAt = .ok alone) :
    SessionStatus sessionID objects entry alone.status
      (applySession alone (sessionReasons sessionID (observations sessionID ordered) entry
        index)).status := by
  obtain ⟨hqualified, hunavailable, -⟩ := Qualifier.qualify_eq_ok halone
  cases entry with
  | none =>
      refine ⟨fun _ => applySession_nil hqualified, ?_, ?_, ?_, ?_, ?_⟩
      all_goals
        intro object hobject
        exact absurd hobject (by simp)
  | some object =>
      have hpresent : alone.status ≠ .unavailable := fun h => absurd (hunavailable.mp h) (by simp)
      refine ⟨fun hnone => absurd hnone (by simp), ?_, ?_, ?_, ?_, ?_⟩ <;>
        rintro _ ⟨⟩ hsession
      · refine applySession_of_ne_nil hpresent ?_
        simp [sessionReasons, hsession]
      all_goals have hreasons := sessionReasons_ne_nil_iff hperm hsorted hentry hsession
      · intro hsingle
        have hnil : sessionReasons sessionID (observations sessionID ordered) (some object)
            index = [] := by
          by_contra hne
          rcases hreasons.mp hne with ⟨left, hleft, right, hright, hdigest⟩ | ⟨other, hother, hlt⟩
          · rw [hsingle left hleft, hsingle right hright] at hdigest
            exact hdigest rfl
          · rw [hsingle other hother] at hlt
            exact lt_irrefl _ hlt
        rw [hnil]
        exact applySession_nil hqualified
      · exact fun hconflict => applySession_of_ne_nil hpresent (hreasons.mpr (.inl hconflict))
      · intro hagree hfirst
        have hnil : sessionReasons sessionID (observations sessionID ordered) (some object)
            index = [] := by
          by_contra hne
          rcases hreasons.mp hne with hconflict | ⟨other, hother, hlt⟩
          · exact hagree hconflict
          · exact absurd hlt (not_lt.mpr (hfirst other hother))
        rw [hnil]
        exact applySession_nil hqualified
      · exact fun hsmaller => applySession_of_ne_nil hpresent (hreasons.mpr (.inr hsmaller))

/-- What `QualifySet` says of an entry. -/
def Judged (lib : Platform) (q : Qualifier) (sessionID : UUID) (objects : List (Option Object))
    (evaluatedAt : Time) (entry : Option Object) (result : QualificationResult) : Prop :=
  result.evidenceID = (entry.map (·.snapshot.evidenceID)).getD UUID.nil ∧
    ∃ alone, q.qualify lib entry evaluatedAt = .ok alone ∧
      SessionStatus sessionID objects entry alone.status result.status

theorem settled_judged (hperm : ordered.Perm objects)
    (hsorted : ordered.Pairwise fun left right => ∀ a ∈ left, ∀ b ∈ right,
      a.snapshot.rank < b.snapshot.rank) {verdict : Option Object → QualificationResult}
    (hverdict : ∀ object, q.qualify lib object evaluatedAt = .ok (verdict object)) :
    List.Forall₂ (Judged lib q sessionID objects evaluatedAt) ordered
      (settled verdict sessionID ordered) := by
  rw [List.forall₂_iff_get]
  refine ⟨by simp [settled], ?_⟩
  intro index hindex _
  have hentry : ordered[index]? = some ordered[index] := List.getElem?_eq_getElem hindex
  have halone := hverdict ordered[index]
  simp only [List.get_eq_getElem, settled, List.getElem_map, List.getElem_zip,
    List.getElem_zipIdx, Nat.zero_add]
  exact ⟨(Qualifier.qualify_eq_ok halone).2.2, verdict ordered[index], halone,
    sessionStatus_applySession hperm hsorted hentry halone⟩

/-- Every entry can be used for itself, and no two observe the same thing. -/
def AllUsable (lib : Platform) (q : Qualifier) (sessionID : UUID)
    (objects : List (Option Object)) (evaluatedAt : Time) : Prop :=
  (∀ entry ∈ objects, ∃ object, entry = some object ∧ object.snapshot.sessionID = sessionID ∧
    ∃ alone, q.qualify lib entry evaluatedAt = .ok alone ∧ alone.status = .qualified) ∧
  objects.Pairwise fun left right => ∀ a ∈ left, ∀ b ∈ right,
    ¬ a.snapshot.SameObservation b.snapshot

theorem allUsable_of_qualified (hids : DistinctIDs (presentSnapshots objects))
    (hperm : ordered.Perm objects) {results : List QualificationResult}
    (hjudged : List.Forall₂ (Judged lib q sessionID objects evaluatedAt) ordered results)
    (h : ∀ result ∈ results, result.status = .qualified) :
    AllUsable lib q sessionID objects evaluatedAt := by
  have hentry : ∀ entry ∈ objects, ∃ alone, q.qualify lib entry evaluatedAt = .ok alone ∧
      SessionStatus sessionID objects entry alone.status .qualified := by
    intro entry hmem
    obtain ⟨result, hresult, -, alone, halone, hstatus⟩ :=
      exists_of_mem_left hjudged (hperm.mem_iff.mpr hmem)
    rw [h result hresult] at hstatus
    exact ⟨alone, halone, hstatus⟩
  have hsession : ∀ object, some object ∈ objects → object.snapshot.sessionID = sessionID := by
    intro object hobject
    obtain ⟨alone, -, hstatus⟩ := hentry _ hobject
    by_contra hforeign
    exact absurd (hstatus.foreign object rfl hforeign) (by decide)
  -- of two observations of the same thing, one has the larger identifier
  have hapart : ∀ a b : Object, some a ∈ objects → some b ∈ objects →
      a.snapshot.evidenceID ≠ b.snapshot.evidenceID →
      ¬ a.snapshot.SameObservation b.snapshot := by
    intro a b ha hb hne hsame
    have hreject : ∀ first second : Object, some first ∈ objects → some second ∈ objects →
        first.snapshot.SameObservation second.snapshot →
        ¬ first.snapshot.evidenceID.text < second.snapshot.evidenceID.text := by
      intro first second hfirst hsecond hsame hlt
      obtain ⟨alone, -, hstatus⟩ := hentry _ hsecond
      exact absurd (hstatus.duplicate second rfl (hsession second hsecond)
        ⟨first, ⟨hfirst, hsession first hfirst, hsame⟩, hlt⟩) (by decide)
    rcases lt_trichotomy a.snapshot.evidenceID.text b.snapshot.evidenceID.text with
      hlt | heq | hgt
    · exact hreject a b ha hb hsame hlt
    · exact hne (UUID.text_inj heq)
    · exact hreject b a hb ha ⟨hsame.1.symm, hsame.2.1.symm, Eq.symm hsame.2.2⟩ hgt
  refine ⟨?_, ?_⟩
  · intro entry hmem
    obtain ⟨alone, halone, hstatus⟩ := hentry entry hmem
    obtain ⟨-, hunavailable, -⟩ := Qualifier.qualify_eq_ok halone
    cases entry with
    | none => exact absurd ((hstatus.absent rfl).trans (hunavailable.mpr rfl)) (by decide)
    | some object =>
        refine ⟨object, rfl, hsession object hmem, alone, halone, ?_⟩
        refine (hstatus.single object rfl (hsession object hmem) ?_).symm
        intro other hother
        by_contra hne
        exact hapart other object hother.1 hmem
          (fun heq => hne (object_eq_of_id hids hother.1 hmem heq)) hother.2.2
  · have hdistinct := List.pairwise_filterMap.mp (List.pairwise_map.mp hids)
    refine hdistinct.imp_of_mem ?_
    rintro left right hleft hright hne a ⟨⟩ b ⟨⟩
    exact hapart a b hleft hright (hne a.snapshot rfl b.snapshot rfl)

theorem qualified_of_allUsable (hperm : ordered.Perm objects)
    {results : List QualificationResult}
    (hjudged : List.Forall₂ (Judged lib q sessionID objects evaluatedAt) ordered results)
    (h : AllUsable lib q sessionID objects evaluatedAt) :
    ∀ result ∈ results, result.status = .qualified := by
  intro result hresult
  obtain ⟨entry, hentry, -, alone, halone, hstatus⟩ := exists_of_mem_right hjudged hresult
  obtain ⟨object, rfl, hsession, alone', halone', hqualified⟩ :=
    h.1 entry (hperm.mem_iff.mp hentry)
  obtain rfl : alone' = alone := Except.ok.inj (halone'.symm.trans halone)
  refine (hstatus.single object rfl hsession ?_).trans hqualified
  intro other hother
  by_contra hne
  have : Std.Symm fun left right : Option Object => ∀ a ∈ left, ∀ b ∈ right,
      ¬ a.snapshot.SameObservation b.snapshot :=
    ⟨fun left right hapart a ha b hb hsame =>
      hapart b hb a ha ⟨hsame.1.symm, hsame.2.1.symm, Eq.symm hsame.2.2⟩⟩
  exact h.2.forall hother.1 (hperm.mem_iff.mp hentry) (fun heq => hne (Option.some.inj heq))
    other rfl object rfl hother.2.2

end

/-- `QualifySet` implements the rule for duplicates and conflicts.  The map is keyed by the
text of the source, and may be ranged over in any order. -/
theorem duplicates_and_conflicts_settled (lib : Platform) (q : Qualifier) (sessionID : UUID)
    (objects : List (Option Object)) (evaluatedAt : Time) (format : Time → String)
    (iterate : List (String × List Observation) → List (String × List Observation))
    (hsession : sessionID ≠ UUID.nil) (htime : ¬ evaluatedAt.IsZero)
    (hids : DistinctIDs (presentSnapshots objects))
    (hmade : ∀ object, some object ∈ objects → object.Made lib)
    (hformat : TellsInstants format) (hiterate : ∀ groups, (iterate groups).Perm groups) :
    ∃ result, q.qualifySetBy (fun item => item.key.text format) iterate lib sessionID objects
        evaluatedAt = .ok result ∧
      (result.status = .unavailable ↔ objects = []) ∧
      (objects ≠ [] →
        (result.status = .qualified ↔ AllUsable lib q sessionID objects evaluatedAt)) ∧
      ∃ ordered, ordered.Perm objects ∧
        List.Forall₂ (Judged lib q sessionID objects evaluatedAt) ordered result.evidence := by
  rw [Qualifier.qualifySetBy_eq hiterate lib q sessionID
    fun ordered hperm => text_eq_text_iff hformat hmade hperm]
  have hperm := List.perm_insertionSort (fun left right => ¬ QualifiedLess right left) objects
  have hsorted := sorted_objects hids
  obtain ⟨verdict, hverdict⟩ := q.qualify_total lib (show ¬ evaluatedAt.toUTC.IsZero from htime)
  unfold Qualifier.qualifySet
  simp only [rejectIf, if_neg hsession, if_neg htime, ok_bind]
  generalize (objects.insertionSort fun left right => ¬ QualifiedLess right left) = ordered
    at hperm hsorted
  have hjudged : List.Forall₂ (Judged lib q sessionID objects evaluatedAt) ordered
      (settled verdict sessionID ordered) := settled_judged hperm hsorted hverdict
  by_cases hempty : ordered = []
  · have hnone : objects = [] := List.perm_nil.mp (hempty ▸ hperm.symm)
    rw [if_pos hempty]
    exact ⟨_, rfl, by simp [hnone], fun hne => absurd hnone hne, [], hnone ▸ List.Perm.nil, .nil⟩
  · have hsome : objects ≠ [] := fun hnone => hempty (List.perm_nil.mp (hnone ▸ hperm))
    rw [if_neg hempty, mapM_qualify hverdict, ok_bind]
    refine ⟨_, rfl, ?_, fun _ => ?_, ordered, hperm, hjudged⟩
    · refine iff_of_false ?_ hsome
      dsimp only
      split <;> decide
    · change (if ∃ result ∈ settled verdict sessionID ordered, result.status ≠ .qualified
        then QualificationStatus.rejected else .qualified) = .qualified ↔ _
      by_cases hall : ∃ result ∈ settled verdict sessionID ordered, result.status ≠ .qualified
      · rw [if_pos hall]
        refine iff_of_false (by decide) fun husable => ?_
        obtain ⟨result, hresult, hne⟩ := hall
        exact hne (qualified_of_allUsable hperm hjudged husable result hresult)
      · rw [if_neg hall]
        refine iff_of_true rfl (allUsable_of_qualified hids hperm hjudged ?_)
        intro result hresult
        by_contra hne
        exact hall ⟨result, hresult, hne⟩

/-! A scale that has sent the same weight twice. -/

namespace Weighbridge

def payload : Bytes := utf8 "\x7b\"kg\":24\x7d"

def library : Platform where
  __ := Platform.silent
  sha256 _ := 0xff58148f8b6fd06539dbfecd0beed7d5e2a6b3eec76160d266bf81c8b22dd8f4
  decodeJSON text := if text = payload then some (.object [("kg", .number "24")]) else none
  marshalJSON
    | .object [("kg", .number "24")] => some payload
    | _ => none

/-- The first of March 2026, eight in the morning. -/
def eight : Time := ⟨63907948800000000000, .utc⟩

def weighing (number : Nat) : Object where
  snapshot := {
    evidenceID := BitVec.ofNat 128 number
    sessionID := BitVec.ofNat 128 7
    sourceID := "scale-17"
    sourceType := "SENSOR"
    evidenceType := "WEIGHT"
    observedAt := eight
    receivedAt := eight
    payload := payload
    confidence := none
    provenance := []
    integrity := ⟨"SHA-256",
      "sha256:ff58148f8b6fd06539dbfecd0beed7d5e2a6b3eec76160d266bf81c8b22dd8f4",
      "evidence.v1", "edge.v1", "HTTP"⟩ }

def policy : QualificationPolicy :=
  ⟨"qualification.v1", [("scale-17", true)], [], [], 0, 0, false, none, [], ["kg"]⟩

def qualifier : Qualifier := ⟨policy⟩

/-- Times as texts; that of the weighing is written as in RFC 3339. -/
noncomputable def format (t : Time) : String :=
  String.ofList (Tabled.encode '@' [(eight.instant, "2026-03-01T08:00:00Z".toList)] t.instant)

theorem tellsInstants : TellsInstants format := by
  have hclear : Tabled.Clear '@' [(eight.instant, "2026-03-01T08:00:00Z".toList)] :=
    ⟨by decide, by decide⟩
  refine ⟨?_, ?_⟩
  · intro t u ht hu heq
    have hinstant := Tabled.encode_injective hclear (String.ofList_injective heq)
    rw [← Time.toUTC_eq_of_isUTC ht, ← Time.toUTC_eq_of_isUTC hu]
    exact congrArg (fun instant => Time.mk instant .utc) hinstant
  · intro t
    unfold format
    rw [String.toList_ofList]
    cases hlookup : [(eight.instant, "2026-03-01T08:00:00Z".toList)].lookup t.instant with
    | some text =>
        rw [Tabled.encode_of_lookup hlookup]
        have hmem := Tabled.mem_of_lookup hlookup
        rw [List.mem_singleton, Prod.mk.injEq] at hmem
        rw [hmem.2]
        decide
    | none =>
        rw [Tabled.encode_of_lookup_none hlookup]
        intro hzero
        rcases List.mem_cons.mp hzero with hmark | hmark
        · exact absurd hmark (by decide)
        · exact absurd (List.eq_of_mem_replicate hmark) (by decide)

def session : UUID := BitVec.ofNat 128 7

/-- Two objects with one weighing, and one that is missing. -/
def sent : List (Option Object) := [some (weighing 2), none, some (weighing 1)]

theorem weighing_made : ∀ object, some object ∈ sent → object.Made library := by
  have hrehydrate : ∀ number ∈ [1, 2],
      rehydrate library (weighing number).snapshot = .ok (weighing number) := by
    decide
  intro object hobject
  simp only [sent, List.mem_cons, Option.some.injEq, reduceCtorEq, List.not_mem_nil, or_false,
    false_or] at hobject
  rcases hobject with rfl | rfl
  · exact .inr ⟨_, hrehydrate 2 (by decide)⟩
  · exact .inr ⟨_, hrehydrate 1 (by decide)⟩

end Weighbridge

theorem repeated_weight_settled :
    ∃ result, Weighbridge.qualifier.qualifySetBy
        (fun item => item.key.text Weighbridge.format) List.reverse Weighbridge.library
        Weighbridge.session Weighbridge.sent Weighbridge.eight = .ok result ∧
      result.status ≠ .unavailable ∧ result.status ≠ .qualified ∧
      ∃ ordered, ordered.Perm Weighbridge.sent ∧
        List.Forall₂ (Judged Weighbridge.library Weighbridge.qualifier Weighbridge.session
          Weighbridge.sent Weighbridge.eight) ordered result.evidence := by
  have hids : DistinctIDs (presentSnapshots Weighbridge.sent) := by
    change [BitVec.ofNat 128 2, BitVec.ofNat 128 1].Nodup
    decide
  obtain ⟨result, hresult, hunavailable, hqualified, hjudged⟩ :=
    duplicates_and_conflicts_settled Weighbridge.library Weighbridge.qualifier
      Weighbridge.session Weighbridge.sent Weighbridge.eight Weighbridge.format List.reverse
      (by decide) (by decide) hids Weighbridge.weighing_made Weighbridge.tellsInstants
      List.reverse_perm
  refine ⟨result, hresult, fun h => absurd (hunavailable.mp h) (by simp [Weighbridge.sent]),
    ?_, hjudged⟩
  intro h
  obtain ⟨object, hobject, -⟩ :=
    ((hqualified (by simp [Weighbridge.sent])).mp h).1 none (by simp [Weighbridge.sent])
  exact absurd hobject (by simp)

end Evidence
end CargoPds
