import CargoPds.Policy.Hash
import CargoPds.Policy.Registry

/-!
# The life of a registered policy

A registry is used by any sequence of `Add`, `Suspend` and `Retire`.  Three questions
are answered here for every such sequence:

* `resolution_unambiguous`: at a given time at most one version of a policy is in force,
  and `Resolve` returns it;
* `lifecycle_one_way`: the status of a version moves forward only, and what was added is
  found under its identity ever after, provided that the hash binds it;
* `unwritable_policy_shadowed`: of two versions whose times cannot be written, the
  second is accepted and lost.

`Registry.Step` says once what an operation can do to the entries; each fact about a
sequence is an induction over these cases.
-/

namespace CargoPds
namespace Policy

open Fallible

variable {lib : Platform}
variable {r : Registry lib} {entry : RegistryEntry lib} {version : Version lib}
variable {activated : ActivatedVersion lib}

/-! ## Periods -/

/-- The instant lies in the half-open effective period. -/
def Snapshot.Covers (snapshot : Snapshot) (t : Time) : Prop :=
  ¬ t.Before snapshot.effectiveFrom ∧
    ∀ effectiveUntil ∈ snapshot.effectiveUntil, t.Before effectiveUntil
deriving Decidable

theorem effectiveAt_iff {snapshot : Snapshot} {t : Time} :
    EffectiveAt snapshot t ↔ ¬ t.IsZero ∧ snapshot.Covers t := Iff.rfl

/-- **The overlap test is exact**: it finds the pairs of periods that share an instant,
if no period is empty. -/
theorem effectivePeriodsOverlap_iff {left right : Snapshot} (hleft : left.Normal)
    (hright : right.Normal) :
    EffectivePeriodsOverlap left right ↔ ∃ t, left.Covers t ∧ right.Covers t := by
  constructor
  · rintro ⟨hend, hend'⟩
    -- the later of the two starts is in both periods
    by_cases hlater : left.effectiveFrom.Before right.effectiveFrom
    · refine ⟨right.effectiveFrom, ⟨?_, hend⟩, lt_irrefl _, hright.period⟩
      exact not_lt_of_gt hlater
    · exact ⟨left.effectiveFrom, ⟨lt_irrefl _, hleft.period⟩, hlater, hend'⟩
  · rintro ⟨t, ⟨hstart, hend⟩, hstart', hend'⟩
    refine ⟨?_, ?_⟩
    · intro effectiveUntil hmem
      exact lt_of_le_of_lt (not_lt.mp hstart') (hend effectiveUntil hmem)
    · intro effectiveUntil hmem
      exact lt_of_le_of_lt (not_lt.mp hstart) (hend' effectiveUntil hmem)

/-! ## Operations -/

/-- A call that may change a registry. -/
inductive RegistryOp (lib : Platform) where
  | add (activated : ActivatedVersion lib)
  | suspend (policyID version : String) (t : Time)
  | retire (policyID version : String) (t : Time)

def RegistryOp.perform (r : Registry lib) : RegistryOp lib → Except Error Unit × Registry lib
  | add activated => r.add activated
  | suspend policyID version t => r.suspend policyID version t
  | retire policyID version t => r.retire policyID version t

/-- The version that is added was returned by the package. -/
def RegistryOp.Accepted : RegistryOp lib → Prop
  | add activated => activated.version.Accepted
  | _ => True

/-- The version that is added is hashed from one of the messages. -/
def RegistryOp.Within (known : Set Bytes) : RegistryOp lib → Prop
  | add activated => activated.version.message ∈ known
  | _ => True

namespace Registry

/-- The registry after a sequence of calls. -/
def run (r : Registry lib) (ops : List (RegistryOp lib)) : Registry lib :=
  ops.foldl (fun state op => (op.perform state).2) r

theorem run_append (r : Registry lib) (ops later : List (RegistryOp lib)) :
    r.run (ops ++ later) = (r.run ops).run later := List.foldl_append

theorem run_concat (r : Registry lib) (ops : List (RegistryOp lib)) (op : RegistryOp lib) :
    r.run (ops ++ [op]) = (op.perform (r.run ops)).2 := r.run_append ops [op]

/-- What a call can do to the entries: nothing, append a version that is new and whose
period is free, or move the status of one entry. -/
inductive Step (op : RegistryOp lib) (r next : Registry lib) : Prop where
  | same (h : next = r)
  | added (activated : ActivatedVersion lib) (hop : op = .add activated)
      (hnew : r.lookup (activeEntry activated).key = none)
      (hfree : ∀ existing ∈ r.entries,
        existing.version.snapshot.policyID = activated.version.snapshot.policyID →
        ¬ EffectivePeriodsOverlap existing.version.snapshot activated.version.snapshot)
      (h : next.entries = r.entries ++ [activeEntry activated])
  | moved (entry : RegistryEntry lib) (target : LifecycleStatus) (t : Time)
      (hentry : r.lookup entry.key = some entry) (hlater : ¬ t.Before entry.statusAt)
      (hvalid : ValidTransition entry.status target)
      (h : next.entries = r.entries.map (setStatus entry.key target t.toUTC))

/-- A stored version of the policy has a period in common with the snapshot. -/
def Occupied (r : Registry lib) (snapshot : Snapshot) : Prop :=
  ∃ existing ∈ r.entries, existing.version.snapshot.policyID = snapshot.policyID ∧
    EffectivePeriodsOverlap existing.version.snapshot snapshot

/-- The four outcomes of `Add`. -/
theorem add_cases (r : Registry lib) (activated : ActivatedVersion lib) :
    (∃ existing, r.lookup (activeEntry activated).key = some existing ∧
      ((existing.version.snapshot.hash = activated.version.snapshot.hash ∧
          r.add activated = (.ok (), r)) ∨
        (existing.version.snapshot.hash ≠ activated.version.snapshot.hash ∧
          r.add activated = (.error .versionConflict, r)))) ∨
    (r.lookup (activeEntry activated).key = none ∧
      ((r.Occupied activated.version.snapshot ∧
          r.add activated = (.error .effectiveOverlap, r)) ∨
        (¬ r.Occupied activated.version.snapshot ∧ (r.add activated).1 = .ok () ∧
          (r.add activated).2.entries = r.entries ++ [activeEntry activated]))) := by
  unfold add
  split
  · rename_i existing hexisting
    left
    refine ⟨existing, hexisting, ?_⟩
    split
    · rename_i hhash
      exact .inl ⟨hhash, rfl⟩
    · rename_i hhash
      exact .inr ⟨hhash, rfl⟩
  · rename_i hnew
    right
    refine ⟨hnew, ?_⟩
    split
    · rename_i hoccupied
      exact .inl ⟨hoccupied, rfl⟩
    · rename_i hfree
      exact .inr ⟨hfree, rfl, rfl⟩

/-- A change of status is refused, or the entry is there and may change. -/
theorem transition_cases (r : Registry lib) (policyID version : String)
    (target : LifecycleStatus) (t : Time) :
    ((t.IsZero ∨ ∀ entry, r.lookup (policyID, version) = some entry →
        t.Before entry.statusAt ∨ ¬ ValidTransition entry.status target) ∧
      r.transition policyID version target t = (.error .invalidLifecycleChange, r)) ∨
    ∃ entry, r.lookup (policyID, version) = some entry ∧ ¬ t.IsZero ∧
      ¬ t.Before entry.statusAt ∧ ValidTransition entry.status target ∧
      (r.transition policyID version target t).1 = .ok () ∧
      (r.transition policyID version target t).2.entries =
        r.entries.map (setStatus (policyID, version) target t.toUTC) := by
  unfold transition
  split
  · rename_i hzero
    exact .inl ⟨.inl hzero, rfl⟩
  · rename_i hset
    split
    · rename_i hnone
      refine .inl ⟨.inr ?_, rfl⟩
      intro entry hentry
      rw [hnone] at hentry
      cases hentry
    · rename_i entry hentry
      split
      · rename_i hrefused
        refine .inl ⟨.inr ?_, rfl⟩
        intro other hother
        rw [hentry] at hother
        rw [← Option.some.inj hother]
        exact hrefused
      · rename_i hallowed
        rw [not_or, not_not] at hallowed
        exact .inr ⟨entry, hentry, hset, hallowed.1, hallowed.2, rfl, rfl⟩

theorem transition_step (op : RegistryOp lib) (r : Registry lib) (policyID version : String)
    (target : LifecycleStatus) (t : Time) :
    Step op r (r.transition policyID version target t).2 := by
  rcases r.transition_cases policyID version target t with
    ⟨-, hsame⟩ | ⟨entry, hentry, -, hlater, hvalid, -, hnext⟩
  · rw [hsame]
    exact .same rfl
  · have hkey := key_of_lookup hentry
    refine .moved entry target t ?_ hlater hvalid ?_
    · rw [hkey]
      exact hentry
    · rw [hkey]
      exact hnext

theorem perform_step (op : RegistryOp lib) (r : Registry lib) : Step op r (op.perform r).2 := by
  cases op with
  | add activated =>
      change Step _ r (r.add activated).2
      rcases r.add_cases activated with
        ⟨_, -, ⟨-, hsame⟩ | ⟨-, hsame⟩⟩ | ⟨hnew, ⟨-, hsame⟩ | ⟨hfree, -, hnext⟩⟩
      · rw [hsame]
        exact .same rfl
      · rw [hsame]
        exact .same rfl
      · rw [hsame]
        exact .same rfl
      · refine .added activated rfl hnew ?_ hnext
        intro existing hexisting hpolicy hoverlap
        exact hfree ⟨existing, hexisting, hpolicy, hoverlap⟩
  | suspend policyID version t => exact transition_step _ r policyID version .suspended t
  | retire policyID version t => exact transition_step _ r policyID version .retired t

/-- A version with a new key and a free period is appended. -/
theorem add_of_new (r : Registry lib) (activated : ActivatedVersion lib)
    (hnew : r.lookup (activeEntry activated).key = none)
    (hfree : ¬ r.Occupied activated.version.snapshot) :
    (r.add activated).2.entries = r.entries ++ [activeEntry activated] := by
  rcases r.add_cases activated with ⟨existing, hexisting, -⟩ | ⟨-, ⟨hoccupied, -⟩ | ⟨-, -, h⟩⟩
  · rw [hnew] at hexisting
    cases hexisting
  · exact absurd hoccupied hfree
  · exact h

/-- What holds of an empty registry and is kept by every call holds of every registry. -/
theorem run_induction {P : Registry lib → Prop} {A : RegistryOp lib → Prop}
    (hempty : P empty) (hstep : ∀ op r next, A op → Step op r next → P r → P next)
    {ops : List (RegistryOp lib)} (hops : ∀ op ∈ ops, A op) : P (empty.run ops) := by
  have hrun : ∀ r : Registry lib, P r → P (r.run ops) := by
    induction ops with
    | nil => exact fun r hr => hr
    | cons op ops ih =>
        intro r hr
        refine ih (fun other hmem => hops other (List.mem_cons_of_mem _ hmem)) _ ?_
        exact hstep op r _ (hops op List.mem_cons_self) (perform_step op r) hr
  exact hrun empty hempty

/-! ## One version in force -/

/-- No instant lies in the periods of two versions of one policy. -/
def Disjoint (r : Registry lib) : Prop :=
  r.entries.Pairwise fun left right =>
    left.version.snapshot.policyID = right.version.snapshot.policyID →
      ∀ t, ¬ (left.version.snapshot.Covers t ∧ right.version.snapshot.Covers t)

theorem Step.disjoint {op : RegistryOp lib} {next : Registry lib} (h : Step op r next)
    (hr : r.Disjoint) : next.Disjoint := by
  unfold Disjoint at hr ⊢
  cases h with
  | same h =>
      rw [h]
      exact hr
  | added activated hop hnew hfree h =>
      rw [h, List.pairwise_append]
      refine ⟨hr, List.pairwise_singleton _ _, ?_⟩
      intro existing hexisting entry hentry hpolicy t hboth
      rw [List.mem_singleton.mp hentry] at hpolicy hboth
      refine hfree existing hexisting hpolicy ?_
      exact (effectivePeriodsOverlap_iff existing.version.normal activated.version.normal).mpr
        ⟨t, hboth⟩
  | moved entry target t hentry hlater hvalid h =>
      rw [h, List.pairwise_map]
      simp only [setStatus_version]
      exact hr

theorem run_disjoint (ops : List (RegistryOp lib)) : (empty.run ops).Disjoint := by
  refine run_induction (A := fun _ => True) ?_ ?_ (fun _ _ => trivial)
  · exact List.Pairwise.nil
  · exact fun op r next _ hstep hr => hstep.disjoint hr

/-- A property of the added versions is one of the stored versions. -/
theorem run_stored {Q : Version lib → Prop} (ops : List (RegistryOp lib))
    (hops : ∀ activated, RegistryOp.add activated ∈ ops → Q activated.version) :
    ∀ entry ∈ (empty.run ops).entries, Q entry.version := by
  refine run_induction (P := fun r => ∀ entry ∈ r.entries, Q entry.version)
    (A := fun op => ∀ activated, op = .add activated → Q activated.version) ?_ ?_ ?_
  · intro entry hentry
    exact absurd hentry List.not_mem_nil
  · intro op r next hop hstep hr entry hentry
    cases hstep with
    | same h => exact hr entry (h ▸ hentry)
    | added activated hadd hnew hfree h =>
        rw [h, List.mem_append] at hentry
        rcases hentry with hold | hlast
        · exact hr entry hold
        · rw [List.mem_singleton.mp hlast]
          exact hop activated hadd
    | moved other target t hother hlater hvalid h =>
        rw [h] at hentry
        obtain ⟨old, hold, rfl⟩ := List.mem_map.mp hentry
        rw [setStatus_version]
        exact hr old hold
  · rintro op hmem activated rfl
    exact hops activated hmem

end Registry

/-- Encoding what was decoded gives a text that stays as it is. -/
def CanonicalStable (lib : Platform) : Prop :=
  ∀ source canonical, lib.canonicalJSON source = some canonical →
    lib.canonicalJSON canonical = some canonical

/-- A decoder that takes canonical texts only is one example. -/
theorem canonicalStable_of_inverse
    (h : ∀ source value, lib.decodeJSON source = some value →
      lib.marshalJSON value = some source) : CanonicalStable lib := by
  intro source canonical hsource
  obtain ⟨value, hvalue, hmarshal⟩ := Option.bind_eq_some_iff.mp hsource
  obtain rfl : source = canonical := Option.some.inj ((h source value hvalue).symm.trans hmarshal)
  exact hsource

theorem Version.Accepted.rehydrate_eq (h : version.Accepted) (hstable : CanonicalStable lib) :
    rehydrate lib version.snapshot = .ok version := by
  obtain ⟨source, hsource⟩ := h.canonical.document
  exact rehydrate_of_canonical lib version (hstable source _ hsource)

/-- The entry is in force at the given time. -/
def RegistryEntry.InForce (entry : RegistryEntry lib) (t : Time) : Prop :=
  entry.status = .active ∧ ¬ t.Before entry.statusAt ∧ entry.version.snapshot.Covers t

namespace Registry

/-- At most one version of a policy is in force, and it is the one that is resolved. -/
theorem Disjoint.resolve_cases (hr : r.Disjoint)
    (hstored : ∀ entry ∈ r.entries, rehydrate lib entry.version.snapshot = .ok entry.version)
    (policyID : String) (t : Time) :
    (r.resolve policyID t = .error .policyNotFound ∧ ∀ entry ∈ r.entries,
        entry.version.snapshot.policyID = policyID → ¬ t.IsZero → ¬ entry.InForce t) ∨
      ∃ entry ∈ r.entries, r.resolve policyID t = .ok entry.version ∧
        (entry.version.snapshot.policyID = policyID ∧ ¬ t.IsZero ∧ entry.InForce t) ∧
        ∀ other ∈ r.entries, other.version.snapshot.policyID = policyID → ¬ t.IsZero →
          other.InForce t → other = entry := by
  unfold resolve
  generalize hmatches : r.entries.filter _ = found
  have hmem : ∀ entry, entry ∈ found ↔ entry ∈ r.entries ∧
      entry.version.snapshot.policyID = policyID ∧ ¬ t.IsZero ∧ entry.InForce t := by
    intro entry
    rw [← hmatches, List.mem_filter, decide_eq_true_eq, effectiveAt_iff]
    unfold RegistryEntry.InForce
    tauto
  cases found with
  | nil =>
      refine .inl ⟨rfl, ?_⟩
      intro entry hentry hpolicy hset hforce
      exact absurd ((hmem entry).mpr ⟨hentry, hpolicy, hset, hforce⟩) List.not_mem_nil
  | cons entry rest =>
      obtain ⟨hentry, hin⟩ := (hmem entry).mp List.mem_cons_self
      cases rest with
      | nil =>
          refine .inr ⟨entry, hentry, hstored entry hentry, hin, ?_⟩
          intro other hother hpolicy hset hforce
          exact List.mem_singleton.mp ((hmem other).mpr ⟨hother, hpolicy, hset, hforce⟩)
      | cons second rest =>
          -- the first two matches share the instant
          obtain ⟨-, hpolicy, -, hforce⟩ := (hmem second).mp (by simp)
          have hpair : (entry :: second :: rest).Pairwise fun left right =>
              left.version.snapshot.policyID = right.version.snapshot.policyID →
                ∀ t, ¬ (left.version.snapshot.Covers t ∧ right.version.snapshot.Covers t) := by
            rw [← hmatches]
            exact hr.filter _
          have hfirst := (List.pairwise_cons.mp hpair).1 second List.mem_cons_self
          exact absurd ⟨hin.2.2.2.2, hforce.2.2⟩ (hfirst (hin.1.trans hpolicy.symm) t)

end Registry

/-- **Resolution is never ambiguous.**  After every sequence of calls the periods of the
versions of one policy are disjoint, and `Resolve` returns a version if and only if the
version is stored under the policy, active since a time not after the given one, and in
its period. -/
theorem resolution_unambiguous (hstable : CanonicalStable lib) (ops : List (RegistryOp lib))
    (haccepted : ∀ op ∈ ops, op.Accepted) :
    (Registry.empty.run ops).Disjoint ∧
    (∀ policyID t, (Registry.empty.run ops).resolve policyID t ≠ .error .ambiguousPolicy) ∧
    ∀ policyID t version, ¬ t.IsZero →
      ((Registry.empty.run ops).resolve policyID t = .ok version ↔
        ∃ entry ∈ (Registry.empty.run ops).entries, entry.version = version ∧
          version.snapshot.policyID = policyID ∧ entry.status = .active ∧
          ¬ entry.statusAt.After t ∧ version.snapshot.Covers t) := by
  have hdisjoint := Registry.run_disjoint ops
  have hstored := Registry.run_stored (Q := Version.Accepted) ops
    fun activated hmem => haccepted _ hmem
  have hcases := hdisjoint.resolve_cases
    fun entry hentry => (hstored entry hentry).rehydrate_eq hstable
  refine ⟨hdisjoint, ?_, ?_⟩
  · intro policyID t
    rcases hcases policyID t with ⟨hnone, -⟩ | ⟨entry, -, hfound, -⟩
    · rw [hnone]
      simp
    · rw [hfound]
      simp
  · intro policyID t version hset
    rcases hcases policyID t with ⟨hnone, hall⟩ | ⟨entry, hentry, hfound, hin, hunique⟩
    · rw [hnone]
      refine iff_of_false (by simp) ?_
      rintro ⟨entry, hentry, rfl, hpolicy, hforce⟩
      exact hall entry hentry hpolicy hset hforce
    · rw [hfound, Except.ok.injEq]
      constructor
      · rintro rfl
        exact ⟨entry, hentry, rfl, hin.1, hin.2.2⟩
      · rintro ⟨other, hother, rfl, hpolicy, hforce⟩
        rw [hunique other hother hpolicy hset hforce]

/-! ### Two versions of a policy

The platform does on the values of this example what the standard library does. -/

/-- JSON inverts itself on the two documents, whatever else a platform does. -/
theorem Mode.stable : CanonicalStable Mode.json := by
  refine canonicalStable_of_inverse ?_
  intro source value hvalue
  change (if source = Mode.strict then some (Json.object [("mode", .string "strict")])
    else if source = Mode.relaxed then some (Json.object [("mode", .string "relaxed")])
    else none) = some value at hvalue
  split at hvalue
  · rename_i hsource
    rw [← Option.some.inj hvalue, hsource]
    rfl
  · split at hvalue
    · rename_i hsource
      rw [← Option.some.inj hvalue, hsource]
      rfl
    · cases hvalue

namespace Shift

/-- Noon of the same day. -/
def noon : Time := ⟨63907963200000000000, .utc⟩

/-- The morning is strict and the afternoon, from noon on, is relaxed. -/
def morningInput : Input :=
  ⟨"cargo-transfer", "1.0.0", "policy.document.v1", Mode.eight, some noon, ["weight"],
    Mode.strict⟩

def afternoonInput : Input :=
  ⟨"cargo-transfer", "2.0.0", "policy.document.v1", noon, none, ["weight"], Mode.relaxed⟩

def envelope (input : Input) : Envelope :=
  ⟨input.policyID, input.version, input.schemaVersion, input.effectiveFrom,
    input.effectiveUntil, input.requiredRuleIDs, input.document⟩

def texts : List (Envelope × Bytes) := [
  (envelope morningInput,
    utf8 "\x7b\"policy_id\":\"cargo-transfer\",\"version\":\"1.0.0\"," ++
    utf8 "\"schema_version\":\"policy.document.v1\"," ++
    utf8 "\"effective_from\":\"2026-03-01T08:00:00Z\"," ++
    utf8 "\"effective_until\":\"2026-03-01T12:00:00Z\"," ++
    utf8 "\"required_rule_ids\":[\"weight\"],\"document\":\x7b\"mode\":\"strict\"\x7d\x7d"),
  (envelope afternoonInput,
    utf8 "\x7b\"policy_id\":\"cargo-transfer\",\"version\":\"2.0.0\"," ++
    utf8 "\"schema_version\":\"policy.document.v1\"," ++
    utf8 "\"effective_from\":\"2026-03-01T12:00:00Z\"," ++
    utf8 "\"required_rule_ids\":[\"weight\"],\"document\":\x7b\"mode\":\"relaxed\"\x7d\x7d")]

/-- The SHA-256 sums of the texts. -/
def sums : List (Bytes × Digest) :=
  (texts.map (·.2)).zip [
    0x1a24d06a7776c13d09807c7afeb22397bbfa8aa8ebc7ddbf3bcdce0e14a1c72c,
    0xc4b860303f4a18a7819dba9bf14159d5eb0b836d528ef8fe396502bb6c739d6f]

def platform : Platform where
  __ := Mode.json
  sha256 payload := (sums.lookup payload).getD Digest.zero
  marshalPolicyEnvelope envelope := texts.lookup envelope

/-- The snapshots that `NewVersion` makes of the inputs. -/
def snapshot (input : Input) (hash : String) : Snapshot :=
  ⟨input.policyID, input.version, input.schemaVersion, input.effectiveFrom,
    input.effectiveUntil, input.requiredRuleIDs, input.document, hash⟩

end Shift

/-- At noon the afternoon version is in force, and no longer the morning version. -/
theorem shift_resolved_at_noon :
    ∃ morning afternoon : Version Shift.platform,
      newVersion Shift.platform Shift.morningInput = .ok morning ∧
      newVersion Shift.platform Shift.afternoonInput = .ok afternoon ∧
      (Registry.empty.run [.add ⟨morning, Mode.eight⟩, .add ⟨afternoon, Mode.eight⟩]).resolve
        "cargo-transfer" Shift.noon = .ok afternoon := by
  have hmorning : (newVersion Shift.platform Shift.morningInput).map (·.snapshot) =
      .ok (Shift.snapshot Shift.morningInput
        "sha256:1a24d06a7776c13d09807c7afeb22397bbfa8aa8ebc7ddbf3bcdce0e14a1c72c") := by
    decide +kernel
  have hafternoon : (newVersion Shift.platform Shift.afternoonInput).map (·.snapshot) =
      .ok (Shift.snapshot Shift.afternoonInput
        "sha256:c4b860303f4a18a7819dba9bf14159d5eb0b836d528ef8fe396502bb6c739d6f") := by
    decide +kernel
  obtain ⟨morning, hmorning, hm⟩ := map_eq_ok.mp hmorning
  obtain ⟨afternoon, hafternoon, ha⟩ := map_eq_ok.mp hafternoon
  refine ⟨morning, afternoon, hmorning, hafternoon, ?_⟩
  have haccepted : ∀ op ∈ [RegistryOp.add ⟨morning, Mode.eight⟩, .add ⟨afternoon, Mode.eight⟩],
      op.Accepted := by
    intro op hop
    simp only [List.mem_cons, List.not_mem_nil, or_false] at hop
    rcases hop with rfl | rfl
    · exact Or.inl ⟨_, hmorning⟩
    · exact Or.inl ⟨_, hafternoon⟩
  have hstable : CanonicalStable Shift.platform := Mode.stable
  refine ((resolution_unambiguous hstable _ haccepted).2.2 "cargo-transfer" Shift.noon
    afternoon (by decide)).mpr ?_
  refine ⟨Registry.activeEntry ⟨afternoon, Mode.eight⟩, ?_, rfl, by rw [ha]; rfl, rfl,
    (by decide : ¬ Mode.eight.After Shift.noon), ?_⟩
  · -- the key of the second version is new, and its period starts where the first ends
    have hfirst := Registry.add_of_new Registry.empty ⟨morning, Mode.eight⟩ rfl
      fun hclash => hclash.elim fun _ h => absurd h.1 List.not_mem_nil
    have hstored : ∀ existing ∈ (Registry.empty.add ⟨morning, Mode.eight⟩).2.entries,
        existing.key = ("cargo-transfer", "1.0.0") ∧
        ¬ EffectivePeriodsOverlap existing.version.snapshot afternoon.snapshot := by
      intro existing hexisting
      rw [hfirst] at hexisting
      rw [List.mem_singleton.mp hexisting]
      simp only [Registry.activeEntry, RegistryEntry.key, hm, ha]
      decide
    have hkey : (Registry.activeEntry ⟨afternoon, Mode.eight⟩).key =
        ("cargo-transfer", "2.0.0") := by
      simp only [Registry.activeEntry, RegistryEntry.key, ha]
      rfl
    have hnew : (Registry.empty.add ⟨morning, Mode.eight⟩).2.lookup
        (Registry.activeEntry ⟨afternoon, Mode.eight⟩).key = none := by
      refine List.find?_eq_none.mpr ?_
      intro existing hexisting
      rw [(hstored existing hexisting).1, hkey]
      decide
    have hsecond := Registry.add_of_new _ ⟨afternoon, Mode.eight⟩ hnew
      fun hclash => hclash.elim fun existing h => (hstored existing h.1).2 h.2.2
    change _ ∈ ((Registry.empty.add ⟨morning, Mode.eight⟩).2.add ⟨afternoon, Mode.eight⟩).2.entries
    rw [hsecond]
    simp
  · rw [ha]
    decide

/-! ## Status and history -/

/-- An entry as it may be found later: the version is the same, and the status has not
moved or has moved forward, at a time not before the last one. -/
def RegistryEntry.Evolves (entry next : RegistryEntry lib) : Prop :=
  next.version = entry.version ∧
    ((next.status = entry.status ∧ next.statusAt = entry.statusAt) ∨
      (Registry.ValidTransition entry.status next.status ∧
        ¬ next.statusAt.Before entry.statusAt))

namespace Registry

theorem Step.lookup {op : RegistryOp lib} {next : Registry lib} (h : Step op r next)
    {key : String × String} (hentry : r.lookup key = some entry) :
    ∃ later, next.lookup key = some later ∧ entry.Evolves later := by
  cases h with
  | same h =>
      rw [h]
      exact ⟨entry, hentry, rfl, .inl ⟨rfl, rfl⟩⟩
  | added activated hop hnew hfree h =>
      exact ⟨entry, lookup_append h hentry, rfl, .inl ⟨rfl, rfl⟩⟩
  | moved moved target t hmoved hlater hvalid h =>
      refine ⟨setStatus moved.key target t.toUTC entry, ?_, setStatus_version _ _ _ _, ?_⟩
      · rw [lookup_map_setStatus h, hentry]
        rfl
      · unfold setStatus
        split
        · -- the entry that moves is the one under its key
          rename_i hkey
          rw [key_of_lookup hentry] at hkey
          rw [← hkey, hentry] at hmoved
          obtain rfl := Option.some.inj hmoved
          exact .inr ⟨hvalid, hlater⟩
        · exact .inl ⟨rfl, rfl⟩

/-- What can be said of an entry for good: its version stays, and it does not become
active again. -/
theorem run_lookup (r : Registry lib) (ops : List (RegistryOp lib)) {key : String × String}
    (hentry : r.lookup key = some entry) :
    ∃ later, (r.run ops).lookup key = some later ∧ later.version = entry.version ∧
      (entry.status ≠ .active → later.status ≠ .active) := by
  induction ops generalizing r entry with
  | nil => exact ⟨entry, hentry, rfl, id⟩
  | cons op ops ih =>
      obtain ⟨next, hnext, hversion, hstatus⟩ := (perform_step op r).lookup hentry
      obtain ⟨later, hlater, hsame, hinactive⟩ := ih _ hnext
      refine ⟨later, hlater, hsame.trans hversion, ?_⟩
      intro hentry_inactive
      refine hinactive ?_
      rcases hstatus with ⟨hkept, -⟩ | ⟨hmoved, -⟩
      · rw [hkept]
        exact hentry_inactive
      · unfold ValidTransition at hmoved
        rcases hmoved with ⟨-, htarget | htarget⟩ | ⟨-, htarget⟩
        all_goals
          rw [htarget]
          decide

theorem resolve_active {policyID : String} {t : Time} (h : r.resolve policyID t = .ok version) :
    ∃ entry, r.lookup (version.snapshot.policyID, version.snapshot.version) = some entry ∧
      entry.status = .active := by
  unfold resolve at h
  split at h
  · exact absurd h (by simp)
  · rename_i entry hmatches
    have hfound : entry ∈ [entry] := List.mem_singleton_self entry
    rw [← hmatches, List.mem_filter, decide_eq_true_eq] at hfound
    rw [rehydrate_snapshot lib h]
    exact ⟨entry, lookup_of_mem hfound.1, hfound.2.2.1⟩
  · exact absurd h (by simp)

theorem findVersion_of_lookup {policyID version : String}
    (h : r.lookup (policyID, version) = some entry) (hash : String) :
    r.findVersion policyID version hash =
      if entry.version.snapshot.hash = hash then rehydrate lib entry.version.snapshot
      else .error .policyNotFound := by
  unfold findVersion
  rw [h]

/-- The entry after an allowed change of its status. -/
theorem lookup_transition {policyID version : String} {target : LifecycleStatus} {t : Time}
    (hentry : r.lookup (policyID, version) = some entry) (hset : ¬ t.IsZero)
    (hlater : ¬ t.Before entry.statusAt) (hvalid : ValidTransition entry.status target) :
    (r.transition policyID version target t).2.lookup (policyID, version) =
      some { entry with status := target, statusAt := t.toUTC } := by
  rcases r.transition_cases policyID version target t with
    ⟨hzero | hrefused, -⟩ | ⟨_, -, -, -, -, -, hnext⟩
  · exact absurd hzero hset
  · rcases hrefused entry hentry with hearly | hnot
    · exact absurd hearly hlater
    · exact absurd hvalid hnot
  · rw [lookup_map_setStatus hnext, hentry, Option.map_some, setStatus,
      if_pos (key_of_lookup hentry)]

/-- The first version of a registry is stored and active. -/
theorem lookup_first (activated : ActivatedVersion lib) :
    (empty.add activated).2.lookup (activeEntry activated).key =
      some (activeEntry activated) := by
  have hentries := add_of_new empty activated rfl
    fun ⟨_, hmem, _⟩ => absurd hmem List.not_mem_nil
  have hmem : activeEntry activated ∈ (empty.add activated).2.entries := by
    rw [hentries]
    exact List.mem_singleton_self _
  exact lookup_of_mem hmem

/-- Adding a version again, or another one with its hash, changes nothing. -/
theorem add_again (hentry : r.lookup (activeEntry activated).key = some entry)
    (hhash : entry.version.snapshot.hash = activated.version.snapshot.hash) :
    r.add activated = (.ok (), r) := by
  rcases r.add_cases activated with ⟨other, hother, ⟨-, h⟩ | ⟨hne, -⟩⟩ | ⟨hnone, -⟩
  · exact h
  · obtain rfl := Option.some.inj (hother.symm.trans hentry)
    exact absurd hhash hne
  · exact absurd (hnone.symm.trans hentry) (by simp)

/-- A version that was added with success is known, unless its hash is that of another
version. -/
theorem knows_of_bound (hadded : (r.add activated).1 = .ok ())
    (hbound : ∀ existing, r.lookup (activeEntry activated).key = some existing →
      existing.version.snapshot.hash = activated.version.snapshot.hash → existing.version =
      activated.version) :
    (r.add activated).2.Knows activated.version := by
  rcases r.add_cases activated with
    ⟨existing, hexisting, ⟨hhash, hsame⟩ | ⟨-, hfailed⟩⟩ | ⟨hnew, ⟨-, hfailed⟩ | ⟨-, -, hnext⟩⟩
  · rw [hsame]
    exact ⟨existing, hexisting, hbound existing hexisting hhash⟩
  · rw [hfailed] at hadded
    cases hadded
  · rw [hfailed] at hadded
    cases hadded
  · have hmem : activeEntry activated ∈ (r.add activated).2.entries := by
      rw [hnext]
      simp
    exact knows_of_mem hmem

/-- A known version stays known. -/
theorem Knows.run (h : r.Knows version) (ops : List (RegistryOp lib)) :
    (r.run ops).Knows version := by
  obtain ⟨entry, hentry, hversion⟩ := h
  obtain ⟨later, hlater, hsame, -⟩ := run_lookup r ops hentry
  exact ⟨later, hlater, hsame.trans hversion⟩

/-- A known version is found under its identity. -/
theorem Knows.findVersion_self (h : r.Knows version) (haccepted : version.Accepted)
    (hstable : CanonicalStable lib) :
    r.findVersion version.snapshot.policyID version.snapshot.version version.snapshot.hash =
      .ok version := by
  obtain ⟨entry, hentry, rfl⟩ := h
  rw [findVersion_of_lookup hentry, if_pos rfl]
  exact haccepted.rehydrate_eq hstable

end Registry

/-- Two accepted versions with one hash are the same, if the times of one of them can be
written. -/
theorem Version.eq_of_hash_eq (hjson : EncodesEnvelopes lib) {known : Set Bytes}
    (hsum : Set.InjOn lib.sha256 known) {other : Version lib}
    (hwritable : version.snapshot.envelope.Writable) (haccepted : version.Accepted)
    (haccepted' : other.Accepted) (hknown : version.message ∈ known)
    (hknown' : other.message ∈ known) (hhash : other.snapshot.hash = version.snapshot.hash) :
    other = version := by
  have hmessages := hhash
  rw [other.hash_message, version.hash_message] at hmessages
  have henvelope : other.snapshot.envelope = version.snapshot.envelope :=
    (hjson.eq_of_sum_eq hsum haccepted.canonical haccepted'.canonical hwritable hknown hknown'
      (Digest.text_inj hmessages).symm).symm
  refine Version.ext_snapshot ?_
  have hsplit : ∀ snapshot : Snapshot, snapshot = ⟨snapshot.envelope.policyID,
      snapshot.envelope.version, snapshot.envelope.schemaVersion,
      snapshot.envelope.effectiveFrom, snapshot.envelope.effectiveUntil,
      snapshot.envelope.requiredRuleIDs, snapshot.envelope.document, snapshot.hash⟩ :=
    fun _ => rfl
  rw [hsplit other.snapshot, hsplit version.snapshot, henvelope, hhash]

/-- A version that was added with success is known, if its times can be written or if
nothing was stored under its identity before. -/
theorem Registry.knows_of_added (hjson : EncodesEnvelopes lib) {known : Set Bytes}
    (hsum : Set.InjOn lib.sha256 known)
    (hstored : ∀ entry ∈ r.entries, entry.version.Accepted ∧ entry.version.message ∈ known)
    (haccepted : activated.version.Accepted) (hknown : activated.version.message ∈ known)
    (hadded : (r.add activated).1 = .ok ())
    (hcondition : activated.version.snapshot.envelope.Writable ∨ r.lookup
      (activated.version.snapshot.policyID, activated.version.snapshot.version) = none) :
    (r.add activated).2.Knows activated.version := by
  refine Registry.knows_of_bound hadded ?_
  intro existing hexisting hhash
  have hold := hstored existing (List.mem_of_find?_eq_some hexisting)
  rcases hcondition with hwritable | hnew
  · exact Version.eq_of_hash_eq hjson hsum hwritable haccepted hold.1 hknown hold.2 hhash
  · exact absurd (hexisting.symm.trans hnew) (by simp)

/-- **The lifecycle is one-way and the history is permanent.**  A call leaves the status
of a stored version or moves it forward; a version that has left the active state is
never resolved again; and no other hash is found under its identity.  A version that
`Add` accepts is found under its identity after whatever follows, if its times can be
written or if nothing was stored under its identity before. -/
theorem lifecycle_one_way (hjson : EncodesEnvelopes lib) (hstable : CanonicalStable lib)
    {known : Set Bytes} (hsum : Set.InjOn lib.sha256 known)
    (before after : List (RegistryOp lib)) (op : RegistryOp lib)
    (haccepted : ∀ other ∈ before ++ op :: after, other.Accepted)
    (hknown : ∀ other ∈ before ++ op :: after, other.Within known) :
    (∀ key entry, (Registry.empty.run before).lookup key = some entry →
      (∃ next, (Registry.empty.run (before ++ [op])).lookup key = some next ∧
        entry.Evolves next) ∧
      (entry.status ≠ .active → ∀ policyID t version,
        (Registry.empty.run (before ++ op :: after)).resolve policyID t = .ok version →
          (version.snapshot.policyID, version.snapshot.version) ≠ key) ∧
      ∀ hash, hash ≠ entry.version.snapshot.hash →
        (Registry.empty.run (before ++ op :: after)).findVersion key.1 key.2 hash =
          .error .policyNotFound) ∧
    ∀ activated, op = .add activated →
      ((Registry.empty.run before).add activated).1 = .ok () →
      (activated.version.snapshot.envelope.Writable ∨
        (Registry.empty.run before).lookup (activated.version.snapshot.policyID,
          activated.version.snapshot.version) = none) →
      (Registry.empty.run (before ++ op :: after)).findVersion
        activated.version.snapshot.policyID activated.version.snapshot.version
        activated.version.snapshot.hash = .ok activated.version := by
  constructor
  · intro key entry hentry
    refine ⟨?_, ?_, ?_⟩
    · rw [Registry.run_concat]
      exact (Registry.perform_step op _).lookup hentry
    · rintro hinactive policyID t version hresolved rfl
      rw [Registry.run_append] at hresolved
      obtain ⟨later, hlater, -, hstatus⟩ := Registry.run_lookup _ (op :: after) hentry
      obtain ⟨found, hfound, hactive⟩ := Registry.resolve_active hresolved
      rw [hlater] at hfound
      obtain rfl := Option.some.inj hfound
      exact hstatus hinactive hactive
    · intro hash hother
      rw [Registry.run_append]
      obtain ⟨later, hlater, hversion, -⟩ := Registry.run_lookup _ (op :: after) hentry
      rw [Registry.findVersion_of_lookup hlater, hversion]
      exact if_neg (Ne.symm hother)
  · rintro activated rfl hadded hcondition
    have hmem : RegistryOp.add activated ∈ before ++ RegistryOp.add activated :: after := by simp
    have hstored := Registry.run_stored
      (Q := fun version => version.Accepted ∧ version.message ∈ known) before
      fun other hother => ⟨haccepted _ (List.mem_append_left _ hother),
        hknown _ (List.mem_append_left _ hother)⟩
    have hknows := Registry.knows_of_added hjson hsum hstored (haccepted _ hmem)
      (hknown _ hmem) hadded hcondition
    have hrun : Registry.empty.run (before ++ RegistryOp.add activated :: after) =
        (((Registry.empty.run before).add activated).2).run after := by
      rw [Registry.run_append]
      rfl
    rw [hrun]
    exact (hknows.run after).findVersion_self (haccepted _ hmem) hstable

/-! ### The strict policy

Two versions whose times lie in the UTC year 10000 have one hash, so the registry takes
the second for a repetition of the first. -/

theorem unwritable_policy_shadowed :
    EncodesEnvelopes Mode.platform ∧ CanonicalStable Mode.platform ∧
      Set.InjOn Mode.platform.sha256 Mode.known ∧
      ∃ strict relaxed : Version Mode.platform,
        newVersion Mode.platform (Mode.input Mode.late Mode.strict) = .ok strict ∧
        newVersion Mode.platform (Mode.input Mode.late Mode.relaxed) = .ok relaxed ∧
        strict.message ∈ Mode.known ∧ relaxed.message ∈ Mode.known ∧
        ((Registry.empty.run [.add ⟨strict, Mode.eight⟩]).add ⟨relaxed, Mode.eight⟩).1 = .ok () ∧
        (Registry.empty.run [.add ⟨strict, Mode.eight⟩, .add ⟨relaxed, Mode.eight⟩]).findVersion
          relaxed.snapshot.policyID relaxed.snapshot.version relaxed.snapshot.hash = .ok strict ∧
        strict.snapshot.document ≠ relaxed.snapshot.document := by
  obtain ⟨strict, hstrict, hs, hsknown⟩ := Mode.late_strict
  obtain ⟨relaxed, hrelaxed, hr, hrknown⟩ := Mode.late_relaxed
  have hexisting : (Registry.empty.add ⟨strict, Mode.eight⟩).2.lookup
      (relaxed.snapshot.policyID, relaxed.snapshot.version) =
      some (Registry.activeEntry ⟨strict, Mode.eight⟩) := by
    have hkey : (relaxed.snapshot.policyID, relaxed.snapshot.version) =
        (Registry.activeEntry ⟨strict, Mode.eight⟩).key := by
      simp only [Registry.activeEntry, RegistryEntry.key, hs, hr]
      rfl
    rw [hkey]
    exact Registry.lookup_first _
  have hhash : strict.snapshot.hash = relaxed.snapshot.hash := by
    rw [hs, hr]
    rfl
  have hadd : (Registry.empty.add ⟨strict, Mode.eight⟩).2.add ⟨relaxed, Mode.eight⟩ =
      (.ok (), (Registry.empty.add ⟨strict, Mode.eight⟩).2) :=
    Registry.add_again hexisting hhash
  refine ⟨Mode.encodes, Mode.stable, Mode.sums_injOn, strict, relaxed, hstrict, hrelaxed, hsknown,
    hrknown, ?_, ?_, ?_⟩
  · change ((Registry.empty.add ⟨strict, Mode.eight⟩).2.add ⟨relaxed, Mode.eight⟩).1 = _
    rw [hadd]
  · change ((Registry.empty.add ⟨strict, Mode.eight⟩).2.add ⟨relaxed, Mode.eight⟩).2.findVersion
      _ _ _ = _
    rw [hadd]
    refine (Registry.findVersion_of_lookup hexisting _).trans ((if_pos hhash).trans ?_)
    exact Version.Accepted.rehydrate_eq (Or.inl ⟨_, hstrict⟩) Mode.stable
  · rw [hs, hr]
    decide

/-- The strict policy of 2026 is found after it was suspended, added again and retired,
and it is resolved no more. -/
theorem strict_policy_permanent :
    ∃ version : Version Mode.platform,
      newVersion Mode.platform (Mode.input Mode.eight Mode.strict) = .ok version ∧
      (Registry.empty.run [.add ⟨version, Mode.eight⟩,
        .suspend "cargo-transfer" "1.0.0" Shift.noon, .add ⟨version, Shift.noon⟩,
        .retire "cargo-transfer" "1.0.0" Shift.noon]).findVersion "cargo-transfer" "1.0.0"
          version.snapshot.hash = .ok version ∧
      ∀ t, (Registry.empty.run [.add ⟨version, Mode.eight⟩,
        .suspend "cargo-transfer" "1.0.0" Shift.noon, .add ⟨version, Shift.noon⟩,
        .retire "cargo-transfer" "1.0.0" Shift.noon]).resolve "cargo-transfer" t ≠ .ok version := by
  obtain ⟨version, hversion, hsnapshot, hknown⟩ := Mode.eight_strict
  refine ⟨version, hversion, ?_⟩
  have hkey : ("cargo-transfer", "1.0.0") = (Registry.activeEntry ⟨version, Mode.eight⟩).key := by
    simp only [Registry.activeEntry, RegistryEntry.key, hsnapshot]
    rfl
  have hstored : (Registry.empty.add ⟨version, Mode.eight⟩).2.lookup ("cargo-transfer", "1.0.0") =
      some (Registry.activeEntry ⟨version, Mode.eight⟩) := by
    rw [hkey]
    exact Registry.lookup_first _
  -- the registry after the suspension
  have hsuspended : ∃ entry, (Registry.empty.run [.add ⟨version, Mode.eight⟩,
      .suspend "cargo-transfer" "1.0.0" Shift.noon]).lookup ("cargo-transfer", "1.0.0") =
        some entry ∧ entry.version = version ∧ entry.status = .suspended := by
    have hlater : ¬ Shift.noon.Before Mode.eight := by decide
    have hvalid : Registry.ValidTransition .active .suspended := by decide
    exact ⟨_, Registry.lookup_transition hstored (by decide) hlater hvalid, rfl, rfl⟩
  obtain ⟨entry, hentry, hentry_version, hstatus⟩ := hsuspended
  have hops : ∀ op ∈ [RegistryOp.add ⟨version, Mode.eight⟩,
      .suspend "cargo-transfer" "1.0.0" Shift.noon] ++ RegistryOp.add ⟨version, Shift.noon⟩ ::
        [.retire "cargo-transfer" "1.0.0" Shift.noon], op.Accepted ∧ op.Within Mode.known := by
    intro op hop
    simp only [List.cons_append, List.nil_append, List.mem_cons, List.not_mem_nil,
      or_false] at hop
    rcases hop with rfl | rfl | rfl | rfl
    · exact ⟨Or.inl ⟨_, hversion⟩, hknown⟩
    · exact ⟨trivial, trivial⟩
    · exact ⟨Or.inl ⟨_, hversion⟩, hknown⟩
    · exact ⟨trivial, trivial⟩
  obtain ⟨hentries, hfound⟩ := lifecycle_one_way Mode.encodes Mode.stable Mode.sums_injOn _ _ _
    (fun op hop => (hops op hop).1) (fun op hop => (hops op hop).2)
  constructor
  · have hsame := hfound ⟨version, Shift.noon⟩ rfl
      (by rw [Registry.add_again (hkey ▸ hentry) (by rw [hentry_version])])
      (.inl (by rw [hsnapshot]; decide))
    rw [hsnapshot] at hsame ⊢
    exact hsame
  · intro t hresolved
    obtain ⟨-, hinactive, -⟩ := hentries _ entry hentry
    refine hinactive (by rw [hstatus]; decide) _ t version hresolved ?_
    rw [hsnapshot]
    rfl

end Policy
end CargoPds
