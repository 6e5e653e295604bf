import CargoPds.Policy.Version

/-!
# The policy registry

The registry holds every activated version together with its place in the
lifecycle.  Entries are never removed and the version of an entry never changes;
`Suspend` and `Retire` move its status only.
-/

namespace CargoPds
namespace Policy

open Fallible

variable {lib : Platform}

/-- What `Activate` hands to the registry. -/
structure ActivatedVersion (lib : Platform) where
  version : Version lib
  activatedAt : Time

structure RegistryEntry (lib : Platform) where
  version : Version lib
  status : LifecycleStatus
  statusAt : Time

/-- The two keys under which an entry is stored. -/
def RegistryEntry.key (entry : RegistryEntry lib) : String × String :=
  (entry.version.snapshot.policyID, entry.version.snapshot.version)

/-- The nested map of the registry, as the list of its entries.  A map has one
entry per key. -/
structure Registry (lib : Platform) where
  entries : List (RegistryEntry lib)
  nodup : (entries.map RegistryEntry.key).Nodup

/-- `effectiveAt`. -/
def EffectiveAt (snapshot : Snapshot) (t : Time) : Prop :=
  ¬ t.IsZero ∧ ¬ t.Before snapshot.effectiveFrom ∧
    ∀ effectiveUntil ∈ snapshot.effectiveUntil, t.Before effectiveUntil
deriving Decidable

/-- `effectivePeriodsOverlap`. -/
def EffectivePeriodsOverlap (left right : Snapshot) : Prop :=
  (∀ effectiveUntil ∈ left.effectiveUntil, right.effectiveFrom.Before effectiveUntil) ∧
    ∀ effectiveUntil ∈ right.effectiveUntil, left.effectiveFrom.Before effectiveUntil
deriving Decidable

namespace Registry

variable {r : Registry lib} {entry : RegistryEntry lib} {version : Version lib}

/-- `NewRegistry`. -/
def empty : Registry lib := ⟨[], List.nodup_nil⟩

/-- The entry under a policy identifier and a version. -/
def lookup (r : Registry lib) (key : String × String) : Option (RegistryEntry lib) :=
  r.entries.find? fun entry => entry.key = key

theorem key_of_lookup {key : String × String} (h : r.lookup key = some entry) :
    entry.key = key := by
  have hfound := List.find?_some h
  exact of_decide_eq_true hfound

theorem not_mem_keys_of_lookup {key : String × String} (h : r.lookup key = none) :
    key ∉ r.entries.map RegistryEntry.key := by
  intro hmem
  obtain ⟨entry, hentry, rfl⟩ := List.mem_map.mp hmem
  exact absurd (List.find?_eq_none.mp h entry hentry) (by simp)

theorem lookup_of_mem (h : entry ∈ r.entries) :
    r.lookup entry.key = some entry :=
  find?_key_of_nodup h r.nodup

/-- The entry that a version starts with. -/
def activeEntry (activated : ActivatedVersion lib) : RegistryEntry lib :=
  ⟨activated.version, .active, activated.activatedAt⟩

def add (r : Registry lib) (activated : ActivatedVersion lib) :
    Except Error Unit × Registry lib :=
  match h : r.lookup (activeEntry activated).key with
  | some existing =>
      if existing.version.snapshot.hash = activated.version.snapshot.hash then (.ok (), r)
      else (.error .versionConflict, r)
  | none =>
      if ∃ existing ∈ r.entries,
          existing.version.snapshot.policyID = activated.version.snapshot.policyID ∧
          EffectivePeriodsOverlap existing.version.snapshot activated.version.snapshot then
        (.error .effectiveOverlap, r)
      else
        (.ok (), ⟨r.entries ++ [activeEntry activated], by
          have hnodup := nodup_appendNew (activeEntry activated).key r.nodup
          rw [appendNew_of_not_mem (not_mem_keys_of_lookup h)] at hnodup
          rwa [List.map_append, List.map_singleton]⟩)

/-- The lifecycle only moves forward. -/
def ValidTransition (status target : LifecycleStatus) : Prop :=
  (status = .active ∧ (target = .suspended ∨ target = .retired)) ∨
    (status = .suspended ∧ target = .retired)
deriving Decidable

/-- Give the entry under `key` a new status. -/
def setStatus (key : String × String) (target : LifecycleStatus) (t : Time)
    (entry : RegistryEntry lib) : RegistryEntry lib :=
  if entry.key = key then { entry with status := target, statusAt := t } else entry

@[simp] theorem setStatus_version (key : String × String) (target : LifecycleStatus) (t : Time)
    (entry : RegistryEntry lib) : (setStatus key target t entry).version = entry.version := by
  unfold setStatus
  split <;> rfl

@[simp] theorem setStatus_key (key : String × String) (target : LifecycleStatus) (t : Time)
    (entry : RegistryEntry lib) : (setStatus key target t entry).key = entry.key := by
  rw [RegistryEntry.key, setStatus_version]
  rfl

/-- An entry is found after others were appended. -/
theorem lookup_append {next : Registry lib} {added : List (RegistryEntry lib)}
    {key : String × String} (h : next.entries = r.entries ++ added)
    (hentry : r.lookup key = some entry) : next.lookup key = some entry := by
  unfold lookup at hentry ⊢
  rw [h, List.find?_append, hentry]
  rfl

/-- An entry is found after the status of one was set. -/
theorem lookup_map_setStatus {next : Registry lib} {moved key : String × String}
    {target : LifecycleStatus} {t : Time}
    (h : next.entries = r.entries.map (setStatus moved target t)) :
    next.lookup key = (r.lookup key).map (setStatus moved target t) := by
  unfold lookup
  have hcomp : ((fun entry : RegistryEntry lib => decide (entry.key = key)) ∘
      setStatus moved target t) = fun entry => decide (entry.key = key) := by
    funext entry
    simp only [Function.comp_apply, setStatus_key]
  rw [h, List.find?_map, hcomp]

def transition (r : Registry lib) (policyID version : String) (target : LifecycleStatus)
    (t : Time) : Except Error Unit × Registry lib :=
  if t.IsZero then (.error .invalidLifecycleChange, r)
  else
    match r.lookup (policyID, version) with
    | none => (.error .invalidLifecycleChange, r)
    | some entry =>
        if t.Before entry.statusAt ∨ ¬ ValidTransition entry.status target then
          (.error .invalidLifecycleChange, r)
        else
          (.ok (), ⟨r.entries.map (setStatus (policyID, version) target t.toUTC), by
            have hkeys : (r.entries.map (setStatus (policyID, version) target t.toUTC)).map
                RegistryEntry.key = r.entries.map RegistryEntry.key := by
              rw [List.map_map]
              exact List.map_congr_left fun entry _ => setStatus_key _ _ _ entry
            rw [hkeys]
            exact r.nodup⟩)

def suspend (r : Registry lib) (policyID version : String) (t : Time) :
    Except Error Unit × Registry lib :=
  r.transition policyID version .suspended t

def retire (r : Registry lib) (policyID version : String) (t : Time) :
    Except Error Unit × Registry lib :=
  r.transition policyID version .retired t

def resolve (r : Registry lib) (policyID : String) (t : Time) : Except Error (Version lib) :=
  match r.entries.filter (fun entry => entry.version.snapshot.policyID = policyID ∧
      entry.status = .active ∧ ¬ t.Before entry.statusAt ∧
      EffectiveAt entry.version.snapshot t) with
  | [] => .error .policyNotFound
  | [entry] => rehydrate lib entry.version.snapshot
  | _ => .error .ambiguousPolicy

def findVersion (r : Registry lib) (policyID version hash : String) :
    Except Error (Version lib) :=
  match r.lookup (policyID, version) with
  | none => .error .policyNotFound
  | some entry =>
      if entry.version.snapshot.hash = hash then rehydrate lib entry.version.snapshot
      else .error .policyNotFound

/-! ## What the registry knows -/

/-- The version is registered under its own keys. -/
def Knows (r : Registry lib) (version : Version lib) : Prop :=
  ∃ entry, r.lookup (version.snapshot.policyID, version.snapshot.version) = some entry ∧
    entry.version = version

theorem knows_of_mem (h : entry ∈ r.entries) :
    r.Knows entry.version :=
  ⟨entry, lookup_of_mem h, rfl⟩

theorem resolve_knows {policyID : String} {t : Time} (h : r.resolve policyID t = .ok version) :
    r.Knows version := by
  unfold resolve at h
  split at h
  · exact absurd h (by simp)
  · rename_i entry hmatches
    have hmem : entry ∈ r.entries :=
      List.mem_of_mem_filter (hmatches ▸ List.mem_singleton_self entry)
    rw [rehydrate_snapshot lib h]
    exact knows_of_mem hmem
  · exact absurd h (by simp)

/-- A key belongs to one version. -/
theorem Knows.eq_of_key {left right : Version lib} (hleft : r.Knows left) (hright : r.Knows right)
    (hid : left.snapshot.policyID = right.snapshot.policyID)
    (hlabel : left.snapshot.version = right.snapshot.version) : left = right := by
  obtain ⟨entry, hentry, rfl⟩ := hleft
  obtain ⟨other, hother, rfl⟩ := hright
  rw [hid, hlabel, hother] at hentry
  rw [Option.some.inj hentry]

/-- Looking up a known version by its own identity finds it. -/
theorem Knows.findVersion_eq {found : Version lib} (hknows : r.Knows version) (hash : String)
    (h : r.findVersion version.snapshot.policyID version.snapshot.version hash = .ok found) :
    found = version := by
  obtain ⟨entry, hentry, rfl⟩ := hknows
  unfold findVersion at h
  rw [hentry] at h
  simp only at h
  split at h
  · exact rehydrate_snapshot lib h
  · exact absurd h (by simp)

theorem Knows.add (h : r.Knows version) (activated : ActivatedVersion lib) :
    (r.add activated).2.Knows version := by
  unfold Registry.add
  split
  · split <;> exact h
  · split
    · exact h
    · obtain ⟨entry, hentry, hversion⟩ := h
      exact ⟨entry, lookup_append rfl hentry, hversion⟩

theorem Knows.transition (h : r.Knows version) (policyID label : String) (target : LifecycleStatus)
    (t : Time) :
    (r.transition policyID label target t).2.Knows version := by
  unfold Registry.transition
  split
  · exact h
  · split
    · exact h
    · split
      · exact h
      · obtain ⟨entry, hentry, hversion⟩ := h
        refine ⟨setStatus (policyID, label) target t.toUTC entry, ?_, ?_⟩
        · rw [lookup_map_setStatus rfl, hentry]
          rfl
        · rw [setStatus_version, hversion]

end Registry

end Policy
end CargoPds
