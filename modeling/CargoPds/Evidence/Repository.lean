import CargoPds.Evidence.Qualification

/-!
# The evidence repository

`MemoryRepository` is a map from evidence identifiers to snapshots.  It only
ever gains entries, so what was found once is found ever after.
-/

namespace CargoPds
namespace Evidence

open Fallible

/-- The map of `MemoryRepository`, as the list of its values in the order in
which they came. -/
structure MemoryRepository where
  objects : List Snapshot
deriving DecidableEq, Repr

namespace MemoryRepository

/-- `NewMemoryRepository`. -/
def empty : MemoryRepository := ⟨[]⟩

/-- The entry of the map under an identifier. -/
def lookup (m : MemoryRepository) (id : UUID) : Option Snapshot :=
  m.objects.find? fun snapshot => snapshot.evidenceID = id

theorem lookup_evidenceID {m : MemoryRepository} {id : UUID} {snapshot : Snapshot}
    (h : m.lookup id = some snapshot) : snapshot.evidenceID = id := by
  have hfound := List.find?_some h
  exact of_decide_eq_true hfound

variable (lib : Platform)

/-- `snapshotsEqual`: equality of the JSON forms. -/
def SnapshotsEqual (left right : Snapshot) : Prop :=
  ∃ payload ∈ lib.marshalEvidence left, lib.marshalEvidence right = some payload
deriving Decidable

/-- `SameSubmission`: equality up to the time of receipt. -/
def SameSubmission (left right : Snapshot) : Prop :=
  SnapshotsEqual lib { left with receivedAt := Time.zero } { right with receivedAt := Time.zero }
deriving Decidable

def saveEvidence (m : MemoryRepository) (snapshot : Snapshot) :
    Except Error Unit × MemoryRepository :=
  match rehydrate lib snapshot with
  | .error err => (.error err, m)
  | .ok object =>
      match m.lookup object.snapshot.evidenceID with
      | some existing =>
          if SameSubmission lib existing object.snapshot then (.ok (), m)
          else (.error .conflict, m)
      | none => (.ok (), ⟨m.objects ++ [object.snapshot]⟩)

def findEvidence (m : MemoryRepository) (id : UUID) : Except Error Object := do
  rejectIf (id = UUID.nil) .evidenceIDRequired
  match m.lookup id with
  | none => .error .notFound
  | some snapshot => rehydrate lib snapshot

def listEvidenceBySession (m : MemoryRepository) (sessionID : UUID) :
    Except Error (List Object) := do
  rejectIf (sessionID = UUID.nil) .sessionIDRequired
  let snapshots := (m.objects.filter fun snapshot => snapshot.sessionID = sessionID).insertionSort
    fun left right => ¬ ObservedLess right left
  snapshots.mapM (rehydrate lib)

/-- Saving evidence never changes an entry that is there. -/
theorem lookup_saveEvidence {m : MemoryRepository} {submitted found : Snapshot} {id : UUID}
    (h : m.lookup id = some found) :
    (m.saveEvidence lib submitted).2.lookup id = some found := by
  unfold saveEvidence
  split
  · exact h
  · split
    · split <;> exact h
    · change (m.objects ++ _).find? _ = _
      rw [List.find?_append, show m.objects.find? _ = some found from h]
      rfl

theorem findEvidence_eq_ok {m : MemoryRepository} {id : UUID} {object : Object}
    (h : m.findEvidence lib id = .ok object) : m.lookup id = some object.snapshot := by
  simp only [findEvidence, bind_eq_ok, rejectIf_eq_ok, exists_const] at h
  obtain ⟨-, hfind⟩ := h
  split at hfind
  · exact absurd hfind (by simp)
  · rename_i snapshot hentry
    rw [hentry, ((rehydrate_eq_ok lib).mp hfind).2]

end MemoryRepository

/-- The fields of an evidence `Service` that do not come from its clock or its
repository. -/
structure ServiceConfig where
  schemaVersion : String
  runtimeVersion : String
deriving DecidableEq, Repr

end Evidence
end CargoPds
