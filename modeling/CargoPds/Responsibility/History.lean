import CargoPds.Responsibility.Custody

/-!
# Histories of the repository interface

A sequence of repository operations is run on a fresh `MemoryRepository`, and
the accepted writes are noted in a journal.  `SaveResponsibility` with a
non-zero expected version moves an object to its next version without an event,
so the event log follows the transfers and not the versions.
-/

namespace CargoPds
namespace Responsibility

open Fallible

namespace MemoryRepository

/-- The repository after a sequence of operations. -/
def run (repository : MemoryRepository) (ops : List RepositoryOp) : MemoryRepository :=
  ops.foldl (fun state op => (state.handle op).2) repository

/-- The write of an accepted operation, read back from the repository. -/
def acceptedWrite (repository : MemoryRepository) : RepositoryOp → Option Write
  | .saveResponsibility snapshot expectedVersion =>
      match repository.saveResponsibility snapshot expectedVersion with
      | .ok next => (next.snapshots snapshot.objectID).map (⟨·, .saved⟩)
      | .error _ => none
  | .commitTransfer snapshot expectedVersion event =>
      match repository.commitTransfer snapshot expectedVersion event with
      | .ok next => (next.snapshots snapshot.objectID).map (⟨·, .transferred⟩)
      | .error _ => none
  | .findResponsibility _ => none
  | .findTransfer _ _ => none

/-- The accepted writes of a sequence of operations, in order. -/
def journal (repository : MemoryRepository) : List RepositoryOp → List Write
  | [] => []
  | op :: ops => (repository.acceptedWrite op).toList ++ (repository.handle op).2.journal ops

variable {repository next : MemoryRepository} {snapshot : Snapshot} {expectedVersion : UInt64}

theorem acceptedWrite_save
    (h : repository.saveResponsibility snapshot expectedVersion = .ok next) :
    repository.acceptedWrite (.saveResponsibility snapshot expectedVersion) =
      some ⟨snapshot.inUTC, .saved⟩ := by
  have hstored : next.snapshots snapshot.objectID = some snapshot.inUTC :=
    (saveResponsibility_accepts h).snapshots_eq
  simp only [acceptedWrite, h, hstored, Option.map_some]

theorem acceptedWrite_commit {event : TransferredEvent}
    (h : repository.commitTransfer snapshot expectedVersion event = .ok next) :
    repository.acceptedWrite (.commitTransfer snapshot expectedVersion event) =
      some ⟨snapshot.inUTC, .transferred⟩ := by
  have hstored : next.snapshots snapshot.objectID = some snapshot.inUTC :=
    (commitTransfer_accepts h).snapshots_eq
  simp only [acceptedWrite, h, hstored, Option.map_some]

/-- An operation that wrote nothing leaves the repository as it was; any other
one is an accepted write. -/
theorem handle_cases (repository : MemoryRepository) (op : RepositoryOp) :
    (repository.acceptedWrite op = none ∧ (repository.handle op).2 = repository) ∨
      ∃ write, repository.acceptedWrite op = some write ∧
        Accepts repository write (repository.handle op).2 := by
  cases op with
  | saveResponsibility snapshot expectedVersion =>
      cases h : repository.saveResponsibility snapshot expectedVersion with
      | error err =>
          left
          simp only [acceptedWrite, handle, write, h, and_self]
      | ok next =>
          refine Or.inr ⟨_, acceptedWrite_save h, ?_⟩
          simp only [handle, write, h]
          exact saveResponsibility_accepts h
  | commitTransfer snapshot expectedVersion event =>
      cases h : repository.commitTransfer snapshot expectedVersion event with
      | error err =>
          left
          simp only [acceptedWrite, handle, write, h, and_self]
      | ok next =>
          refine Or.inr ⟨_, acceptedWrite_commit h, ?_⟩
          simp only [handle, write, h]
          exact commitTransfer_accepts h
  | findResponsibility objectID => exact Or.inl ⟨rfl, rfl⟩
  | findTransfer objectID version => exact Or.inl ⟨rfl, rfl⟩

/-- The journal of a run accounts for the repository it leaves behind. -/
theorem accounts_run {repository : MemoryRepository} {written : List Write}
    (h : Accounts repository written) (ops : List RepositoryOp) :
    Accounts (repository.run ops) (written ++ repository.journal ops) := by
  induction ops generalizing repository written with
  | nil =>
      rw [journal, List.append_nil]
      exact h
  | cons op ops ih =>
      rw [journal, ← List.append_assoc]
      change Accounts ((repository.handle op).2.run ops) _
      refine ih ?_
      rcases repository.handle_cases op with ⟨hnone, hsame⟩ | ⟨write, hsome, haccepts⟩
      · rw [hnone, hsame, Option.toList_none, List.append_nil]
        exact h
      · rw [hsome, Option.toList_some]
        exact h.append haccepts

/-- When `SaveResponsibility` is used for first assignments only, a saved version
is a first version. -/
theorem saved_version_of_initial {ops : List RepositoryOp}
    (hinitial : ∀ snapshot expectedVersion,
      RepositoryOp.saveResponsibility snapshot expectedVersion ∈ ops → expectedVersion = 0)
    {write : Write} (hwrite : write ∈ repository.journal ops)
    (hsaved : write.origin = .saved) : write.snapshot.version.toNat = 1 := by
  induction ops generalizing repository with
  | nil => cases hwrite
  | cons op ops ih =>
      rw [journal, List.mem_append, Option.mem_toList] at hwrite
      rcases hwrite with hhead | htail
      · cases op with
        | saveResponsibility snapshot expectedVersion =>
            cases h : repository.saveResponsibility snapshot expectedVersion with
            | error err => simp [acceptedWrite, h] at hhead
            | ok next =>
                rw [acceptedWrite_save h, Option.some.injEq] at hhead
                subst hhead
                have hzero := hinitial snapshot expectedVersion List.mem_cons_self
                subst hzero
                exact saveResponsibility_version h
        | commitTransfer snapshot expectedVersion event =>
            cases h : repository.commitTransfer snapshot expectedVersion event with
            | error err => simp [acceptedWrite, h] at hhead
            | ok next =>
                rw [acceptedWrite_commit h, Option.some.injEq] at hhead
                subst hhead
                cases hsaved
        | findResponsibility objectID => cases hhead
        | findTransfer objectID version => cases hhead
      · exact ih (fun snapshot expectedVersion hmem =>
          hinitial snapshot expectedVersion (List.mem_cons_of_mem _ hmem)) htail

/-- **Events follow transfers.**  After any sequence of operations, the versions
of a stored object are numbered without gaps up to the stored one.  A version
that came from `CommitTransfer` has its event, from the participant of the
version before it and with the participant and time of the new one; a version
that came from `SaveResponsibility` has none.  If `SaveResponsibility` is only
used for first assignments, every version after the first has its event. -/
theorem run_events_follow_transfers (ops : List RepositoryOp) (objectID : PhysicalObjectID)
    (current : Snapshot) (hcurrent : (new.run ops).snapshots objectID = some current) :
    let writes := writesOf objectID (new.journal ops)
    writes.map (·.snapshot.version.toNat) = List.range' 1 current.version.toNat ∧
      writes.getLast?.map (·.snapshot) = some current ∧
      (∀ index previous next, writes[index]? = some previous → writes[index + 1]? = some next →
        (new.run ops).transfers (objectID, next.snapshot.version) =
          match next.origin with
          | .saved => none
          | .transferred => some ⟨objectID, previous.snapshot.participantID,
              next.snapshot.participantID, next.snapshot.assignedAt, next.snapshot.version⟩) ∧
      ((∀ snapshot expectedVersion,
          RepositoryOp.saveResponsibility snapshot expectedVersion ∈ ops → expectedVersion = 0) →
        ∀ index next, writes[index + 1]? = some next → next.origin = .transferred) := by
  intro writes
  obtain ⟨chain, hwrites, htracks⟩ := accounts_run Accounts.new ops objectID
  rw [List.nil_append] at hwrites
  change chain.writes = writes at hwrites
  refine ⟨?_, ?_, ?_, ?_⟩
  · rw [htracks.version_eq_length hcurrent, ← hwrites]
    exact chain.versions
  · rw [← hwrites, ← htracks.stored]
    exact hcurrent
  · intro index previous next hprevious hnext
    rw [← hwrites] at hprevious hnext
    have hobject : next.snapshot.objectID = objectID :=
      chain.object next (List.mem_of_getElem? hnext)
    rw [htracks.recorded index previous next hprevious hnext]
    cases horigin : next.origin with
    | saved => simp only [Write.event, horigin]
    | transferred => simp only [Write.event, horigin, handover, hobject]
  · intro hinitial index next hnext
    rw [← hwrites] at hnext
    cases horigin : next.origin with
    | transferred => rfl
    | saved =>
        have hmem : next ∈ new.journal ops := by
          have hmem := List.mem_of_getElem? hnext
          rw [hwrites] at hmem
          exact List.mem_of_mem_filter hmem
        have hfirst := saved_version_of_initial hinitial hmem horigin
        have hversion := chain.version_of_getElem? hnext
        omega

/-- A first assignment, a handover, and a second assignment saved without one. -/
def relayOps : List RepositoryOp :=
  [.saveResponsibility ⟨"crate-7", "warehouse", 1, ⟨1000, .utc⟩⟩ 0,
    .commitTransfer ⟨"crate-7", "carrier", 2, ⟨2000, .utc⟩⟩ 1
      ⟨"crate-7", "warehouse", "carrier", ⟨2000, .utc⟩, 2⟩,
    .saveResponsibility ⟨"crate-7", "consignee", 3, ⟨3000, .utc⟩⟩ 2]

/-- The run `relayOps` has three versions. -/
theorem relayOps_versions :
    (new.run relayOps).snapshots "crate-7" =
        some ⟨"crate-7", "consignee", 3, ⟨3000, .utc⟩⟩ ∧
      (writesOf "crate-7" (new.journal relayOps)).map (·.snapshot.version.toNat) = [1, 2, 3] :=
  ⟨by decide, (run_events_follow_transfers relayOps "crate-7"
    ⟨"crate-7", "consignee", 3, ⟨3000, .utc⟩⟩ (by decide)).1⟩

/-- The third version of `relayOps` is stored and has no handover event. -/
theorem relayOps_third_version_without_event :
    ∃ current, (new.run relayOps).snapshots "crate-7" = some current ∧ current.version = 3 ∧
      (new.run relayOps).transfers ("crate-7", 3) = none :=
  ⟨⟨"crate-7", "consignee", 3, ⟨3000, .utc⟩⟩, by decide, by decide, by decide⟩

end MemoryRepository
end Responsibility
end CargoPds
