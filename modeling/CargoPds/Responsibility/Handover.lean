import CargoPds.Concurrency.Rely
import CargoPds.Responsibility.Custody

/-!
# Concurrent handovers

Any number of clients assign objects and hand them over through the service,
all on one `MemoryRepository`.  Each call is a program of repository operations,
and a schedule interleaves the operations of different calls freely.

The journal of returned calls accounts for the repository at every moment, so
the chain of custody of an object can be read off the answers of the calls.
-/

namespace CargoPds
namespace Responsibility

open Fallible Concurrency

variable {objectID : PhysicalObjectID} {finished : List (Command × Outcome)}
variable {repository : MemoryRepository}

/-- The calls of the clients. -/
inductive Command where
  | assign (snapshot : Snapshot)
  | transfer (objectID : PhysicalObjectID) (target : ParticipantID) (transferredAt : Time)
  | transferExpected (expected : Snapshot) (target : ParticipantID) (transferredAt : Time)
deriving DecidableEq, Repr

/-- The answers of the calls. -/
inductive Outcome where
  | assigned (result : Except Error Unit)
  | handedOver (result : Except Error Snapshot)

/-- The program of a call.  A first assignment is `SaveResponsibility(_, 0)`. -/
def Command.program : Command → Program repositoryInterface Outcome
  | assign snapshot => do
      let result ← (Repository.saveResponsibility snapshot 0).run
      return .assigned result
  | transfer objectID target transferredAt => do
      let result ← (Service.transfer objectID target transferredAt).run
      return .handedOver result
  | transferExpected expected target transferredAt => do
      let result ← (Service.transferExpected expected target transferredAt).run
      return .handedOver result

/-- The operations of the shared repository. -/
def sharedHandle (op : RepositoryOp) (_ : Unit) (repository : MemoryRepository) :
    op.Reply × MemoryRepository :=
  repository.handle op

/-- The repository and its clients after a schedule. -/
def serve (schedule : List (Action Command Unit)) :
    Pool repositoryInterface Command Outcome MemoryRepository :=
  (Pool.initial MemoryRepository.new).run sharedHandle Command.program schedule

/-- The snapshots returned by the successful handovers of an object, in the
order in which the calls returned. -/
def handovers (objectID : PhysicalObjectID) (finished : List (Command × Outcome)) :
    List Snapshot :=
  finished.filterMap fun
    | (_, .handedOver (.ok snapshot)) =>
        if snapshot.objectID = objectID then some snapshot else none
    | _ => none

/-! ## The journal of returned calls -/

/-- The write of a call that returned. -/
def returnedWrite : Command × Outcome → Option Write
  | (.assign snapshot, .assigned (.ok ())) => some ⟨snapshot.inUTC, .saved⟩
  | (_, .handedOver (.ok snapshot)) => some ⟨snapshot, .transferred⟩
  | _ => none

/-- The writes of the calls that returned, in order. -/
def returnedWrites (finished : List (Command × Outcome)) : List Write :=
  finished.filterMap returnedWrite

/-- A handover returns the assignment that its caller asked for. -/
def Command.Delivers : Command → Snapshot → Prop
  | assign _, _ => False
  | transfer objectID target transferredAt, snapshot =>
      snapshot.objectID = objectID ∧ snapshot.participantID = target ∧
        snapshot.assignedAt = transferredAt.toUTC
  | transferExpected expected target transferredAt, snapshot =>
      snapshot.objectID = expected.objectID ∧ snapshot.participantID = target ∧
        snapshot.assignedAt = transferredAt.toUTC

/-- The invariant of the pool. -/
structure Consistent (seen : Observation Command Outcome MemoryRepository) : Prop where
  accounts : Accounts seen.1 (returnedWrites seen.2)
  saved_iff_first : ∀ write ∈ returnedWrites seen.2,
    write.origin = .saved ↔ write.snapshot.version.toNat = 1
  delivers : ∀ cmd snapshot, (cmd, Outcome.handedOver (.ok snapshot)) ∈ seen.2 →
    cmd.Delivers snapshot

namespace Consistent

theorem initial : Consistent (MemoryRepository.new, []) := by
  refine ⟨Accounts.new, ?_, ?_⟩
  · intro write hwrite
    cases hwrite
  · intro cmd snapshot hmem
    cases hmem

/-- A call that returned an error changes nothing. -/
theorem append_failed (h : Consistent (repository, finished)) {entry : Command × Outcome}
    (hfailed : returnedWrite entry = none)
    (herror : ∀ snapshot, entry.2 ≠ .handedOver (.ok snapshot)) :
    Consistent (repository, finished ++ [entry]) := by
  have hwrites : returnedWrites (finished ++ [entry]) = returnedWrites finished := by
    rw [returnedWrites, returnedWrites, List.filterMap_append]
    simp [hfailed]
  refine ⟨?_, ?_, ?_⟩
  · change Accounts repository (returnedWrites (finished ++ [entry]))
    rw [hwrites]
    exact h.accounts
  · change ∀ write ∈ returnedWrites (finished ++ [entry]), _
    rw [hwrites]
    exact h.saved_iff_first
  · intro cmd snapshot hmem
    rcases List.mem_append.mp hmem with hold | hnew
    · exact h.delivers cmd snapshot hold
    · rw [← List.mem_singleton.mp hnew] at herror
      exact absurd rfl (herror snapshot)

/-- A call that returned a write extends the journal by it. -/
theorem append_write {next : MemoryRepository} (h : Consistent (repository, finished))
    {entry : Command × Outcome} {write : Write} (hentry : returnedWrite entry = some write)
    (haccepts : Accepts repository write next)
    (hfirst : write.origin = .saved ↔ write.snapshot.version.toNat = 1)
    (hdelivers : ∀ snapshot, entry.2 = .handedOver (.ok snapshot) → entry.1.Delivers snapshot) :
    Consistent (next, finished ++ [entry]) := by
  have hwrites : returnedWrites (finished ++ [entry]) = returnedWrites finished ++ [write] := by
    rw [returnedWrites, returnedWrites, List.filterMap_append]
    simp [hentry]
  refine ⟨?_, ?_, ?_⟩
  · change Accounts next (returnedWrites (finished ++ [entry]))
    rw [hwrites]
    exact h.accounts.append haccepts
  · change ∀ write ∈ returnedWrites (finished ++ [entry]), _
    rw [hwrites]
    intro w hw
    rcases List.mem_append.mp hw with hold | hnew
    · exact h.saved_iff_first w hold
    · rw [List.mem_singleton.mp hnew]
      exact hfirst
  · intro cmd snapshot hmem
    rcases List.mem_append.mp hmem with hold | hnew
    · exact h.delivers cmd snapshot hold
    · have hsame := List.mem_singleton.mp hnew
      rw [← hsame] at hdelivers
      exact hdelivers snapshot rfl

/-- A stored snapshot belongs to the object under which it is stored. -/
theorem stored_object {seen : Observation Command Outcome MemoryRepository} (h : Consistent seen)
    {snapshot : Snapshot} (hstored : seen.1.snapshots objectID = some snapshot) :
    snapshot.objectID = objectID := by
  obtain ⟨chain, -, htracks⟩ := h.accounts objectID
  obtain ⟨last, hlast, rfl⟩ := htracks.getLast?_of_stored hstored
  exact chain.object last (List.mem_of_getLast? hlast)

end Consistent

/-! ## Every call keeps the invariant -/

/-- A call may be filed in any consistent pool, and each of its later steps keeps
the pool consistent.  Nothing is asked of the other calls beyond that. -/
structure Serves (cmd : Command) (program : Program repositoryInterface Outcome) : Prop where
  files : ∀ seen, Consistent seen → Consistent (program.observe cmd seen)
  safe : ∀ seen, program.Safe sharedHandle Consistent (fun _ _ => True) cmd seen

namespace Serves

variable {cmd : Command}

theorem failed {outcome : Outcome} (hfailed : returnedWrite (cmd, outcome) = none)
    (herror : ∀ snapshot, outcome ≠ .handedOver (.ok snapshot)) :
    Serves cmd (.done outcome) :=
  ⟨fun _ hseen => hseen.append_failed hfailed herror, fun _ => trivial⟩

theorem refused (err : Error) : Serves cmd (.done (.handedOver (.error err))) := by
  refine failed ?_ ?_
  · cases cmd <;> rfl
  · intro snapshot heq
    cases heq

/-- A read passes on an aggregate of the object that was asked for. -/
theorem find {next : Except Error Aggregate → Program repositoryInterface Outcome}
    (herror : ∀ err, Serves cmd (next (.error err)))
    (hok : ∀ aggregate, aggregate.objectID = objectID → Serves cmd (next (.ok aggregate))) :
    Serves cmd (.call (.findResponsibility objectID) next) := by
  refine ⟨fun _ hseen => hseen, ?_⟩
  intro _ seen _ hseen _
  have hnext : Serves cmd (next (seen.1.findResponsibility objectID)) := by
    cases hfind : seen.1.findResponsibility objectID with
    | error err => exact herror err
    | ok aggregate =>
        refine hok aggregate ?_
        obtain ⟨_, -, hlookup⟩ := bind_eq_ok.mp hfind
        cases hstored : seen.1.snapshots objectID with
        | none =>
            rw [hstored] at hlookup
            cases hlookup
        | some snapshot =>
            rw [hstored] at hlookup
            obtain ⟨-, rfl⟩ := rehydrate_eq_ok.mp hlookup
            have hobject : snapshot.objectID = objectID := hseen.stored_object hstored
            exact hobject
  exact ⟨hnext.files _ hseen, trivial, hnext.safe _⟩

/-- The commit of a transferred aggregate is accepted with its event, or fails
without a trace. -/
theorem transferLoaded {aggregate : Aggregate} {target : ParticipantID} {transferredAt : Time}
    (hcmd : ∀ snapshot : Snapshot, snapshot.objectID = aggregate.objectID →
      snapshot.participantID = target → snapshot.assignedAt = transferredAt.toUTC →
      cmd.Delivers snapshot)
    (hwrite : ∀ snapshot, returnedWrite (cmd, .handedOver (.ok snapshot)) =
      some ⟨snapshot, .transferred⟩) :
    Serves cmd (do
      let result ← (Service.transferLoaded aggregate target transferredAt).run
      return .handedOver result) := by
  cases htransfer : aggregate.transfer target transferredAt with
  | error err =>
      rw [Service.transferLoaded_run_of_error htransfer]
      exact refused err
  | ok transferred =>
      rw [Service.transferLoaded_run_of_ok htransfer]
      have hsnapshot : transferred.snapshot =
          ⟨aggregate.objectID, target, aggregate.version + 1, transferredAt.toUTC⟩ := by
        obtain ⟨-, rfl⟩ := Aggregate.transfer_eq_ok.mp htransfer
        rfl
      generalize transferred.snapshot = snapshot at hsnapshot
      refine ⟨fun _ hseen => hseen, ?_⟩
      intro _ seen _ hseen _
      refine ⟨?_, trivial, trivial⟩
      simp only [sharedHandle, MemoryRepository.handle]
      cases hcommit : seen.1.commitTransfer snapshot aggregate.version
          (aggregate.transferEvent target transferredAt) with
      | error err => exact (refused err).files seen hseen
      | ok next =>
          have haccepts := MemoryRepository.commitTransfer_accepts hcommit
          rw [Snapshot.inUTC_eq_self (by rw [hsnapshot]; rfl)] at haccepts
          have hversion := MemoryRepository.commitTransfer_version hcommit
          refine hseen.append_write (hwrite snapshot) haccepts ?_ ?_
          · constructor
            · intro horigin
              cases horigin
            · intro hone
              change snapshot.version.toNat = 1 at hone
              omega
          · intro returned hreturned
            cases hreturned
            rw [hsnapshot]
            exact hcmd _ rfl rfl rfl

theorem assign (snapshot : Snapshot) :
    Serves (.assign snapshot) (Command.assign snapshot).program := by
  refine ⟨fun _ hseen => hseen, ?_⟩
  intro _ seen _ hseen _
  refine ⟨?_, trivial, trivial⟩
  simp only [sharedHandle, MemoryRepository.handle]
  cases hsave : seen.1.saveResponsibility snapshot 0 with
  | error err =>
      refine hseen.append_failed rfl ?_
      intro returned heq
      cases heq
  | ok next =>
      have haccepts := MemoryRepository.saveResponsibility_accepts hsave
      have hversion := MemoryRepository.saveResponsibility_version hsave
      refine hseen.append_write rfl haccepts (iff_of_true rfl hversion) ?_
      intro returned heq
      cases heq

theorem transfer (objectID : PhysicalObjectID) (target : ParticipantID) (transferredAt : Time) :
    Serves (.transfer objectID target transferredAt)
      (Command.transfer objectID target transferredAt).program := by
  rw [Command.program, Service.transfer_run]
  refine find (fun err => refused err) ?_
  intro aggregate hobject
  refine transferLoaded ?_ (fun _ => rfl)
  intro snapshot hsame htarget htime
  exact ⟨hsame.trans hobject, htarget, htime⟩

theorem transferExpected (expected : Snapshot) (target : ParticipantID) (transferredAt : Time) :
    Serves (.transferExpected expected target transferredAt)
      (Command.transferExpected expected target transferredAt).program := by
  rw [Command.program]
  cases hvalid : rehydrate expected with
  | error err =>
      rw [Service.transferExpected_run_of_error hvalid]
      exact refused err
  | ok validated =>
      rw [Service.transferExpected_run_of_ok hvalid]
      refine find (fun err => refused err) ?_
      intro aggregate hobject
      simp only [Service.afterFind]
      split
      · refine transferLoaded ?_ (fun _ => rfl)
        intro snapshot hsame htarget htime
        exact ⟨hsame.trans hobject, htarget, htime⟩
      · exact refused .concurrentModification

end Serves

theorem Command.serves (cmd : Command) : Serves cmd cmd.program := by
  cases cmd with
  | assign snapshot => exact Serves.assign snapshot
  | transfer objectID target transferredAt =>
      exact Serves.transfer objectID target transferredAt
  | transferExpected expected target transferredAt =>
      exact Serves.transferExpected expected target transferredAt

/-- The pool is consistent after every schedule. -/
theorem serve_consistent (schedule : List (Action Command Unit)) :
    Consistent (serve schedule).seen := by
  have hsafe := Pool.run_safe sharedHandle Command.program Consistent (fun _ _ => True)
    (fun _ => trivial) (fun _ _ _ _ _ => trivial)
    (fun cmd seen hseen =>
      ⟨cmd.serves.files seen hseen, trivial, cmd.serves.safe _⟩)
    Consistent.initial schedule
  exact hsafe.1

/-! ## The linear history of an object -/

/-- The successful handovers are the transferred writes of the journal. -/
theorem handovers_eq_filterMap (objectID : PhysicalObjectID)
    (finished : List (Command × Outcome)) :
    handovers objectID finished =
      (writesOf objectID (returnedWrites finished)).filterMap fun write =>
        match write.origin with
        | .saved => none
        | .transferred => some write.snapshot := by
  rw [handovers, writesOf, returnedWrites, List.filter_filterMap, List.filterMap_filterMap]
  refine List.filterMap_congr ?_
  rintro ⟨cmd, outcome⟩ -
  rcases outcome with (err | ⟨⟩) | (err | snapshot)
  · cases cmd <;> rfl
  · cases cmd with
    | assign snapshot =>
        by_cases hobject : snapshot.inUTC.objectID = objectID <;>
          simp [returnedWrite, Option.filter, hobject]
    | transfer | transferExpected => rfl
  · cases cmd <;> rfl
  · by_cases hobject : snapshot.objectID = objectID <;>
      cases cmd <;> simp [returnedWrite, Option.filter, hobject]

/-- A chain whose saved writes are its first versions is one first assignment
followed by transfers. -/
theorem CustodyChain.cons_of_saved_iff_first (chain : CustodyChain objectID)
    (hsaved : ∀ write ∈ chain.writes, write.origin = .saved ↔ write.snapshot.version.toNat = 1)
    (hne : chain.writes ≠ []) :
    ∃ (first : Snapshot) (later : List Snapshot),
      chain.writes = ⟨first, .saved⟩ :: later.map (⟨·, .transferred⟩) := by
  cases hwrites : chain.writes with
  | nil => exact absurd hwrites hne
  | cons first later =>
      have hfirst : first.origin = .saved := by
        rw [hsaved first (by rw [hwrites]; exact List.mem_cons_self)]
        exact chain.version_of_getElem? (by rw [hwrites]; rfl)
      have hlater : ∀ write ∈ later, write = ⟨write.snapshot, .transferred⟩ := by
        intro write hmem
        obtain ⟨index, hindex⟩ := List.getElem?_of_mem hmem
        have hversion : write.snapshot.version.toNat = index + 1 + 1 :=
          chain.version_of_getElem? (by rw [hwrites]; exact hindex)
        have hnot : write.origin ≠ .saved := by
          rw [Ne, hsaved write (by rw [hwrites]; exact List.mem_cons_of_mem _ hmem)]
          omega
        obtain ⟨snapshot, origin⟩ := write
        cases origin with
        | saved => exact absurd rfl hnot
        | transferred => rfl
      refine ⟨first.snapshot, later.map (·.snapshot), ?_⟩
      rw [List.map_map]
      congr 1
      · rw [← hfirst]
      · rw [← List.map_id later, List.map_map]
        exact List.map_congr_left hlater

/-- What a repository that tracks such a chain says about its assignments. -/
theorem Tracks.linear_history {chain : CustodyChain objectID} (htracks : Tracks repository chain)
    {first current : Snapshot} {later : List Snapshot}
    (hchain : chain.writes = ⟨first, .saved⟩ :: later.map (⟨·, .transferred⟩))
    (hcurrent : repository.snapshots objectID = some current) :
    later.map (·.version.toNat) = List.range' 2 (current.version.toNat - 1) ∧
      (first :: later).getLast? = some current ∧
      (first :: later).Pairwise (fun earlier next =>
        earlier.assignedAt.instant < next.assignedAt.instant) ∧
      ∀ index previous next,
        (first :: later)[index]? = some previous → (first :: later)[index + 1]? = some next →
        repository.transfers (objectID, next.version) =
          some ⟨objectID, previous.participantID, next.participantID, next.assignedAt,
            next.version⟩ := by
  have hlist : first :: later = chain.writes.map (·.snapshot) := by
    rw [hchain, List.map_cons, List.map_map]
    exact congrArg (first :: ·) (List.map_id later).symm
  refine ⟨?_, ?_, ?_, ?_⟩
  · have hversions := chain.versions
    rw [← htracks.version_eq_length hcurrent, hchain, List.map_cons, List.map_map] at hversions
    cases hlength : current.version.toNat with
    | zero =>
        rw [hlength] at hversions
        cases hversions
    | succ count =>
        rw [hlength, List.range'_succ, List.cons.injEq] at hversions
        exact hversions.2
  · rw [hlist, List.getLast?_map, ← htracks.stored]
    exact hcurrent
  · rw [hlist, List.pairwise_map]
    exact chain.times_increase
  · intro index previous next hprevious hnext
    rw [hlist, List.getElem?_map, Option.map_eq_some_iff] at hprevious hnext
    obtain ⟨previousWrite, hprevious, rfl⟩ := hprevious
    obtain ⟨nextWrite, hnext, rfl⟩ := hnext
    have hobject : nextWrite.snapshot.objectID = objectID :=
      chain.object nextWrite (List.mem_of_getElem? hnext)
    have horigin : nextWrite.origin = .transferred := by
      rw [hchain, List.getElem?_cons_succ] at hnext
      obtain ⟨snapshot, -, rfl⟩ := List.mem_map.mp (List.mem_of_getElem? hnext)
      rfl
    rw [htracks.recorded index previousWrite nextWrite hprevious hnext, Write.event, horigin,
      handover, hobject]

/-- A saved write was returned by a first assignment. -/
theorem assigned_of_returned_saved {first : Snapshot}
    (h : (⟨first, .saved⟩ : Write) ∈ returnedWrites finished) :
    ∃ assigned : Snapshot, (.assign assigned, .assigned (.ok ())) ∈ finished ∧
      first = assigned.inUTC := by
  obtain ⟨⟨cmd, outcome⟩, hentry, hreturned⟩ := List.mem_filterMap.mp h
  rcases outcome with (err | ⟨⟩) | (err | snapshot)
  · cases cmd <;> cases hreturned
  · cases cmd with
    | assign snapshot =>
        refine ⟨snapshot, hentry, ?_⟩
        rw [returnedWrite, Option.some.injEq, Write.mk.injEq] at hreturned
        exact hreturned.1.symm
    | transfer | transferExpected => cases hreturned
  · cases cmd <;> cases hreturned
  · cases cmd <;> cases hreturned

/-- **No lost and no duplicated handover.**  After any interleaving of any number
of calls, the successful handovers of an object and its first assignment form
one chain: the versions returned by the handovers are exactly `2, …, V` without
repetition, assignment times increase, every handover replaced the participant
of the version before it, and the stored snapshot is the last of the chain.  Each
handover returned the object, participant and time that its caller asked for. -/
theorem serve_handovers_linear (schedule : List (Action Command Unit))
    (objectID : PhysicalObjectID) :
    let pool := serve schedule
    let successes := handovers objectID pool.finished
    (∀ cmd snapshot, (cmd, Outcome.handedOver (.ok snapshot)) ∈ pool.finished →
      cmd.Delivers snapshot) ∧
    (pool.shared.snapshots objectID = none → successes = []) ∧
    ∀ current, pool.shared.snapshots objectID = some current →
      ∃ assigned : Snapshot, (.assign assigned, .assigned (.ok ())) ∈ pool.finished ∧
        assigned.objectID = objectID ∧ assigned.version.toNat = 1 ∧
        successes.map (·.version.toNat) = List.range' 2 (current.version.toNat - 1) ∧
        (assigned.inUTC :: successes).getLast? = some current ∧
        (assigned.inUTC :: successes).Pairwise (fun earlier later =>
          earlier.assignedAt.instant < later.assignedAt.instant) ∧
        ∀ index previous next,
          (assigned.inUTC :: successes)[index]? = some previous →
          (assigned.inUTC :: successes)[index + 1]? = some next →
          pool.shared.transfers (objectID, next.version) =
            some ⟨objectID, previous.participantID, next.participantID, next.assignedAt,
              next.version⟩ := by
  intro pool successes
  have hpool : Consistent (pool.shared, pool.finished) := serve_consistent schedule
  obtain ⟨chain, hwrites, htracks⟩ := hpool.accounts objectID
  change chain.writes = writesOf objectID (returnedWrites pool.finished) at hwrites
  have hsuccesses : successes = chain.writes.filterMap fun write =>
      match write.origin with
      | .saved => none
      | .transferred => some write.snapshot := by
    rw [hwrites]
    exact handovers_eq_filterMap objectID pool.finished
  refine ⟨hpool.delivers, ?_, ?_⟩
  · intro hnone
    rw [hsuccesses, htracks.writes_eq_nil hnone]
    rfl
  · intro current hcurrent
    have hmem : ∀ write ∈ chain.writes, write ∈ returnedWrites pool.finished := by
      intro write hwrite
      rw [hwrites] at hwrite
      exact List.mem_of_mem_filter hwrite
    have hne : chain.writes ≠ [] := by
      intro hnil
      obtain ⟨last, hlast, -⟩ := htracks.getLast?_of_stored hcurrent
      rw [hnil] at hlast
      cases hlast
    obtain ⟨first, later, hchain⟩ := chain.cons_of_saved_iff_first
      (fun write hwrite => hpool.saved_iff_first write (hmem write hwrite)) hne
    have hlater : successes = later := by
      rw [hsuccesses, hchain, List.filterMap_cons, List.filterMap_map]
      exact List.filterMap_some
    have hfirst : (⟨first, .saved⟩ : Write) ∈ chain.writes := by
      rw [hchain]
      exact List.mem_cons_self
    obtain ⟨assigned, hassigned, rfl⟩ := assigned_of_returned_saved (hmem _ hfirst)
    refine ⟨assigned, hassigned, chain.object _ hfirst,
      (hpool.saved_iff_first _ (hmem _ hfirst)).mp rfl, ?_⟩
    rw [hlater]
    exact htracks.linear_history hchain hcurrent

/-- Two carriers race for the crate; the second commit finds its version gone. -/
def raceSchedule : List (Action Command Unit) :=
  [.invoke (.assign ⟨"crate-7", "warehouse", 1, ⟨1000, .utc⟩⟩), .advance 0 (),
    .invoke (.transfer "crate-7" "carrier-a" ⟨2000, .utc⟩),
    .invoke (.transferExpected ⟨"crate-7", "warehouse", 1, ⟨1000, .utc⟩⟩ "carrier-b"
      ⟨3000, .utc⟩),
    .advance 0 (), .advance 0 (), .advance 0 (), .advance 0 ()]

/-- One of the racing calls wins, and the crate has two versions. -/
theorem raceSchedule_one_winner :
    (serve raceSchedule).shared.snapshots "crate-7" =
        some ⟨"crate-7", "carrier-a", 2, ⟨2000, .utc⟩⟩ ∧
      (handovers "crate-7" (serve raceSchedule).finished).map (·.version.toNat) = [2] := by
  have hstored : (serve raceSchedule).shared.snapshots "crate-7" =
      some ⟨"crate-7", "carrier-a", 2, ⟨2000, .utc⟩⟩ := by decide
  obtain ⟨_, -, -, -, hversions, -⟩ :=
    (serve_handovers_linear raceSchedule "crate-7").2.2 _ hstored
  exact ⟨hstored, hversions⟩

end Responsibility
end CargoPds
