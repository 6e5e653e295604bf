import CargoPds.Responsibility.Durable
import CargoPds.Safety.Authorization

/-!
# Repeated handovers on the durable store

One machine hands an object over again and again, and nobody else writes.  The
machine keeps the assignment that `TransferExpected` returned, with the time of
the commit to the nanosecond; the store keeps that time to the microsecond.  The
next `TransferExpected` compares the two for equality.

`rounds_succeed_iff` gives the exact condition under which a run of handovers
succeeds and the machine stays in agreement with the store.
-/

namespace CargoPds
namespace Safety

open Fallible Text Concurrency Responsibility

variable {present : Snapshot}

/-- The arguments of one `Propose`, `Verify` and `Commit`. -/
structure Round where
  target : ParticipantID
  permit : Permit
  verifiedAt : Time
  committedAt : Time

/-- A machine and the store that its service writes to. -/
structure Site where
  machine : Machine
  repository : DurableRepository

/-- The operations of the store. -/
def storeHandle (op : RepositoryOp) (_ : Unit) (repository : DurableRepository) :
    op.Reply × DurableRepository :=
  repository.handle op

namespace Site

/-- `Commit` on the store, with no other writer. -/
def commit (site : Site) (committedAt : Time) : Except Error Snapshot × Site :=
  let outcome := (site.machine.commit true committedAt).execute storeHandle () site.repository
  (outcome.1.1, ⟨outcome.1.2, outcome.2⟩)

/-- `Propose`, `Verify` and `Commit`, up to the first error. -/
def round (site : Site) (round : Round) : Except Error Snapshot × Site :=
  match site.machine.propose round.target with
  | (.error err, machine) => (.error err, { site with machine := machine })
  | (.ok (), machine) =>
      match machine.verify round.permit round.verifiedAt with
      | (.error err, machine) => (.error err, { site with machine := machine })
      | (.ok (), machine) => commit { site with machine := machine } round.committedAt

/-- The machine holds the assignment that `FindResponsibility` returns. -/
def Agrees (site : Site) : Prop :=
  ∃ aggregate,
    site.repository.findResponsibility site.machine.responsibility.objectID = .ok aggregate ∧
      aggregate.snapshot = site.machine.responsibility

/-- All rounds succeed, and after each of them the machine agrees with the store. -/
def RoundsSucceed (site : Site) : List Round → Prop
  | [] => True
  | round :: rounds =>
      (∃ updated, (site.round round).1 = .ok updated) ∧ (site.round round).2.Agrees ∧
        (site.round round).2.RoundsSucceed rounds

end Site

namespace Round

/-- The arguments are valid for handing over the present assignment: another
participant, a permit that authorises the handover when it is verified, and a
commit at least a microsecond after the present assignment. -/
structure ValidFor (round : Round) (present : Snapshot) : Prop where
  target_canonical : Canonical round.target
  target_new : round.target ≠ present.participantID
  authorizes : Authorizes present round.permit round.verifiedAt round.target
  time_nonzero : ¬ round.committedAt.IsZero
  later : present.assignedAt.instant + Time.microsecond ≤ round.committedAt.instant

/-- The assignment that a successful round returns. -/
def handedOver (round : Round) (present : Snapshot) : Snapshot :=
  ⟨present.objectID, round.target, present.version + 1, round.committedAt.toUTC⟩

/-- Rounds with valid arguments, each for the assignment that the one before it
hands over. -/
def Planned : Snapshot → List Round → Prop
  | _, [] => True
  | present, round :: rounds =>
      round.ValidFor present ∧ Planned (round.handedOver present) rounds

theorem ValidFor.canTransfer {round : Round} (h : round.ValidFor present) :
    (Aggregate.ofSnapshot present).CanTransfer round.target round.committedAt := by
  refine ⟨h.target_canonical, h.target_new, h.time_nonzero, ?_⟩
  have hlater := h.later
  change present.assignedAt.instant + 1000 ≤ round.committedAt.instant at hlater
  change present.assignedAt.instant < round.committedAt.instant
  omega

theorem handedOver_version (round : Round) (hfits : present.version.toNat + 1 < 2 ^ 63) :
    (round.handedOver present).version.toNat = present.version.toNat + 1 := by
  change (present.version + 1).toNat = _
  rw [UInt64.toNat_add]
  change (present.version.toNat + 1) % 2 ^ 64 = _
  omega

theorem ValidFor.handedOver_valid {round : Round} (h : round.ValidFor present)
    (hvalid : present.Valid) (hfits : present.version.toNat + 1 < 2 ^ 63) :
    (round.handedOver present).Valid := by
  refine ⟨?_, hvalid.object_canonical, h.target_canonical, h.time_nonzero⟩
  intro hzero
  have hversion := round.handedOver_version hfits
  rw [hzero] at hversion
  cases hversion

end Round

/-! ## One round -/

namespace Machine

variable {machine : Machine} {target : ParticipantID} {permit : Permit} {now : Time}

theorem propose_of_ready (hready : machine.state = .idle ∨ machine.state = .committed)
    (hcanonical : Canonical target) (hnew : target ≠ machine.responsibility.participantID) :
    ∃ next : Machine, machine.propose target = (.ok (), next) ∧ next.state = .proposed ∧
      next.responsibility = machine.responsibility ∧ next.proposed = target := by
  have hstate : ¬ (machine.state ≠ .idle ∧ machine.state ≠ .committed) := by
    rcases hready with hidle | hcommitted
    · exact fun hboth => hboth.1 hidle
    · exact fun hboth => hboth.2 hcommitted
  have htarget : ¬ (newParticipantID target ≠ .ok target ∨
      target = machine.responsibility.participantID) := by
    rw [not_or, not_not]
    refine ⟨?_, hnew⟩
    rw [newParticipantID, ← hcanonical.2]
    exact if_neg hcanonical.1
  rw [propose, if_neg hstate, if_neg htarget]
  exact ⟨_, rfl, rfl, rfl, rfl⟩

theorem verify_of_authorizes (hstate : machine.state = .proposed)
    (hauthorizes : Authorizes machine.responsibility permit now machine.proposed) :
    ∃ next : Machine, machine.verify permit now = (.ok (), next) ∧ next.state = .verified ∧
      next.responsibility = machine.responsibility ∧ next.proposed = machine.proposed := by
  have hpermit := validatePermit_eq_none.mpr hauthorizes
  rw [verify, if_neg (not_not.mpr hstate), if_neg (not_not.mpr hpermit)]
  exact ⟨_, rfl, rfl, rfl, rfl⟩

end Machine

/-- The machine is between two rounds and in agreement with the store. -/
structure Synced (site : Site) (present : Snapshot) : Prop where
  ready : site.machine.state = .idle ∨ site.machine.state = .committed
  responsibility : site.machine.responsibility = present
  valid : present.Valid
  stored : ∃ row, site.repository.snapshots present.objectID = some row ∧
    row.scan present.objectID = present
  unrecorded : site.repository.Unrecorded

namespace Synced

variable {site : Site} {present : Snapshot} {round : Round}

theorem find (h : Synced site present) :
    site.repository.findResponsibility present.objectID =
      .ok (Aggregate.ofSnapshot present) := by
  obtain ⟨row, hrow, hscan⟩ := h.stored
  refine DurableRepository.findResponsibility_eq_ok.mpr ⟨row, hrow, ?_, ?_⟩
  · rw [hscan]
    exact h.valid
  · rw [hscan]

theorem present_utc (h : Synced site present) : present.inUTC = present := by
  obtain ⟨row, -, hscan⟩ := h.stored
  refine Snapshot.inUTC_eq_self ?_
  rw [← hscan]
  exact row.assignedAt.utc

/-- With nobody else writing, the service commits exactly the planned handover. -/
theorem execute_transferExpected (h : Synced site present) (hround : round.ValidFor present) :
    (Service.transferExpected present round.target round.committedAt).run.execute storeHandle ()
        site.repository =
      ((site.repository.transact (site.repository.commitTransfer (round.handedOver present)
          present.version ((Aggregate.ofSnapshot present).transferEvent round.target
            round.committedAt))).1.map fun _ => round.handedOver present,
        (site.repository.transact (site.repository.commitTransfer (round.handedOver present)
          present.version ((Aggregate.ofSnapshot present).transferEvent round.target
            round.committedAt))).2) := by
  have hrehydrate : rehydrate present = .ok (Aggregate.ofSnapshot present.inUTC) :=
    rehydrate_eq_ok.mpr ⟨h.valid, rfl⟩
  have hfind : storeHandle (.findResponsibility present.objectID) () site.repository =
      (.ok (Aggregate.ofSnapshot present), site.repository) :=
    congrArg (·, site.repository) h.find
  have htransfer := Aggregate.transfer_eq_ok.mpr ⟨hround.canTransfer, rfl⟩
  rw [Service.transferExpected_run_of_ok hrehydrate, Program.execute_call, hfind,
    Service.afterFind, h.present_utc, if_pos (Aggregate.snapshot_ofSnapshot present),
    Service.transferLoaded_run_of_ok htransfer]
  rfl

/-- The version of a stored assignment fits its column. -/
theorem version_fits (h : Synced site present) : present.version.toNat < 2 ^ 63 := by
  obtain ⟨row, -, hscan⟩ := h.stored
  rw [← hscan]
  exact row.version.fits

/-- The commit is accepted while versions fit the column, and it stores the
handover with its time truncated. -/
theorem commitTransfer_of_fits (h : Synced site present) (hround : round.ValidFor present)
    (hfits : present.version.toNat + 1 < 2 ^ 63) :
    ∃ next, site.repository.commitTransfer (round.handedOver present) present.version
        ((Aggregate.ofSnapshot present).transferEvent round.target round.committedAt) =
          .ok next ∧
      (∃ row, next.snapshots present.objectID = some row ∧
        row.scan present.objectID = (round.handedOver present).truncated) ∧
      next.Unrecorded := by
  obtain ⟨row, hrow, hscan⟩ := h.stored
  have hversion := round.handedOver_version hfits
  have hcommit : TransferCommit (round.handedOver present) present.version
      ((Aggregate.ofSnapshot present).transferEvent round.target round.committedAt) :=
    { valid := hround.handedOver_valid h.valid hfits
      succeeds := hversion
      expected_ne_zero := h.valid.version_ne_zero
      object_eq := rfl
      changes := hround.target_new.symm
      target_eq := rfl
      version_eq := rfl
      time_eq := rfl
      from_canonical := h.valid.participant_canonical }
  have hbefore : row.assignedAt.time.Before
      (Timestamptz.ofTime (round.handedOver present).inUTC.assignedAt).time := by
    have htime : row.assignedAt.time = present.assignedAt := congrArg Snapshot.assignedAt hscan
    have hwhole : present.assignedAt.truncate = present.assignedAt := by
      rw [← htime]
      exact Time.truncate_eq_self_iff.mpr row.assignedAt.whole
    rw [htime, ← hwhole]
    exact Time.truncate_instant_lt hround.later
  have hfree : site.repository.events (present.objectID, present.version + 1) = none := by
    refine h.unrecorded _ _ ?_
    intro other hother
    have hsame : other = row := Option.some.inj (hother.symm.trans hrow)
    have hstored : row.version.value = present.version := congrArg Snapshot.version hscan
    rw [hsame, hstored]
    change _ < (round.handedOver present).version.toNat
    omega
  have hfits' : (round.handedOver present).version.toNat < 2 ^ 63 := by
    rw [hversion]
    exact hfits
  have hok := DurableRepository.commitTransfer_eq_ok.mpr ⟨hcommit,
    ⟨(round.handedOver present).version, hfits'⟩, rfl,
    DurableRepository.updateHandover_eq_ok.mpr ⟨row, hrow,
      ⟨congrArg Snapshot.version hscan, congrArg Snapshot.participantID hscan, hbefore⟩,
      hfree, rfl⟩⟩
  exact ⟨_, hok, ⟨_, Function.update_self _ _ _, Snapshot.scan_row rfl⟩,
    h.unrecorded.commitTransfer hok⟩

/-- Beyond the range of the column the commit is refused. -/
theorem commitTransfer_of_overflow (site : Site) (round : Round)
    (hover : 2 ^ 63 ≤ present.version.toNat + 1) :
    ∃ err, site.repository.commitTransfer (round.handedOver present) present.version
      ((Aggregate.ofSnapshot present).transferEvent round.target round.committedAt) =
        .error err := by
  cases hcommit : site.repository.commitTransfer (round.handedOver present) present.version
      ((Aggregate.ofSnapshot present).transferEvent round.target round.committedAt) with
  | error err => exact ⟨err, rfl⟩
  | ok next =>
      obtain ⟨hvalid, version, hversion, -⟩ :=
        DurableRepository.commitTransfer_eq_ok.mp hcommit
      have hsucc : (round.handedOver present).version.toNat = present.version.toNat + 1 :=
        hvalid.succeeds
      have hfits := version.fits
      rw [hversion] at hfits
      omega

/-- A round with valid arguments reaches its commit. -/
theorem round_reaches_commit (h : Synced site present) (hround : round.ValidFor present) :
    ∃ machine : Machine, machine.state = .verified ∧ machine.responsibility = present ∧
      machine.proposed = round.target ∧
      site.round round = Site.commit ⟨machine, site.repository⟩ round.committedAt := by
  have hnew : round.target ≠ site.machine.responsibility.participantID := by
    rw [h.responsibility]
    exact hround.target_new
  obtain ⟨proposed, hpropose, hstate, hresponsibility, htarget⟩ :=
    Machine.propose_of_ready h.ready hround.target_canonical hnew
  rw [h.responsibility] at hresponsibility
  have hauthorizes : Authorizes proposed.responsibility round.permit round.verifiedAt
      proposed.proposed := by
    rw [hresponsibility, htarget]
    exact hround.authorizes
  obtain ⟨verified, hverify, hstate', hresponsibility', htarget'⟩ :=
    Machine.verify_of_authorizes hstate hauthorizes
  refine ⟨verified, hstate', hresponsibility'.trans hresponsibility, htarget'.trans htarget, ?_⟩
  simp only [Site.round, hpropose, hverify]

end Synced

/-- `Commit` of a verified machine hands the answer of the service to
`finishCommit`. -/
theorem Site.commit_of_verified (site : Site) (hstate : site.machine.state = .verified)
    (committedAt : Time) {answer : Except Responsibility.Error Snapshot}
    {next : DurableRepository}
    (hanswer : (Service.transferExpected site.machine.responsibility site.machine.proposed
      committedAt).run.execute storeHandle () site.repository = (answer, next)) :
    site.commit committedAt =
      ((site.machine.finishCommit answer).1, ⟨(site.machine.finishCommit answer).2, next⟩) := by
  have hcommit : site.machine.commit true committedAt = (do
      let answer ← (Service.transferExpected site.machine.responsibility site.machine.proposed
        committedAt).run
      return site.machine.finishCommit answer) := by
    rw [Machine.commit, if_neg (not_not.mpr hstate)]
    rfl
  rw [Site.commit, hcommit, Program.execute_bind, hanswer]
  rfl

namespace Synced

variable {site : Site} {present : Snapshot} {round : Round}

/-- What a round leaves behind while versions fit: the machine holds the handover
as it was committed, the store holds its row. -/
theorem round_of_fits (h : Synced site present) (hround : round.ValidFor present)
    (hfits : present.version.toNat + 1 < 2 ^ 63) :
    (site.round round).1 = .ok (round.handedOver present) ∧
      (site.round round).2.machine.state = .committed ∧
      (site.round round).2.machine.responsibility = round.handedOver present ∧
      (∃ row, (site.round round).2.repository.snapshots present.objectID = some row ∧
        row.scan present.objectID = (round.handedOver present).truncated) ∧
      (site.round round).2.repository.Unrecorded := by
  obtain ⟨machine, hstate, hresponsibility, hproposed, hcommit⟩ := h.round_reaches_commit hround
  obtain ⟨next, hnext, hrow, hunrecorded⟩ := h.commitTransfer_of_fits hround hfits
  have hanswer : (Service.transferExpected machine.responsibility machine.proposed
      round.committedAt).run.execute storeHandle () site.repository =
        (.ok (round.handedOver present), next) := by
    rw [hresponsibility, hproposed, h.execute_transferExpected hround, hnext]
    rfl
  rw [hcommit, Site.commit_of_verified ⟨machine, site.repository⟩ hstate round.committedAt
    hanswer]
  exact ⟨rfl, rfl, rfl, hrow, hunrecorded⟩

theorem round_of_overflow (h : Synced site present) (hround : round.ValidFor present)
    (hover : 2 ^ 63 ≤ present.version.toNat + 1) :
    ∃ err, (site.round round).1 = .error err := by
  obtain ⟨machine, hstate, hresponsibility, hproposed, hcommit⟩ := h.round_reaches_commit hround
  obtain ⟨err, herr⟩ := commitTransfer_of_overflow site round hover
  have hanswer : (Service.transferExpected machine.responsibility machine.proposed
      round.committedAt).run.execute storeHandle () site.repository =
        (.error err, site.repository) := by
    rw [hresponsibility, hproposed, h.execute_transferExpected hround, herr]
    rfl
  rw [hcommit, Site.commit_of_verified ⟨machine, site.repository⟩ hstate round.committedAt
    hanswer]
  exact ⟨_, rfl⟩

/-- After a round, machine and store agree exactly when the commit was on a whole
microsecond. -/
theorem round_agrees_iff (h : Synced site present) (hround : round.ValidFor present)
    (hfits : present.version.toNat + 1 < 2 ^ 63) :
    (site.round round).2.Agrees ↔ round.committedAt.WholeMicroseconds := by
  obtain ⟨-, -, hresponsibility, ⟨row, hrow, hscan⟩, -⟩ := h.round_of_fits hround hfits
  have hobject : (site.round round).2.machine.responsibility.objectID = present.objectID := by
    rw [hresponsibility]
    rfl
  rw [Site.Agrees, hobject, hresponsibility]
  constructor
  · rintro ⟨aggregate, hfind, hsame⟩
    obtain ⟨stored, hstored, -, rfl⟩ := DurableRepository.findResponsibility_eq_ok.mp hfind
    rw [hrow, Option.some.injEq] at hstored
    subst hstored
    rw [Aggregate.snapshot_ofSnapshot, hscan] at hsame
    exact Snapshot.truncated_eq_self_iff.mp hsame
  · intro hwhole
    rw [Snapshot.truncated_eq_self_iff.mpr hwhole] at hscan
    refine ⟨_, DurableRepository.findResponsibility_eq_ok.mpr ⟨row, hrow, ?_, rfl⟩, hscan⟩
    rw [hscan]
    exact hround.handedOver_valid h.valid hfits

/-- A round on a whole microsecond leaves the machine in agreement with the store,
ready for the next one. -/
theorem round_synced (h : Synced site present) (hround : round.ValidFor present)
    (hfits : present.version.toNat + 1 < 2 ^ 63)
    (hwhole : round.committedAt.WholeMicroseconds) :
    Synced (site.round round).2 (round.handedOver present) := by
  obtain ⟨-, hstate, hresponsibility, ⟨row, hrow, hscan⟩, hunrecorded⟩ :=
    h.round_of_fits hround hfits
  rw [Snapshot.truncated_eq_self_iff.mpr hwhole] at hscan
  exact {
    ready := Or.inr hstate
    responsibility := hresponsibility
    valid := hround.handedOver_valid h.valid hfits
    stored := ⟨row, hrow, hscan⟩
    unrecorded := hunrecorded }

end Synced

/-! ## Runs of rounds -/

/-- From a machine that agrees with the store, a planned run succeeds exactly when
every commit is on a whole microsecond and the versions fit the column. -/
theorem Synced.roundsSucceed_iff {site : Site} (h : Synced site present) {rounds : List Round}
    (hplanned : Round.Planned present rounds) :
    site.RoundsSucceed rounds ↔
      (∀ round ∈ rounds, round.committedAt.WholeMicroseconds) ∧
        present.version.toNat + rounds.length < 2 ^ 63 := by
  induction rounds generalizing site present with
  | nil =>
      refine iff_of_true trivial ⟨?_, h.version_fits⟩
      intro round hround
      cases hround
  | cons round rounds ih =>
      obtain ⟨hround, hrest⟩ := hplanned
      rw [List.forall_mem_cons, List.length_cons]
      by_cases hfits : present.version.toNat + 1 < 2 ^ 63
      · have hversion := round.handedOver_version hfits
        have hagrees := h.round_agrees_iff hround hfits
        constructor
        · rintro ⟨-, hagree, hsucceed⟩
          have hwhole := hagrees.mp hagree
          obtain ⟨hwholes, hbound⟩ := (ih (h.round_synced hround hfits hwhole) hrest).mp hsucceed
          exact ⟨⟨hwhole, hwholes⟩, by omega⟩
        · rintro ⟨⟨hwhole, hwholes⟩, hbound⟩
          exact ⟨⟨_, (h.round_of_fits hround hfits).1⟩, hagrees.mpr hwhole,
            (ih (h.round_synced hround hfits hwhole) hrest).mpr ⟨hwholes, by omega⟩⟩
      · -- the version of this round does not fit its column
        refine iff_of_false ?_ (fun hright => by omega)
        rintro ⟨⟨updated, hok⟩, -⟩
        obtain ⟨err, herr⟩ := h.round_of_overflow hround (by omega)
        rw [herr] at hok
        cases hok

/-- A machine built from what the store returns starts in agreement with it. -/
theorem Synced.start {ops : List RepositoryOp} {objectID : PhysicalObjectID}
    {aggregate : Aggregate} {machine : Machine}
    (hfind : (DurableRepository.new.run ops).findResponsibility objectID = .ok aggregate)
    (hmachine : newMachine aggregate.snapshot = .ok machine) :
    Synced ⟨machine, DurableRepository.new.run ops⟩ aggregate.snapshot := by
  obtain ⟨row, hrow, hvalid, rfl⟩ := DurableRepository.findResponsibility_eq_ok.mp hfind
  rw [Aggregate.snapshot_ofSnapshot] at hmachine ⊢
  obtain ⟨rehydrated, hrehydrate, hnew⟩ := bind_eq_ok.mp hmachine
  obtain ⟨-, rfl⟩ := rehydrate_eq_ok.mp hrehydrate
  rw [pure_eq_ok] at hnew
  subst hnew
  have hutc : (row.scan objectID).inUTC = row.scan objectID :=
    Snapshot.inUTC_eq_self row.assignedAt.utc
  exact {
    ready := Or.inl rfl
    responsibility := hutc
    valid := hvalid
    stored := ⟨row, hrow, rfl⟩
    unrecorded := DurableRepository.run_unrecorded ops }

/-- **A machine that has committed can commit again.**  After any history of the
store, take a machine built from what `FindResponsibility` returns, with no other
writer, and any run of rounds with valid arguments whose commits are at least a
microsecond apart.  All rounds succeed, with the machine in agreement with the
store after each of them, if and only if every commit is on a whole microsecond
and the versions stay in the range of the column. -/
theorem rounds_succeed_iff (ops : List RepositoryOp) (objectID : PhysicalObjectID)
    (aggregate : Aggregate) (machine : Machine) (rounds : List Round)
    (hfind : (DurableRepository.new.run ops).findResponsibility objectID = .ok aggregate)
    (hmachine : newMachine aggregate.snapshot = .ok machine)
    (hplanned : Round.Planned aggregate.snapshot rounds) :
    Site.RoundsSucceed ⟨machine, DurableRepository.new.run ops⟩ rounds ↔
      (∀ round ∈ rounds, round.committedAt.WholeMicroseconds) ∧
        aggregate.snapshot.version.toNat + rounds.length < 2 ^ 63 :=
  (Synced.start hfind hmachine).roundsSucceed_iff hplanned

/-! ## A crate handed over twice -/

/-- The store in which the crate is with the warehouse. -/
def depotOps : List RepositoryOp :=
  [.saveResponsibility ⟨"crate-7", "warehouse", 1, ⟨1000000, .utc⟩⟩ 0]

/-- The assignment of the crate in the store. -/
def depotAssignment : Snapshot := ⟨"crate-7", "warehouse", 1, ⟨1000000, .utc⟩⟩

/-- The machine of the crate. -/
def depotMachine : Machine :=
  ⟨.idle, .none, depotAssignment, "", Permit.zero, false⟩

/-- A permit for one leg of the journey of the crate. -/
def legPermit (source target : ParticipantID) : Permit :=
  ⟨"crate-7", source, target, "policy", "1", "evidence-1",
    ⟨1000000, .utc⟩, ⟨9000000, .utc⟩, true⟩

/-- The crate goes to the carrier at `first`, and to the consignee at `second`. -/
def journey (first second : Int) : List Round :=
  [⟨"carrier", legPermit "warehouse" "carrier", ⟨1500000, .utc⟩, ⟨first, .utc⟩⟩,
    ⟨"consignee", legPermit "carrier" "consignee", ⟨3500000, .utc⟩, ⟨second, .utc⟩⟩]

theorem legPermit_authorizes {source target : ParticipantID} {moment : Int}
    (hobject : "crate-7" = present.objectID) (hsource : source = present.participantID)
    (hfrom : 1000000 ≤ moment) (huntil : moment ≤ 9000000) :
    Authorizes present (legPermit source target) ⟨moment, .utc⟩ target where
  now_nonzero := by
    change ¬ moment = 0
    omega
  admissible := rfl
  policyID := by
    change trimSpace "policy" ≠ ""
    decide
  policyVersion := by
    change trimSpace "1" ≠ ""
    decide
  evidenceVersion := by
    change trimSpace "evidence-1" ≠ ""
    decide
  evaluated := by
    change ¬ (1000000 : Int) = 0
    decide
  limited := by
    change ¬ (9000000 : Int) = 0
    decide
  object_eq := hobject
  from_eq := hsource
  target_eq := rfl
  covers := ⟨hfrom, huntil⟩

theorem journey_planned {first second : Int} (hfirst : 1001000 ≤ first)
    (hsecond : first + 1000 ≤ second) :
    Round.Planned depotAssignment (journey first second) := by
  have hcarrier : Canonical "carrier" := by decide
  have hconsignee : Canonical "consignee" := by decide
  have hleave : "carrier" ≠ depotAssignment.participantID := by decide
  have harrive : "consignee" ≠ "carrier" := by decide
  refine ⟨⟨hcarrier, hleave, legPermit_authorizes rfl rfl (by decide) (by decide), ?_, ?_⟩,
    ⟨hconsignee, harrive, legPermit_authorizes rfl rfl (by decide) (by decide), ?_, hsecond⟩,
    trivial⟩
  · change ¬ first = 0
    omega
  · change 1000000 + 1000 ≤ first
    omega
  · change ¬ second = 0
    omega

/-- On whole microseconds both handovers succeed. -/
theorem journey_on_microseconds_succeeds :
    Site.RoundsSucceed ⟨depotMachine, DurableRepository.new.run depotOps⟩
      (journey 2000000 4000000) := by
  refine (rounds_succeed_iff depotOps "crate-7" (Aggregate.ofSnapshot depotAssignment)
    depotMachine (journey 2000000 4000000) (by decide) (by decide)
    (journey_planned (by decide) (by decide))).mpr ⟨?_, by decide⟩
  intro round hround
  rcases List.mem_cons.mp hround with rfl | hround
  · decide
  · rw [List.mem_singleton.mp hround]
    decide

/-- Half a microsecond off, the first handover succeeds and the second one is
reported as a concurrent modification, though nobody else wrote. -/
theorem journey_off_microseconds_fails :
    Round.Planned depotAssignment (journey 2000500 4000000) ∧
      ∃ first second : Round, journey 2000500 4000000 = [first, second] ∧
        ((⟨depotMachine, DurableRepository.new.run depotOps⟩ : Site).round first).1 =
          .ok ⟨"crate-7", "carrier", 2, ⟨2000500, .utc⟩⟩ ∧
        (((⟨depotMachine, DurableRepository.new.run depotOps⟩ : Site).round first).2.round
          second).1 = .error (.responsibility .concurrentModification) :=
  ⟨journey_planned (by decide) (by decide), _, _, rfl, by decide, by decide⟩

end Safety
end CargoPds
