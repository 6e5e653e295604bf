import Mathlib.Data.List.Chain
import CargoPds.Responsibility.Repository

/-!
# Chains of custody

The purpose of the repository is to keep, for every physical object, an
unbroken chain of responsible participants.  `CustodyChain` states this on its
own: a list of assignments numbered from one, each later than the one before it
and to another participant.

`Accepts` says once what an accepted write of the repository does.  `Tracks`
relates a repository to the chain of an object, and `Accounts.append` shows that
every accepted write extends exactly one chain by one assignment.
-/

namespace CargoPds
namespace Responsibility

open Fallible Text

variable {write : Write}

/-- The operation that stored a version. -/
inductive Origin where
  | saved
  | transferred
deriving DecidableEq, Repr

/-- An accepted write: the snapshot it stored and the operation it came from. -/
structure Write where
  snapshot : Snapshot
  origin : Origin
deriving DecidableEq, Repr

/-- The event of the handover from `previous` to `next`. -/
def handover (previous next : Snapshot) : TransferredEvent :=
  ⟨next.objectID, previous.participantID, next.participantID, next.assignedAt, next.version⟩

namespace Write

/-- The event recorded with a write that replaced `previous`. -/
def event (previous : Snapshot) (write : Write) : Option TransferredEvent :=
  match write.origin with
  | .saved => none
  | .transferred => some (handover previous write.snapshot)

/-- Responsibility moves to another participant at a later time. -/
def Follows (previous next : Write) : Prop :=
  previous.snapshot.assignedAt.instant < next.snapshot.assignedAt.instant ∧
    previous.snapshot.participantID ≠ next.snapshot.participantID

end Write

/-- The assignments of one object, from the first to the present one. -/
structure CustodyChain (objectID : PhysicalObjectID) where
  writes : List Write
  object : ∀ write ∈ writes, write.snapshot.objectID = objectID
  versions : writes.map (·.snapshot.version.toNat) = List.range' 1 writes.length
  follows : writes.IsChain Write.Follows

namespace CustodyChain

variable {objectID : PhysicalObjectID}

/-- The chain of an object that has not been assigned. -/
def empty (objectID : PhysicalObjectID) : CustodyChain objectID :=
  ⟨[], by simp, by simp, by simp⟩

/-- The chain with one more assignment. -/
def extend (chain : CustodyChain objectID) (write : Write)
    (hobject : write.snapshot.objectID = objectID)
    (hversion : write.snapshot.version.toNat = chain.writes.length + 1)
    (hfollows : ∀ last ∈ chain.writes.getLast?, last.Follows write) :
    CustodyChain objectID where
  writes := chain.writes ++ [write]
  object := by
    intro w hw
    rcases List.mem_append.mp hw with hold | hnew
    · exact chain.object w hold
    · rw [List.mem_singleton.mp hnew]
      exact hobject
  versions := by
    rw [List.map_append, chain.versions, List.length_append, List.length_singleton,
      List.range'_1_concat, List.map_singleton, hversion, Nat.add_comm 1]
  follows := by
    refine List.isChain_append.mpr ⟨chain.follows, List.isChain_singleton _, ?_⟩
    intro last hlast next hnext
    rw [List.head?_singleton, Option.mem_some] at hnext
    subst hnext
    exact hfollows last hlast

theorem version_of_getElem? (chain : CustodyChain objectID) {index : Nat}
    (h : chain.writes[index]? = some write) :
    write.snapshot.version.toNat = index + 1 := by
  have hmap := congrArg (·[index]?) chain.versions
  obtain ⟨hlt, -⟩ := List.getElem?_eq_some_iff.mp h
  simp only [List.getElem?_map, h, Option.map_some, List.getElem?_range' hlt,
    Option.some.injEq] at hmap
  omega

theorem version_of_getLast? (chain : CustodyChain objectID) {last : Write}
    (h : chain.writes.getLast? = some last) :
    last.snapshot.version.toNat = chain.writes.length := by
  have hlast : chain.writes[chain.writes.length - 1]? = some last := by
    rw [← List.getLast?_eq_getElem?]
    exact h
  have hpos : 0 < chain.writes.length := by
    obtain ⟨hlt, -⟩ := List.getElem?_eq_some_iff.mp hlast
    omega
  rw [chain.version_of_getElem? hlast]
  omega

/-- Every later assignment has a later time, not only the next one. -/
theorem times_increase (chain : CustodyChain objectID) :
    chain.writes.Pairwise fun earlier later =>
      earlier.snapshot.assignedAt.instant < later.snapshot.assignedAt.instant := by
  have htimes : chain.writes.IsChain fun earlier later =>
      earlier.snapshot.assignedAt.instant < later.snapshot.assignedAt.instant :=
    chain.follows.imp fun _ _ h => h.1
  have : IsTrans Write fun earlier later =>
      earlier.snapshot.assignedAt.instant < later.snapshot.assignedAt.instant :=
    ⟨fun _ _ _ => lt_trans⟩
  exact List.isChain_iff_pairwise.mp htimes

end CustodyChain

/-! ## What an accepted write does -/

/-- An accepted write starts a chain or moves one to its next version.  Only a
transfer records an event. -/
inductive Accepts (repository : MemoryRepository) : Write → MemoryRepository → Prop
  | first (snapshot : Snapshot)
      (hnone : repository.snapshots snapshot.objectID = none)
      (hversion : snapshot.version.toNat = 1) :
      Accepts repository ⟨snapshot, .saved⟩
        { repository with
          snapshots := Function.update repository.snapshots snapshot.objectID (some snapshot) }
  | save (snapshot current : Snapshot)
      (hcurrent : repository.snapshots snapshot.objectID = some current)
      (hversion : snapshot.version.toNat = current.version.toNat + 1)
      (htime : current.assignedAt.instant < snapshot.assignedAt.instant)
      (hchange : current.participantID ≠ snapshot.participantID) :
      Accepts repository ⟨snapshot, .saved⟩
        { repository with
          snapshots := Function.update repository.snapshots snapshot.objectID (some snapshot) }
  | transfer (snapshot current : Snapshot)
      (hcurrent : repository.snapshots snapshot.objectID = some current)
      (hversion : snapshot.version.toNat = current.version.toNat + 1)
      (htime : current.assignedAt.instant < snapshot.assignedAt.instant)
      (hchange : current.participantID ≠ snapshot.participantID) :
      Accepts repository ⟨snapshot, .transferred⟩
        ⟨Function.update repository.snapshots snapshot.objectID (some snapshot),
          Function.update repository.transfers (snapshot.objectID, snapshot.version)
            (some (handover current snapshot))⟩

namespace MemoryRepository

variable {repository next : MemoryRepository} {snapshot : Snapshot} {expectedVersion : UInt64}

theorem saveResponsibility_accepts
    (h : repository.saveResponsibility snapshot expectedVersion = .ok next) :
    Accepts repository ⟨snapshot.inUTC, .saved⟩ next := by
  obtain ⟨normalized, hnormalized, h⟩ := bind_eq_ok.mp h
  obtain ⟨-, hsucc, rfl⟩ := normalizedSnapshot_eq_ok.mp hnormalized
  obtain ⟨_, hguard, hnext⟩ := bind_eq_ok.mp h
  rw [pure_eq_ok] at hnext
  subst hnext
  split at hguard
  · rename_i hzero
    rw [rejectIf_eq_ok, Option.not_isSome_iff_eq_none] at hguard
    refine Accepts.first _ hguard ?_
    rw [Succeeds, hzero] at hsucc
    exact hsucc
  · cases hcurrent : repository.snapshots snapshot.inUTC.objectID with
    | none =>
        rw [hcurrent] at hguard
        cases hguard
    | some current =>
        rw [hcurrent, rejectIf_eq_ok, not_or, not_or, not_not, not_not] at hguard
        obtain ⟨hversion, hchange, hafter⟩ := hguard
        refine Accepts.save _ current hcurrent ?_ hafter hchange
        rw [hversion]
        exact hsucc

theorem commitTransfer_accepts {event : TransferredEvent}
    (h : repository.commitTransfer snapshot expectedVersion event = .ok next) :
    Accepts repository ⟨snapshot.inUTC, .transferred⟩ next := by
  obtain ⟨normalized, hnormalized, h⟩ := bind_eq_ok.mp h
  obtain ⟨hcommit, rfl⟩ := validateTransferCommit_eq_ok.mp hnormalized
  cases hcurrent : repository.snapshots snapshot.inUTC.objectID with
  | none =>
      rw [hcurrent] at h
      cases h
  | some current =>
      simp only [hcurrent, bind_eq_ok, rejectIf_eq_ok, pure_eq_ok, exists_const, not_or,
        ne_eq, not_not] at h
      obtain ⟨⟨hversion, hfrom, hafter⟩, -, rfl⟩ := h
      have hevent : { event with transferredAt := snapshot.inUTC.assignedAt } =
          handover current snapshot.inUTC := by
        cases event with
        | mk objectID fromID toID transferredAt version =>
            cases hcommit.object_eq
            cases hcommit.target_eq
            cases hcommit.version_eq
            cases hfrom
            rfl
      rw [hevent]
      refine Accepts.transfer _ current hcurrent ?_ hafter ?_
      · rw [hversion]
        exact hcommit.succeeds
      · change current.participantID ≠ snapshot.participantID
        rw [hfrom, ← hcommit.target_eq]
        exact hcommit.changes

end MemoryRepository

/-! ## Versions of accepted writes -/

theorem Accepts.snapshots_eq {repository next : MemoryRepository}
    (h : Accepts repository write next) :
    next.snapshots write.snapshot.objectID = some write.snapshot := by
  cases h <;> exact Function.update_self _ _ _

namespace MemoryRepository

variable {repository next : MemoryRepository} {snapshot : Snapshot} {expectedVersion : UInt64}

theorem saveResponsibility_version
    (h : repository.saveResponsibility snapshot expectedVersion = .ok next) :
    snapshot.version.toNat = expectedVersion.toNat + 1 := by
  obtain ⟨normalized, hnormalized, -⟩ := bind_eq_ok.mp h
  exact (normalizedSnapshot_eq_ok.mp hnormalized).2.1

theorem commitTransfer_version {event : TransferredEvent}
    (h : repository.commitTransfer snapshot expectedVersion event = .ok next) :
    2 ≤ snapshot.version.toNat := by
  obtain ⟨normalized, hnormalized, -⟩ := bind_eq_ok.mp h
  obtain ⟨hcommit, -⟩ := validateTransferCommit_eq_ok.mp hnormalized
  have hsucc : snapshot.version.toNat = expectedVersion.toNat + 1 := hcommit.succeeds
  have hexpected : expectedVersion.toNat ≠ 0 := fun hzero =>
    hcommit.expected_ne_zero (UInt64.toNat_inj.mp hzero)
  omega

end MemoryRepository

/-! ## The repository keeps the chains -/

/-- The repository stores the end of the chain, and the event of every
assignment that was a transfer. -/
structure Tracks {objectID : PhysicalObjectID} (repository : MemoryRepository)
    (chain : CustodyChain objectID) : Prop where
  stored : repository.snapshots objectID = chain.writes.getLast?.map (·.snapshot)
  recorded : ∀ index previous next,
    chain.writes[index]? = some previous → chain.writes[index + 1]? = some next →
      repository.transfers (objectID, next.snapshot.version) = next.event previous.snapshot
  unrecorded : ∀ version : UInt64, chain.writes.length < version.toNat →
    repository.transfers (objectID, version) = none

namespace Tracks

variable {objectID : PhysicalObjectID} {repository next : MemoryRepository}
variable {chain : CustodyChain objectID}

/-- Writes to other objects do not touch the chain. -/
theorem of_other (htracks : Tracks repository chain) (haccepts : Accepts repository write next)
    (hother : objectID ≠ write.snapshot.objectID) : Tracks next chain := by
  obtain ⟨hstored, hrecorded, hunrecorded⟩ := htracks
  cases haccepts with
  | first snapshot | save snapshot =>
      refine ⟨?_, hrecorded, hunrecorded⟩
      rw [← hstored]
      exact Function.update_of_ne hother _ _
  | transfer snapshot =>
      have hkey : ∀ version : UInt64,
          (objectID, version) ≠ (snapshot.objectID, snapshot.version) := by
        intro version heq
        exact hother (Prod.mk.inj heq).1
      refine ⟨?_, ?_, ?_⟩
      · rw [← hstored]
        exact Function.update_of_ne hother _ _
      · intro index previous later hprevious hlater
        rw [← hrecorded index previous later hprevious hlater]
        exact Function.update_of_ne (hkey _) _ _
      · intro version hversion
        rw [← hunrecorded version hversion]
        exact Function.update_of_ne (hkey _) _ _

/-- The last assignment of the chain is the stored snapshot. -/
theorem getLast?_of_stored (htracks : Tracks repository chain) {current : Snapshot}
    (hcurrent : repository.snapshots objectID = some current) :
    ∃ last, chain.writes.getLast? = some last ∧ last.snapshot = current := by
  rw [htracks.stored] at hcurrent
  exact Option.map_eq_some_iff.mp hcurrent

theorem writes_eq_nil (htracks : Tracks repository chain)
    (hnone : repository.snapshots objectID = none) : chain.writes = [] := by
  rw [htracks.stored, Option.map_eq_none_iff, List.getLast?_eq_none_iff] at hnone
  exact hnone

theorem version_eq_length (htracks : Tracks repository chain) {current : Snapshot}
    (hcurrent : repository.snapshots objectID = some current) :
    current.version.toNat = chain.writes.length := by
  obtain ⟨last, hlast, rfl⟩ := htracks.getLast?_of_stored hcurrent
  exact chain.version_of_getLast? hlast

/-- What the repository must hold after a write that extends the chain: the new
snapshot, the old events, and the event of the write. -/
theorem of_extended (htracks : Tracks repository chain) {extended : CustodyChain objectID}
    (hextended : extended.writes = chain.writes ++ [write])
    (hstored : next.snapshots objectID = some write.snapshot)
    (hold : ∀ version : UInt64, version ≠ write.snapshot.version → next.transfers (objectID,
      version) = repository.transfers (objectID, version))
    (hnew : ∀ last, chain.writes.getLast? = some last → next.transfers (objectID,
      write.snapshot.version) = write.event last.snapshot) :
    Tracks next extended := by
  have hversion : write.snapshot.version.toNat = chain.writes.length + 1 := by
    refine extended.version_of_getElem? ?_
    rw [hextended, List.getElem?_concat_length]
  refine ⟨?_, ?_, ?_⟩
  · rw [hextended, List.getLast?_concat]
    exact hstored
  · intro index previous later hprevious hlater
    rw [hextended] at hprevious hlater
    -- either both assignments are old, or the later one is the new write
    rcases Nat.lt_trichotomy (index + 1) chain.writes.length with hlt | heq | hgt
    · rw [List.getElem?_append_left (by omega)] at hprevious
      rw [List.getElem?_append_left hlt] at hlater
      have hne : later.snapshot.version ≠ write.snapshot.version := by
        intro hsame
        have hindex := chain.version_of_getElem? hlater
        rw [hsame] at hindex
        omega
      rw [hold _ hne]
      exact htracks.recorded index previous later hprevious hlater
    · rw [heq, List.getElem?_concat_length, Option.some.injEq] at hlater
      subst hlater
      rw [List.getElem?_append_left (by omega)] at hprevious
      refine hnew previous ?_
      rw [List.getLast?_eq_getElem?, ← heq]
      exact hprevious
    · rw [List.getElem?_eq_none (by rw [List.length_append, List.length_singleton]; omega)]
        at hlater
      cases hlater
  · intro version hlength
    rw [hextended, List.length_append, List.length_singleton] at hlength
    have hne : version ≠ write.snapshot.version := by
      intro hsame
      rw [hsame] at hlength
      omega
    rw [hold version hne]
    exact htracks.unrecorded version (by omega)

/-- An accepted write to the object extends its chain. -/
theorem extend (htracks : Tracks repository chain) (haccepts : Accepts repository write next)
    (hobject : write.snapshot.objectID = objectID) :
    ∃ extended : CustodyChain objectID,
      extended.writes = chain.writes ++ [write] ∧ Tracks next extended := by
  subst hobject
  cases haccepts with
  | first snapshot hnone hversion =>
      have hnil : chain.writes = [] := htracks.writes_eq_nil hnone
      have hlength : snapshot.version.toNat = chain.writes.length + 1 := by
        rw [hnil, hversion]
        rfl
      refine ⟨chain.extend ⟨snapshot, .saved⟩ rfl hlength ?_, rfl,
        htracks.of_extended rfl ?_ ?_ ?_⟩
      · intro last hlast
        rw [hnil] at hlast
        cases hlast
      · exact Function.update_self _ _ _
      · intro version _
        rfl
      · intro last hlast
        rw [hnil] at hlast
        cases hlast
  | save snapshot current hcurrent hversion htime hchange =>
      obtain ⟨last, hlast, rfl⟩ := htracks.getLast?_of_stored hcurrent
      have hlength : snapshot.version.toNat = chain.writes.length + 1 := by
        rw [hversion, htracks.version_eq_length hcurrent]
      refine ⟨chain.extend ⟨snapshot, .saved⟩ rfl hlength ?_, rfl,
        htracks.of_extended rfl ?_ ?_ ?_⟩
      · intro other hother
        rw [hlast, Option.mem_some] at hother
        subst hother
        exact ⟨htime, hchange⟩
      · exact Function.update_self _ _ _
      · intro version _
        rfl
      · intro _ _
        exact htracks.unrecorded _ (by change _ < snapshot.version.toNat; omega)
  | transfer snapshot current hcurrent hversion htime hchange =>
      obtain ⟨last, hlast, rfl⟩ := htracks.getLast?_of_stored hcurrent
      have hlength : snapshot.version.toNat = chain.writes.length + 1 := by
        rw [hversion, htracks.version_eq_length hcurrent]
      refine ⟨chain.extend ⟨snapshot, .transferred⟩ rfl hlength ?_, rfl,
        htracks.of_extended rfl ?_ ?_ ?_⟩
      · intro other hother
        rw [hlast, Option.mem_some] at hother
        subst hother
        exact ⟨htime, hchange⟩
      · exact Function.update_self _ _ _
      · intro version hne
        refine Function.update_of_ne ?_ _ _
        intro heq
        exact hne (Prod.mk.inj heq).2
      · intro other hother
        rw [hlast, Option.some.injEq] at hother
        subst hother
        exact Function.update_self _ _ _

end Tracks

/-- The accepted writes of one object. -/
def writesOf (objectID : PhysicalObjectID) (journal : List Write) : List Write :=
  journal.filter fun write => write.snapshot.objectID = objectID

/-- The journal of accepted writes splits into the chains that the repository
keeps. -/
def Accounts (repository : MemoryRepository) (journal : List Write) : Prop :=
  ∀ objectID, ∃ chain : CustodyChain objectID,
    chain.writes = writesOf objectID journal ∧ Tracks repository chain

namespace Accounts

theorem new : Accounts MemoryRepository.new [] := by
  intro objectID
  refine ⟨CustodyChain.empty objectID, rfl, ⟨rfl, ?_, fun _ _ => rfl⟩⟩
  intro index previous next hprevious
  cases hprevious

/-- An accepted write adds one entry to the journal. -/
theorem append {repository next : MemoryRepository} {journal : List Write}
    (h : Accounts repository journal) (haccepts : Accepts repository write next) :
    Accounts next (journal ++ [write]) := by
  intro objectID
  obtain ⟨chain, hwrites, htracks⟩ := h objectID
  by_cases hobject : write.snapshot.objectID = objectID
  · obtain ⟨extended, hextended, htracks'⟩ := htracks.extend haccepts hobject
    refine ⟨extended, ?_, htracks'⟩
    rw [hextended, hwrites, writesOf, writesOf, List.filter_append,
      List.filter_singleton, decide_eq_true hobject]
    rfl
  · refine ⟨chain, ?_, htracks.of_other haccepts (Ne.symm hobject)⟩
    rw [hwrites, writesOf, writesOf, List.filter_append, List.filter_singleton,
      decide_eq_false hobject]
    exact (List.append_nil _).symm

end Accounts

end Responsibility
end CargoPds
