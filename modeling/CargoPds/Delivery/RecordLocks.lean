import CargoPds.Delivery.Ownership

/-!
# The lock of a record

An `OutboxRecord` under any sequence of calls of `StartPublishing`, `MarkPublished` and
`RegisterFailure`, by whichever worker.  The owner and the deadline of the lock belong to
the status `PUBLISHING` throughout, and the final statuses are never left.

`MarkPublished` refuses a blank worker ID.  `RegisterFailure` does not: it compares the ID
with the owner only, and both are empty when nobody holds the record.  Such a call is all
that can settle a record that is not being published, so the record keeps to its lock exactly
if none is made on a record that waits (`respectsLock_iff`).
-/

namespace CargoPds
namespace Delivery

open Evaluation Fallible Text Pds

/-- A call of one of the methods. -/
inductive RecordCall where
  | startPublishing (workerID : String) (startedAt : Time) (lockDuration : Int)
  | markPublished (workerID : String) (publishedAt : Time)
  | registerFailure (workerID reason : String) (failedAt : Time) (policy : OutboxRetryPolicy)
deriving DecidableEq, Repr

namespace RecordCall

variable {r : OutboxRecord}

/-- The answer to a call, and the record after it.  A method that only checks before it
writes leaves the record alone when it refuses. -/
def apply (call : RecordCall) (r : OutboxRecord) : Except OutboxError Unit × OutboxRecord :=
  match call with
  | startPublishing workerID startedAt lockDuration =>
      r.startPublishing workerID startedAt lockDuration
  | markPublished workerID publishedAt => settle (r.markPublished workerID publishedAt)
  | registerFailure workerID reason failedAt policy =>
      settle (r.registerFailure workerID reason failedAt policy)
where
  settle : Except OutboxError OutboxRecord → Except OutboxError Unit × OutboxRecord
    | .error err => (.error err, r)
    | .ok after => (.ok (), after)

/-- The call succeeds on the record. -/
def Succeeds (call : RecordCall) (r : OutboxRecord) : Prop := (call.apply r).1 = .ok ()
deriving Decidable

/-- The worker that wants to settle the record. -/
def settler : RecordCall → Option String
  | startPublishing .. => none
  | markPublished workerID _ => some workerID
  | registerFailure workerID .. => some workerID

/-- The record after the calls. -/
def run (r : OutboxRecord) : List RecordCall → OutboxRecord
  | [] => r
  | call :: calls => run (call.apply r).2 calls

/-- The number of `StartPublishing` calls that succeed. -/
def starts (r : OutboxRecord) : List RecordCall → Nat
  | [] => 0
  | call :: calls =>
      (if call.settler = none ∧ call.Succeeds r then 1 else 0) + starts (call.apply r).2 calls

theorem run_append (r : OutboxRecord) (calls more : List RecordCall) :
    run r (calls ++ more) = run (run r calls) more := by
  induction calls generalizing r with
  | nil => rfl
  | cons call calls ih => exact ih _

/-! ## What a call does -/

/-- Nobody holds the record. -/
structure Unlocked (r : OutboxRecord) : Prop where
  unowned : r.lockOwner = ""
  endless : r.lockUntil = none

/-- The effects that a call can have.  `normalizeOutboxRecord` is applied by a refused
`StartPublishing`. -/
inductive Effect (r r' : OutboxRecord) : RecordCall → Prop where
  | refused {call : RecordCall} (failed : ¬ call.Succeeds r)
      (same : r' = r ∨ r' = normalizeOutboxRecord r) : Effect r r' call
  | started {workerID : String} {startedAt : Time} {lockDuration : Int}
      (succeeded : (startPublishing workerID startedAt lockDuration).Succeeds r)
      (unsettled : ¬ r.status.IsTerminal) (named : trimSpace workerID ≠ "")
      (publishing : r'.status = .publishing) (owner : r'.lockOwner = trimSpace workerID)
      (deadline : r'.lockUntil = some (startedAt.toUTC.add lockDuration))
      (attempts : r'.attempts = r.attempts + 1) :
      Effect r r' (.startPublishing workerID startedAt lockDuration)
  | settled {call : RecordCall} {workerID : String} (settler : call.settler = some workerID)
      (owner : r.lockOwner = trimSpace workerID)
      (unsettled : ¬ r.status.IsTerminal ∨ trimSpace workerID ≠ "")
      (free : r'.status ≠ .publishing) (unlocked : Unlocked r')
      (attempts : r'.attempts = r.attempts) : Effect r r' call

theorem startPublishing_effect (workerID : String) (startedAt : Time) (lockDuration : Int)
    (r : OutboxRecord) :
    Effect r ((startPublishing workerID startedAt lockDuration).apply r).2
      (.startPublishing workerID startedAt lockDuration) := by
  cases hstart : r.startPublishing workerID startedAt lockDuration with
  | mk answer after =>
      have happly : (startPublishing workerID startedAt lockDuration).apply r =
        (answer, after) := hstart
      simp only [OutboxRecord.startPublishing] at hstart
      split at hstart
      · next err _ =>
          obtain ⟨rfl, rfl⟩ := Prod.mk.inj hstart
          rw [happly]
          exact .refused (by simp [Succeeds, happly]) (.inr rfl)
      · next hchecks =>
          obtain ⟨rfl, rfl⟩ := Prod.mk.inj hstart
          simp only [bind_eq_ok, rejectIf_eq_ok, exists_const] at hchecks
          obtain ⟨hpublished, hdead, hnamed, -⟩ := hchecks
          rw [happly]
          exact .started (by simp [Succeeds, happly]) (by simp_all [OutboxStatus.IsTerminal,
            normalizeOutboxRecord]) hnamed rfl rfl rfl rfl

theorem markPublished_effect (workerID : String) (publishedAt : Time) (r : OutboxRecord) :
    Effect r ((markPublished workerID publishedAt).apply r).2
      (.markPublished workerID publishedAt) := by
  cases hmark : r.markPublished workerID publishedAt with
  | error err =>
      simp only [apply, hmark, apply.settle]
      exact .refused (by simp [Succeeds, apply, hmark, apply.settle]) (.inl rfl)
  | ok after =>
      simp only [apply, hmark, apply.settle]
      simp only [OutboxRecord.markPublished, bind_eq_ok, rejectIf_eq_ok, exists_const, not_or,
        not_not, pure_eq_ok] at hmark
      obtain ⟨-, ⟨hnamed, howner⟩, -, rfl⟩ := hmark
      exact .settled rfl howner (.inr hnamed) (by simp) ⟨rfl, rfl⟩ rfl

theorem registerFailure_effect (workerID reason : String) (failedAt : Time)
    (policy : OutboxRetryPolicy) (r : OutboxRecord) :
    Effect r ((registerFailure workerID reason failedAt policy).apply r).2
      (.registerFailure workerID reason failedAt policy) := by
  cases hfail : r.registerFailure workerID reason failedAt policy with
  | error err =>
      simp only [apply, hfail, apply.settle]
      exact .refused (by simp [Succeeds, apply, hfail, apply.settle]) (.inl rfl)
  | ok after =>
      simp only [apply, hfail, apply.settle]
      simp only [OutboxRecord.registerFailure, bind_eq_ok, rejectIf_eq_ok, exists_const,
        not_not] at hfail
      obtain ⟨hpublished, hdead, howner, -, -, -, -, hafter⟩ := hfail
      have hopen : ¬ r.status.IsTerminal := fun h => h.elim hpublished hdead
      split at hafter
      · cases hafter
        exact .settled rfl howner (.inl hopen) (by simp) ⟨rfl, rfl⟩ rfl
      · cases hafter
        exact .settled rfl howner (.inl hopen) (by simp) ⟨rfl, rfl⟩ rfl

theorem apply_effect (call : RecordCall) (r : OutboxRecord) : Effect r (call.apply r).2 call := by
  cases call with
  | startPublishing workerID startedAt lockDuration => exact startPublishing_effect ..
  | markPublished workerID publishedAt => exact markPublished_effect ..
  | registerFailure workerID reason failedAt policy => exact registerFailure_effect ..

/-! ## The invariant -/

/-- The owner and the deadline of the lock belong to the status `PUBLISHING`. -/
inductive Consistent (r : OutboxRecord) : Prop where
  | locked (publishing : r.status = .publishing) (named : Canonical r.lockOwner)
      (deadline : r.lockUntil.isSome)
  | free (free : r.status ≠ .publishing) (unlocked : Unlocked r)

theorem Consistent.publishing_iff (h : Consistent r) :
    r.status = .publishing ↔ r.lockOwner ≠ "" ∧ r.lockUntil.isSome := by
  cases h with
  | locked hpublishing hnamed hdeadline =>
      exact ⟨fun _ => ⟨hnamed.1, hdeadline⟩, fun _ => hpublishing⟩
  | free hfree hunlocked =>
      exact ⟨fun h => absurd h hfree, fun h => absurd hunlocked.unowned h.1⟩

theorem Consistent.normalize (h : Consistent r) :
    Consistent (normalizeOutboxRecord r) := by
  cases h with
  | locked hpublishing hnamed hdeadline =>
      refine .locked hpublishing ?_ hdeadline
      change Canonical (trimSpace r.lockOwner)
      rwa [← hnamed.2]
  | free hfree hunlocked =>
      refine .free hfree ⟨?_, hunlocked.endless⟩
      change trimSpace r.lockOwner = ""
      rw [hunlocked.unowned]
      rfl

theorem Consistent.apply (h : Consistent r) (call : RecordCall) :
    Consistent (call.apply r).2 := by
  cases call.apply_effect r with
  | refused hfailed hsame =>
      rcases hsame with hsame | hsame <;> rw [hsame]
      · exact h
      · exact h.normalize
  | started hsucceeded hunsettled hnamed hpublishing howner hdeadline hattempts =>
      exact .locked hpublishing (howner ▸ canonical_trimSpace hnamed) (by rw [hdeadline]; rfl)
  | settled hsettler howner hunsettled hfree hunlocked hattempts => exact .free hfree hunlocked

theorem Consistent.run (h : Consistent r) (calls : List RecordCall) :
    Consistent (run r calls) := by
  induction calls generalizing r with
  | nil => exact h
  | cons call calls ih => exact ih (h.apply call)

/-- A record with a final status is not settled again, for it has no owner. -/
theorem Consistent.status_apply (h : Consistent r) (call : RecordCall)
    (hfinal : r.status.IsTerminal) : (call.apply r).2.status = r.status := by
  cases call.apply_effect r with
  | refused hfailed hsame => rcases hsame with hsame | hsame <;> rw [hsame]; rfl
  | started hsucceeded hunsettled => exact absurd hfinal hunsettled
  | settled hsettler howner hunsettled hfree hunlocked hattempts =>
      rcases hunsettled with hunsettled | hnamed
      · exact absurd hfinal hunsettled
      · have hpublishing : r.status = .publishing := by
          cases h with
          | locked hpublishing => exact hpublishing
          | free hfree hunlocked => exact absurd (howner.symm.trans hunlocked.unowned) hnamed
        rw [hpublishing] at hfinal
        exact absurd hfinal (by decide)

theorem Consistent.status_run (h : Consistent r) (calls : List RecordCall)
    (hfinal : r.status.IsTerminal) : (RecordCall.run r calls).status = r.status := by
  induction calls generalizing r with
  | nil => rfl
  | cons call calls ih =>
      have hstep := h.status_apply call hfinal
      exact (ih (h.apply call) (hstep ▸ hfinal)).trans hstep

theorem attempts_apply (call : RecordCall) (r : OutboxRecord) :
    (call.apply r).2.attempts =
      r.attempts + UInt32.ofNat (if call.settler = none ∧ call.Succeeds r then 1 else 0) := by
  cases call.apply_effect r with
  | refused hfailed hsame =>
      rw [if_neg fun h => hfailed h.2]
      rcases hsame with hsame | hsame <;> rw [hsame] <;> simp [normalizeOutboxRecord]
  | started hsucceeded hunsettled hnamed hpublishing howner hdeadline hattempts =>
      rw [if_pos ⟨rfl, hsucceeded⟩, hattempts]
      rfl
  | settled hsettler howner hunsettled hfree hunlocked hattempts =>
      rw [if_neg fun h => by simp [hsettler] at h, hattempts]
      simp

theorem attempts_run (r : OutboxRecord) (calls : List RecordCall) :
    (run r calls).attempts = r.attempts + UInt32.ofNat (starts r calls) := by
  induction calls generalizing r with
  | nil => simp [run, starts]
  | cons call calls ih =>
      rw [run, starts, ih, attempts_apply, UInt32.ofNat_add, UInt32.add_assoc]

/-! ## Ownership -/

/-- The record keeps to its lock along the calls. -/
structure RespectsLock (r : OutboxRecord) (calls : List RecordCall) : Prop where
  lock : ∀ before, before <+: calls →
    ((run r before).status = .publishing ↔
      (run r before).lockOwner ≠ "" ∧ (run r before).lockUntil.isSome)
  /-- Only its owner settles a record, and only one that is being published. -/
  owner : ∀ before call workerID, before ++ [call] <+: calls →
    call.settler = some workerID → call.Succeeds (run r before) →
    (run r before).status = .publishing ∧ (run r before).lockOwner = trimSpace workerID
  final : ∀ before after, before ++ after <+: calls → (run r before).status.IsTerminal →
    (run r (before ++ after)).status = (run r before).status
  attempts : ∀ before, before <+: calls → starts r before < 2 ^ 32 →
    (run r before).attempts.toNat = starts r before

/-- Who settles a record gives the ID of its owner. -/
theorem owner_of_succeeds {call : RecordCall} {workerID : String}
    (hcall : call.settler = some workerID) (h : call.Succeeds r) :
    r.lockOwner = trimSpace workerID := by
  cases call.apply_effect r with
  | refused hfailed => exact absurd h hfailed
  | started => simp [settler] at hcall
  | settled hsettler howner =>
      rw [hsettler] at hcall
      exact Option.some.inj hcall ▸ howner

theorem named_of_markPublished {workerID : String} {publishedAt : Time}
    (h : (markPublished workerID publishedAt).Succeeds r) : trimSpace workerID ≠ "" := by
  cases hmark : r.markPublished workerID publishedAt with
  | error err => simp [Succeeds, apply, hmark, apply.settle] at h
  | ok after =>
      simp only [OutboxRecord.markPublished, bind_eq_ok, rejectIf_eq_ok, exists_const,
        not_or] at hmark
      exact hmark.2.1.1

theorem registerFailure_succeeds_iff {workerID reason : String} {failedAt : Time}
    {policy : OutboxRetryPolicy} :
    (registerFailure workerID reason failedAt policy).Succeeds r ↔
      ¬ r.status = .published ∧ ¬ r.status = .deadLettered ∧ r.lockOwner = trimSpace workerID ∧
        ¬ failedAt.IsZero ∧ ¬ trimSpace reason = "" ∧ policy.validate = .ok () := by
  have hreply : (registerFailure workerID reason failedAt policy).Succeeds r ↔
      ∃ after, r.registerFailure workerID reason failedAt policy = .ok after := by
    cases hfail : r.registerFailure workerID reason failedAt policy <;>
      simp [Succeeds, apply, apply.settle, hfail]
  rw [hreply]
  simp only [OutboxRecord.registerFailure, bind_eq_ok, rejectIf_eq_ok, exists_const, not_not]
  constructor
  · rintro ⟨_, hpublished, hdead, howner, htime, hreason, _, hpolicy, -⟩
    exact ⟨hpublished, hdead, howner, htime, hreason, hpolicy⟩
  · rintro ⟨hpublished, hdead, howner, htime, hreason, hpolicy⟩
    -- the attempts decide on the next status only
    by_cases hspent : r.maxAttempts ≤ r.attempts
    · exact ⟨_, hpublished, hdead, howner, htime, hreason, (), hpolicy, if_pos hspent⟩
    · exact ⟨_, hpublished, hdead, howner, htime, hreason, (), hpolicy, if_neg hspent⟩

/-- A failure is reported under a blank worker ID, and is in order otherwise, on a record that
waits for an attempt. -/
def Anonymous (r : OutboxRecord) : RecordCall → Prop
  | registerFailure workerID reason failedAt policy =>
      trimSpace workerID = "" ∧ ¬ failedAt.IsZero ∧ ¬ trimSpace reason = "" ∧
        policy.validate = .ok () ∧ (r.status = .pending ∨ r.status = .retryScheduled)
  | _ => False

theorem NewRecord.consistent {lib : Platform} (fresh : NewRecord lib) :
    Consistent fresh.record ∧ fresh.record.attempts = 0 := by
  obtain ⟨event, createdAt, id, hrecord⟩ := fresh.created
  obtain ⟨-, -, -, payload, -, heq⟩ := newOutboxRecord_eq_ok hrecord
  rw [heq]
  exact ⟨.free (by simp) ⟨rfl, rfl⟩, rfl⟩

/-- A record keeps to its lock exactly if no failure is reported anonymously while it waits. -/
theorem respectsLock_iff {lib : Platform} (fresh : NewRecord lib) (calls : List RecordCall) :
    RespectsLock fresh.record calls ↔
      ∀ before call, before ++ [call] <+: calls → ¬ Anonymous (run fresh.record before) call := by
  have hrun : ∀ before, Consistent (run fresh.record before) := fun before =>
    (NewRecord.consistent fresh).1.run before
  constructor
  · intro h before call hleading hcall
    cases call with
    | startPublishing => exact hcall
    | markPublished => exact hcall
    | registerFailure workerID reason failedAt policy =>
        obtain ⟨hblank, htime, hreason, hpolicy, hwaits⟩ := hcall
        have hfree : (run fresh.record before).status ≠ .publishing := by
          rcases hwaits with hwaits | hwaits <;> simp [hwaits]
        cases hrun before with
        | locked hpublishing => exact hfree hpublishing
        | free _ hunlocked =>
            refine hfree (h.owner before _ workerID hleading rfl ?_).1
            refine registerFailure_succeeds_iff.mpr ⟨?_, ?_, hunlocked.unowned.trans hblank.symm,
              htime, hreason, hpolicy⟩
            · rcases hwaits with hwaits | hwaits <;> simp [hwaits]
            · rcases hwaits with hwaits | hwaits <;> simp [hwaits]
  · intro h
    refine ⟨fun before _ => (hrun before).publishing_iff, ?_, ?_, ?_⟩
    · intro before call workerID hleading hcall hsucceeds
      have howner := owner_of_succeeds hcall hsucceeds
      refine ⟨?_, howner⟩
      cases hrun before with
      | locked hpublishing => exact hpublishing
      | free hfree hunlocked =>
          -- nobody holds the record, so the ID is blank
          have hblank : trimSpace workerID = "" := howner.symm.trans hunlocked.unowned
          cases call with
          | startPublishing => simp [settler] at hcall
          | markPublished =>
              cases hcall
              exact absurd hblank (named_of_markPublished hsucceeds)
          | registerFailure =>
              cases hcall
              obtain ⟨hpublished, hdead, -, htime, hreason, hpolicy⟩ :=
                registerFailure_succeeds_iff.mp hsucceeds
              refine absurd ⟨hblank, htime, hreason, hpolicy, ?_⟩ (h before _ hleading)
              cases hstatus : (run fresh.record before).status <;> simp_all
    · intro before after _ hfinal
      rw [run_append]
      exact (hrun before).status_run after hfinal
    · intro before _ hfew
      rw [attempts_run, (NewRecord.consistent fresh).2, UInt32.zero_add,
        UInt32.toNat_ofNat_of_lt' hfew]

/-- A failure that is reported with a blank ID schedules a retry of a record that nobody has
claimed yet. -/
theorem blank_failure_breaks_lock :
    ¬ RespectsLock Shipment.announced.record
      [registerFailure " " "boom" Crate.eight defaultOutboxRetryPolicy] := by
  intro h
  exact absurd (h.owner [] _ " " (List.prefix_refl _) rfl (by decide)).1 (by decide)

/-- A failure and a second attempt of two workers with names. -/
theorem named_workers_respect_lock :
    RespectsLock Shipment.announced.record
      [startPublishing "worker-1" Crate.eight Shipment.lockDuration,
        registerFailure "worker-1" "boom" Crate.eight defaultOutboxRetryPolicy,
        startPublishing "worker-2" (Shipment.after 1) Shipment.lockDuration,
        markPublished "worker-2" (Shipment.after 1)] := by
  refine (respectsLock_iff _ _).mpr fun before call hleading hcall => ?_
  have hmem := hleading.subset (List.mem_append_right before (List.mem_singleton_self _))
  simp only [List.mem_cons, List.not_mem_nil, or_false] at hmem
  rcases hmem with rfl | rfl | rfl | rfl
  · exact hcall
  · exact absurd hcall.1 (by decide)
  · exact hcall
  · exact hcall

end RecordCall
end Delivery
end CargoPds
