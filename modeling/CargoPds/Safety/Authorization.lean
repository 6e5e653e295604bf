import CargoPds.Safety.Machine

/-!
# Authorization over whole runs

A run of the machine is any sequence of its operations with any arguments; a
commit may meet any repository, which is given by its answers.  The run also
notes the permit that the latest successful `Verify` accepted and the last
committed assignment, neither of which the machine can be asked for directly.

`Guarded` is the invariant of such runs.  It ties the stored permit to the
accepted one, so that what `AuthorizeMotion` allows, and what `Commit` carries
out, can be compared with what was verified.
-/

namespace CargoPds
namespace Safety

open Fallible Text Concurrency Responsibility

variable {run : Run} {permit : Permit}

/-! ## Permits -/

/-- What `validatePermit` asks of a permit for the handover of the present
assignment to `target`. -/
structure Authorizes (present : Snapshot) (permit : Permit) (now : Time)
    (target : ParticipantID) : Prop where
  now_nonzero : ¬ now.IsZero
  admissible : permit.admissible = true
  policyID : trimSpace permit.policyID ≠ ""
  policyVersion : trimSpace permit.policyVersion ≠ ""
  evidenceVersion : trimSpace permit.evidenceVersion ≠ ""
  evaluated : ¬ permit.evaluatedAt.IsZero
  limited : ¬ permit.validUntil.IsZero
  object_eq : permit.objectID = present.objectID
  from_eq : permit.fromParticipantID = present.participantID
  target_eq : permit.toParticipantID = target
  covers : permit.Covers now

/-- The third comparison of the window follows from the other two. -/
theorem window_iff_covers {now : Time} :
    ¬ (permit.evaluatedAt.After now.toUTC ∨ now.toUTC.After permit.validUntil ∨
      permit.validUntil.Before permit.evaluatedAt) ↔ permit.Covers now := by
  simp only [Time.After, Time.Before, Time.toUTC_instant, Permit.Covers]
  omega

namespace Machine

variable {machine : Machine} {permit : Permit} {now : Time} {target : ParticipantID}

theorem validatePermit_eq_none :
    machine.validatePermit permit now target = .none ↔
      Authorizes machine.responsibility permit now target := by
  unfold validatePermit
  split
  · rename_i hinvalid
    refine iff_of_false (by intro h; cases h) ?_
    intro h
    rcases hinvalid with hi | hi | hi | hi | hi | hi | hi
    · exact h.now_nonzero hi
    · rw [h.admissible] at hi
      cases hi
    · exact h.policyID hi
    · exact h.policyVersion hi
    · exact h.evidenceVersion hi
    · exact h.evaluated hi
    · exact h.limited hi
  · rename_i hvalid
    simp only [not_or, Bool.not_eq_false] at hvalid
    obtain ⟨hnow, hadmissible, hpolicy, hversion, hevidence, hevaluated, hlimited⟩ := hvalid
    split
    · rename_i hbinding
      refine iff_of_false (by intro h; cases h) ?_
      intro h
      rcases hbinding with hb | hb | hb
      · exact hb h.object_eq
      · exact hb h.from_eq
      · exact hb h.target_eq
    · rename_i hbinding
      simp only [not_or, not_not] at hbinding
      obtain ⟨hobject, hfrom, htarget⟩ := hbinding
      split
      · rename_i hwindow
        refine iff_of_false (by intro h; cases h) ?_
        intro h
        exact window_iff_covers.mpr h.covers hwindow
      · rename_i hwindow
        exact iff_of_true rfl ⟨hnow, hadmissible, hpolicy, hversion, hevidence, hevaluated,
          hlimited, hobject, hfrom, htarget, window_iff_covers.mp hwindow⟩

end Machine

/-- Times in UTC do not change what a permit authorises. -/
theorem Authorizes.inUTC_iff {present : Snapshot} {now : Time} {target : ParticipantID} :
    Authorizes present permit.inUTC now target ↔ Authorizes present permit now target :=
  ⟨fun h => ⟨h.1, h.2, h.3, h.4, h.5, h.6, h.7, h.8, h.9, h.10, h.11⟩,
    fun h => ⟨h.1, h.2, h.3, h.4, h.5, h.6, h.7, h.8, h.9, h.10, h.11⟩⟩

/-- A permit that authorised once authorises at any other moment it covers. -/
theorem Authorizes.at_moment {present : Snapshot} {now moment : Time} {target : ParticipantID}
    (h : Authorizes present permit now target) (hmoment : ¬ moment.IsZero)
    (hcovers : permit.Covers moment) :
    Authorizes present permit moment target :=
  { h with now_nonzero := hmoment, covers := hcovers }

/-! ## Runs -/

/-- A repository, as far as one commit can see it. -/
abbrev Responder := (op : RepositoryOp) → op.Reply

/-- The answers of a service that is not there; no commit asks for them. -/
def absentResponder : Responder
  | .saveResponsibility _ _ => .error .repositoryRequired
  | .findResponsibility _ => .error .repositoryRequired
  | .commitTransfer _ _ _ => .error .repositoryRequired
  | .findTransfer _ _ => .error .repositoryRequired

/-- `Commit` against a service, which may be `nil`. -/
def Machine.commitWith (machine : Machine) (service : Option Responder) (committedAt : Time) :
    Except Error Snapshot × Machine :=
  (machine.commit service.isSome committedAt).answer (service.getD absentResponder)

/-- The operations of the machine. -/
inductive MachineOp where
  | propose (target : ParticipantID)
  | verify (permit : Permit) (now : Time)
  | commit (service : Option Responder) (committedAt : Time)
  | halt (reason : Reason)
  | recover (permit : Permit) (now : Time)
  | authorizeMotion (request : MotionRequest) (now : Time)

/-- The machine after one operation. -/
def Machine.step (machine : Machine) : MachineOp → Machine
  | .propose target => (machine.propose target).2
  | .verify permit now => (machine.verify permit now).2
  | .commit service committedAt => (machine.commitWith service committedAt).2
  | .halt reason => machine.halt reason
  | .recover permit now => (machine.recover permit now).2
  | .authorizeMotion request now => (machine.authorizeMotion request now).2

/-- A machine together with the permit accepted by the latest successful `Verify`
and the assignment returned by the latest successful `Commit`. -/
structure Run where
  machine : Machine
  accepted : Option Permit
  committed : Snapshot

namespace Run

/-- The run that has just begun; the initial assignment counts as committed. -/
def start (machine : Machine) : Run := ⟨machine, none, machine.responsibility⟩

def step (run : Run) (op : MachineOp) : Run where
  machine := run.machine.step op
  accepted :=
    match op with
    | .verify permit now =>
        if (run.machine.verify permit now).1 = .ok () then some permit else run.accepted
    | _ => run.accepted
  committed :=
    match op with
    | .commit service committedAt =>
        match (run.machine.commitWith service committedAt).1 with
        | .ok updated => updated
        | .error _ => run.committed
    | _ => run.committed

/-- A run of any operations. -/
def steps (run : Run) (ops : List MachineOp) : Run :=
  ops.foldl step run

end Run

/-! ## What a commit can do -/

namespace Machine

variable {machine : Machine} {service : Option Responder} {committedAt : Time}

theorem commitWith_of_not_verified (h : machine.state ≠ .verified) :
    machine.commitWith service committedAt = (.error .invalidTransition, machine) := by
  rw [commitWith, commit, if_pos h]
  rfl

theorem commitWith_of_absent (h : machine.state = .verified) :
    machine.commitWith none committedAt =
      (.error .serviceRequired, machine.enterHalt .commitFailed) := by
  rw [commitWith, commit, if_neg (not_not.mpr h)]
  rfl

theorem commitWith_of_present (h : machine.state = .verified) (respond : Responder) :
    machine.commitWith (some respond) committedAt =
      machine.finishCommit ((Service.transferExpected machine.responsibility machine.proposed
        committedAt).run.answer respond) := by
  have hpresent : ¬ (some respond).isSome = false := by simp
  rw [commitWith, commit, if_neg (not_not.mpr h), if_neg hpresent, Program.answer_bind]
  rfl

/-- A commit leaves the machine alone, halts it, or moves the responsibility to
the proposed participant at the given time. -/
theorem commitWith_cases (machine : Machine) (service : Option Responder) (committedAt : Time) :
    (machine.state ≠ .verified ∧
      machine.commitWith service committedAt = (.error .invalidTransition, machine)) ∨
    (machine.state = .verified ∧ ∃ err reason,
      machine.commitWith service committedAt = (.error err, machine.enterHalt reason)) ∨
    (machine.state = .verified ∧ ¬ committedAt.IsZero ∧ ∃ updated,
      machine.commitWith service committedAt = machine.finishCommit (.ok updated)) := by
  by_cases hstate : machine.state = .verified
  · right
    cases service with
    | none => exact Or.inl ⟨hstate, _, _, commitWith_of_absent hstate⟩
    | some respond =>
        rw [commitWith_of_present hstate respond]
        cases hanswer : (Service.transferExpected machine.responsibility machine.proposed
            committedAt).run.answer respond with
        | error err => exact Or.inl ⟨hstate, _, _, rfl⟩
        | ok updated =>
            obtain ⟨hcan, -⟩ := Service.transferExpected_answer_ok hanswer
            exact Or.inr ⟨hstate, hcan.time_nonzero, updated, rfl⟩
  · exact Or.inl ⟨hstate, commitWith_of_not_verified hstate⟩

/-- Only a successful commit changes the responsibility. -/
theorem step_responsibility (machine : Machine) (op : MachineOp) :
    (machine.step op).responsibility =
      match op with
      | .commit service committedAt =>
          match (machine.commitWith service committedAt).1 with
          | .ok updated => updated
          | .error _ => machine.responsibility
      | _ => machine.responsibility := by
  cases op with
  | propose target =>
      simp only [step, propose]
      split
      · rfl
      · split <;> rfl
  | verify permit now =>
      simp only [step, verify]
      split
      · rfl
      · split <;> rfl
  | commit service committedAt =>
      simp only [step]
      rcases machine.commitWith_cases service committedAt with
        ⟨-, h⟩ | ⟨-, err, reason, h⟩ | ⟨-, -, updated, h⟩ <;> rw [h] <;> rfl
  | halt reason => rfl
  | recover permit now =>
      simp only [step, recover]
      split
      · rfl
      · split <;> rfl
  | authorizeMotion request now =>
      simp only [step, authorizeMotion]
      split
      · rfl
      · split
        · rfl
        · split <;> rfl

end Machine

/-! ## The invariant -/

/-- The invariant of runs. -/
structure Guarded (run : Run) : Prop where
  permit_iff : run.machine.hasVerifiedPermit = true ↔ run.machine.state = .verified
  erased : run.machine.hasVerifiedPermit = false → run.machine.verifiedPermit = Permit.zero
  authorized : run.machine.state = .verified → ∃ permit now,
    run.accepted = some permit ∧ run.machine.verifiedPermit = permit.inUTC ∧
      Authorizes run.machine.responsibility permit now run.machine.proposed
  target_new : run.machine.state = .proposed ∨ run.machine.state = .verified →
    run.machine.proposed ≠ run.machine.responsibility.participantID
  retained : run.machine.responsibility = run.committed

namespace Guarded

/-- A machine without a permit, outside `PROPOSED` and `VERIFIED`, has nothing to
guard but its responsibility. -/
theorem of_cleared (hpermit : run.machine.hasVerifiedPermit = false)
    (hzero : run.machine.verifiedPermit = Permit.zero) (hproposed : run.machine.state ≠ .proposed)
    (hverified : run.machine.state ≠ .verified)
    (hretained : run.machine.responsibility = run.committed) : Guarded run where
  permit_iff := iff_of_false (by rw [hpermit]; exact Bool.false_ne_true) hverified
  erased := fun _ => hzero
  authorized := fun h => absurd h hverified
  target_new := fun h => h.elim (absurd · hproposed) (absurd · hverified)
  retained := hretained

theorem start {current : Snapshot} {machine : Machine}
    (h : newMachine current = .ok machine) : Guarded (Run.start machine) := by
  obtain ⟨aggregate, -, hmachine⟩ := bind_eq_ok.mp h
  rw [pure_eq_ok] at hmachine
  subst hmachine
  exact of_cleared rfl rfl State.noConfusion State.noConfusion rfl

/-- Outside `VERIFIED` no permit is stored. -/
theorem cleared (h : Guarded run) (hstate : run.machine.state ≠ .verified) :
    run.machine.hasVerifiedPermit = false ∧ run.machine.verifiedPermit = Permit.zero := by
  have hpermit : run.machine.hasVerifiedPermit = false := by
    rw [← Bool.not_eq_true, h.permit_iff]
    exact hstate
  exact ⟨hpermit, h.erased hpermit⟩

theorem step_retained (h : Guarded run) (op : MachineOp) :
    (run.step op).machine.responsibility = (run.step op).committed := by
  change (run.machine.step op).responsibility = _
  rw [Machine.step_responsibility]
  cases op with
  | commit service committedAt =>
      simp only [Run.step]
      split
      · rfl
      · exact h.retained
  | propose | verify | halt | recover | authorizeMotion => exact h.retained

/-- Every way into `HALT` erases the permit. -/
theorem of_halted {next : Run} (h : Guarded run) (reason : Reason)
    (hmachine : next.machine = run.machine.enterHalt reason)
    (hcommitted : next.committed = run.committed) : Guarded next := by
  refine of_cleared ?_ ?_ ?_ ?_ ?_
  · rw [hmachine]
    rfl
  · rw [hmachine]
    rfl
  · rw [hmachine]
    exact State.noConfusion
  · rw [hmachine]
    exact State.noConfusion
  · rw [hmachine, hcommitted]
    exact h.retained

theorem step_propose (h : Guarded run) (target : ParticipantID) :
    Guarded (run.step (.propose target)) := by
  have hretained := h.step_retained (.propose target)
  simp only [Run.step, Machine.step, Machine.propose] at hretained ⊢
  split
  · exact h
  · rename_i hstate
    simp only [ne_eq, not_and, not_not] at hstate
    have hverified : run.machine.state ≠ .verified := by
      intro hverified
      have hcommitted := hstate (by rw [hverified]; exact State.noConfusion)
      rw [hverified] at hcommitted
      cases hcommitted
    split
    · -- the refused proposal keeps the fields of a machine that holds no permit
      obtain ⟨hpermit, hzero⟩ := h.cleared hverified
      exact of_cleared hpermit hzero State.noConfusion State.noConfusion h.retained
    · rename_i htarget
      rw [not_or] at htarget
      exact {
        permit_iff := iff_of_false Bool.false_ne_true State.noConfusion
        erased := fun _ => rfl
        authorized := State.noConfusion
        target_new := fun _ => htarget.2
        retained := h.retained }

theorem step_verify (h : Guarded run) (permit : Permit) (now : Time) :
    Guarded (run.step (.verify permit now)) := by
  by_cases hstate : run.machine.state = .proposed
  · by_cases hreason : run.machine.validatePermit permit now run.machine.proposed = .none
    · have hverify : run.machine.verify permit now =
          (.ok (), { run.machine with
            verifiedPermit := permit.inUTC, hasVerifiedPermit := true,
            state := .verified, reason := .none }) := by
        rw [Machine.verify, if_neg (not_not.mpr hstate), if_neg (not_not.mpr hreason)]
      have hauthorizes := Machine.validatePermit_eq_none.mp hreason
      simp only [Run.step, Machine.step, hverify, if_true]
      exact {
        permit_iff := iff_of_true rfl rfl
        erased := fun hfalse => absurd hfalse.symm Bool.false_ne_true
        authorized := fun _ => ⟨permit, now, rfl, rfl, hauthorizes⟩
        target_new := fun _ => h.target_new (Or.inl hstate)
        retained := h.retained }
    · refine h.of_halted (run.machine.validatePermit permit now run.machine.proposed) ?_ rfl
      simp only [Run.step, Machine.step, Machine.verify, if_neg (not_not.mpr hstate),
        if_pos hreason]
  · have hverify : run.machine.verify permit now = (.error .invalidTransition, run.machine) := by
      rw [Machine.verify, if_pos hstate]
    have hsame : run.step (.verify permit now) = run := by
      simp only [Run.step, Machine.step, hverify, reduceCtorEq, if_false]
    rw [hsame]
    exact h

theorem step_commit (h : Guarded run) (service : Option Responder) (committedAt : Time) :
    Guarded (run.step (.commit service committedAt)) := by
  have hretained := h.step_retained (.commit service committedAt)
  rcases run.machine.commitWith_cases service committedAt with
    ⟨-, hcommit⟩ | ⟨-, err, reason, hcommit⟩ | ⟨-, -, updated, hcommit⟩
  · have hsame : run.step (.commit service committedAt) = run := by
      simp only [Run.step, Machine.step, hcommit]
    rw [hsame]
    exact h
  · refine h.of_halted reason ?_ ?_
    · simp only [Run.step, Machine.step, hcommit]
    · simp only [Run.step, hcommit]
  · simp only [Run.step, Machine.step, hcommit] at hretained ⊢
    exact of_cleared rfl rfl State.noConfusion State.noConfusion hretained

theorem step_recover (h : Guarded run) (permit : Permit) (now : Time) :
    Guarded (run.step (.recover permit now)) := by
  simp only [Run.step, Machine.step, Machine.recover]
  split
  · exact h
  · rename_i hstate
    rw [ne_eq, not_not] at hstate
    have hhalted : run.machine.state ≠ .proposed ∧ run.machine.state ≠ .verified := by
      rw [hstate]
      exact ⟨State.noConfusion, State.noConfusion⟩
    split
    · obtain ⟨hpermit, hzero⟩ := h.cleared hhalted.2
      exact of_cleared hpermit hzero hhalted.1 hhalted.2 h.retained
    · exact of_cleared rfl rfl State.noConfusion State.noConfusion h.retained

theorem step_authorizeMotion (h : Guarded run) (request : MotionRequest) (now : Time) :
    Guarded (run.step (.authorizeMotion request now)) := by
  simp only [Run.step, Machine.step, Machine.authorizeMotion]
  split
  · exact h
  · split
    · exact h.of_halted _ rfl rfl
    · split
      · exact h.of_halted _ rfl rfl
      · exact h

/-- Every operation keeps the invariant. -/
theorem step {run : Run} (h : Guarded run) (op : MachineOp) : Guarded (run.step op) := by
  cases op with
  | propose target => exact h.step_propose target
  | verify permit now => exact h.step_verify permit now
  | commit service committedAt => exact h.step_commit service committedAt
  | halt reason => exact h.of_halted _ rfl rfl
  | recover permit now => exact h.step_recover permit now
  | authorizeMotion request now => exact h.step_authorizeMotion request now

/-- Every run keeps the invariant. -/
theorem steps (h : Guarded run) (ops : List MachineOp) :
    Guarded (run.steps ops) := by
  induction ops generalizing run with
  | nil => exact h
  | cons op ops ih => exact ih (h.step op)

/-- The permit stored in a verified machine is the accepted one, and it was
admissible for exactly the proposed handover. -/
theorem verified_bindings (h : Guarded run) (hstate : run.machine.state = .verified) :
    run.machine.verifiedPermit.admissible = true ∧
      run.machine.verifiedPermit.objectID = run.machine.responsibility.objectID ∧
      run.machine.verifiedPermit.fromParticipantID =
        run.machine.responsibility.participantID ∧
      run.machine.verifiedPermit.toParticipantID = run.machine.proposed ∧
      run.machine.proposed ≠ run.machine.responsibility.participantID := by
  obtain ⟨permit, now, -, hstored, hauthorizes⟩ := h.authorized hstate
  rw [hstored]
  exact ⟨hauthorizes.admissible, hauthorizes.object_eq, hauthorizes.from_eq,
    hauthorizes.target_eq, h.target_new (Or.inr hstate)⟩

/-- In a verified machine, the stored permit authorises a moment exactly when the
accepted permit covers it. -/
theorem authorizes_iff_covers (h : Guarded run) (hstate : run.machine.state = .verified)
    {moment : Time} (hmoment : ¬ moment.IsZero) :
    Authorizes run.machine.responsibility run.machine.verifiedPermit moment
        run.machine.proposed ↔
      ∃ permit, run.accepted = some permit ∧ permit.Covers moment := by
  obtain ⟨permit, now, haccepted, hstored, hauthorizes⟩ := h.authorized hstate
  rw [hstored, Authorizes.inUTC_iff, haccepted]
  constructor
  · intro hmoment'
    exact ⟨permit, rfl, hmoment'.covers⟩
  · rintro ⟨_, heq, hcovers⟩
    cases heq
    exact hauthorizes.at_moment hmoment hcovers

end Guarded

/-! ## Motion -/

namespace Machine

variable {machine : Machine} {request : MotionRequest} {now : Time}

/-- Motion is allowed only from a verified permit that still authorises, for a
request that names the bindings of the machine. -/
theorem authorizeMotion_allowed (h : (machine.authorizeMotion request now).1.allowed = true) :
    machine.state = .verified ∧ request.objectID = machine.responsibility.objectID ∧
      request.responsibleParticipant = machine.responsibility.participantID ∧
      request.targetParticipant = machine.proposed ∧
      Authorizes machine.responsibility machine.verifiedPermit now machine.proposed := by
  simp only [authorizeMotion] at h
  split at h
  · cases h
  · rename_i hstate
    split at h
    · cases h
    · rename_i hrequest
      split at h
      · cases h
      · rename_i hreason
        simp only [not_or, ne_eq, not_not] at hstate hrequest hreason
        exact ⟨hstate.1, hrequest.2.2.2.1, hrequest.2.2.2.2.1, hrequest.2.2.2.2.2,
          validatePermit_eq_none.mp hreason⟩

/-- A refusal in a verified machine that holds a permit halts it. -/
theorem authorizeMotion_refused (hstate : machine.state = .verified)
    (hpermit : machine.hasVerifiedPermit = true)
    (h : (machine.authorizeMotion request now).1.allowed = false) :
    ∃ reason, (machine.authorizeMotion request now).2 = machine.enterHalt reason := by
  simp only [authorizeMotion] at h ⊢
  split at h
  · rename_i hblocked
    rcases hblocked with hblocked | hblocked
    · exact absurd hstate hblocked
    · rw [hpermit] at hblocked
      cases hblocked
  · rename_i hpass
    rw [if_neg hpass]
    split at h
    · rename_i hrequest
      rw [if_pos hrequest]
      exact ⟨_, rfl⟩
    · rename_i hrequest
      rw [if_neg hrequest]
      split at h
      · rename_i hreason
        rw [if_pos hreason]
        exact ⟨_, rfl⟩
      · cases h

end Machine

/-- **The machine over whole runs.**  In every state of every run: a permit is
stored exactly in `VERIFIED`, and there it is admissible and bound to the object,
the responsible participant and the proposed one; the responsibility is the last
committed assignment and only a successful commit changes it; motion is allowed
only in `VERIFIED`, for the machine's own bindings and inside the window of the
permit accepted last; and a refusal in `VERIFIED` halts the machine and erases
the permit. -/
theorem machine_guarded_over_runs (current : Snapshot) (machine : Machine)
    (hnew : newMachine current = .ok machine) (ops : List MachineOp) :
    let run := (Run.start machine).steps ops
    ((run.machine.hasVerifiedPermit = true ↔ run.machine.state = .verified) ∧
      (run.machine.state = .verified →
        run.machine.verifiedPermit.admissible = true ∧
        run.machine.verifiedPermit.objectID = run.machine.responsibility.objectID ∧
        run.machine.verifiedPermit.fromParticipantID =
          run.machine.responsibility.participantID ∧
        run.machine.verifiedPermit.toParticipantID = run.machine.proposed ∧
        run.machine.proposed ≠ run.machine.responsibility.participantID)) ∧
    (run.machine.responsibility = run.committed ∧
      ∀ op, (run.machine.step op).responsibility ≠ run.machine.responsibility →
        ∃ service committedAt updated, op = .commit service committedAt ∧
          (run.machine.commitWith service committedAt).1 = .ok updated ∧
          (run.machine.step op).responsibility = updated) ∧
    (∀ request now, (run.machine.authorizeMotion request now).1.allowed = true →
      run.machine.state = .verified ∧
      request.objectID = run.machine.responsibility.objectID ∧
      request.responsibleParticipant = run.machine.responsibility.participantID ∧
      request.targetParticipant = run.machine.proposed ∧
      ∃ permit, run.accepted = some permit ∧ permit.Covers now) ∧
    (∀ request now, run.machine.state = .verified →
      (run.machine.authorizeMotion request now).1.allowed = false →
      (run.machine.authorizeMotion request now).2.state = .halt ∧
      (run.machine.authorizeMotion request now).2.hasVerifiedPermit = false ∧
      (run.machine.authorizeMotion request now).2.verifiedPermit = Permit.zero) := by
  intro run
  have hguarded : Guarded run := (Guarded.start hnew).steps ops
  refine ⟨⟨hguarded.permit_iff, hguarded.verified_bindings⟩, ⟨hguarded.retained, ?_⟩, ?_, ?_⟩
  · intro op hchange
    rw [Machine.step_responsibility] at hchange
    cases op with
    | commit service committedAt =>
        cases hcommit : (run.machine.commitWith service committedAt).1 with
        | ok updated =>
            refine ⟨service, committedAt, updated, rfl, hcommit, ?_⟩
            rw [Machine.step_responsibility]
            simp only [hcommit]
        | error err =>
            simp only [hcommit] at hchange
            exact absurd rfl hchange
    | propose | verify | halt | recover | authorizeMotion => exact absurd rfl hchange
  · intro request now hallowed
    obtain ⟨hstate, hobject, hresponsible, htarget, hauthorizes⟩ :=
      Machine.authorizeMotion_allowed hallowed
    exact ⟨hstate, hobject, hresponsible, htarget,
      (hguarded.authorizes_iff_covers hstate hauthorizes.now_nonzero).mp hauthorizes⟩
  · intro request now hstate hrefused
    obtain ⟨reason, hhalt⟩ := Machine.authorizeMotion_refused hstate
      (hguarded.permit_iff.mpr hstate) hrefused
    rw [hhalt]
    exact ⟨rfl, rfl, rfl⟩

/-! ## A crate and its permit -/

/-- The crate is with the warehouse. -/
def crateAssignment : Snapshot := ⟨"crate-7", "warehouse", 1, ⟨1000, .utc⟩⟩

/-- The machine of the crate. -/
def crateMachine : Machine :=
  ⟨.idle, .none, crateAssignment, "", Permit.zero, false⟩

/-- The carrier may take the crate between 2000 and 5000. -/
def cratePermit : Permit :=
  ⟨"crate-7", "warehouse", "carrier", "policy", "1", "evidence-1",
    ⟨2000, .utc⟩, ⟨5000, .utc⟩, true⟩

/-- A repository in which only the crate is assigned. -/
def crateRepository : MemoryRepository :=
  ⟨Function.update (fun _ => none) "crate-7" (some crateAssignment), fun _ => none⟩

/-- The answers of the repository of the crate. -/
def crateResponder : Responder := fun op => (crateRepository.handle op).1

/-- The handover to the carrier, proposed and verified. -/
def crateVerified : List MachineOp :=
  [.propose "carrier", .verify cratePermit ⟨3000, .utc⟩]

/-- After the handover of the crate is verified, its machine stores the permit. -/
theorem crate_machine_guarded :
    newMachine crateAssignment = .ok crateMachine ∧
      ((Run.start crateMachine).steps crateVerified).machine.hasVerifiedPermit = true := by
  refine ⟨by decide, ?_⟩
  exact (machine_guarded_over_runs crateAssignment crateMachine (by decide)
    crateVerified).1.1.mpr (by decide)

end Safety
end CargoPds
