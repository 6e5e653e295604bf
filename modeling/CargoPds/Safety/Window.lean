import CargoPds.Safety.Authorization

/-!
# Commits and the window of their permit

`Verify` checks the window of a permit, and `AuthorizeMotion` checks it again
before every motion.  `Commit` takes a time of its own and does not look at the
permit, so a commit may be carried out after its permit has expired.

This file says when it is not: a commit lies in the window of the accepted
permit exactly when the check that `AuthorizeMotion` makes would have passed at
the time of the commit.
-/

namespace CargoPds
namespace Safety

open Responsibility

namespace Run

/-- Every operation of a run satisfies `holds` in the state in which it is
issued. -/
def Always (holds : Run → MachineOp → Prop) : Run → List MachineOp → Prop
  | _, [] => True
  | run, op :: ops => holds run op ∧ (run.step op).Always holds ops

/-- An invariant that operations keep may be used at each of them. -/
theorem Always.imp (inv : Run → Prop) (hstep : ∀ run op, inv run → inv (run.step op))
    {holds holds' : Run → MachineOp → Prop}
    (himp : ∀ run op, inv run → holds run op → holds' run op)
    {run : Run} {ops : List MachineOp} (hinv : inv run) (h : run.Always holds ops) :
    run.Always holds' ops := by
  induction ops generalizing run with
  | nil => trivial
  | cons op ops ih => exact ⟨himp run op hinv h.1, ih (hstep run op hinv) h.2⟩

/-- A commit of a verified machine is issued at a time at which the stored permit
still passes `validatePermit`. -/
def CommitAuthorized (run : Run) : MachineOp → Prop
  | .commit _ committedAt =>
      run.machine.state = .verified →
        run.machine.validatePermit run.machine.verifiedPermit committedAt
          run.machine.proposed = .none
  | _ => True

/-- A successful commit lies in the window of the permit accepted last. -/
def CommitInWindow (run : Run) : MachineOp → Prop
  | .commit service committedAt =>
      ∀ updated, (run.machine.commitWith service committedAt).1 = .ok updated →
        ∃ permit, run.accepted = some permit ∧ permit.Covers committedAt
  | _ => True

end Run

/-- A commit that succeeds was verified and has a time. -/
theorem Machine.commitWith_ok {machine : Machine} {service : Option Responder}
    {committedAt : Time} {updated : Snapshot}
    (h : (machine.commitWith service committedAt).1 = .ok updated) :
    machine.state = .verified ∧ ¬ committedAt.IsZero := by
  rcases machine.commitWith_cases service committedAt with
    ⟨-, hcommit⟩ | ⟨-, err, reason, hcommit⟩ | ⟨hstate, hnonzero, -, -⟩
  · rw [hcommit] at h
    cases h
  · rw [hcommit] at h
    cases h
  · exact ⟨hstate, hnonzero⟩

/-- A successful commit lies in the window of the accepted permit exactly when
the stored permit still passes `validatePermit` at the time of the commit. -/
theorem Guarded.commit_covered_iff {run : Run} (h : Guarded run) {service : Option Responder}
    {committedAt : Time} {updated : Snapshot}
    (hcommit : (run.machine.commitWith service committedAt).1 = .ok updated) :
    (∃ permit, run.accepted = some permit ∧ permit.Covers committedAt) ↔
      run.machine.validatePermit run.machine.verifiedPermit committedAt
        run.machine.proposed = .none := by
  obtain ⟨hstate, hnonzero⟩ := Machine.commitWith_ok hcommit
  rw [Machine.validatePermit_eq_none]
  exact (h.authorizes_iff_covers hstate hnonzero).symm

/-- **Commits in their window.**  A run whose commits are all issued at times at
which the stored permit still passes `validatePermit` commits only inside the
window of the permit that was verified.  The condition is exact: after any run,
a commit that succeeds lies in the window if and only if it was met. -/
theorem commits_in_window_iff_authorized (current : Snapshot) (machine : Machine)
    (hnew : newMachine current = .ok machine) (ops : List MachineOp) :
    ((Run.start machine).Always Run.CommitAuthorized ops →
      (Run.start machine).Always Run.CommitInWindow ops) ∧
    ∀ service committedAt updated,
      (((Run.start machine).steps ops).machine.commitWith service committedAt).1 = .ok updated →
      ((∃ permit, ((Run.start machine).steps ops).accepted = some permit ∧
          permit.Covers committedAt) ↔
        ((Run.start machine).steps ops).machine.validatePermit
          ((Run.start machine).steps ops).machine.verifiedPermit committedAt
          ((Run.start machine).steps ops).machine.proposed = .none) := by
  have hstart : Guarded (Run.start machine) := Guarded.start hnew
  refine ⟨?_, fun service committedAt updated hcommit =>
    (hstart.steps ops).commit_covered_iff hcommit⟩
  refine Run.Always.imp Guarded (fun run op hrun => Guarded.step hrun op) ?_ hstart
  intro run op hrun hauthorized
  cases op with
  | commit service committedAt =>
      intro updated hcommit
      exact (hrun.commit_covered_iff hcommit).mpr
        (hauthorized (Machine.commitWith_ok hcommit).1)
  | propose | verify | halt | recover | authorizeMotion => trivial

/-- A commit at 4000 is inside the window. -/
theorem crate_commit_in_window :
    newMachine crateAssignment = .ok crateMachine ∧
      (Run.start crateMachine).Always Run.CommitInWindow
        (crateVerified ++ [.commit (some crateResponder) ⟨4000, .utc⟩]) := by
  refine ⟨by decide, (commits_in_window_iff_authorized crateAssignment crateMachine
    (by decide) _).1 ⟨trivial, trivial, ?_, trivial⟩⟩
  intro _
  decide

/-- A commit at 9000 succeeds, four thousand nanoseconds after the permit expired. -/
theorem crate_commit_after_expiry :
    newMachine crateAssignment = .ok crateMachine ∧
      ((Run.start crateMachine).steps crateVerified).accepted = some cratePermit ∧
      (((Run.start crateMachine).steps crateVerified).machine.commitWith (some crateResponder)
        ⟨9000, .utc⟩).1 = .ok ⟨"crate-7", "carrier", 2, ⟨9000, .utc⟩⟩ ∧
      ¬ cratePermit.Covers ⟨9000, .utc⟩ := by
  decide

end Safety
end CargoPds
