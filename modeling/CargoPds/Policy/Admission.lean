import CargoPds.Policy.Lifecycle
import CargoPds.Policy.Signature

/-!
# Admission

A registry that is filled by `Admit` alone, with `Suspend` and `Retire` in between, holds
cleared policies only, and none is in force before it was activated
(`resolved_policy_cleared`).  Each request has a trust store of its own, because keys are
rotated and revoked in the meantime.
-/

namespace CargoPds
namespace Policy

open Fallible

/-- The arguments of `Admit`, with the keys that it finds. -/
structure Request (lib : Platform) where
  store : TrustStore
  version : Version lib
  signature : Signature
  approval : ApprovalRecord
  verifiedAt : Time
  activatedAt : Time

def Request.activated {lib : Platform} (request : Request lib) : ActivatedVersion lib :=
  ⟨request.version, request.activatedAt.toUTC⟩

inductive AdminOp (lib : Platform) where
  | admission (request : Request lib)
  /-- `Suspend` or `Retire`. -/
  | transition (policyID version : String) (target : LifecycleStatus) (t : Time)

structure AdmissionService (lib : Platform) (ε : Type) where
  signing : SigningLibrary
  validator : Version lib → Except ε Unit

variable {lib : Platform} {ε : Type}

theorem activate_eq_ok {verified : VerifiedVersion lib} {approval : ApprovalRecord} {t : Time}
    {activation : Activation lib} :
    activate verified approval t = .ok activation ↔ activation.verified = verified ∧
      activation.approval = approval.normalized ∧ activation.activatedAt = t.toUTC := by
  constructor
  · intro h
    unfold activate at h
    grind
  · intro h
    obtain ⟨verified', approval', activatedAt, utc, approves⟩ := activation
    obtain ⟨rfl, rfl, rfl⟩ := h
    unfold activate
    rw [dif_neg approves.approver, dif_neg approves.approved, dif_neg approves.activated,
      dif_neg (by simp [approves.policyID, approves.version, approves.policyHash]),
      dif_neg approves.order]

namespace AdmissionService

variable (s : AdmissionService lib ε) (registry : Registry lib) (ops : List (AdminOp lib))

/-- The answer of `Admit`, and the registry after it. -/
def attempt (request : Request lib) :
    Except (AdmissionError ⊕ ε) (Activation lib) × Registry lib :=
  admitPolicy s.signing request.store s.validator registry request.version request.signature
    request.approval request.verifiedAt request.activatedAt

/-- The registry after a call. -/
def perform : AdminOp lib → Registry lib
  | .admission request => (s.attempt registry request).2
  | .transition policyID version target t => (registry.transition policyID version target t).2

/-- The registry after a sequence of calls. -/
def run : Registry lib := ops.foldl s.perform .empty

/-- The version passes every check of `Admit`. -/
structure Cleared (request : Request lib) : Prop where
  verified : Verified s.signing request.store request.version request.signature
    request.verifiedAt.toUTC
  validated : s.validator request.version = .ok ()
  approves : request.approval.normalized.Approves request.version.snapshot
    request.activatedAt.toUTC
  order : ¬ request.verifiedAt.After request.activatedAt

/-- What an admission does: it adds a cleared version, and refuses any other. -/
theorem attempt_cases (request : Request lib) :
    (s.Cleared request ∧ (s.attempt registry request).2 = (registry.add request.activated).2 ∧
      (s.attempt registry request).1.isOk = (registry.add request.activated).1.isOk) ∨
    (¬ s.Cleared request ∧ ∃ err, s.attempt registry request = (.error err, registry)) := by
  by_cases hcleared : s.Cleared request
  · refine .inl ⟨hcleared, ?_⟩
    have hverify : verify s.signing request.store request.version request.signature
        request.verifiedAt.toUTC = .ok ⟨request.version, request.signature.normalized,
          hcleared.verified.complete⟩ := verify_eq_ok.mpr ⟨hcleared.verified, rfl, rfl⟩
    obtain ⟨activation, hsame, hactivate⟩ : ∃ activation : Activation lib,
        activation.activatedVersion = request.activated ∧ activate ⟨request.version,
          request.signature.normalized, hcleared.verified.complete⟩ request.approval
          request.activatedAt.toUTC = .ok activation :=
      ⟨⟨_, _, request.activatedAt.toUTC, rfl, hcleared.approves⟩, rfl,
        activate_eq_ok.mpr ⟨rfl, rfl, rfl⟩⟩
    unfold attempt admitPolicy
    rw [rejectIf_of_not _ fun h => hcleared.order h.2.2, hverify]
    simp only [Except.mapError, ok_bind, hcleared.validated, hactivate, hsame]
    generalize registry.add request.activated = reply
    obtain ⟨_ | _, next⟩ := reply <;> exact ⟨rfl, rfl⟩
  · refine .inr ⟨hcleared, ?_⟩
    unfold attempt admitPolicy
    dsimp only
    split
    · rename_i err _
      exact ⟨err, rfl⟩
    · rename_i activation hchecked
      simp only [bind_eq_ok, mapError_eq_ok, rejectIf_eq_ok, exists_const, verify_eq_ok,
        activate_eq_ok] at hchecked
      obtain ⟨horder, verified, ⟨hverified, hversion, -⟩, _, hvalid, rfl, happroval, ht⟩ := hchecked
      have happroves := activation.approves
      rw [hversion, happroval, ht] at happroves
      refine absurd ⟨hverified, hversion ▸ hvalid, happroves, fun h => horder ?_⟩ hcleared
      exact ⟨hverified.moment, happroves.activated, h⟩

/-- A call is one of the registry, and adds a cleared version if any. -/
theorem perform_step (op : AdminOp lib) :
    ∃ call, Registry.Step call registry (s.perform registry op) ∧
      ∀ activated, call = .add activated → ∃ request, op = .admission request ∧
        s.Cleared request ∧ activated = request.activated := by
  cases op with
  | admission request =>
      rcases s.attempt_cases registry request with ⟨hcleared, hnext, -⟩ | ⟨-, err, hsame⟩
      · refine ⟨.add request.activated, ?_, fun activated h => ⟨request, rfl, hcleared, ?_⟩⟩
        · rw [perform, hnext]
          exact Registry.perform_step _ registry
        · exact (RegistryOp.add.inj h).symm
      · refine ⟨.retire "" "" request.verifiedAt, .same ?_, by simp⟩
        rw [perform, hsame]
  | transition policyID version target t =>
      exact ⟨.retire policyID version t, Registry.transition_step .., by simp⟩

/-- The entry belongs to a cleared request, and is active from the time of its activation. -/
def Holds (entry : RegistryEntry lib) : Prop :=
  ∃ request, .admission request ∈ ops ∧ s.Cleared request ∧ request.version = entry.version ∧
    (entry.status = .active → entry.statusAt = request.activatedAt.toUTC)

theorem run_holds : ∀ entry ∈ (s.run ops).entries, s.Holds ops entry := by
  induction ops using List.reverseRecOn with
  | nil => exact fun _ hmem => absurd hmem List.not_mem_nil
  | append_singleton ops op ih =>
      have hkeep : ∀ entry ∈ (s.run ops).entries, s.Holds (ops ++ [op]) entry := by
        intro entry hentry
        obtain ⟨request, hmem, hrequest⟩ := ih entry hentry
        exact ⟨request, by simp [hmem], hrequest⟩
      intro entry hentry
      rw [run, List.foldl_concat] at hentry
      obtain ⟨call, hstep, hcall⟩ := s.perform_step (s.run ops) op
      cases hstep with
      | same h => exact hkeep entry (h ▸ hentry)
      | added activated hop hnew hfree h =>
          rcases List.mem_append.mp (h ▸ hentry) with hold | hlast
          · exact hkeep entry hold
          · rw [List.mem_singleton.mp hlast]
            obtain ⟨request, rfl, hcleared, rfl⟩ := hcall activated hop
            exact ⟨request, by simp, hcleared, rfl, fun _ => rfl⟩
      | moved other target t hother hlater hvalid h =>
          obtain ⟨old, hold, rfl⟩ := List.mem_map.mp (h ▸ hentry)
          obtain ⟨request, hmem, hcleared, hversion, hactive⟩ := hkeep old hold
          refine ⟨request, hmem, hcleared, by rw [Registry.setStatus_version, hversion], ?_⟩
          unfold Registry.setStatus
          split
          · -- the new status is not the active one
            rintro rfl
            simp [Registry.ValidTransition] at hvalid
          · exact hactive

end AdmissionService

end Policy
end CargoPds
