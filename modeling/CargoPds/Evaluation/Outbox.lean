import CargoPds.Evaluation.Snapshot

/-!
# Outbox records in delivery

The methods of `OutboxRecord` that a delivery goes through, the retry policy, and the
request with which a worker claims records.  A status is one of the five that the
`CHECK` of the table admits, so `normalizeOutboxRecord` has no empty status to replace.
-/

namespace CargoPds
namespace Evaluation

open Fallible Text

variable {d : Int} {p : OutboxRetryPolicy}

/-- The errors of a delivery. -/
inductive OutboxError where
  | recordNotFound
  | alreadyPublished
  | alreadyDeadLettered
  | publishTimeRequired
  | failureTimeRequired
  | failureReasonRequired
  | invalidRetrySchedule
  | claimLimitInvalid
  | workerIDRequired
  | lockDurationInvalid
  | lockOwnershipMismatch
  | concurrentModification
  /-- `postgres.ErrInvalidOutboxRecord`. -/
  | invalidRecord
  /-- An error of the database itself. -/
  | database
deriving DecidableEq, Repr

/-- `IsTerminal`. -/
def OutboxStatus.IsTerminal (status : OutboxStatus) : Prop :=
  status = .published ∨ status = .deadLettered
deriving Decidable

/-! ## Retries -/

structure OutboxRetryPolicy where
  /-- Nanoseconds, as `maxDelay`. -/
  baseDelay : Int
  maxDelay : Int
  multiplier : UInt32
deriving DecidableEq, Repr

def defaultOutboxRetryPolicy : OutboxRetryPolicy :=
  ⟨10 ^ 9, 5 * 60 * 10 ^ 9, 2⟩

namespace OutboxRetryPolicy

def validate (p : OutboxRetryPolicy) : Except OutboxError Unit :=
  rejectIf (p.baseDelay ≤ 0 ∨ p.maxDelay < p.baseDelay ∨ p.multiplier.toNat < 1)
    .invalidRetrySchedule

/-- The loop of `Delay`, with the number of rounds that are left. -/
def delayLoop (p : OutboxRetryPolicy) : Nat → Int → Int
  | 0, d => if p.maxDelay < d then p.maxDelay else d
  | rounds + 1, d =>
      if p.maxDelay / (p.multiplier.toNat : Int) ≤ d then p.maxDelay
      else p.delayLoop rounds (d * p.multiplier.toNat)

def delay (p : OutboxRetryPolicy) (attempt : UInt32) : Int :=
  p.delayLoop (attempt.toNat - 1) p.baseDelay

theorem delayLoop_pos (hmax : 0 < p.maxDelay) (hmultiplier : 0 < p.multiplier.toNat) (rounds : Nat)
    (hd : 0 < d) :
    0 < p.delayLoop rounds d := by
  induction rounds generalizing d with
  | zero =>
      unfold delayLoop
      split
      · exact hmax
      · exact hd
  | succ rounds ih =>
      unfold delayLoop
      split
      · exact hmax
      · have hstep : (0 : Int) < p.multiplier.toNat := by omega
        exact ih (Int.mul_pos hd hstep)

theorem delayLoop_le (p : OutboxRetryPolicy) (rounds : Nat) (d : Int) :
    p.delayLoop rounds d ≤ p.maxDelay := by
  induction rounds generalizing d with
  | zero =>
      unfold delayLoop
      split
      · exact Int.le_refl _
      · omega
  | succ rounds ih =>
      unfold delayLoop
      split
      · exact Int.le_refl _
      · exact ih _

/-- A valid policy waits for some time, and not longer than its maximum. -/
theorem delay_bounds (h : p.validate = .ok ()) (attempt : UInt32) :
    0 < p.delay attempt ∧ p.delay attempt ≤ p.maxDelay := by
  have hvalid : ¬ (p.baseDelay ≤ 0 ∨ p.maxDelay < p.baseDelay ∨ p.multiplier.toNat < 1) :=
    rejectIf_eq_ok.mp h
  have hbase : 0 < p.baseDelay := by omega
  have hmax : 0 < p.maxDelay := by omega
  have hmultiplier : 0 < p.multiplier.toNat := by omega
  exact ⟨delayLoop_pos hmax hmultiplier _ hbase, delayLoop_le p _ _⟩

/-! ### The loop on `int64`

`Delay` takes its products on `int64`, where they could wrap, and divides with truncation.
For a valid policy it does what `delayLoop` does on the integers. -/

/-- A value of `int64`. -/
def IsInt64 (x : Int) : Prop := -2 ^ 63 ≤ x ∧ x < 2 ^ 63

/-- The product of two values of `int64`, which wraps around. -/
def mulInt64 (x y : Int) : Int := (x * y).bmod (2 ^ 64)

theorem mulInt64_eq {x y : Int} (h : IsInt64 (x * y)) : mulInt64 x y = x * y := by
  obtain ⟨hlow, hhigh⟩ := h
  apply Int.bmod_eq_of_le <;> omega

def delayLoop64 (p : OutboxRetryPolicy) : Nat → Int → Int
  | 0, d => if p.maxDelay < d then p.maxDelay else d
  | rounds + 1, d =>
      if p.maxDelay.tdiv p.multiplier.toNat ≤ d then p.maxDelay
      else p.delayLoop64 rounds (mulInt64 d p.multiplier.toNat)

/-- `Delay`.  The counter of the loop stays below `attempt`, so it does not wrap. -/
def delay64 (p : OutboxRetryPolicy) (attempt : UInt32) : Int :=
  p.delayLoop64 (attempt.toNat - 1) p.baseDelay

/-- The products that the loop takes, before they wrap. -/
def loopProducts (p : OutboxRetryPolicy) : Nat → Int → List Int
  | 0, _ => []
  | rounds + 1, d =>
      if p.maxDelay.tdiv p.multiplier.toNat ≤ d then []
      else d * p.multiplier.toNat :: p.loopProducts rounds (mulInt64 d p.multiplier.toNat)

/-- The products that `Delay` takes. -/
def products (p : OutboxRetryPolicy) (attempt : UInt32) : List Int :=
  p.loopProducts (attempt.toNat - 1) p.baseDelay

theorem validate_eq_ok :
    p.validate = .ok () ↔ 0 < p.baseDelay ∧ p.baseDelay ≤ p.maxDelay ∧ 0 < p.multiplier.toNat := by
  simp only [validate, rejectIf_eq_ok]
  omega

section Loop

variable {p : OutboxRetryPolicy} (hmultiplier : 0 < p.multiplier.toNat)
include hmultiplier

/-- Below the truncated quotient a product is below the maximum, and not below its factor. -/
theorem le_mul_and_mul_lt (hd : 0 < d) (hbelow : ¬ p.maxDelay / (p.multiplier.toNat : Int) ≤ d) :
    d ≤ d * p.multiplier.toNat ∧ d * p.multiplier.toNat < p.maxDelay := by
  have hpositive : (0 : Int) < p.multiplier.toNat := by omega
  refine ⟨?_, Int.mul_lt_of_lt_ediv hpositive (by omega)⟩
  calc d = d * 1 := (Int.mul_one d).symm
    _ ≤ d * p.multiplier.toNat := Int.mul_le_mul_of_nonneg_left (by omega) (by omega)

theorem le_delayLoop (rounds : Nat) (hd : 0 < d) (hle : d ≤ p.maxDelay) :
    d ≤ p.delayLoop rounds d := by
  induction rounds generalizing d with
  | zero =>
      have hreturned : ¬ p.maxDelay < d := by omega
      simp only [delayLoop, if_neg hreturned, Int.le_refl]
  | succ rounds ih =>
      by_cases hexit : p.maxDelay / (p.multiplier.toNat : Int) ≤ d
      · simpa only [delayLoop, if_pos hexit] using hle
      · obtain ⟨hgrows, hbelow⟩ := le_mul_and_mul_lt hmultiplier hd hexit
        simp only [delayLoop, if_neg hexit]
        exact Int.le_trans hgrows (ih (by omega) (by omega))

/-- The loop returns the exact product or the maximum, and the latter once the product has
reached it. -/
theorem delayLoop_eq_product_or_max (rounds : Nat) (hd : 0 < d) (hle : d ≤ p.maxDelay) :
    (p.delayLoop rounds d = d * p.multiplier.toNat ^ rounds ∨
        p.delayLoop rounds d = p.maxDelay) ∧
      (p.maxDelay ≤ d * p.multiplier.toNat ^ rounds → p.delayLoop rounds d = p.maxDelay) := by
  induction rounds generalizing d with
  | zero =>
      have hreturned : ¬ p.maxDelay < d := by omega
      simp only [delayLoop, if_neg hreturned, Int.pow_zero, Int.mul_one, true_or, true_and]
      exact fun hreached => Int.le_antisymm hle hreached
  | succ rounds ih =>
      by_cases hexit : p.maxDelay / (p.multiplier.toNat : Int) ≤ d
      · simp only [delayLoop, if_pos hexit, or_true, implies_true, and_self]
      · obtain ⟨hgrows, hbelow⟩ := le_mul_and_mul_lt hmultiplier hd hexit
        simp only [delayLoop, if_neg hexit]
        rw [Int.pow_succ', ← Int.mul_assoc]
        exact ih (by omega) (by omega)

theorem delayLoop_le_succ (rounds : Nat) (hd : 0 < d) (hle : d ≤ p.maxDelay) :
    p.delayLoop rounds d ≤ p.delayLoop (rounds + 1) d := by
  induction rounds generalizing d with
  | zero =>
      have hreturned : ¬ p.maxDelay < d := by omega
      calc p.delayLoop 0 d = d := by simp only [delayLoop, if_neg hreturned]
        _ ≤ p.delayLoop 1 d := le_delayLoop hmultiplier 1 hd hle
  | succ rounds ih =>
      by_cases hexit : p.maxDelay / (p.multiplier.toNat : Int) ≤ d
      · simp only [delayLoop, if_pos hexit, Int.le_refl]
      · obtain ⟨hgrows, hbelow⟩ := le_mul_and_mul_lt hmultiplier hd hexit
        rw [delayLoop, delayLoop, if_neg hexit, if_neg hexit]
        exact ih (by omega) (by omega)

/-- No product leaves `int64`, because the comparison with the quotient comes first. -/
theorem delayLoop64_eq (hmax : IsInt64 p.maxDelay) (rounds : Nat) (hd : 0 < d)
    (hle : d ≤ p.maxDelay) :
    p.delayLoop64 rounds d = p.delayLoop rounds d ∧
      ∀ x ∈ p.loopProducts rounds d, IsInt64 x := by
  have hquotient : p.maxDelay.tdiv p.multiplier.toNat = p.maxDelay / (p.multiplier.toNat : Int) :=
    Int.tdiv_eq_ediv_of_nonneg (by omega)
  induction rounds generalizing d with
  | zero => simp only [delayLoop64, delayLoop, loopProducts, List.not_mem_nil, false_implies,
      implies_true, and_self]
  | succ rounds ih =>
      simp only [delayLoop64, delayLoop, loopProducts, hquotient]
      by_cases hexit : p.maxDelay / (p.multiplier.toNat : Int) ≤ d
      · simp only [if_pos hexit, List.not_mem_nil, false_implies, implies_true, and_self]
      · obtain ⟨hgrows, hbelow⟩ := le_mul_and_mul_lt hmultiplier hd hexit
        have hrange : IsInt64 (d * p.multiplier.toNat) := ⟨by omega, hbelow.trans hmax.2⟩
        obtain ⟨hsame, hrest⟩ := @ih (d * p.multiplier.toNat) (by omega) (by omega)
        simp only [if_neg hexit, mulInt64_eq hrange, List.forall_mem_cons]
        exact ⟨hsame, hrange, hrest⟩

end Loop

/-- Retry delays are exact, bounded and do not decrease, and no product that is taken on the
way leaves `int64`. -/
theorem delay64_exact {p : OutboxRetryPolicy} (hmax : IsInt64 p.maxDelay)
    (h : p.validate = .ok ()) :
    (∀ attempt : UInt32, 1 ≤ attempt →
      p.delay64 attempt = p.delay attempt ∧
      (∀ x ∈ p.products attempt, IsInt64 x) ∧
      (p.baseDelay ≤ p.delay64 attempt ∧ p.delay64 attempt ≤ p.maxDelay) ∧
      (p.delay64 attempt = p.baseDelay * p.multiplier.toNat ^ (attempt.toNat - 1) ∨
        p.delay64 attempt = p.maxDelay) ∧
      (p.maxDelay ≤ p.baseDelay * p.multiplier.toNat ^ (attempt.toNat - 1) →
        p.delay64 attempt = p.maxDelay)) ∧
    ∀ attempt later : UInt32, 1 ≤ attempt → attempt ≤ later →
      p.delay64 attempt ≤ p.delay64 later := by
  obtain ⟨hbase, hle, hmultiplier⟩ := validate_eq_ok.mp h
  have hsame : ∀ rounds, p.delayLoop64 rounds p.baseDelay = p.delayLoop rounds p.baseDelay ∧
      ∀ x ∈ p.loopProducts rounds p.baseDelay, IsInt64 x := fun rounds =>
    delayLoop64_eq hmultiplier hmax rounds hbase hle
  refine ⟨fun attempt _ => ?_, fun attempt later _ hlater => ?_⟩
  · obtain ⟨hvalue, hproducts⟩ := hsame (attempt.toNat - 1)
    obtain ⟨hexact, hreached⟩ :=
      delayLoop_eq_product_or_max hmultiplier (attempt.toNat - 1) hbase hle
    simp only [delay64, delay, products, hvalue]
    exact ⟨trivial, hproducts, ⟨le_delayLoop hmultiplier _ hbase hle, delayLoop_le p _ _⟩,
      hexact, hreached⟩
  · have hmonotone : Monotone fun rounds => p.delayLoop rounds p.baseDelay :=
      monotone_nat_of_le_succ fun rounds => delayLoop_le_succ hmultiplier rounds hbase hle
    simp only [delay64, (hsame _).1]
    exact hmonotone (Nat.sub_le_sub_right (UInt32.le_iff_toNat_le.mp hlater) 1)

/-- The tenth attempt waits for the five minutes of the default policy. -/
theorem delay64_exact_default :
    defaultOutboxRetryPolicy.delay64 10 = defaultOutboxRetryPolicy.maxDelay :=
  ((delay64_exact ⟨by decide, by decide⟩ (by rfl)).1 10 (by decide)).2.2.2.2 (by decide)

end OutboxRetryPolicy

/-! ## The methods of a record -/

def normalizeOutboxRecord (r : OutboxRecord) : OutboxRecord :=
  { r with
    maxAttempts := if r.maxAttempts = 0 then defaultOutboxMaxAttempts else r.maxAttempts
    lockOwner := trimSpace r.lockOwner
    lastError := trimSpace r.lastError }

namespace OutboxRecord

/-- `StartPublishing`; a call that is refused leaves the normalised record. -/
def startPublishing (r : OutboxRecord) (workerID : String) (startedAt : Time)
    (lockDuration : Int) : Except OutboxError Unit × OutboxRecord :=
  let r := normalizeOutboxRecord r
  let checks : Except OutboxError Unit := do
    rejectIf (r.status = .published) .alreadyPublished
    rejectIf (r.status = .deadLettered) .alreadyDeadLettered
    rejectIf (trimSpace workerID = "") .workerIDRequired
    rejectIf startedAt.IsZero .publishTimeRequired
    rejectIf (lockDuration ≤ 0) .lockDurationInvalid
  match checks with
  | .error err => (.error err, r)
  | .ok () =>
      (.ok (), { r with
        status := .publishing
        publishingStartedAt := some startedAt.toUTC
        lastAttemptAt := some startedAt.toUTC
        lockOwner := trimSpace workerID
        lockUntil := some (startedAt.toUTC.add lockDuration)
        attempts := r.attempts + 1 })

/-- `MarkPublished`. -/
def markPublished (r : OutboxRecord) (workerID : String) (publishedAt : Time) :
    Except OutboxError OutboxRecord := do
  rejectIf (r.status = .published) .alreadyPublished
  rejectIf (trimSpace workerID = "" ∨ r.lockOwner ≠ trimSpace workerID) .lockOwnershipMismatch
  rejectIf publishedAt.IsZero .publishTimeRequired
  return { r with
    status := .published
    publishedAt := some publishedAt.toUTC
    nextAttemptAt := none
    lastError := ""
    lockOwner := ""
    lockUntil := none }

def registerFailure (r : OutboxRecord) (workerID reason : String) (failedAt : Time)
    (policy : OutboxRetryPolicy) : Except OutboxError OutboxRecord := do
  rejectIf (r.status = .published) .alreadyPublished
  rejectIf (r.status = .deadLettered) .alreadyDeadLettered
  rejectIf (r.lockOwner ≠ trimSpace workerID) .lockOwnershipMismatch
  rejectIf failedAt.IsZero .failureTimeRequired
  rejectIf (trimSpace reason = "") .failureReasonRequired
  policy.validate
  let failed := { r with
    lastError := trimSpace reason
    lastAttemptAt := some failedAt.toUTC
    lockOwner := ""
    lockUntil := none }
  if r.maxAttempts ≤ r.attempts then
    return { failed with
      status := .deadLettered
      deadLetteredAt := some failedAt.toUTC
      nextAttemptAt := none }
  else
    return { failed with
      status := .retryScheduled
      nextAttemptAt := some (failedAt.toUTC.add (policy.delay r.attempts)) }

/-- A failure is final exactly when the attempts are used up; otherwise the next
attempt lies after the failure. -/
theorem registerFailure_eq_ok {r r' : OutboxRecord} {workerID reason : String}
    {failedAt : Time} {policy : OutboxRetryPolicy}
    (h : r.registerFailure workerID reason failedAt policy = .ok r') :
    r'.id = r.id ∧ r'.attempts = r.attempts ∧
      ((r.maxAttempts ≤ r.attempts ∧ r'.status = .deadLettered ∧
          r'.deadLetteredAt = some failedAt.toUTC) ∨
        (¬ r.maxAttempts ≤ r.attempts ∧ r'.status = .retryScheduled ∧
          ∃ next : Time, r'.nextAttemptAt = some next ∧ next.After failedAt)) := by
  simp only [registerFailure, bind_eq_ok, rejectIf_eq_ok, exists_const] at h
  obtain ⟨-, -, -, -, -, ⟨⟩, hpolicy, h⟩ := h
  by_cases hspent : r.maxAttempts ≤ r.attempts
  · rw [if_pos hspent, pure_eq_ok] at h
    subst h
    exact ⟨rfl, rfl, .inl ⟨hspent, rfl, rfl⟩⟩
  · rw [if_neg hspent, pure_eq_ok] at h
    subst h
    have hwait := (OutboxRetryPolicy.delay_bounds hpolicy r.attempts).1
    refine ⟨rfl, rfl, .inr ⟨hspent, rfl, _, rfl, ?_⟩⟩
    change failedAt.instant < failedAt.instant + policy.delay r.attempts
    omega

def Ready (r : OutboxRecord) (now : Time) : Prop :=
  r.status = .pending ∨
    (r.status = .retryScheduled ∧ ∃ next ∈ r.nextAttemptAt, ¬ next.After now)
deriving Decidable

end OutboxRecord

/-! ## Claims -/

structure OutboxClaimRequest where
  workerID : String
  limit : Int
  claimedAt : Time
  lockDuration : Int
deriving DecidableEq, Repr

def OutboxClaimRequest.validate (request : OutboxClaimRequest) : Except OutboxError Unit := do
  rejectIf (trimSpace request.workerID = "") .workerIDRequired
  rejectIf (request.limit ≤ 0) .claimLimitInvalid
  rejectIf request.claimedAt.IsZero .publishTimeRequired
  rejectIf (request.lockDuration ≤ 0) .lockDurationInvalid

theorem OutboxClaimRequest.validate_eq_ok {request : OutboxClaimRequest} :
    request.validate = .ok () ↔ trimSpace request.workerID ≠ "" ∧ 0 < request.limit ∧
      ¬ request.claimedAt.IsZero ∧ 0 < request.lockDuration := by
  simp only [validate, bind_eq_ok, rejectIf_eq_ok, exists_const, not_le, ne_eq]

end Evaluation
end CargoPds
