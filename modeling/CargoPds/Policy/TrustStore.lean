import CargoPds.Foundation.Layout
import CargoPds.Foundation.Registers
import CargoPds.Foundation.Text
import CargoPds.Policy.Trust

/-!
# The trust store in memory

`MemoryTrustStore` keeps one record for each signer and key, under the two trimmed names
joined by a zero byte.  A record is added once and revoked once; everything else is
refused or a repetition.

The map is a family of independent registers (`apply_eq_step`), so it is enough to know
what one record goes through: `onRecord_outcome`.  The joined name determines the pair when
the signer has no zero byte in its name (`identity_inj`); that two pairs can share a name
otherwise, that a record cannot be added again after its revocation, and that
`ResolveVerificationKey` does not trim, are the differences to the store in PostgreSQL.
-/

namespace CargoPds
namespace Policy

open Fallible Text

variable {s : MemoryTrustStore}

inductive TrustError where
  | verificationKeyAbsent
  | verificationKeyConflict
deriving DecidableEq, Repr

structure MemoryTrustStore where
  keys : String → Option VerificationKey

def sameOptionalTime : Option Time → Option Time → Prop
  | none, none => True
  | some left, some right => left.Equal right
  | _, _ => False

instance : (left right : Option Time) → Decidable (sameOptionalTime left right)
  | none, none => inferInstanceAs (Decidable True)
  | some left, some right => inferInstanceAs (Decidable (left.Equal right))
  | none, some _ => inferInstanceAs (Decidable False)
  | some _, none => inferInstanceAs (Decidable False)

def sameVerificationKey (left right : VerificationKey) : Prop :=
  left.signerID = right.signerID ∧ left.keyID = right.keyID ∧
    left.algorithm = right.algorithm ∧ left.publicKey = right.publicKey ∧
    left.validFrom.Equal right.validFrom ∧ sameOptionalTime left.validUntil right.validUntil ∧
    sameOptionalTime left.revokedAt right.revokedAt
deriving Decidable

/-- The key with its names trimmed. -/
def VerificationKey.trimmed (key : VerificationKey) : VerificationKey :=
  { key with
    signerID := trimSpace key.signerID
    keyID := trimSpace key.keyID
    algorithm := trimSpace key.algorithm }

/-- The key lacks a name, its algorithm or its material. -/
def VerificationKey.Incomplete (key : VerificationKey) : Prop :=
  key.signerID = "" ∨ key.keyID = "" ∨ key.algorithm = "" ∨ key.publicKey = []
deriving Decidable

namespace MemoryTrustStore

def empty : MemoryTrustStore := ⟨fun _ => none⟩

/-- The name of a record in the map. -/
def identity (signerID keyID : String) : String := signerID ++ "\x00" ++ keyID

def add (s : MemoryTrustStore) (key : VerificationKey) :
    Except TrustError Unit × MemoryTrustStore :=
  let key := key.trimmed
  if key.Incomplete then (.error .verificationKeyAbsent, s)
  else
    match s.keys (identity key.signerID key.keyID) with
    | some existing =>
        if sameVerificationKey existing key then (.ok (), s)
        else (.error .verificationKeyConflict, s)
    | none =>
        (.ok (), ⟨Function.update s.keys (identity key.signerID key.keyID) (some key)⟩)

def revoke (s : MemoryTrustStore) (signerID keyID : String) (revokedAt : Time) :
    Except TrustError Unit × MemoryTrustStore :=
  if revokedAt.IsZero then (.error .verificationKeyAbsent, s)
  else
    let name := identity (trimSpace signerID) (trimSpace keyID)
    match s.keys name with
    | none => (.error .verificationKeyAbsent, s)
    | some key =>
        match key.revokedAt with
        | some earlier =>
            if earlier.Equal revokedAt.toUTC then (.ok (), s)
            else (.error .verificationKeyConflict, s)
        | none =>
            (.ok (), ⟨Function.update s.keys name
              (some { key with revokedAt := some revokedAt.toUTC })⟩)

/-- The names are looked up as they are given. -/
def resolveVerificationKey (s : MemoryTrustStore) : TrustStore := fun signerID keyID =>
  match s.keys (identity signerID keyID) with
  | none => .error .verificationKeyAbsent
  | some key => .ok key

end MemoryTrustStore

/-! ## Sequences of calls -/

inductive TrustCall where
  | add (key : VerificationKey)
  | revoke (signerID keyID : String) (revokedAt : Time)
deriving DecidableEq, Repr

namespace TrustCall

/-- The trimmed names of the record that a call is about. -/
def pair : TrustCall → String × String
  | add key => (trimSpace key.signerID, trimSpace key.keyID)
  | revoke signerID keyID _ => (trimSpace signerID, trimSpace keyID)

def apply (s : MemoryTrustStore) : TrustCall → Except TrustError Unit × MemoryTrustStore
  | add key => s.add key
  | revoke signerID keyID revokedAt => s.revoke signerID keyID revokedAt

/-- What a call does to the record that it is about. -/
def onRecord : TrustCall → Option VerificationKey →
    Except TrustError Unit × Option VerificationKey
  | add key, record =>
      if key.trimmed.Incomplete then (.error .verificationKeyAbsent, record)
      else
        match record with
        | some existing =>
            (if sameVerificationKey existing key.trimmed then .ok ()
              else .error .verificationKeyConflict, record)
        | none => (.ok (), some key.trimmed)
  | revoke _ _ revokedAt, record =>
      if revokedAt.IsZero then (.error .verificationKeyAbsent, record)
      else
        match record with
        | none => (.error .verificationKeyAbsent, record)
        | some key =>
            match key.revokedAt with
            | some earlier =>
                (if earlier.Equal revokedAt.toUTC then .ok ()
                  else .error .verificationKeyConflict, record)
            | none => (.ok (), some { key with revokedAt := some revokedAt.toUTC })

/-- The name of the record in the map. -/
def name (call : TrustCall) : String := MemoryTrustStore.identity call.pair.1 call.pair.2

/-- The calls act on independent registers. -/
theorem apply_eq_step (s : MemoryTrustStore) (call : TrustCall) :
    call.apply s = ((Registers.step name onRecord s.keys call).1,
      ⟨(Registers.step name onRecord s.keys call).2⟩) := by
  have hkept : (⟨Function.update s.keys call.name (s.keys call.name)⟩ : MemoryTrustStore) = s := by
    rw [Function.update_eq_self]
  cases call with
  | add key =>
      have hname : MemoryTrustStore.identity key.trimmed.signerID key.trimmed.keyID =
        name (.add key) := rfl
      simp only [apply, MemoryTrustStore.add, Registers.step, onRecord, hname]
      split
      · rw [hkept]
      · cases hrecord : s.keys (name (.add key)) with
        | none => rfl
        | some existing =>
            simp only [hrecord] at hkept ⊢
            rw [hkept]
            split <;> rfl
  | revoke signerID keyID revokedAt =>
      have hname : MemoryTrustStore.identity (trimSpace signerID) (trimSpace keyID) =
        name (.revoke signerID keyID revokedAt) := rfl
      simp only [apply, MemoryTrustStore.revoke, Registers.step, onRecord, hname]
      split
      · rw [hkept]
      · cases hrecord : s.keys (name (.revoke signerID keyID revokedAt)) with
        | none =>
            simp only [hrecord] at hkept ⊢
            rw [hkept]
        | some key =>
            simp only [hrecord] at hkept ⊢
            cases hrevoked : key.revokedAt with
            | none => rfl
            | some earlier =>
                simp only [hkept]
                split <;> rfl

theorem apply_answer (s : MemoryTrustStore) (call : TrustCall) :
    (call.apply s).1 = (call.onRecord (s.keys call.name)).1 := by
  rw [apply_eq_step]
  rfl

theorem apply_record (s : MemoryTrustStore) (call : TrustCall) :
    (call.apply s).2.keys call.name = (call.onRecord (s.keys call.name)).2 := by
  rw [apply_eq_step]
  exact Registers.step_self name onRecord s.keys call

end TrustCall

def storeAfter (s : MemoryTrustStore) (calls : List TrustCall) : MemoryTrustStore :=
  calls.foldl (fun s call => (call.apply s).2) s

/-- The calls with what they return. -/
def answersOf (s : MemoryTrustStore) : List TrustCall → List (TrustCall × Except TrustError Unit)
  | [] => []
  | call :: rest => (call, (call.apply s).1) :: answersOf (call.apply s).2 rest

/-- The record of the first successful `Add`. -/
def firstAdded (answers : List (TrustCall × Except TrustError Unit)) : Option VerificationKey :=
  answers.findSome? fun
    | (.add key, .ok ()) => some key.trimmed
    | _ => none

/-- The time of the first successful `Revoke`. -/
def firstRevoked (answers : List (TrustCall × Except TrustError Unit)) : Option Time :=
  answers.findSome? fun
    | (.revoke _ _ revokedAt, .ok ()) => some revokedAt.toUTC
    | _ => none

/-- The first record, with its own revocation or the first one. -/
def recorded (answers : List (TrustCall × Except TrustError Unit)) : Option VerificationKey :=
  (firstAdded answers).map fun key =>
    { key with revokedAt := key.revokedAt.or (firstRevoked answers) }

/-! ## One record -/

/-- What a call finds, answers and leaves. -/
inductive Outcome (record : Option VerificationKey) :
    TrustCall → Except TrustError Unit → Option VerificationKey → Prop where
  | refused (call : TrustCall) (err : TrustError) : Outcome record call (.error err) record
  | added {key : VerificationKey} (complete : ¬ key.trimmed.Incomplete) (new : record = none) :
      Outcome record (.add key) (.ok ()) (some key.trimmed)
  | addedBefore {key existing : VerificationKey} (complete : ¬ key.trimmed.Incomplete)
      (found : record = some existing) (same : sameVerificationKey existing key.trimmed) :
      Outcome record (.add key) (.ok ()) record
  | revoked {key : VerificationKey} {signerID keyID : String} {revokedAt : Time}
      (timed : ¬ revokedAt.IsZero) (found : record = some key) (valid : key.revokedAt = none) :
      Outcome record (.revoke signerID keyID revokedAt) (.ok ())
        (some { key with revokedAt := some revokedAt.toUTC })
  | revokedBefore {key : VerificationKey} {signerID keyID : String} {revokedAt earlier : Time}
      (timed : ¬ revokedAt.IsZero) (found : record = some key)
      (ended : key.revokedAt = some earlier) (same : earlier.Equal revokedAt.toUTC) :
      Outcome record (.revoke signerID keyID revokedAt) (.ok ()) record

theorem onRecord_outcome (call : TrustCall) (record : Option VerificationKey) :
    Outcome record call (call.onRecord record).1 (call.onRecord record).2 := by
  cases call with
  | add key =>
      simp only [TrustCall.onRecord]
      split
      · exact .refused _ _
      · rename_i hcomplete
        cases record with
        | none => exact .added hcomplete rfl
        | some existing =>
            by_cases hsame : sameVerificationKey existing key.trimmed
            · simp only [if_pos hsame]
              exact .addedBefore hcomplete rfl hsame
            · simp only [if_neg hsame]
              exact .refused _ _
  | revoke signerID keyID revokedAt =>
      simp only [TrustCall.onRecord]
      split
      · exact .refused _ _
      · rename_i htimed
        cases record with
        | none => exact .refused _ _
        | some key =>
            cases hrevoked : key.revokedAt with
            | none =>
                simp only [hrevoked]
                exact .revoked htimed rfl hrevoked
            | some earlier =>
                simp only [hrevoked]
                by_cases hsame : earlier.Equal revokedAt.toUTC
                · simp only [if_pos hsame]
                  exact .revokedBefore htimed rfl hrevoked hsame
                · simp only [if_neg hsame]
                  exact .refused _ _

/-- The record is what the answers say. -/
structure Faithful (answers : List (TrustCall × Except TrustError Unit))
    (record : Option VerificationKey) : Prop where
  recorded_eq : record = recorded answers
  revoked : ∀ t ∈ firstRevoked answers, ∃ key ∈ record, ∃ u ∈ key.revokedAt, u.Equal t

section
variable {answers : List (TrustCall × Except TrustError Unit)} {call : TrustCall}
  {answer : Except TrustError Unit}

theorem firstAdded_append :
    firstAdded (answers ++ [(call, answer)]) =
      (firstAdded answers).or (firstAdded [(call, answer)]) :=
  List.findSome?_append

theorem firstRevoked_append :
    firstRevoked (answers ++ [(call, answer)]) =
      (firstRevoked answers).or (firstRevoked [(call, answer)]) :=
  List.findSome?_append

/-- A record was added once. -/
theorem Faithful.firstAdded_eq {key : VerificationKey} (h : Faithful answers (some key)) :
    ∃ first, firstAdded answers = some first ∧
      key = { first with revokedAt := first.revokedAt.or (firstRevoked answers) } := by
  have hrecorded := h.recorded_eq
  unfold recorded at hrecorded
  cases hfirst : firstAdded answers with
  | none =>
      rw [hfirst] at hrecorded
      exact absurd hrecorded (by simp)
  | some first =>
      rw [hfirst, Option.map_some, Option.some.injEq] at hrecorded
      exact ⟨first, rfl, hrecorded⟩

/-- Without a record nothing was added or revoked. -/
theorem Faithful.of_none (h : Faithful answers none) :
    firstAdded answers = none ∧ firstRevoked answers = none := by
  constructor
  · exact Option.map_eq_none_iff.mp h.recorded_eq.symm
  · cases hrevoked : firstRevoked answers with
    | none => rfl
    | some t =>
        obtain ⟨key, hkey, -⟩ := h.revoked t hrevoked
        exact absurd hkey (by simp)

theorem Faithful.outcome {record record' : Option VerificationKey} (h : Faithful answers record)
    (houtcome : Outcome record call answer record') :
    Faithful (answers ++ [(call, answer)]) record' := by
  cases houtcome with
  | refused call err =>
      have hadded : firstAdded [(call, .error err)] = none := by cases call <;> rfl
      have hrevoked : firstRevoked [(call, .error err)] = none := by cases call <;> rfl
      constructor
      · rw [recorded, firstAdded_append, firstRevoked_append, hadded, hrevoked, Option.or_none,
          Option.or_none]
        exact h.recorded_eq
      · rw [firstRevoked_append, hrevoked, Option.or_none]
        exact h.revoked
  | @added key complete new =>
      subst new
      obtain ⟨hadded, hrevoked⟩ := h.of_none
      have hlater : firstRevoked (answers ++ [(.add key, .ok ())]) = none := by
        rw [firstRevoked_append, hrevoked]
        rfl
      constructor
      · rw [recorded, firstAdded_append, hadded, hlater]
        simp [firstAdded]
      · rw [hlater]
        exact fun t ht => absurd ht (by simp)
  | @addedBefore key existing complete found same =>
      subst found
      obtain ⟨first, hfirst, hkey⟩ := h.firstAdded_eq
      have hlater : firstRevoked (answers ++ [(.add key, .ok ())]) = firstRevoked answers := by
        rw [firstRevoked_append]
        exact Option.or_none
      constructor
      · rw [recorded, firstAdded_append, hfirst, hlater, Option.some_or, Option.map_some, hkey]
      · rw [hlater]
        exact h.revoked
  | @revoked key signerID keyID revokedAt timed found valid =>
      subst found
      obtain ⟨first, hfirst, hkey⟩ := h.firstAdded_eq
      have hnone : first.revokedAt = none ∧ firstRevoked answers = none := by
        rw [hkey] at valid
        exact Option.or_eq_none_iff.mp valid
      have hlater : firstRevoked (answers ++ [(.revoke signerID keyID revokedAt, .ok ())]) =
          some revokedAt.toUTC := by
        rw [firstRevoked_append, hnone.2]
        rfl
      constructor
      · rw [recorded, firstAdded_append, hfirst, hlater, Option.some_or, Option.map_some, hkey,
          hnone.1]
        rfl
      · rw [hlater]
        intro t ht
        obtain rfl := Option.mem_some_iff.mp ht
        exact ⟨_, rfl, _, rfl, rfl⟩
  | @revokedBefore key signerID keyID revokedAt earlier timed found ended same =>
      subst found
      obtain ⟨first, hfirst, hkey⟩ := h.firstAdded_eq
      have hlater : firstRevoked (answers ++ [(.revoke signerID keyID revokedAt, .ok ())]) =
          (firstRevoked answers).or (some revokedAt.toUTC) := firstRevoked_append
      constructor
      · -- the record had its revocation before
        have hsame : first.revokedAt.or ((firstRevoked answers).or (some revokedAt.toUTC)) =
            first.revokedAt.or (firstRevoked answers) := by
          rw [← Option.or_assoc]
          rw [hkey] at ended
          change first.revokedAt.or (firstRevoked answers) = some earlier at ended
          rw [ended, Option.some_or]
        rw [recorded, firstAdded_append, hfirst, hlater, Option.some_or, Option.map_some, hsame,
          hkey]
      · rw [hlater]
        intro t ht
        cases hrevoked : firstRevoked answers with
        | none =>
            rw [hrevoked, Option.none_or, Option.mem_some_iff] at ht
            subst ht
            exact ⟨key, rfl, earlier, ended, same⟩
        | some first =>
            rw [hrevoked, Option.some_or, Option.mem_some_iff] at ht
            subst ht
            exact h.revoked first hrevoked

end

/-- A record follows its calls. -/
theorem replay_faithful (calls : List TrustCall) :
    Faithful (Registers.replies TrustCall.onRecord none calls)
      (Registers.replay TrustCall.onRecord none calls) := by
  induction calls using List.reverseRecOn with
  | nil => exact ⟨rfl, fun t ht => absurd ht (by simp [firstRevoked, Registers.replies])⟩
  | append_singleton calls call ih =>
      rw [Registers.replies_append, Registers.replay_append]
      exact ih.outcome (onRecord_outcome call _)

/-- A record changes only by its one revocation. -/
def Continues (key later : VerificationKey) : Prop :=
  later = key ∨ (key.revokedAt = none ∧ ∃ t, later = { key with revokedAt := some t })

theorem continues_onRecord {key later : VerificationKey} (h : Continues key later)
    (call : TrustCall) : ∃ next, (call.onRecord (some later)).2 = some next ∧
      Continues key next := by
  have houtcome := onRecord_outcome call (some later)
  revert houtcome
  generalize (call.onRecord (some later)).1 = answer
  generalize (call.onRecord (some later)).2 = record'
  intro houtcome
  cases houtcome with
  | refused => exact ⟨later, rfl, h⟩
  | added _ new => exact absurd new (by simp)
  | addedBefore => exact ⟨later, rfl, h⟩
  | revokedBefore => exact ⟨later, rfl, h⟩
  | revoked _ found valid =>
      obtain rfl := Option.some.inj found
      refine ⟨_, rfl, ?_⟩
      rcases h with rfl | ⟨-, t, rfl⟩
      · exact .inr ⟨valid, _, rfl⟩
      · exact absurd valid (by simp)

theorem continues_replay (key : VerificationKey) (calls : List TrustCall) :
    ∃ later, Registers.replay TrustCall.onRecord (some key) calls = some later ∧
      Continues key later := by
  refine Registers.replay_invariant TrustCall.onRecord
    (fun record => ∃ later, record = some later ∧ Continues key later) ?_ ⟨key, rfl, .inl rfl⟩
    calls
  rintro call record ⟨later, rfl, hlater⟩
  exact continues_onRecord hlater call

theorem sameVerificationKey_refl (key : VerificationKey) : sameVerificationKey key key := by
  have htime : ∀ t : Option Time, sameOptionalTime t t := by
    intro t
    cases t with
    | none => trivial
    | some t => exact rfl
  exact ⟨rfl, rfl, rfl, rfl, rfl, htime _, htime _⟩

/-- A key that continues another one is the same as before, or has been revoked. -/
theorem Continues.same {key later added : VerificationKey} (h : Continues key later)
    (hsame : sameVerificationKey key added)
    (hvalid : added.revokedAt = none → later.revokedAt = none) :
    sameVerificationKey later added := by
  rcases h with rfl | ⟨hnone, t, rfl⟩
  · exact hsame
  · have hadded : added.revokedAt = none := by
      have htimes := hsame.2.2.2.2.2.2
      rw [hnone] at htimes
      cases hrevoked : added.revokedAt with
      | none => rfl
      | some u =>
          rw [hrevoked] at htimes
          exact htimes.elim
    exact absurd (hvalid hadded) (by simp)

/-- A call that has succeeded succeeds again, unless it adds a key that has been revoked
since. -/
theorem onRecord_again {call : TrustCall} {record : Option VerificationKey}
    (hok : (call.onRecord record).1 = .ok ()) (more : List TrustCall)
    (hvalid : ∀ key, call = .add key → key.revokedAt = none →
      ∀ later, Registers.replay TrustCall.onRecord (call.onRecord record).2 more = some later →
        later.revokedAt = none) :
    call.onRecord (Registers.replay TrustCall.onRecord (call.onRecord record).2 more) =
      (.ok (), Registers.replay TrustCall.onRecord (call.onRecord record).2 more) := by
  have houtcome := onRecord_outcome call record
  rw [hok] at houtcome
  generalize (call.onRecord record).2 = record' at houtcome hvalid ⊢
  -- an accepted key is the same as the record, which then goes on
  have hadd : ∀ key existing, call = .add key → record' = some existing →
      ¬ key.trimmed.Incomplete → sameVerificationKey existing key.trimmed →
      call.onRecord (Registers.replay TrustCall.onRecord record' more) =
        (.ok (), Registers.replay TrustCall.onRecord record' more) := by
    rintro key existing rfl rfl hcomplete hsame
    obtain ⟨later, hlater, hcontinues⟩ := continues_replay existing more
    have hstill := hcontinues.same hsame fun hnone => hvalid key rfl hnone later hlater
    rw [hlater]
    simp only [TrustCall.onRecord, if_neg hcomplete, if_pos hstill]
  -- a revoked record does not change any more
  have hrevoke : ∀ signerID keyID revokedAt key earlier,
      call = .revoke signerID keyID revokedAt → record' = some key → ¬ revokedAt.IsZero →
      key.revokedAt = some earlier → earlier.Equal revokedAt.toUTC →
      call.onRecord (Registers.replay TrustCall.onRecord record' more) =
        (.ok (), Registers.replay TrustCall.onRecord record' more) := by
    rintro signerID keyID revokedAt key earlier rfl rfl htimed hended hsame
    obtain ⟨later, hlater, rfl | ⟨hnone, -⟩⟩ := continues_replay key more
    · rw [hlater]
      simp only [TrustCall.onRecord, if_neg htimed, hended, if_pos hsame]
    · exact absurd (hnone.symm.trans hended) (by simp)
  cases houtcome with
  | added complete => exact hadd _ _ rfl rfl complete (sameVerificationKey_refl _)
  | addedBefore complete found same => exact hadd _ _ rfl found complete same
  | revoked timed => exact hrevoke _ _ _ _ _ rfl rfl timed rfl rfl
  | revokedBefore timed found ended same => exact hrevoke _ _ _ _ _ rfl found timed ended same

/-! ## The store -/

/-- The name has no zero byte. -/
def ZeroFree (text : String) : Prop := '\x00' ∉ text.toList
deriving Decidable

/-- The joined name tells the pairs apart when the signers have no zero byte. -/
theorem identity_inj {signer signer' key key' : String} (h : ZeroFree signer)
    (h' : ZeroFree signer')
    (hname : MemoryTrustStore.identity signer key = MemoryTrustStore.identity signer' key') :
    signer = signer' ∧ key = key' := by
  have hchars : ∀ signer key : String, (MemoryTrustStore.identity signer key).toList =
      signer.toList ++ '\x00' :: key.toList := by
    intro signer key
    simp [MemoryTrustStore.identity]
  have hlist := congrArg String.toList hname
  rw [hchars, hchars] at hlist
  obtain ⟨hsigner, hkey⟩ := append_separator_inj h h' hlist
  exact ⟨String.toList_inj.mp hsigner, String.toList_inj.mp hkey⟩

section
variable (calls : List TrustCall)

theorem storeAfter_keys (s : MemoryTrustStore) :
    (storeAfter s calls).keys =
      Registers.after TrustCall.name TrustCall.onRecord s.keys calls := by
  induction calls generalizing s with
  | nil => rfl
  | cons call rest ih =>
      change (storeAfter (call.apply s).2 rest).keys = _
      rw [ih, TrustCall.apply_eq_step]
      rfl

theorem answersOf_eq (s : MemoryTrustStore) :
    answersOf s calls = Registers.answers TrustCall.name TrustCall.onRecord s.keys calls := by
  induction calls generalizing s with
  | nil => rfl
  | cons call rest ih =>
      rw [answersOf, Registers.answers, ih, TrustCall.apply_eq_step]

theorem answersOf_calls (s : MemoryTrustStore) : (answersOf s calls).map Prod.fst = calls := by
  induction calls generalizing s with
  | nil => rfl
  | cons call rest ih => rw [answersOf, List.map_cons, ih]

/-- The record under a pair is what its own calls make of it, and so are their answers. -/
theorem record_of_pair {signer key : String} (hsigner : ZeroFree signer)
    (hcalls : ∀ call ∈ calls, ZeroFree call.pair.1) :
    (storeAfter .empty calls).keys (MemoryTrustStore.identity signer key) =
        Registers.replay TrustCall.onRecord none
          (calls.filter fun call => call.pair = (signer, key)) ∧
      (answersOf .empty calls).filter (fun answer => answer.1.pair = (signer, key)) =
        Registers.replies TrustCall.onRecord none
          (calls.filter fun call => call.pair = (signer, key)) := by
  have hname : ∀ call ∈ calls, (call.name = MemoryTrustStore.identity signer key ↔
      call.pair = (signer, key)) := by
    intro call hcall
    constructor
    · intro hsame
      obtain ⟨hfirst, hsecond⟩ := identity_inj (hcalls call hcall) hsigner hsame
      exact Prod.ext hfirst hsecond
    · intro hpair
      rw [TrustCall.name, hpair]
  have hcallsFilter :
      (calls.filter fun call => call.name = MemoryTrustStore.identity signer key) =
        calls.filter fun call => call.pair = (signer, key) := by
    refine List.filter_congr fun call hcall => ?_
    rw [decide_eq_decide]
    exact hname call hcall
  have hanswersFilter : ((answersOf .empty calls).filter fun answer =>
        answer.1.name = MemoryTrustStore.identity signer key) =
      (answersOf .empty calls).filter fun answer => answer.1.pair = (signer, key) := by
    refine List.filter_congr fun answer hanswer => ?_
    have hmem := List.mem_map_of_mem (f := Prod.fst) hanswer
    rw [answersOf_calls] at hmem
    rw [decide_eq_decide]
    exact hname answer.1 hmem
  constructor
  · rw [storeAfter_keys, Registers.after_apply, hcallsFilter]
    rfl
  · rw [← hanswersFilter, answersOf_eq, Registers.answers_filter, hcallsFilter]
    rfl

/-- The calls for other pairs do not matter for a record. -/
theorem record_isolated {signer key : String} (hsigner : ZeroFree signer)
    (hcalls : ∀ call ∈ calls, ZeroFree call.pair.1) :
    (storeAfter .empty calls).keys (MemoryTrustStore.identity signer key) =
      (storeAfter .empty (calls.filter fun call => call.pair = (signer, key))).keys
        (MemoryTrustStore.identity signer key) := by
  have hown : ∀ call ∈ calls.filter fun call => call.pair = (signer, key),
      ZeroFree call.pair.1 := fun call hcall => hcalls call (List.mem_filter.mp hcall).1
  rw [(record_of_pair calls hsigner hcalls).1, (record_of_pair _ hsigner hown).1,
    List.filter_filter]
  simp only [Bool.and_self]

end

/-- What a store resolves is the record under the joined name. -/
theorem resolveVerificationKey_eq_ok {signer key : String} {record : VerificationKey} :
    s.resolveVerificationKey signer key = .ok record ↔
      s.keys (MemoryTrustStore.identity signer key) = some record := by
  unfold MemoryTrustStore.resolveVerificationKey
  cases s.keys (MemoryTrustStore.identity signer key) with
  | none => simp
  | some found => simp

theorem storeAfter_append (s : MemoryTrustStore) (calls more : List TrustCall) :
    storeAfter s (calls ++ more) = storeAfter (storeAfter s calls) more :=
  List.foldl_append

/-- A revoked record stays as it is. -/
theorem resolve_of_revoked {signer key : String} {record : VerificationKey} {t : Time}
    (h : s.resolveVerificationKey signer key = .ok record) (hrevoked : record.revokedAt = some t)
    (more : List TrustCall) :
    (storeAfter s more).resolveVerificationKey signer key = .ok record := by
  rw [resolveVerificationKey_eq_ok] at h ⊢
  rw [storeAfter_keys, Registers.after_apply, h]
  obtain ⟨later, hlater, rfl | ⟨hnone, -⟩⟩ := continues_replay record
    (more.filter fun call => call.name = MemoryTrustStore.identity signer key)
  · exact hlater
  · exact absurd (hnone.symm.trans hrevoked) (by simp)

/-- A call that has succeeded once is repeated without effect, unless it adds a key that
has been revoked since. -/
theorem apply_again {call : TrustCall} (hok : (call.apply s).1 = .ok ()) (more : List TrustCall)
    (hvalid : ∀ key, call = .add key → key.revokedAt = none → ∀ record, (storeAfter (call.apply s).2
      more).resolveVerificationKey call.pair.1 call.pair.2 = .ok record → record.revokedAt = none) :
    call.apply (storeAfter (call.apply s).2 more) =
      (.ok (), storeAfter (call.apply s).2 more) := by
  have hrecord : (storeAfter (call.apply s).2 more).keys call.name =
      Registers.replay TrustCall.onRecord (call.onRecord (s.keys call.name)).2
        (more.filter fun other => other.name = call.name) := by
    rw [storeAfter_keys, Registers.after_apply, TrustCall.apply_record]
  rw [TrustCall.apply_answer] at hok
  have hagain := onRecord_again hok (more.filter fun other => other.name = call.name) (by
    intro key hkey hnone later hlater
    refine hvalid key hkey hnone later ?_
    rw [resolveVerificationKey_eq_ok]
    exact hrecord.trans hlater)
  rw [← hrecord] at hagain
  rw [TrustCall.apply_eq_step, Registers.step, hagain, Function.update_eq_self]

/-- The records of a trust store are isolated and append-only.  Trimmed names resolve to
the first record that was added under them, with its first revocation; the calls for other
pairs change neither the record nor the answers; a revocation stays; and a call is
repeated without effect, unless it adds a key that has been revoked since. -/
theorem trust_records_append_only (calls : List TrustCall)
    (hcalls : ∀ call ∈ calls, ZeroFree call.pair.1) :
    let s := storeAfter .empty calls
    (∀ signer key, signer = trimSpace signer → key = trimSpace key → ZeroFree signer →
      let answers := (answersOf .empty calls).filter fun answer =>
        answer.1.pair = (trimSpace signer, trimSpace key)
      s.resolveVerificationKey signer key =
          (recorded answers).elim (.error .verificationKeyAbsent) .ok ∧
        (∀ t ∈ firstRevoked answers, ∃ record, s.resolveVerificationKey signer key = .ok record ∧
          ∃ u ∈ record.revokedAt, u.Equal t) ∧
        s.resolveVerificationKey signer key =
          (storeAfter .empty (calls.filter fun call =>
            call.pair = (trimSpace signer, trimSpace key))).resolveVerificationKey signer key) ∧
    (∀ call : TrustCall, ZeroFree call.pair.1 →
      (call.apply s).1 =
        (call.apply (storeAfter .empty (calls.filter fun other => other.pair = call.pair))).1) ∧
    (∀ signer key record t, s.resolveVerificationKey signer key = .ok record →
      record.revokedAt = some t →
      ∀ more, (storeAfter s more).resolveVerificationKey signer key = .ok record) ∧
    (∀ earlier call later, calls = earlier ++ call :: later →
      (call.apply (storeAfter .empty earlier)).1 = .ok () →
      (∀ key, call = .add key → key.revokedAt = none →
        ∀ record, s.resolveVerificationKey call.pair.1 call.pair.2 = .ok record →
          record.revokedAt = none) →
      call.apply s = (.ok (), s)) := by
  intro s
  refine ⟨?_, ?_, ?_, ?_⟩
  · intro signer key htrimmed htrimmed' hsigner answers
    obtain ⟨hrecord, hanswers⟩ := @record_of_pair calls signer key hsigner hcalls
    have hfaithful : Faithful answers (s.keys (MemoryTrustStore.identity signer key)) := by
      rw [hrecord]
      simp only [answers, ← htrimmed, ← htrimmed', hanswers]
      exact replay_faithful _
    refine ⟨?_, ?_, ?_⟩
    · rw [← hfaithful.recorded_eq, MemoryTrustStore.resolveVerificationKey]
      cases s.keys (MemoryTrustStore.identity signer key) with
      | none => rfl
      | some record => rfl
    · intro t ht
      obtain ⟨record, hfound, hrevoked⟩ := hfaithful.revoked t ht
      exact ⟨record, resolveVerificationKey_eq_ok.mpr hfound, hrevoked⟩
    · rw [← htrimmed, ← htrimmed', MemoryTrustStore.resolveVerificationKey,
        MemoryTrustStore.resolveVerificationKey, record_isolated calls hsigner hcalls]
  · intro call hcall
    rw [TrustCall.apply_answer, TrustCall.apply_answer]
    have hisolated := @record_isolated calls call.pair.1 call.pair.2 hcall hcalls
    rw [TrustCall.name, hisolated]
  · exact fun signer key record t hfound hrevoked more =>
      resolve_of_revoked hfound hrevoked more
  · rintro earlier call later rfl hok hvalid
    have hs : s = storeAfter (call.apply (storeAfter .empty earlier)).2 later :=
      storeAfter_append .empty earlier (call :: later)
    rw [hs] at hvalid ⊢
    exact apply_again hok later hvalid

/-! ## A key ring -/

namespace Keyring

/-- 8:00 on March 1, 2026. -/
def eight : Time := ⟨63907948800000000000, .utc⟩

/-- A signing key of the authority. -/
def key (keyID : String) : VerificationKey where
  signerID := "authority "
  keyID := keyID
  algorithm := algorithmEd25519
  publicKey := List.replicate 32 7
  validFrom := eight
  validUntil := none
  revokedAt := none

def revocation : TrustCall := .revoke " authority" "2026" (eight.add 60000000000)

/-- Two keys are added and one of them is revoked. -/
def rotation : List TrustCall := [.add (key "2026"), .add (key "2027"), revocation]

theorem rotated_key_revoked :
    (storeAfter .empty rotation).resolveVerificationKey "authority" "2026" =
        .ok { (key "2026").trimmed with revokedAt := some (eight.add 60000000000) } ∧
      revocation.apply (storeAfter .empty rotation) = (.ok (), storeAfter .empty rotation) := by
  have hproper : ∀ call ∈ rotation, ZeroFree call.pair.1 := by decide
  have hrecorded : recorded ((answersOf .empty rotation).filter fun answer =>
      answer.1.pair = (trimSpace "authority", trimSpace "2026")) =
      some { (key "2026").trimmed with revokedAt := some (eight.add 60000000000) } := by
    decide +kernel
  obtain ⟨hresolved, -, -, hagain⟩ := trust_records_append_only rotation hproper
  constructor
  · have hfirst := (hresolved "authority" "2026" (by decide) (by decide)
      (by decide)).1
    rw [hrecorded] at hfirst
    exact hfirst
  · refine hagain [.add (key "2026"), .add (key "2027")] revocation [] rfl (by decide +kernel) ?_
    exact fun key hkey => absurd hkey (by simp [revocation])

/-- A signer with a zero byte in its name. -/
def zeroKey : VerificationKey := { key "2026" with signerID := "a\x00b", keyID := "c" }

/-- Two pairs share a name in the map, a revoked key is not added again, and names are
looked up with their blanks. -/
theorem records_interfere :
    ((TrustCall.add { zeroKey with signerID := "a", keyID := "b\x00c" }).apply
        (storeAfter .empty [])).1 = .ok () ∧
    ((TrustCall.add { zeroKey with signerID := "a", keyID := "b\x00c" }).apply
        (storeAfter .empty [.add zeroKey])).1 = .error .verificationKeyConflict ∧
    ((TrustCall.add (key "2026")).apply (storeAfter .empty [])).1 = .ok () ∧
    ((TrustCall.add (key "2026")).apply
        (storeAfter .empty [.add (key "2026"), revocation])).1 =
      .error .verificationKeyConflict ∧
    (storeAfter .empty [.add (key "2026")]).resolveVerificationKey "authority " "2026" =
      .error .verificationKeyAbsent := by
  decide +kernel

end Keyring

end Policy
end CargoPds
