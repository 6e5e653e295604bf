import CargoPds.Delivery.Statements
import CargoPds.Pds.Decisions

/-!
# Ownership of outbox records

Any number of workers deliver the records of one outbox, and the cleanup releases locks
that have run out.  A worker holds a record from its claim to the end of the lock; what
it does later with the copy it still has is stopped by the `WHERE` clauses.

* `Transition.consistent`: the status, the owner and the deadline of a row fit together;
* `find_settled`: a worker changes nothing that it does not hold;
* `delivery_is_exclusive`: what this means for every sequence of calls.
-/

namespace CargoPds
namespace Delivery

open Evaluation Fallible Text Pds

variable {rows : Table} {id : UUID} {row : OutboxRecord} {owner : String}

/-- A call on the outbox; the workers are numbered by `ι`.  A worker may pass any record:
its copies are as old as it likes. -/
inductive Call (lib : Platform) (ι : Type) where
  | insert (new : NewRecord lib)
  | claimReady (worker : ι) (limit : Int) (claimedAt : Time) (lockDuration : Int)
      (locked : List UUID)
  | markPublished (worker : ι) (id : UUID) (publishedAt : Time)
  | scheduleRetry (worker : ι) (record : OutboxRecord)
  | markDeadLettered (worker : ι) (record : OutboxRecord)
  | releaseExpiredLocks (now : Time)

namespace Call

variable {lib : Platform} {ι : Type} (codec : Codec) (ids : ι → String)

/-- The table after a call. -/
def apply (rows : Table) : Call lib ι → Table
  | insert new => Delivery.insert codec rows new
  | claimReady worker limit claimedAt lockDuration locked =>
      (Delivery.claimReady codec rows ⟨ids worker, limit, claimedAt, lockDuration⟩ locked).2
  | markPublished worker id publishedAt =>
      (Delivery.markPublished rows id (ids worker) publishedAt).2
  | scheduleRetry worker record => (Delivery.scheduleRetry rows record (ids worker)).2
  | markDeadLettered worker record => (Delivery.markDeadLettered rows record (ids worker)).2
  | releaseExpiredLocks now => (Delivery.releaseExpiredLocks rows now).2

/-- The worker that reports the outcome of a delivery by the call. -/
def settler : Call lib ι → Option ι
  | markPublished worker _ _ => some worker
  | scheduleRetry worker _ => some worker
  | markDeadLettered worker _ => some worker
  | _ => none

/-- The worker that claims by the call. -/
def claimant : Call lib ι → Option ι
  | claimReady worker _ _ _ _ => some worker
  | _ => none

/-- The records that the call returns. -/
def returned (rows : Table) : Call lib ι → List UUID
  | claimReady worker limit claimedAt lockDuration locked =>
      match (Delivery.claimReady codec rows ⟨ids worker, limit, claimedAt, lockDuration⟩
        locked).1 with
      | .ok records => records.map (·.id)
      | .error _ => []
  | _ => []

/-- The worker takes the record by the call. -/
def Takes (rows : Table) (worker : ι) (id : UUID) (call : Call lib ι) : Prop :=
  call.claimant = some worker ∧ id ∈ call.returned codec ids rows

instance [DecidableEq ι] (rows : Table) (worker : ι) (id : UUID) (call : Call lib ι) :
    Decidable (call.Takes codec ids rows worker id) :=
  inferInstanceAs (Decidable (_ ∧ _))

/-- The worker takes the record by one of the calls. -/
def TakesIn (worker : ι) (id : UUID) : Table → List (Call lib ι) → Prop
  | _, [] => False
  | rows, call :: rest =>
      call.Takes codec ids rows worker id ∨ TakesIn worker id (call.apply codec ids rows) rest

instance decidableTakesIn [DecidableEq ι] (worker : ι) (id : UUID) : (rows : Table) →
    (calls : List (Call lib ι)) → Decidable (TakesIn codec ids worker id rows calls)
  | _, [] => inferInstanceAs (Decidable False)
  | rows, call :: rest =>
      have := decidableTakesIn worker id (call.apply codec ids rows) rest
      inferInstanceAs (Decidable (_ ∨ _))

end Call

/-- The table after a sequence of calls. -/
def tableAfter {lib : Platform} {ι : Type} (codec : Codec) (ids : ι → String) (rows : Table)
    (calls : List (Call lib ι)) : Table :=
  calls.foldl (Call.apply codec ids) rows

/-- The worker with this identifier holds the record. -/
def Holds (rows : Table) (workerID : String) (id : UUID) : Prop :=
  ∃ row ∈ rows.find id, HeldBy (trimSpace workerID) row
deriving Decidable

/-! ## One row -/

/-- The status fits the lock. -/
def Consistent (row : OutboxRecord) : Prop :=
  row.status = .publishing ↔ row.lockOwner ≠ "" ∧ row.lockUntil ≠ none

theorem Untouched.consistent (h : Untouched row) : Consistent row := by
  simp [Consistent, h.pending, h.unowned]

namespace Transition

variable {caller : Caller} {row row' : OutboxRecord}

theorem consistent (h : Transition caller row row') (hrow : Consistent row) :
    Consistent row' := by
  cases h with
  | kept => exact hrow
  | claimed lockUntil named _ _ => simp [Consistent, claim, named]
  | published => simp [Consistent, publish]
  | failed _ settled => rcases settled with h | h <;> simp [Consistent, fail, h]
  | released => simp [Consistent, release]

/-- A terminal status is never left. -/
theorem eq_of_terminal (h : Transition caller row row') (hrow : row.status.IsTerminal) :
    row' = row := by
  have hbusy : row.status ≠ .publishing := by
    rcases hrow with h | h <;> simp [h]
  cases h with
  | kept => rfl
  | claimed _ _ ready _ =>
      rcases hrow with hstatus | hstatus <;> rcases ready with hready | ⟨hready, -⟩ <;>
        exact absurd (hstatus.symm.trans hready) (by decide)
  | published _ held => exact absurd held.1 hbusy
  | failed held _ => exact absurd held.1 hbusy
  | released expired => exact absurd expired.1 hbusy

/-- Reporting an outcome changes only what the worker holds. -/
theorem eq_of_not_held (h : Transition (.settler owner) row row') (hrow : ¬ HeldBy owner row) :
    row' = row := by
  cases h with
  | kept => rfl
  | published _ held => exact absurd held hrow
  | failed held _ => exact absurd held hrow

/-- A row in the hands of a worker has not changed, unless the worker claims it. -/
theorem eq_of_held_after (h : Transition caller row row') (hheld : HeldBy owner row') :
    row' = row ∨ caller = .claimant owner := by
  cases h with
  | kept => exact .inl rfl
  | claimed => exact .inr (congrArg Caller.claimant hheld.2)
  | published => exact absurd hheld.1 (by simp [publish])
  | failed _ settled =>
      have hstatus := hheld.1
      rcases settled with h | h <;> simp [fail, h] at hstatus
  | released => exact absurd hheld.1 (by simp [release])

/-- Only the owner publishes a record, and apart from the cleanup only the owner ends its
delivery. -/
theorem held_before (h : Transition caller row row') (hchanged : row'.status ≠ row.status)
    (hended : row'.status.IsTerminal ∨ (row'.status = .retryScheduled ∧ caller ≠ .cleaner)) :
    ∃ owner, caller = .settler owner ∧ HeldBy owner row := by
  cases h with
  | kept => exact absurd rfl hchanged
  | claimed => simp [claim, OutboxStatus.IsTerminal] at hended
  | published _ held => exact ⟨_, rfl, held⟩
  | failed held _ => exact ⟨_, rfl, held⟩
  | released => simp [release, OutboxStatus.IsTerminal] at hended

/-- A released record is in nobody's hands. -/
theorem not_held_of_released (h : Transition .cleaner row row') (hchanged : row' ≠ row)
    (owner : String) : ¬ HeldBy owner row' := by
  cases h with
  | kept => exact absurd rfl hchanged
  | released => simp [HeldBy, release]

end Transition

/-! ## The table -/

namespace Call

variable {lib : Platform} {ι : Type} (codec : Codec) (ids : ι → String)
variable {call : Call lib ι}

/-- On whose behalf the call runs. -/
def caller : Call lib ι → Caller
  | claimReady worker _ _ _ _ => .claimant (trimSpace (ids worker))
  | markPublished worker _ _ => .settler (trimSpace (ids worker))
  | scheduleRetry worker _ => .settler (trimSpace (ids worker))
  | markDeadLettered worker _ => .settler (trimSpace (ids worker))
  | releaseExpiredLocks _ => .cleaner
  | insert _ => .inserter

theorem caller_of_settler {worker : ι} (h : call.settler = some worker) :
    call.caller ids = .settler (trimSpace (ids worker)) := by
  cases call <;> simp_all [settler, caller]

theorem caller_eq_cleaner (h : call.caller ids = .cleaner) :
    ∃ now, call = .releaseExpiredLocks now := by
  cases call <;> simp_all [caller]

theorem settler_of_caller (h : call.caller ids = .settler owner) :
    ∃ worker, call.settler = some worker ∧ owner = trimSpace (ids worker) := by
  cases call <;> simp_all [settler, caller]

/-- A call changes the rows one by one, or adds a new one. -/
theorem apply_cases (hnodup : (rows.map (·.id)).Nodup) (call : Call lib ι) :
    List.Forall₂ (Transition (call.caller ids)) rows (call.apply codec ids rows) ∨
      ∃ new row, call = .insert new ∧ Untouched row ∧ row.id ∉ rows.map (·.id) ∧
        call.apply codec ids rows = rows ++ [row] := by
  cases call with
  | insert new =>
      rcases insert_cases codec rows new with hsame | ⟨row, hrow, hkey, heq⟩
      · left
        simp only [apply, hsame]
        exact Table.forall₂_refl (Transition.kept _) rows
      · exact .inr ⟨new, row, rfl, hrow, hkey, heq⟩
  | claimReady worker limit claimedAt lockDuration locked =>
      exact .inl (claimReady_transitions hnodup ⟨ids worker, limit, claimedAt, lockDuration⟩ locked)
  | markPublished worker id publishedAt =>
      exact .inl (markPublished_forall₂ (Transition.kept _) fun row _ hheld =>
        Transition.published _ hheld)
  | scheduleRetry worker record =>
      exact .inl (scheduleRetry_forall₂ (Transition.kept _) fun hstatus row _ _ hheld =>
        Transition.failed hheld (.inl hstatus))
  | markDeadLettered worker record =>
      exact .inl (markDeadLettered_forall₂ (Transition.kept _) fun hstatus row _ _ hheld =>
        Transition.failed hheld (.inr hstatus))
  | releaseExpiredLocks now =>
      exact .inl (releaseExpiredLocks_forall₂ (Transition.kept _) fun _ row _ hexpired =>
        Transition.released hexpired)

/-- What a call does to the record under a key. -/
theorem find_cases (hnodup : (rows.map (·.id)).Nodup) (call : Call lib ι) (id : UUID) :
    (rows.find id = none ∧ (call.apply codec ids rows).find id = none) ∨
      (∃ row row', rows.find id = some row ∧ (call.apply codec ids rows).find id = some row' ∧
        Transition (call.caller ids) row row') ∨
      (∃ row, rows.find id = none ∧ (call.apply codec ids rows).find id = some row ∧
        Untouched row ∧ call.settler = none) := by
  rcases apply_cases codec ids hnodup call with hrows | ⟨new, row, rfl, hrow, hkey, heq⟩
  · rcases Table.find_of_forall₂ hrows (fun _ _ => Transition.id_eq) id with hnone | hsome
    · exact .inl hnone
    · exact .inr (.inl hsome)
  · rw [heq, Table.find_append hkey]
    by_cases hid : row.id = id
    · have hnone : rows.find id = none := by
        cases hfind : rows.find id with
        | none => rfl
        | some other =>
            obtain ⟨hmem, hother⟩ := Table.mem_of_find hfind
            exact absurd (List.mem_map.mpr ⟨other, hmem, hother.trans hid.symm⟩) hkey
      rw [if_pos hid]
      exact .inr (.inr ⟨row, hnone, rfl, hrow, rfl⟩)
    · rw [if_neg hid]
      cases hfind : rows.find id with
      | none => exact .inl ⟨rfl, rfl⟩
      | some other => exact .inr (.inl ⟨other, other, rfl, rfl, Transition.kept _ _⟩)

/-- A record that is there stays, changed by one transition at most. -/
theorem transition_of_find (hnodup : (rows.map (·.id)).Nodup) (call : Call lib ι)
    (hrow : rows.find id = some row) :
    ∃ row', (call.apply codec ids rows).find id = some row' ∧
      Transition (call.caller ids) row row' := by
  rcases find_cases codec ids hnodup call id with
    ⟨hnone, -⟩ | ⟨other, row', hother, hrow', htransition⟩ | ⟨-, hnone, -⟩
  · exact absurd (hrow.symm.trans hnone) (by simp)
  · obtain rfl := Option.some.inj (hrow.symm.trans hother)
    exact ⟨row', hrow', htransition⟩
  · exact absurd (hrow.symm.trans hnone) (by simp)

end Call

/-- Keys are unique and every row is consistent. -/
structure Orderly (rows : Table) : Prop where
  nodup : (rows.map (·.id)).Nodup
  consistent : ∀ row ∈ rows, Consistent row

section
variable {lib : Platform} {ι : Type} {codec : Codec} {ids : ι → String}
variable {worker : ι} {call : Call lib ι}

theorem Orderly.apply (h : Orderly rows) (call : Call lib ι) :
    Orderly (call.apply codec ids rows) := by
  rcases Call.apply_cases codec ids h.nodup call with hrows | ⟨-, row, -, hrow, hkey, heq⟩
  · constructor
    · rw [Table.ids_of_forall₂ hrows fun _ _ => Transition.id_eq]
      exact h.nodup
    · intro row' hrow'
      obtain ⟨row, hrow, htransition⟩ := exists_of_mem_right hrows hrow'
      exact htransition.consistent (h.consistent row hrow)
  · rw [heq]
    constructor
    · rw [List.map_append, List.map_singleton]
      exact List.Nodup.append h.nodup (List.nodup_singleton _)
        (List.disjoint_singleton.mpr hkey)
    · intro other hother
      rcases List.mem_append.mp hother with hold | hnew
      · exact h.consistent other hold
      · rw [List.mem_singleton.mp hnew]
        exact hrow.consistent

theorem Orderly.tableAfter (h : Orderly rows) (calls : List (Call lib ι)) :
    Orderly (tableAfter codec ids rows calls) := by
  induction calls generalizing rows with
  | nil => exact h
  | cons call rest ih => exact ih (h.apply call)

theorem orderly_initially : Orderly ([] : Table) :=
  ⟨List.nodup_nil, fun _ h => absurd h List.not_mem_nil⟩

/-- A worker that does not hold a record reports nothing about it. -/
theorem find_settled (h : Orderly rows) (hheld : ¬ Holds rows (ids worker) id)
    (hcall : call.settler = some worker) :
    (call.apply codec ids rows).find id = rows.find id := by
  rcases Call.find_cases codec ids h.nodup call id with
    ⟨hnone, hnone'⟩ | ⟨row, row', hrow, hrow', htransition⟩ | ⟨-, -, -, -, hnone⟩
  · rw [hnone, hnone']
  · rw [Call.caller_of_settler ids hcall] at htransition
    have hkept := htransition.eq_of_not_held fun hrowheld => hheld ⟨row, hrow, hrowheld⟩
    rw [hrow, hrow', hkept]
  · rw [hcall] at hnone
    exact absurd hnone (by simp)

/-- A call that takes nothing changes no record of the claim. -/
theorem find_of_not_returned {limit lockDuration : Int} {claimedAt : Time} {locked : List UUID}
    (hid : id ∉ Call.returned codec ids rows (.claimReady worker limit claimedAt lockDuration locked
      : Call lib ι)) :
    (Call.apply codec ids rows
      (.claimReady worker limit claimedAt lockDuration locked : Call lib ι)).find id =
        rows.find id := by
  rcases claimReady_cases codec rows ⟨ids worker, limit, claimedAt, lockDuration⟩ locked with
    ⟨err, heq⟩ | ⟨taken, records, after, heq, hclaims⟩
  · simp only [Call.apply, heq]
  · simp only [Call.returned, heq] at hid
    simp only [Call.apply, heq]
    exact hclaims.find_eq hid

/-- A record comes into the hands of a worker only by a claim that returns it. -/
theorem takes_of_holds (h : Orderly rows)
    (hdistinct : ∀ i j, trimSpace (ids i) = trimSpace (ids j) → i = j)
    (hbefore : ¬ Holds rows (ids worker) id)
    (hafter : Holds (call.apply codec ids rows) (ids worker) id) :
    call.Takes codec ids rows worker id := by
  obtain ⟨row', hrow', hheld⟩ := hafter
  rcases Call.find_cases codec ids h.nodup call id with
    ⟨-, hnone⟩ | ⟨row, found, hrow, hfound, htransition⟩ | ⟨new, -, hnew, huntouched, -⟩
  · rw [hnone] at hrow'
    exact absurd hrow' (by simp)
  · rw [hfound, Option.mem_some_iff] at hrow'
    subst hrow'
    rcases htransition.eq_of_held_after hheld with heq | hclaimant
    · exact absurd ⟨row, hrow, heq ▸ hheld⟩ hbefore
    · cases call with
      | claimReady claimant limit claimedAt lockDuration locked =>
          have hsame : claimant = worker := hdistinct _ _ (Caller.claimant.inj hclaimant)
          refine ⟨congrArg some hsame, ?_⟩
          by_contra hid
          rw [find_of_not_returned hid, hrow, Option.some.injEq] at hfound
          exact hbefore ⟨row, hrow, hfound ▸ hheld⟩
      | _ => exact absurd hclaimant (by simp [Call.caller])
  · rw [hnew, Option.mem_some_iff] at hrow'
    subst hrow'
    exact absurd hheld.1 (by rw [huntouched.pending]; decide)

/-- Without a claim the record stays out of the worker's hands. -/
theorem not_holds_tableAfter (h : Orderly rows)
    (hdistinct : ∀ i j, trimSpace (ids i) = trimSpace (ids j) → i = j)
    (hbefore : ¬ Holds rows (ids worker) id) {calls : List (Call lib ι)}
    (hcalls : ¬ Call.TakesIn codec ids worker id rows calls) :
    ¬ Holds (tableAfter codec ids rows calls) (ids worker) id := by
  induction calls generalizing rows with
  | nil => exact hbefore
  | cons call rest ih =>
      obtain ⟨hcall, hrest⟩ := not_or.mp hcalls
      have hstep : ¬ Holds (call.apply codec ids rows) (ids worker) id :=
        fun hafter => hcall (takes_of_holds h hdistinct hbefore hafter)
      exact ih (h.apply call) hstep hrest

/-- A change of status that ends a delivery is made by the holder. -/
theorem holds_of_ended (h : Orderly rows) {row' : OutboxRecord} (hrow : rows.find id = some row)
    (hrow' : (call.apply codec ids rows).find id = some row') (hchanged : row'.status ≠ row.status)
    (hended : row'.status.IsTerminal ∨ (row'.status = .retryScheduled ∧ ∀ now, call ≠
      .releaseExpiredLocks now)) :
    ∃ worker, call.settler = some worker ∧ HeldBy (trimSpace (ids worker)) row := by
  obtain ⟨other, hother, htransition⟩ := Call.transition_of_find codec ids h.nodup call hrow
  obtain rfl := Option.some.inj (hrow'.symm.trans hother)
  have hcaller : row'.status.IsTerminal ∨
      (row'.status = .retryScheduled ∧ call.caller ids ≠ .cleaner) := by
    rcases hended with hterminal | ⟨hstatus, hcall⟩
    · exact .inl hterminal
    · refine .inr ⟨hstatus, fun hcleaner => ?_⟩
      obtain ⟨now, heq⟩ := Call.caller_eq_cleaner ids hcleaner
      exact hcall now heq
  obtain ⟨owner, howner, hheld⟩ := htransition.held_before hchanged hcaller
  obtain ⟨worker, hworker, rfl⟩ := Call.settler_of_caller ids howner
  exact ⟨worker, hworker, hheld⟩

/-- A terminal record is never changed again. -/
theorem find_of_terminal (h : Orderly rows) (call : Call lib ι) (hrow : rows.find id = some row)
    (hterminal : row.status.IsTerminal) :
    (call.apply codec ids rows).find id = some row := by
  obtain ⟨row', hrow', htransition⟩ := Call.transition_of_find codec ids h.nodup call hrow
  rw [hrow', htransition.eq_of_terminal hterminal]

/-- A record whose lock is released leaves everybody's hands. -/
theorem not_holds_of_released (h : Orderly rows) {now : Time}
    (hchanged : (Call.apply codec ids rows (.releaseExpiredLocks now : Call lib ι)).find id ≠
      rows.find id) (worker : ι) :
    ¬ Holds (Call.apply codec ids rows (.releaseExpiredLocks now : Call lib ι)) (ids worker)
      id := by
  rintro ⟨row', hrow', hheld⟩
  rcases Call.find_cases codec ids h.nodup (.releaseExpiredLocks now : Call lib ι) id with
    ⟨hnone, hnone'⟩ | ⟨row, found, hrow, hfound, htransition⟩ | ⟨new, -, hnew, huntouched, -⟩
  · exact hchanged (hnone'.trans hnone.symm)
  · rw [hfound, Option.mem_some_iff] at hrow'
    subst hrow'
    refine htransition.not_held_of_released (fun hsame => hchanged ?_) _ hheld
    rw [hfound, hrow, hsame]
  · rw [hnew, Option.mem_some_iff] at hrow'
    subst hrow'
    exact absurd hheld.1 (by rw [huntouched.pending]; decide)

/-- Competing workers, told apart by their trimmed identifiers.  The rows are consistent,
terminal records stay, deliveries are ended by the one holder, a released record is held by
nobody, and a worker without a record reports nothing about it until it claims it again. -/
theorem delivery_is_exclusive (codec : Codec) (ids : ι → String)
    (hdistinct : ∀ i j, trimSpace (ids i) = trimSpace (ids j) → i = j)
    (calls : List (Call lib ι)) :
    let rows := tableAfter codec ids [] calls
    (∀ row ∈ rows, row.status = .publishing ↔ row.lockOwner ≠ "" ∧ row.lockUntil ≠ none) ∧
    (∀ (call : Call lib ι) id row, rows.find id = some row → row.status.IsTerminal →
      (call.apply codec ids rows).find id = some row) ∧
    (∀ (call : Call lib ι) id row row', rows.find id = some row →
      (call.apply codec ids rows).find id = some row' → row'.status ≠ row.status →
      (row'.status.IsTerminal ∨
        (row'.status = .retryScheduled ∧ ∀ now, call ≠ .releaseExpiredLocks now)) →
      ∃ worker, call.settler = some worker ∧ Holds rows (ids worker) id ∧
        ∀ other, Holds rows (ids other) id → other = worker) ∧
    (∀ now id, (Call.apply codec ids rows (.releaseExpiredLocks now : Call lib ι)).find id ≠
        rows.find id →
      ∀ worker, ¬ Holds (Call.apply codec ids rows (.releaseExpiredLocks now : Call lib ι))
        (ids worker) id) ∧
    (∀ worker id, ¬ Holds rows (ids worker) id →
      ∀ more : List (Call lib ι), ¬ Call.TakesIn codec ids worker id rows more →
      ∀ call : Call lib ι, call.settler = some worker →
        (call.apply codec ids (tableAfter codec ids rows more)).find id =
          (tableAfter codec ids rows more).find id) := by
  intro rows
  have horderly : Orderly rows := orderly_initially.tableAfter calls
  refine ⟨horderly.consistent, ?_, ?_, ?_, ?_⟩
  · exact fun call id row => find_of_terminal horderly call
  · intro call id row row' hrow hrow' hchanged hended
    obtain ⟨worker, hworker, hheld⟩ := holds_of_ended horderly hrow hrow' hchanged hended
    refine ⟨worker, hworker, ⟨row, hrow, hheld⟩, ?_⟩
    rintro other ⟨found, hfound, hother⟩
    obtain rfl := Option.some.inj (hrow.symm.trans hfound)
    exact hdistinct other worker (hother.2.symm.trans hheld.2)
  · exact fun now id hchanged worker => not_holds_of_released horderly hchanged worker
  · intro worker id hbefore more hmore call hcall
    have hafter := not_holds_tableAfter horderly hdistinct hbefore hmore
    exact find_settled (horderly.tableAfter more) hafter hcall

end

/-! ## One record and two workers -/

namespace Shipment

open Crate

/-- The evaluation of the crate is created. -/
def event : DomainEvent := ⟨evaluationID, session, 1, .evaluationCreated eight⟩

def eventID : UUID := BitVec.ofNat 128 0x7d5c1e90b3a2487f9c6a5e4d3c2b1001

/-- The record of the event as `NewOutboxRecord` makes it. -/
def record : OutboxRecord where
  id := eventID
  aggregateType := "evaluation"
  aggregateID := evaluationID
  sessionID := session
  aggregateVersion := 1
  eventType := "EvaluationCreatedEvent"
  payload := ((eventJson event).map render).getD []
  status := .pending
  occurredAt := eight
  createdAt := eight
  publishingStartedAt := none
  publishedAt := none
  nextAttemptAt := none
  lastAttemptAt := none
  deadLetteredAt := none
  attempts := 0
  maxAttempts := defaultOutboxMaxAttempts
  lastError := ""
  lockOwner := ""
  lockUntil := none

def announced : NewRecord platform where
  record := record
  created := ⟨event, eight, eventID, by rfl⟩

/-- The payload of the record is valid JSON. -/
def codec : Codec where
  marshalSnapshot _ := none
  unmarshalSnapshot _ := none
  valid payload := payload = record.payload

/-- The lock of half a minute. -/
def lockDuration : Int := 30 * 10 ^ 9

/-- The end of the lock after so many claims of half a minute. -/
def after (locks : Nat) : Time := eight.add (locks * lockDuration)

/-- The first worker claims the record, its lock runs out, and the second worker has the
record when the first one reports. -/
def overtaken : List (Call platform Bool) :=
  [.insert announced, .claimReady false 100 (after 0) lockDuration [],
    .releaseExpiredLocks (after 1)]

def reclaimed : List (Call platform Bool) := [.claimReady true 100 (after 1) lockDuration []]

def report : Call platform Bool := .markPublished false eventID (after 1)

def workers (second : Bool) : String := if second then "worker-2" else "worker-1"

/-- The report of the first worker is ignored. -/
theorem late_report_ignored :
    (report.apply codec workers (tableAfter codec workers (tableAfter codec workers [] overtaken)
        reclaimed)).find eventID =
      (tableAfter codec workers (tableAfter codec workers [] overtaken) reclaimed).find eventID ∧
    Holds (tableAfter codec workers (tableAfter codec workers [] overtaken) reclaimed)
      "worker-2" eventID := by
  refine ⟨?_, by decide +kernel⟩
  exact (delivery_is_exclusive codec workers (by decide) overtaken).2.2.2.2 false eventID
    (by decide +kernel) reclaimed (by decide) report rfl

/-- Identifiers that differ only in a blank. -/
def padded (second : Bool) : String := if second then "worker-1 " else "worker-1"

/-- Workers whose identifiers differ only in white space share their locks: the first one
publishes the record that was released and that it has not claimed again. -/
theorem padded_workers_interfere :
    (∀ i j, padded i = padded j → i = j) ∧
    ¬ Holds (tableAfter codec padded [] overtaken) (padded false) eventID ∧
    ¬ Call.TakesIn codec padded false eventID (tableAfter codec padded [] overtaken) reclaimed ∧
    report.settler = some false ∧
    (report.apply codec padded (tableAfter codec padded (tableAfter codec padded [] overtaken)
        reclaimed)).find eventID ≠
      (tableAfter codec padded (tableAfter codec padded [] overtaken) reclaimed).find eventID := by
  decide +kernel

end Shipment

end Delivery
end CargoPds
