import CargoPds.Evaluation.Outbox
import CargoPds.Pds.Durable

/-!
# The statements of outbox delivery

`persistence/postgres/outbox_repository.go` works on the table `evaluation_outbox` with
one statement per method.  A statement is a function on the rows: it takes effect as a
whole or, with an error, not at all.  `FOR UPDATE SKIP LOCKED` passes over the rows that
other transactions hold, which are an argument; `RETURNING` lists the claimed rows in no
particular order, here in that of the selection.

`Transition` says once what a statement can do to a row and on whose behalf.  All that
the workers of the outbox can rely on is derived from it.
-/

namespace CargoPds
namespace Delivery

open Evaluation Fallible Text Pds

variable {row record : OutboxRecord} {set : OutboxRecord → OutboxRecord}
variable {request : OutboxClaimRequest} {rows after : Table} {id : UUID} {locked : List UUID}
variable {codec : Codec}

/-- The rows of `evaluation_outbox`. -/
abbrev Table := List OutboxRecord

/-- A time as a `TIMESTAMPTZ` column returns it. -/
def timestamptz (t : Time) : Time := t.toUTC.truncate

/-- The largest value of an `INTEGER` column. -/
def maxInteger : Nat := 2 ^ 31 - 1

namespace Table

/-- The row with the primary key. -/
def find (rows : Table) (id : UUID) : Option OutboxRecord :=
  rows.find? fun row => row.id = id

/-- `UPDATE evaluation_outbox SET … WHERE …`. -/
def update (rows : Table) (condition : OutboxRecord → Prop) [DecidablePred condition]
    (set : OutboxRecord → OutboxRecord) : Table :=
  rows.map fun row => if condition row then set row else row

end Table

/-! ## Claiming -/

/-- The condition of the inner `SELECT`. -/
def Claimable (claimedAt : Time) (row : OutboxRecord) : Prop :=
  row.Ready claimedAt ∧ ∀ deadline ∈ row.lockUntil, ¬ deadline.After claimedAt
deriving Decidable

/-- `ORDER BY occurred_at, event_id`. -/
def ByOccurrence (row other : OutboxRecord) : Prop :=
  row.occurredAt.Before other.occurredAt ∨
    (row.occurredAt.Equal other.occurredAt ∧ row.id.toNat ≤ other.id.toNat)
deriving Decidable

/-- The rows that a claim takes. -/
def selected (rows : Table) (locked : List UUID) (claimedAt : Time) (limit : Nat) : Table :=
  ((rows.filter fun row => Claimable claimedAt row ∧ row.id ∉ locked).insertionSort
    ByOccurrence).take limit

/-- A claimed row. -/
def claim (workerID : String) (claimedAt lockUntil : Time) (row : OutboxRecord) :
    OutboxRecord :=
  { row with
    status := .publishing
    publishingStartedAt := some claimedAt
    lastAttemptAt := some claimedAt
    attempts := row.attempts + 1
    lockOwner := workerID
    lockUntil := some lockUntil }

/-- `scanOutboxRecord` of a row of the table. -/
def scanOutboxRecord (codec : Codec) (row : OutboxRecord) : Except OutboxError OutboxRecord := do
  orElseError (Database.validateOutboxRecord codec row) OutboxError.invalidRecord
  return row

/-- The transaction of `ClaimReady`. -/
def claimTransaction (codec : Codec) (rows : Table) (request : OutboxClaimRequest)
    (locked : List UUID) : Except OutboxError (List OutboxRecord × Table) := do
  request.validate
  let claimedAt := timestamptz request.claimedAt
  let lockUntil := timestamptz (request.claimedAt.toUTC.add request.lockDuration)
  let taken := selected rows locked claimedAt request.limit.toNat
  -- `attempts + 1` has to fit the column
  rejectIf (∃ row ∈ taken, maxInteger < row.attempts.toNat + 1) .database
  let set := claim (trimSpace request.workerID) claimedAt lockUntil
  let records ← (taken.map set).mapM (scanOutboxRecord codec)
  return (records, rows.update (fun row => row.id ∈ taken.map (·.id)) set)

/-- `ClaimReady`. -/
def claimReady (codec : Codec) (rows : Table) (request : OutboxClaimRequest)
    (locked : List UUID) : Except OutboxError (List OutboxRecord) × Table :=
  match claimTransaction codec rows request locked with
  | .error err => (.error err, rows)
  | .ok (records, after) => (.ok records, after)

/-! ## The outcome of a delivery -/

/-- The row is being published, and the lock is the worker's. -/
def HeldBy (owner : String) (row : OutboxRecord) : Prop :=
  row.status = .publishing ∧ row.lockOwner = owner
deriving Decidable

/-- An update of one row that its owner makes, with `requireSingleOutboxUpdate`. -/
def updateHeld (rows : Table) (id : UUID) (owner : String)
    (set : OutboxRecord → OutboxRecord) : Except OutboxError Unit × Table :=
  (rejectIf (rows.countP (fun row => row.id = id ∧ HeldBy owner row) ≠ 1)
      .concurrentModification,
    rows.update (fun row => row.id = id ∧ HeldBy owner row) set)

/-- A published row. -/
def publish (publishedAt : Time) (row : OutboxRecord) : OutboxRecord :=
  { row with
    status := .published
    publishedAt := some publishedAt
    nextAttemptAt := none
    lastError := ""
    lockOwner := ""
    lockUntil := none }

/-- `MarkPublished`. -/
def markPublished (rows : Table) (id : UUID) (workerID : String) (publishedAt : Time) :
    Except OutboxError Unit × Table :=
  let checks : Except OutboxError Unit := do
    rejectIf (id = UUID.nil) .recordNotFound
    rejectIf (trimSpace workerID = "") .workerIDRequired
    rejectIf publishedAt.IsZero .publishTimeRequired
  match checks with
  | .error err => (.error err, rows)
  | .ok () => updateHeld rows id (trimSpace workerID) (publish (timestamptz publishedAt))

/-- A row after a failed delivery. -/
def fail (failed row : OutboxRecord) : OutboxRecord :=
  { row with
    status := failed.status
    nextAttemptAt := failed.nextAttemptAt.map timestamptz
    lastAttemptAt := failed.lastAttemptAt.map timestamptz
    deadLetteredAt := failed.deadLetteredAt.map timestamptz
    attempts := failed.attempts
    lastError := failed.lastError
    lockOwner := ""
    lockUntil := none }

def persistFailedRecord (rows : Table) (record : OutboxRecord) (workerID : String) :
    Except OutboxError Unit × Table :=
  let checks : Except OutboxError Unit := do
    rejectIf (trimSpace workerID = "") .workerIDRequired
    rejectIf (maxInteger < record.attempts.toNat) .database
  match checks with
  | .error err => (.error err, rows)
  | .ok () => updateHeld rows record.id (trimSpace workerID) (fail record)

/-- `ScheduleRetry`. -/
def scheduleRetry (rows : Table) (record : OutboxRecord) (workerID : String) :
    Except OutboxError Unit × Table :=
  if record.status ≠ .retryScheduled ∨ record.nextAttemptAt = none then
    (.error .invalidRetrySchedule, rows)
  else persistFailedRecord rows record workerID

/-- `MarkDeadLettered`. -/
def markDeadLettered (rows : Table) (record : OutboxRecord) (workerID : String) :
    Except OutboxError Unit × Table :=
  if record.status ≠ .deadLettered ∨ record.deadLetteredAt = none then
    (.error .alreadyDeadLettered, rows)
  else persistFailedRecord rows record workerID

/-! ## Expired locks -/

/-- A row that is being published under a lock that has run out. -/
def Expired (now : Time) (row : OutboxRecord) : Prop :=
  row.status = .publishing ∧ ∃ deadline ∈ row.lockUntil, ¬ deadline.After now
deriving Decidable

/-- A row whose lock is released. -/
def release (now : Time) (row : OutboxRecord) : OutboxRecord :=
  { row with
    status := .retryScheduled
    nextAttemptAt := some now
    lockOwner := ""
    lockUntil := none }

/-- `ReleaseExpiredLocks`. -/
def releaseExpiredLocks (rows : Table) (now : Time) : Except OutboxError Nat × Table :=
  if now.IsZero then (.error .failureTimeRequired, rows)
  else
    (.ok (rows.countP fun row => Expired (timestamptz now) row),
      rows.update (Expired (timestamptz now)) (release (timestamptz now)))

/-! ## New rows -/

/-- A record as `NewOutboxRecord` returns it. -/
structure NewRecord (lib : Platform) where
  record : OutboxRecord
  created : ∃ event createdAt id, newOutboxRecord lib event createdAt id = .ok record

/-- `insertOutboxRecords` of one record. -/
def insert {lib : Platform} (codec : Codec) (rows : Table) (new : NewRecord lib) : Table :=
  match Database.insertOutboxRecord codec { Database.empty with outbox := rows } new.record with
  | .error _ => rows
  | .ok after => after.outbox

/-- A row that waits for its first delivery. -/
structure Untouched (row : OutboxRecord) : Prop where
  pending : row.status = .pending
  unowned : row.lockOwner = ""
  unlocked : row.lockUntil = none
  unattempted : row.attempts = 0
  bounded : row.maxAttempts = defaultOutboxMaxAttempts

theorem NewRecord.untouched {lib : Platform} (new : NewRecord lib) :
    Untouched (outboxRow new.record) := by
  obtain ⟨event, createdAt, id, hrecord⟩ := new.created
  obtain ⟨-, -, -, payload, -, heq⟩ := newOutboxRecord_eq_ok hrecord
  rw [heq]
  exact ⟨rfl, rfl, rfl, rfl, rfl⟩

/-- An insertion adds a row with a new key, or nothing. -/
theorem insert_cases {lib : Platform} (codec : Codec) (rows : Table) (new : NewRecord lib) :
    insert codec rows new = rows ∨
      ∃ row, Untouched row ∧ row.id ∉ rows.map (·.id) ∧
        insert codec rows new = rows ++ [row] := by
  unfold insert
  cases hinsert : Database.insertOutboxRecord codec { Database.empty with outbox := rows }
    new.record with
  | error err => exact .inl rfl
  | ok after =>
      right
      simp only [Database.insertOutboxRecord, bind_eq_ok, rejectIf_eq_ok, pure_eq_ok,
        exists_const] at hinsert
      obtain ⟨-, -, hkey, rfl⟩ := hinsert
      exact ⟨outboxRow new.record, new.untouched, hkey, rfl⟩

/-! ## What a statement does to a row -/

/-- On whose behalf a statement runs. -/
inductive Caller where
  /-- `ClaimReady` of a worker. -/
  | claimant (owner : String)
  /-- `MarkPublished`, `ScheduleRetry` or `MarkDeadLettered` of a worker. -/
  | settler (owner : String)
  /-- `ReleaseExpiredLocks`. -/
  | cleaner
  /-- The insertion of a new row, which leaves the others alone. -/
  | inserter
deriving DecidableEq, Repr

/-- The changes of a row. -/
inductive Transition : Caller → OutboxRecord → OutboxRecord → Prop where
  | kept (caller : Caller) (row : OutboxRecord) : Transition caller row row
  | claimed {row : OutboxRecord} {owner : String} {claimedAt : Time} (lockUntil : Time)
      (named : owner ≠ "") (ready : row.Ready claimedAt)
      (fits : row.attempts.toNat + 1 ≤ maxInteger) :
      Transition (.claimant owner) row (claim owner claimedAt lockUntil row)
  | published {row : OutboxRecord} {owner : String} (publishedAt : Time)
      (held : HeldBy owner row) : Transition (.settler owner) row (publish publishedAt row)
  | failed {row failed : OutboxRecord} {owner : String} (held : HeldBy owner row)
      (settled : failed.status = .retryScheduled ∨ failed.status = .deadLettered) :
      Transition (.settler owner) row (fail failed row)
  | released {row : OutboxRecord} {now : Time} (expired : Expired now row) :
      Transition .cleaner row (release now row)

namespace Transition

variable {caller : Caller} {row row' : OutboxRecord}

theorem id_eq (h : Transition caller row row') : row'.id = row.id := by
  cases h <;> rfl

end Transition

namespace Table

variable {rows rows' : Table} {R : OutboxRecord → OutboxRecord → Prop}

theorem forall₂_refl (hrefl : ∀ row, R row row) (rows : Table) : List.Forall₂ R rows rows :=
  List.forall₂_same.mpr fun row _ => hrefl row

/-- An update relates every row to its successor. -/
theorem forall₂_update {condition : OutboxRecord → Prop} [DecidablePred condition]
    (hrefl : ∀ row, R row row) (hset : ∀ row ∈ rows, condition row → R row (set row)) :
    List.Forall₂ R rows (rows.update condition set) := by
  unfold update
  rw [List.forall₂_map_right_iff, List.forall₂_same]
  intro row hrow
  split
  · rename_i hcondition
    exact hset row hrow hcondition
  · exact hrefl row

theorem ids_of_forall₂ (h : List.Forall₂ R rows rows')
    (hid : ∀ row row', R row row' → row'.id = row.id) : rows'.map (·.id) = rows.map (·.id) := by
  induction h with
  | nil => rfl
  | cons hhead _ ih => rw [List.map_cons, List.map_cons, hid _ _ hhead, ih]

/-- A statement relates the two rows under one key. -/
theorem find_of_forall₂ (h : List.Forall₂ R rows rows')
    (hid : ∀ row row', R row row' → row'.id = row.id) (id : UUID) :
    (rows.find id = none ∧ rows'.find id = none) ∨
      ∃ row row', rows.find id = some row ∧ rows'.find id = some row' ∧ R row row' := by
  refine find?_forall₂ h ?_
  intro row row' hrow
  rw [hid row row' hrow]

/-- An update does not touch the rows that fail its condition. -/
theorem find_update {condition : OutboxRecord → Prop} [DecidablePred condition]
    (hset : ∀ row, (set row).id = row.id)
    (hnot : ∀ row : OutboxRecord, row.id = id → ¬ condition row) :
    (rows.update condition set).find id = rows.find id := by
  unfold update find
  induction rows with
  | nil => rfl
  | cons row rest ih =>
      rw [List.map_cons, List.find?_cons, List.find?_cons, ih]
      by_cases hid : row.id = id
      · simp only [if_neg (hnot row hid)]
      · have hkept : (if condition row then set row else row).id = row.id := by
          split
          · exact hset row
          · rfl
        simp only [hkept, hid, decide_false]

theorem mem_of_find (h : rows.find id = some row) :
    row ∈ rows ∧ row.id = id := by
  unfold find at h
  have hid := List.find?_some h
  exact ⟨List.mem_of_find?_eq_some h, of_decide_eq_true hid⟩

theorem find_of_mem (hnodup : (rows.map (·.id)).Nodup) (h : row ∈ rows) :
    rows.find row.id = some row :=
  find?_key_of_nodup h hnodup

/-- A new row is found under its own key, and changes nothing elsewhere. -/
theorem find_append (hnew : row.id ∉ rows.map (·.id)) :
    Table.find (rows ++ [row]) id = if row.id = id then some row else rows.find id := by
  unfold find
  rw [List.find?_append]
  by_cases hid : row.id = id
  · have hnone : rows.find? (fun other => other.id = id) = none := by
      rw [List.find?_eq_none]
      intro other hother hmatch
      have hsame : other.id = row.id := (of_decide_eq_true hmatch).trans hid.symm
      exact hnew (hsame ▸ List.mem_map_of_mem hother)
    rw [hnone, if_pos hid]
    simp [hid]
  · rw [if_neg hid]
    simp [hid]

end Table

/-! ## The statements, one by one -/

theorem mem_selected {claimedAt : Time} {limit : Nat}
    (h : row ∈ selected rows locked claimedAt limit) :
    row ∈ rows ∧ Claimable claimedAt row := by
  have hsorted := (List.mem_insertionSort ByOccurrence).mp (List.mem_of_mem_take h)
  obtain ⟨hmem, hclaimable⟩ := List.mem_filter.mp hsorted
  exact ⟨hmem, (of_decide_eq_true hclaimable).1⟩

theorem selected_ids_nodup (hnodup : (rows.map (·.id)).Nodup) (locked : List UUID)
    (claimedAt : Time) (limit : Nat) :
    ((selected rows locked claimedAt limit).map (·.id)).Nodup := by
  have hfiltered : ((rows.filter fun row => Claimable claimedAt row ∧ row.id ∉ locked).map
      (·.id)).Nodup := hnodup.sublist (List.filter_sublist.map _)
  have hsorted := ((List.perm_insertionSort ByOccurrence _).map (·.id)).nodup_iff.mpr hfiltered
  exact hsorted.sublist ((List.take_sublist _ _).map _)

/-- A successful claim. -/
structure Claims (rows : Table) (workerID : String) (taken records : List OutboxRecord)
    (after : Table) : Prop where
  named : trimSpace workerID ≠ ""
  mem : ∀ row ∈ taken, row ∈ rows
  fits : ∀ row ∈ taken, row.attempts.toNat + 1 ≤ maxInteger
  nodup : (rows.map (·.id)).Nodup → (taken.map (·.id)).Nodup
  effect : ∃ claimedAt lockUntil, (∀ row ∈ taken, Claimable claimedAt row) ∧
    records = taken.map (claim (trimSpace workerID) claimedAt lockUntil) ∧
    after = rows.update (fun row => row.id ∈ taken.map (·.id))
      (claim (trimSpace workerID) claimedAt lockUntil)

theorem Claims.ids_eq {workerID : String} {taken records : List OutboxRecord}
    (h : Claims rows workerID taken records after) :
    records.map (·.id) = taken.map (·.id) := by
  obtain ⟨claimedAt, lockUntil, -, rfl, -⟩ := h.effect
  rw [List.map_map]
  rfl

/-- A claim changes the records that it returns, and no others. -/
theorem Claims.find_eq {workerID : String} {taken records : List OutboxRecord}
    (h : Claims rows workerID taken records after) (hid : id ∉ records.map (·.id)) :
    after.find id = rows.find id := by
  rw [h.ids_eq] at hid
  obtain ⟨claimedAt, lockUntil, -, -, rfl⟩ := h.effect
  apply Table.find_update
  · exact fun _ => rfl
  · intro row hrow hmem
    exact hid (hrow ▸ hmem)

theorem mapM_scan_eq_ok {rows records : List OutboxRecord}
    (h : rows.mapM (scanOutboxRecord codec) = .ok records) : records = rows := by
  have hsame : List.Forall₂ (· = ·) rows records := by
    refine (mapM_eq_ok.mp h).imp ?_
    intro row record hscan
    simp only [scanOutboxRecord, bind_eq_ok, pure_eq_ok] at hscan
    obtain ⟨-, -, hrow⟩ := hscan
    exact hrow
  exact (List.forall₂_eq_eq_eq ▸ hsame).symm

/-- A successful claim returns the selected rows, with one deadline for all of them. -/
theorem claimReady_eq_ok {records : List OutboxRecord}
    (h : claimReady codec rows request locked = (.ok records, after)) :
    let taken := selected rows locked (timestamptz request.claimedAt) request.limit.toNat
    let set := claim (trimSpace request.workerID) (timestamptz request.claimedAt)
      (timestamptz (request.claimedAt.toUTC.add request.lockDuration))
    request.validate = .ok () ∧ (∀ row ∈ taken, row.attempts.toNat + 1 ≤ maxInteger) ∧
      records = taken.map set ∧ (∀ record ∈ records, record.id ≠ UUID.nil) ∧
      after = rows.update (fun row => row.id ∈ taken.map (·.id)) set := by
  unfold claimReady at h
  cases hclaim : claimTransaction codec rows request locked with
  | error err =>
      rw [hclaim] at h
      exact absurd (congrArg Prod.fst h) (by simp)
  | ok reply =>
      rw [hclaim] at h
      simp only [claimTransaction, bind_eq_ok, rejectIf_eq_ok, pure_eq_ok, exists_const,
        not_exists, not_and, not_lt] at hclaim
      obtain ⟨⟨⟩, hvalid, hfits, scanned, hscan, rfl⟩ := hclaim
      obtain ⟨hrecords, rfl⟩ := Prod.mk.inj h
      obtain rfl := Except.ok.inj hrecords
      refine ⟨hvalid, hfits, mapM_scan_eq_ok hscan, fun record hrecord => ?_, rfl⟩
      -- the scan of the returned rows refuses the nil identifier
      obtain ⟨row, -, hrow⟩ := exists_of_mem_right (mapM_eq_ok.mp hscan) hrecord
      simp only [scanOutboxRecord, Database.validateOutboxRecord, bind_eq_ok, pure_eq_ok,
        orElseError_eq_ok, rejectIf_eq_ok, exists_const, not_or] at hrow
      exact hrow.2 ▸ hrow.1.1.1

theorem claimReady_eq_error {err : OutboxError}
    (h : claimReady codec rows request locked = (.error err, after)) : after = rows := by
  unfold claimReady at h
  split at h
  · exact (Prod.mk.inj h).2.symm
  · exact absurd (congrArg Prod.fst h) (by simp)

/-- A claim takes rows or leaves the table as it is. -/
theorem claimReady_cases (codec : Codec) (rows : Table) (request : OutboxClaimRequest)
    (locked : List UUID) :
    (∃ err, claimReady codec rows request locked = (.error err, rows)) ∨
      ∃ taken records after, claimReady codec rows request locked = (.ok records, after) ∧
        Claims rows request.workerID taken records after := by
  cases hclaim : claimReady codec rows request locked with
  | mk answer after =>
      cases answer with
      | error err => exact .inl ⟨err, by rw [claimReady_eq_error hclaim]⟩
      | ok records =>
          obtain ⟨hvalid, hfits, hrecords, -, hafter⟩ := claimReady_eq_ok hclaim
          exact .inr ⟨_, records, after, rfl, (OutboxClaimRequest.validate_eq_ok.mp hvalid).1,
            fun row hrow => (mem_selected hrow).1, hfits,
            fun hnodup => selected_ids_nodup hnodup _ _ _,
            _, _, fun row hrow => (mem_selected hrow).2, hrecords, hafter⟩

theorem claimReady_transitions {codec : Codec} {rows : Table} (hnodup : (rows.map (·.id)).Nodup)
    (request : OutboxClaimRequest) (locked : List UUID) :
    List.Forall₂ (Transition (.claimant (trimSpace request.workerID))) rows
      (claimReady codec rows request locked).2 := by
  rcases claimReady_cases codec rows request locked with
    ⟨err, heq⟩ | ⟨taken, records, after, heq, hclaims⟩
  · rw [heq]
    exact Table.forall₂_refl (Transition.kept _) rows
  · rw [heq]
    obtain ⟨claimedAt, lockUntil, hclaimable, -, rfl⟩ := hclaims.effect
    refine Table.forall₂_update (Transition.kept _) ?_
    intro row hrow hid
    -- the row with the key of a taken row is that row
    obtain ⟨other, hother, hsame⟩ := List.mem_map.mp hid
    have heq := List.inj_on_of_nodup_map hnodup (hclaims.mem other hother) hrow hsame
    rw [heq] at hother
    exact Transition.claimed lockUntil hclaims.named (hclaimable row hother).1
      (hclaims.fits row hother)

/-! Each of the other statements relates the rows before and after by any relation that
holds of the rows it changes. -/

section
variable {rows : Table} {R : OutboxRecord → OutboxRecord → Prop} (hrefl : ∀ row, R row row)
  {workerID : String}
include hrefl

theorem updateHeld_forall₂ {owner : String}
    (hset : ∀ row ∈ rows, row.id = id → HeldBy owner row → R row (set row)) :
    List.Forall₂ R rows (updateHeld rows id owner set).2 :=
  Table.forall₂_update hrefl fun row hrow hheld => hset row hrow hheld.1 hheld.2

theorem markPublished_forall₂ {id : UUID} {publishedAt : Time}
    (hset : ∀ row ∈ rows, HeldBy (trimSpace workerID) row →
      R row (publish (timestamptz publishedAt) row)) :
    List.Forall₂ R rows (markPublished rows id workerID publishedAt).2 := by
  simp only [markPublished]
  split
  · exact Table.forall₂_refl hrefl rows
  · exact updateHeld_forall₂ hrefl fun row hrow _ hheld => hset row hrow hheld

theorem persistFailedRecord_forall₂
    (hset : ∀ row ∈ rows, row.id = record.id → HeldBy (trimSpace workerID) row → R row (fail record
      row)) :
    List.Forall₂ R rows (persistFailedRecord rows record workerID).2 := by
  simp only [persistFailedRecord]
  split
  · exact Table.forall₂_refl hrefl rows
  · exact updateHeld_forall₂ hrefl hset

theorem scheduleRetry_forall₂
    (hset : record.status = .retryScheduled → ∀ row ∈ rows, row.id = record.id → HeldBy (trimSpace
      workerID) row → R row (fail record row)) :
    List.Forall₂ R rows (scheduleRetry rows record workerID).2 := by
  unfold scheduleRetry
  split
  · exact Table.forall₂_refl hrefl rows
  · rename_i hrecord
    rw [not_or, not_not] at hrecord
    exact persistFailedRecord_forall₂ hrefl (hset hrecord.1)

theorem markDeadLettered_forall₂
    (hset : record.status = .deadLettered → ∀ row ∈ rows, row.id = record.id → HeldBy (trimSpace
      workerID) row → R row (fail record row)) :
    List.Forall₂ R rows (markDeadLettered rows record workerID).2 := by
  unfold markDeadLettered
  split
  · exact Table.forall₂_refl hrefl rows
  · rename_i hrecord
    rw [not_or, not_not] at hrecord
    exact persistFailedRecord_forall₂ hrefl (hset hrecord.1)

theorem releaseExpiredLocks_forall₂ {now : Time}
    (hset : ¬ now.IsZero → ∀ row ∈ rows, Expired (timestamptz now) row →
      R row (release (timestamptz now) row)) :
    List.Forall₂ R rows (releaseExpiredLocks rows now).2 := by
  unfold releaseExpiredLocks
  split
  · exact Table.forall₂_refl hrefl rows
  · rename_i hnow
    exact Table.forall₂_update hrefl (hset hnow)

end

end Delivery
end CargoPds
