import CargoPds.Delivery.Attempts

/-!
# The time that a batch takes

`PublishOnce` claims a batch under one deadline and hands its records to the broker one
after the other.  `Validate` compares the time of a single call with the duration of the
lock.  So a call lies within the lock of its record for certain only if as many calls as
the batch has records fit into it (`publications_in_time_iff`).

The time passes in the calls of the broker only, and another process may change the table
during each of them.  The deadline is the one that the column has, in whole microseconds.
-/

namespace CargoPds
namespace Delivery

open Evaluation Fallible Text Pds

/-! ## The settings -/

inductive PublisherError where
  /-- `ErrOutboxPublisherConfigInvalid`. -/
  | configInvalid
  | outbox (err : OutboxError)
deriving DecidableEq, Repr

def OutboxPublisherConfig.validate (c : OutboxPublisherConfig) : Except PublisherError Unit := do
  rejectIf (trimSpace c.workerID = "") (.outbox .workerIDRequired)
  rejectIf (trimSpace c.topic = "" ∨ c.pollInterval ≤ 0 ∨ c.lockDuration ≤ 0 ∨
    c.publishTimeout ≤ 0 ∨ c.maxParallelPublications ≤ 0 ∨ c.expiredLockCleanupInterval ≤ 0)
    .configInvalid
  rejectIf (c.batchSize ≤ 0) (.outbox .claimLimitInvalid)
  rejectIf (c.lockDuration ≤ c.publishTimeout) .configInvalid
  c.retryPolicy.validate.mapError .outbox

/-! ## The loop of `PublishOnce` -/

/-- A call of the broker. -/
structure BrokerCall where
  duration : Int
  answer : Except String Unit
  /-- What other processes do to the table in this time. -/
  meanwhile : Table → Table

/-- A record that the broker is given, and when. -/
structure Publication where
  record : OutboxRecord
  message : BrokerMessage
  startedAt : Time
  endedAt : Time

/-- The loop over the claimed records, each with the call that publishes it. -/
def publishRecords (config : OutboxPublisherConfig) :
    Table → Time → List (OutboxRecord × BrokerCall) → List Publication
  | _, _, [] => []
  | rows, now, (r, call) :: batch =>
      let endedAt := now.add call.duration
      ⟨r, brokerMessage config r, now, endedAt⟩ ::
        match settleRecord (call.meanwhile rows) config r call.answer endedAt with
        | (.error _, _) => []
        | (.ok (), rows) => publishRecords config rows endedAt batch

/-- `PublishOnce` from the time `now` on. -/
def publishOnce (codec : Codec) (rows : Table) (config : OutboxPublisherConfig) (now : Time)
    (locked : List UUID) (calls : List BrokerCall) : List Publication :=
  match claimReady codec rows (config.claimRequest now) locked with
  | (.error _, _) => []
  | (.ok records, rows) => publishRecords config rows now (records.zip calls)

/-- The call returns in time. -/
def BrokerCall.Prompt (timeout : Int) (call : BrokerCall) : Prop :=
  0 ≤ call.duration ∧ call.duration ≤ timeout

/-- The record is held all the time that it takes to deliver it, so that no process can
release its lock before the end. -/
structure Publication.InTime (p : Publication) : Prop where
  deadline : ∃ deadline ∈ p.record.lockUntil,
    ¬ p.startedAt.After deadline ∧ ¬ p.endedAt.After deadline
  unreleased : ∀ now : Time, now.Before p.endedAt → ¬ Expired (timestamptz now) p.record

/-! ## The bound -/

/-- A lock that lasts until the end of a delivery is not released before. -/
theorem Publication.inTime_iff {p : Publication} {deadline : Time}
    (hdeadline : p.record.lockUntil = some deadline)
    (hduration : p.startedAt.instant ≤ p.endedAt.instant) :
    p.InTime ↔ p.endedAt.instant ≤ deadline.instant := by
  constructor
  · rintro ⟨⟨other, hother, -, hended⟩, -⟩
    obtain rfl : deadline = other := Option.some.inj (hdeadline.symm.trans hother)
    exact not_lt.mp hended
  · intro h
    refine ⟨⟨deadline, hdeadline, not_lt.mpr (hduration.trans h), not_lt.mpr h⟩, ?_⟩
    rintro now hbefore ⟨-, other, hother, hexpired⟩
    obtain rfl : deadline = other := Option.some.inj (hdeadline.symm.trans hother)
    have htruncated : (timestamptz now).instant ≤ now.instant := Time.truncate_instant_le now.toUTC
    have hreached : deadline.instant ≤ (timestamptz now).instant := not_lt.mp hexpired
    have hearlier : now.instant < p.endedAt.instant := hbefore
    omega

/-- Prompt calls end within as many timeouts as there are records. -/
theorem endedAt_le_of_mem_publishRecords {config : OutboxPublisherConfig} {timeout : Int}
    {batch : List (OutboxRecord × BrokerCall)} {rows : Table} {now : Time}
    (hprompt : ∀ entry ∈ batch, entry.2.Prompt timeout) {p : Publication}
    (hp : p ∈ publishRecords config rows now batch) :
    p.record ∈ batch.map (·.1) ∧ p.startedAt.instant ≤ p.endedAt.instant ∧
      p.endedAt.instant ≤ now.instant + batch.length * timeout := by
  induction batch generalizing rows now with
  | nil => exact absurd hp List.not_mem_nil
  | cons entry batch ih =>
      obtain ⟨r, call⟩ := entry
      obtain ⟨hstart, hend⟩ : 0 ≤ call.duration ∧ call.duration ≤ timeout :=
        hprompt _ List.mem_cons_self
      have htail : ∀ entry ∈ batch, entry.2.Prompt timeout := fun entry hentry =>
        hprompt entry (List.mem_cons_of_mem _ hentry)
      have hrest : 0 ≤ batch.length * timeout :=
        Int.mul_nonneg (Int.natCast_nonneg _) (hstart.trans hend)
      have hlength : (((r, call) :: batch).length : Int) * timeout =
          timeout + batch.length * timeout := by
        rw [List.length_cons, Int.natCast_succ, Int.add_mul, Int.one_mul, Int.add_comm]
      rw [hlength]
      simp only [publishRecords, List.mem_cons] at hp
      rcases hp with rfl | hp
      · refine ⟨List.mem_cons_self, ?_, ?_⟩
        · change now.instant ≤ now.instant + call.duration
          omega
        · change now.instant + call.duration ≤ _
          omega
      · split at hp
        · exact absurd hp List.not_mem_nil
        · obtain ⟨hmem, hordered, hle⟩ := ih htail hp
          refine ⟨List.mem_cons_of_mem _ hmem, hordered, ?_⟩
          change _ ≤ now.instant + call.duration + _ at hle
          omega

/-! ## The longest calls -/

/-- The owner of a record can settle it, once. -/
theorem updateHeld_eq_ok {rows : Table} (hkeys : (rows.map (·.id)).Nodup) {row : OutboxRecord}
    (hrow : row ∈ rows) {owner : String} (hheld : HeldBy owner row)
    (set : OutboxRecord → OutboxRecord) :
    (updateHeld rows row.id owner set).1 = .ok () := by
  have hcount : rows.countP (fun other => other.id = row.id ∧ HeldBy owner other) = 1 := by
    calc rows.countP (fun other => other.id = row.id ∧ HeldBy owner other)
        = rows.countP (fun other => other.id == row.id) := by
          refine List.countP_congr fun other hother => ?_
          simp only [decide_eq_true_eq, beq_iff_eq]
          refine ⟨And.left, fun hsame => ⟨hsame, ?_⟩⟩
          rwa [List.inj_on_of_nodup_map hkeys hother hrow hsame]
      _ = (rows.map (·.id)).count row.id := by
          rw [List.count, List.countP_map]
          rfl
      _ = 1 := List.count_eq_one_of_mem hkeys (List.mem_map_of_mem hrow)
  exact rejectIf_eq_ok.mpr fun hnot => hnot hcount

/-- The worker has the record, under an identifier that can be settled. -/
def Settleable (rows : Table) (owner : String) (r : OutboxRecord) : Prop :=
  r.id ≠ UUID.nil ∧ ∃ row ∈ rows, row.id = r.id ∧ HeldBy owner row

theorem markPublished_eq_ok {rows : Table} (hkeys : (rows.map (·.id)).Nodup)
    {r : OutboxRecord} {workerID : String} (hnamed : trimSpace workerID ≠ "")
    (hr : Settleable rows (trimSpace workerID) r) {now : Time} (hnow : ¬ now.IsZero) :
    ∃ after, markPublished rows r.id workerID now = (.ok (), after) ∧
      (after.map (·.id)).Nodup ∧
      ∀ other, other.id ≠ r.id → Settleable rows (trimSpace workerID) other →
        Settleable after (trimSpace workerID) other := by
  obtain ⟨hid, row, hrow, hsame, hheld⟩ := hr
  have hupdate : markPublished rows r.id workerID now =
      updateHeld rows r.id (trimSpace workerID) (publish (timestamptz now)) := by
    simp only [markPublished, rejectIf, hid, hnamed, hnow, if_false, ok_bind]
  refine ⟨_, Prod.ext ?_ rfl, ?_, ?_⟩
  · rw [hupdate, ← hsame]
    exact updateHeld_eq_ok hkeys hrow hheld _
  · have hrows : List.Forall₂ (fun row row' : OutboxRecord => row'.id = row.id) rows
        (markPublished rows r.id workerID now).2 :=
      @markPublished_forall₂ rows (fun row row' => row'.id = row.id) (fun _ => rfl) workerID
        r.id now fun _ _ _ => rfl
    rw [Table.ids_of_forall₂ hrows fun _ _ h => h]
    exact hkeys
  · rintro other hother ⟨hnil, held, hmem, hkey, hholds⟩
    refine ⟨hnil, held, ?_, hkey, hholds⟩
    rw [hupdate]
    refine List.mem_map.mpr ⟨held, hmem, if_neg fun hmatch => hother ?_⟩
    exact hkey.symm.trans hmatch.1

/-- The call that succeeds at the last moment, with nobody else at work. -/
def longest (timeout : Int) : BrokerCall := ⟨timeout, .ok (), id⟩

/-- If every call takes all the time it may, the last one ends when they all fit. -/
theorem exists_endedAt_eq {config : OutboxPublisherConfig}
    (hnamed : trimSpace config.workerID ≠ "") {timeout : Int} (htimeout : 0 ≤ timeout)
    {records : List OutboxRecord} (hne : records ≠ []) {rows : Table} {now : Time}
    (hnow : 0 < now.instant) (hkeys : (rows.map (·.id)).Nodup)
    (hnodup : (records.map (·.id)).Nodup)
    (hheld : ∀ r ∈ records, Settleable rows (trimSpace config.workerID) r) :
    ∃ p ∈ publishRecords config rows now (records.map fun r => (r, longest timeout)),
      p.endedAt.instant = now.instant + records.length * timeout := by
  induction records generalizing rows now with
  | nil => exact absurd rfl hne
  | cons r records ih =>
      have hended : 0 < (now.add timeout).instant := by
        change 0 < now.instant + timeout
        omega
      obtain ⟨after, hsettled, hkeys', hothers⟩ := markPublished_eq_ok hkeys hnamed
        (hheld r List.mem_cons_self) (Int.ne_of_gt hended)
      by_cases hlast : records = []
      · subst hlast
        refine ⟨_, List.mem_cons_self, ?_⟩
        change now.instant + timeout = now.instant + ((1 : Nat) : Int) * timeout
        omega
      · obtain ⟨hfresh, hrest⟩ := List.nodup_cons.mp hnodup
        obtain ⟨p, hp, hend⟩ := ih hlast hended hkeys' hrest fun other hother =>
          hothers other (fun hsame => hfresh (List.mem_map.mpr ⟨other, hother, hsame⟩))
            (hheld other (List.mem_cons_of_mem _ hother))
        refine ⟨p, ?_, ?_⟩
        · have hloop : settleRecord rows config r (.ok ()) (now.add timeout) = (.ok (), after) :=
            hsettled
          simp only [List.map_cons, publishRecords, longest, id_eq, hloop]
          exact List.mem_cons_of_mem _ hp
        · rw [hend, List.length_cons, Int.natCast_succ, Int.add_mul, Int.one_mul]
          change now.instant + timeout + _ = _
          omega

/-! ## The batch -/

section
variable {codec : Codec} {rows after : Table} {request : OutboxClaimRequest} {locked : List UUID}
  {records : List OutboxRecord}
variable (h : claimReady codec rows request locked = (.ok records, after))

include h

/-- The rows of a claim are the worker's. -/
theorem settleable_of_claimReady :
    ∀ r ∈ records, Settleable after (trimSpace request.workerID) r := by
  obtain ⟨-, -, rfl, hnil, rfl⟩ := claimReady_eq_ok h
  intro r hr
  refine ⟨hnil r hr, r, ?_, rfl, ?_⟩
  · obtain ⟨row, hrow, rfl⟩ := List.mem_map.mp hr
    exact List.mem_map.mpr ⟨row, (mem_selected hrow).1, if_pos (List.mem_map_of_mem hrow)⟩
  · obtain ⟨row, -, rfl⟩ := List.mem_map.mp hr
    exact ⟨rfl, rfl⟩

theorem ids_nodup_of_claimReady (hkeys : (rows.map (·.id)).Nodup) :
    (after.map (·.id)).Nodup ∧ (records.map (·.id)).Nodup := by
  constructor
  · have htable := @claimReady_transitions codec rows hkeys request locked
    rw [h] at htable
    rw [Table.ids_of_forall₂ htable fun row row' htransition => htransition.id_eq]
    exact hkeys
  · obtain ⟨-, -, rfl, -, -⟩ := claimReady_eq_ok h
    rw [List.map_map]
    exact selected_ids_nodup hkeys locked _ _

/-- The deadline of a claimed record. -/
theorem lockUntil_of_claimReady :
    ∀ r ∈ records, r.lockUntil =
      some (timestamptz (request.claimedAt.toUTC.add request.lockDuration)) := by
  obtain ⟨-, -, rfl, -, -⟩ := claimReady_eq_ok h
  intro r hr
  obtain ⟨row, -, rfl⟩ := List.mem_map.mp hr
  rfl

end

/-- Every call of a claimed batch lies within the lock of its record, however long prompt
calls take, exactly if as many calls as the batch has records fit into the lock. -/
theorem publications_in_time_iff {codec : Codec} {rows after : Table}
    (hkeys : (rows.map (·.id)).Nodup) {config : OutboxPublisherConfig}
    (hvalid : config.validate = .ok ()) {now : Time} (hnow : 0 < now.instant)
    {locked : List UUID} {records : List OutboxRecord}
    (hclaim : claimReady codec rows (config.claimRequest now) locked = (.ok records, after)) :
    (∀ calls : List BrokerCall, (∀ call ∈ calls, call.Prompt config.publishTimeout) →
      ∀ p ∈ publishOnce codec rows config now locked calls, p.InTime) ↔
      records = [] ∨ now.instant + records.length * config.publishTimeout ≤
        (timestamptz (now.toUTC.add config.lockDuration)).instant := by
  simp only [OutboxPublisherConfig.validate, bind_eq_ok, rejectIf_eq_ok, exists_const, not_or,
    not_le] at hvalid
  obtain ⟨hnamed, ⟨-, -, -, htimeout, -⟩, -⟩ := hvalid
  have hdeadline := lockUntil_of_claimReady hclaim
  have hloop : ∀ calls, publishOnce codec rows config now locked calls =
      publishRecords config after now (records.zip calls) := by
    intro calls
    simp only [publishOnce, hclaim]
  have hmem : ∀ calls, (∀ call ∈ calls, call.Prompt config.publishTimeout) →
      ∀ p ∈ publishOnce codec rows config now locked calls,
        p.record ∈ records ∧ p.startedAt.instant ≤ p.endedAt.instant ∧
          p.endedAt.instant ≤ now.instant + records.length * config.publishTimeout := by
    intro calls hprompt p hp
    rw [hloop] at hp
    obtain ⟨hrecord, hordered, hle⟩ := endedAt_le_of_mem_publishRecords
      (fun entry hentry => hprompt _ (List.of_mem_zip hentry).2) hp
    obtain ⟨entry, hentry, hsame⟩ := List.mem_map.mp hrecord
    have hlength : ((records.zip calls).length : Int) * config.publishTimeout ≤
        records.length * config.publishTimeout := by
      refine Int.mul_le_mul_of_nonneg_right ?_ htimeout.le
      rw [List.length_zip]
      omega
    exact ⟨hsame ▸ (List.of_mem_zip hentry).1, hordered, by omega⟩
  constructor
  · intro h
    by_cases hne : records = []
    · exact .inl hne
    · obtain ⟨hids, hnodup⟩ := ids_nodup_of_claimReady hclaim hkeys
      have hheld := settleable_of_claimReady hclaim
      obtain ⟨p, hp, hend⟩ := @exists_endedAt_eq config hnamed
        config.publishTimeout htimeout.le records hne after now hnow hids hnodup hheld
      have hlongest : ∀ call ∈ records.map fun _ => longest config.publishTimeout,
          call.Prompt config.publishTimeout := by
        intro call hcall
        obtain ⟨-, -, rfl⟩ := List.mem_map.mp hcall
        exact ⟨htimeout.le, Int.le_refl _⟩
      have hzip : records.zip (records.map fun _ => longest config.publishTimeout) =
          records.map fun r => (r, longest config.publishTimeout) := by
        simpa only [List.map_id, id_eq] using @List.zip_map' _ _ _ id
          (fun _ : OutboxRecord => longest config.publishTimeout) records
      rw [← hzip, ← hloop] at hp
      obtain ⟨hrecord, hordered, -⟩ := hmem _ hlongest p hp
      right
      rw [← hend]
      exact (Publication.inTime_iff (hdeadline _ hrecord) hordered).mp (h _ hlongest p hp)
  · rintro (hempty | hfits) calls hprompt p hp
    · rw [hloop, hempty] at hp
      exact absurd hp List.not_mem_nil
    · obtain ⟨hrecord, hordered, hle⟩ := hmem calls hprompt p hp
      exact (Publication.inTime_iff (hdeadline _ hrecord) hordered).mpr (hle.trans hfits)

namespace Shipment

open Crate

/-- So many records that wait for their delivery. -/
def queue (count : Nat) : Table :=
  (List.range count).map fun place =>
    { record with id := eventID + BitVec.ofNat 128 place }

/-- The records of a batch of the default publisher. -/
def batch (count : Nat) : List OutboxRecord :=
  ((claimReady codec (queue count) (worker.claimRequest eight) []).1.toOption).getD []

theorem claimReady_queue (count : Nat)
    (h : (claimReady codec (queue count) (worker.claimRequest eight) []).1 =
      .ok (batch count)) :
    claimReady codec (queue count) (worker.claimRequest eight) [] =
      (.ok (batch count), (claimReady codec (queue count) (worker.claimRequest eight) []).2) :=
  Prod.ext h rfl

/-- Three calls of ten seconds fit into a lock of half a minute. -/
theorem three_publications_in_time :
    worker.validate = .ok () ∧ (batch 3).length = 3 ∧
      ∀ calls : List BrokerCall, (∀ call ∈ calls, call.Prompt worker.publishTimeout) →
        ∀ p ∈ publishOnce codec (queue 3) worker eight [] calls, p.InTime :=
  ⟨by decide, by decide +kernel,
    (publications_in_time_iff (by decide) (by decide) (by decide)
      (claimReady_queue 3 (by decide +kernel))).mpr (.inr (by decide +kernel))⟩

/-- Four do not: the fourth record is still to be delivered when its lock has run out for ten
seconds. -/
theorem fourth_publication_late :
    worker.validate = .ok () ∧
      ∃ calls : List BrokerCall, (∀ call ∈ calls, call.Prompt worker.publishTimeout) ∧
        ∃ p ∈ publishOnce codec (queue 4) worker eight [] calls, ¬ p.InTime := by
  have hlate : (some (eight.add (30 * 10 ^ 9)), eight.add (40 * 10 ^ 9)) ∈
      (publishOnce codec (queue 4) worker eight []
        (List.replicate 4 (longest (10 * 10 ^ 9)))).map
        fun p => (p.record.lockUntil, p.endedAt) := by
    decide +kernel
  obtain ⟨p, hp, htimes⟩ := List.mem_map.mp hlate
  obtain ⟨hdeadline, hended⟩ := Prod.mk.inj htimes
  refine ⟨by decide, _, ?_, p, hp, ?_⟩
  · intro call hcall
    rw [List.eq_of_mem_replicate hcall]
    exact ⟨by decide, by decide⟩
  · rintro ⟨⟨deadline, hmem, -, hin⟩, -⟩
    obtain rfl := Option.some.inj (hdeadline.symm.trans hmem)
    exact hin (hended ▸ by decide)

end Shipment

end Delivery
end CargoPds
