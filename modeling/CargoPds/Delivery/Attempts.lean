import CargoPds.Delivery.Ownership

/-!
# Attempts of a delivery

Publishers claim records, hand them to the broker and report the outcome; they may crash
between any two of these steps, and the cleanup returns the records of expired locks to
the queue.  The state of the whole is a `System`: the table, what the broker has been
given, and the running calls of `PublishOnce` with the copies they work on.

The attempts of a record are counted when it is claimed, and compared with their maximum
only when a failure is registered.  `attempts_are_bounded` says when that is enough;
`released_records_exceed` is a record that is given to the broker once too often, because
its locks expire and nothing on that way looks at the maximum.
-/

namespace CargoPds
namespace Delivery

open Evaluation Fallible Text Pds

variable {config : OutboxPublisherConfig} {r row : OutboxRecord} {owner : String} {s : System}
variable {lib : Platform} {rows : Table}

structure OutboxPublisherConfig where
  workerID : String
  topic : String
  batchSize : Int
  pollInterval : Int
  lockDuration : Int
  publishTimeout : Int
  maxParallelPublications : Int
  retryPolicy : OutboxRetryPolicy
  expiredLockCleanupInterval : Int
deriving DecidableEq, Repr

def defaultOutboxPublisherConfig (workerID : String) : OutboxPublisherConfig :=
  ⟨workerID, "cargoos.evaluation.events.v1", 100, 500 * 10 ^ 6, 30 * 10 ^ 9, 10 * 10 ^ 9, 8,
    defaultOutboxRetryPolicy, 30 * 10 ^ 9⟩

/-- The request with which `PublishOnce` claims a batch. -/
def OutboxPublisherConfig.claimRequest (config : OutboxPublisherConfig) (now : Time) :
    OutboxClaimRequest :=
  ⟨config.workerID, config.batchSize, now.toUTC, config.lockDuration⟩

structure BrokerMessage where
  id : String
  topic : String
  key : String
  headers : List (String × String)
  payload : Bytes
  occurredAt : Time
deriving DecidableEq, Repr

/-- The message of a record. -/
def brokerMessage (config : OutboxPublisherConfig) (r : OutboxRecord) : BrokerMessage where
  id := r.id.text
  topic := config.topic
  key := r.aggregateID.text
  headers := [("event_type", r.eventType), ("aggregate_version", toString r.aggregateVersion)]
  payload := r.payload
  occurredAt := r.occurredAt

/-! ## Publishers -/

/-- A running call of `PublishOnce`. -/
structure Publisher where
  config : OutboxPublisherConfig
  /-- The claimed records that the broker has not been given yet. -/
  waiting : List OutboxRecord
  /-- The record that the broker has answered, with its answer. -/
  answered : Option (OutboxRecord × Except String Unit)

/-- What the loop does with the answer of the broker. -/
def settleRecord (rows : Table) (config : OutboxPublisherConfig) (r : OutboxRecord)
    (answer : Except String Unit) (now : Time) : Except OutboxError Unit × Table :=
  match answer with
  | .ok () => markPublished rows r.id config.workerID now
  | .error reason =>
      match r.registerFailure config.workerID reason now config.retryPolicy with
      | .error err => (.error err, rows)
      | .ok failed =>
          if failed.status = .deadLettered then markDeadLettered rows failed config.workerID
          else scheduleRetry rows failed config.workerID

structure System where
  rows : Table
  /-- The messages that the broker has been given. -/
  broker : List BrokerMessage
  publishers : List Publisher

namespace System

def initial : System := ⟨[], [], []⟩

/-- The call at a place goes on as another one, or returns. -/
def resume (s : System) (index : Nat) (next : Option Publisher) : System :=
  { s with
    publishers := s.publishers.take index ++ next.toList ++ s.publishers.drop (index + 1) }

end System

/-- One step of one of the parties. -/
inductive Event (lib : Platform) where
  /-- A transaction writes a record. -/
  | insert (new : NewRecord lib)
  /-- A call of `PublishOnce` starts with its claim. -/
  | claim (config : OutboxPublisherConfig) (now : Time) (locked : List UUID)
  /-- A publisher gives its next record to the broker, which answers. -/
  | publish (index : Nat) (answer : Except String Unit)
  /-- A publisher stores the outcome. -/
  | settle (index : Nat) (now : Time)
  /-- A publisher stops where it is. -/
  | crash (index : Nat)
  | releaseExpiredLocks (now : Time)

namespace Event

variable {lib : Platform} (codec : Codec)

def step (s : System) : Event lib → System
  | insert new => { s with rows := Delivery.insert codec s.rows new }
  | claim config now locked =>
      match claimReady codec s.rows (config.claimRequest now) locked with
      | (.error _, rows) => { s with rows := rows }
      | (.ok records, rows) =>
          -- without records the loop is over before it starts
          if records = [] then { s with rows := rows }
          else { s with
            rows := rows
            publishers := s.publishers ++ [⟨config, records, none⟩] }
  | publish index answer =>
      match s.publishers[index]? with
      | some ⟨config, r :: rest, none⟩ =>
          { s with broker := s.broker ++ [brokerMessage config r] }.resume index
            (some ⟨config, rest, some (r, answer)⟩)
      | _ => s
  | settle index now =>
      match s.publishers[index]? with
      | some ⟨config, rest, some (r, answer)⟩ =>
          match settleRecord s.rows config r answer now with
          | (.error _, rows) => { s with rows := rows }.resume index none
          | (.ok (), rows) =>
              { s with rows := rows }.resume index
                (if rest = [] then none else some ⟨config, rest, none⟩)
      | _ => s
  | crash index => s.resume index none
  | releaseExpiredLocks now => { s with rows := (Delivery.releaseExpiredLocks s.rows now).2 }

/-- The steps that keep the attempts within their bound: a lock is not released on a record
that has used up its attempts, and no two calls publish for one worker. -/
def Careful (s : System) : Event lib → Prop
  | releaseExpiredLocks now =>
      ¬ now.IsZero → ∀ row ∈ s.rows, Expired (timestamptz now) row →
        row.attempts < row.maxAttempts
  | claim config now locked =>
      (claimReady codec s.rows (config.claimRequest now) locked).1.toOption.getD [] ≠ [] →
        ∀ publisher ∈ s.publishers,
          trimSpace publisher.config.workerID ≠ trimSpace config.workerID
  | _ => True

instance (s : System) (event : Event lib) : Decidable (event.Careful codec s) := by
  unfold Careful
  split <;> infer_instance

end Event

/-- The state after a sequence of steps. -/
def systemAfter {lib : Platform} (codec : Codec) (s : System) (events : List (Event lib)) :
    System :=
  events.foldl (Event.step codec) s

/-- Every step of the run is careful. -/
def CarefulRun {lib : Platform} (codec : Codec) : System → List (Event lib) → Prop
  | _, [] => True
  | s, event :: rest => event.Careful codec s ∧ CarefulRun codec (event.step codec s) rest

instance decidableCarefulRun {lib : Platform} (codec : Codec) : (s : System) →
    (events : List (Event lib)) → Decidable (CarefulRun codec s events)
  | _, [] => inferInstanceAs (Decidable True)
  | s, event :: rest =>
      have := decidableCarefulRun codec (event.step codec s) rest
      inferInstanceAs (Decidable (_ ∧ _))

/-! ## The bound of a row -/

/-- The attempts are within their bound, with one left while the record is queued. -/
structure Bounded (row : OutboxRecord) : Prop where
  attempts_le : row.attempts ≤ row.maxAttempts
  attempts_lt : row.status = .pending ∨ row.status = .retryScheduled →
    row.attempts < row.maxAttempts

theorem Untouched.bounded_row (h : Untouched row) : Bounded row := by
  have hlt : row.attempts < row.maxAttempts := by
    rw [h.unattempted, h.bounded]
    decide
  exact ⟨UInt32.le_of_lt hlt, fun _ => hlt⟩

/-- One more attempt fits the column, so it does not wrap around. -/
theorem toNat_add_one {attempts : UInt32} (h : attempts.toNat + 1 ≤ maxInteger) :
    (attempts + 1).toNat = attempts.toNat + 1 := by
  unfold maxInteger at h
  rw [UInt32.toNat_add]
  simp only [UInt32.reduceToNat]
  omega

/-- What a careful step does to a row. -/
structure Progress (caller : Caller) (row row' : OutboxRecord) : Prop where
  transition : Transition caller row row'
  bounded : Bounded row → Bounded row'
  attempts_le : row.attempts.toNat ≤ row'.attempts.toNat

namespace Progress

theorem kept (caller : Caller) (row : OutboxRecord) : Progress caller row row :=
  ⟨Transition.kept caller row, fun h => h, Nat.le_refl _⟩

theorem claimed {row' : OutboxRecord} (h : Transition (.claimant owner) row row') :
    Progress (.claimant owner) row row' := by
  refine ⟨h, ?_, ?_⟩
  · intro hbounded
    cases h with
    | kept => exact hbounded
    | claimed lockUntil _ ready fits =>
        have hlt : row.attempts < row.maxAttempts :=
          hbounded.attempts_lt (ready.imp id And.left)
        constructor
        · change row.attempts + 1 ≤ row.maxAttempts
          rw [UInt32.le_iff_toNat_le, toNat_add_one fits]
          exact UInt32.lt_iff_toNat_lt.mp hlt
        · exact fun hstatus => absurd hstatus (by simp [claim])
  · cases h with
    | kept => exact Nat.le_refl _
    | claimed lockUntil _ _ fits =>
        change row.attempts.toNat ≤ (row.attempts + 1).toNat
        rw [toNat_add_one fits]
        omega

theorem published (publishedAt : Time) (hheld : HeldBy owner row) :
    Progress (.settler owner) row (publish publishedAt row) :=
  ⟨Transition.published publishedAt hheld,
    fun hbounded => ⟨hbounded.attempts_le, fun hstatus => absurd hstatus (by simp [publish])⟩,
    Nat.le_refl _⟩

/-- A failure is registered on a copy that has the attempts of the row. -/
theorem failed {failed : OutboxRecord} {workerID reason : String} {failedAt : Time}
    {policy : OutboxRetryPolicy} (hheld : HeldBy owner row)
    (hcopy : row.attempts = r.attempts ∧ row.maxAttempts = r.maxAttempts)
    (hfailed : r.registerFailure workerID reason failedAt policy = .ok failed) :
    Progress (.settler owner) row (fail failed row) := by
  obtain ⟨-, hattempts, hcases⟩ := OutboxRecord.registerFailure_eq_ok hfailed
  have hsame : (fail failed row).attempts = row.attempts := hattempts.trans hcopy.1.symm
  have hbound : (fail failed row).maxAttempts = row.maxAttempts := rfl
  refine ⟨Transition.failed hheld ?_, ?_, ?_⟩
  · rcases hcases with ⟨-, hstatus, -⟩ | ⟨-, hstatus, -⟩
    · exact .inr hstatus
    · exact .inl hstatus
  · intro hbounded
    constructor
    · rw [hsame, hbound]
      exact hbounded.attempts_le
    · intro hstatus
      rcases hcases with ⟨-, hdead, -⟩ | ⟨hleft, -, -⟩
      · change failed.status = .pending ∨ failed.status = .retryScheduled at hstatus
        rw [hdead] at hstatus
        exact absurd hstatus (by simp)
      · rw [hsame, hbound, hcopy.1, hcopy.2]
        exact UInt32.not_le.mp hleft
  · rw [hsame]

theorem released {now : Time} (hexpired : Expired now row)
    (hleft : row.attempts < row.maxAttempts) :
    Progress .cleaner row (release now row) :=
  ⟨Transition.released hexpired, fun hbounded => ⟨hbounded.attempts_le, fun _ => hleft⟩,
    Nat.le_refl _⟩

end Progress

/-! ## The invariant -/

/-- The attempts that the table shows for a record. -/
def attemptsOf (rows : Table) (id : UUID) : Nat := ((rows.find id).map (·.attempts.toNat)).getD 0

/-- The messages of a record that the broker has been given. -/
def handed (broker : List BrokerMessage) (id : UUID) : Nat :=
  broker.countP fun message => message.id = id.text

/-- The claimed copies of a record that have not been given to the broker. -/
def pending (publishers : List Publisher) (id : UUID) : Nat :=
  (publishers.flatMap (·.waiting)).countP fun r => r.id = id

/-- The copies that a publisher works on. -/
def Publisher.copies (p : Publisher) : List OutboxRecord :=
  p.answered.toList.map Prod.fst ++ p.waiting

/-- The copy agrees with the row as long as its holder has the lock. -/
def Matches (rows : Table) (owner : String) (r : OutboxRecord) : Prop :=
  ∃ row, rows.find r.id = some row ∧
    (HeldBy owner row → row.attempts = r.attempts ∧ row.maxAttempts = r.maxAttempts)

/-- Every hand-over is paid for by an attempt, and the attempts are bounded. -/
structure Accounted (s : System) : Prop where
  nodup : (s.rows.map (·.id)).Nodup
  bounded : ∀ row ∈ s.rows, Bounded row
  copies : ∀ p ∈ s.publishers, ∀ r ∈ p.copies,
    Matches s.rows (trimSpace p.config.workerID) r
  budget : ∀ id, handed s.broker id + pending s.publishers id ≤ attemptsOf s.rows id

theorem accounted_initially : Accounted System.initial :=
  ⟨List.nodup_nil, fun _ h => absurd h List.not_mem_nil, fun _ h => absurd h List.not_mem_nil,
    fun _ => Nat.le_refl _⟩

/-- What a careful step does to the table. -/
structure Advances (caller : Caller) (rows rows' : Table) : Prop where
  nodup : (rows'.map (·.id)).Nodup
  bounded : ∀ row ∈ rows', Bounded row
  progress : ∀ id row, rows.find id = some row →
    ∃ row', rows'.find id = some row' ∧ Progress caller row row'

theorem advances_of_forall₂ {caller : Caller} {rows' : Table} (hnodup : (rows.map (·.id)).Nodup)
    (hbounded : ∀ row ∈ rows, Bounded row) (h : List.Forall₂ (Progress caller) rows rows') :
    Advances caller rows rows' where
  nodup := by
    rw [Table.ids_of_forall₂ h fun _ _ hrow => hrow.transition.id_eq]
    exact hnodup
  bounded := by
    intro row' hrow'
    obtain ⟨row, hrow, hprogress⟩ := exists_of_mem_right h hrow'
    exact hprogress.bounded (hbounded row hrow)
  progress := by
    intro id row hrow
    rcases Table.find_of_forall₂ h (fun _ _ hrow => hrow.transition.id_eq) id with
      ⟨hnone, -⟩ | ⟨other, row', hother, hrow', hprogress⟩
    · exact absurd (hrow.symm.trans hnone) (by simp)
    · obtain rfl := Option.some.inj (hrow.symm.trans hother)
      exact ⟨row', hrow', hprogress⟩

theorem advances_insert (hnodup : (rows.map (·.id)).Nodup) (hbounded : ∀ row ∈ rows, Bounded row)
    (codec : Codec) (new : NewRecord lib) :
    Advances .inserter rows (insert codec rows new) := by
  rcases insert_cases codec rows new with hsame | ⟨row, hrow, hkey, heq⟩
  · rw [hsame]
    exact advances_of_forall₂ hnodup hbounded (Table.forall₂_refl (Progress.kept _) rows)
  · rw [heq]
    refine ⟨?_, ?_, ?_⟩
    · rw [List.map_append, List.map_singleton]
      exact List.Nodup.append hnodup (List.nodup_singleton _) (List.disjoint_singleton.mpr hkey)
    · intro other hother
      rcases List.mem_append.mp hother with hold | hnew
      · exact hbounded other hold
      · rw [List.mem_singleton.mp hnew]
        exact hrow.bounded_row
    · intro id other hother
      refine ⟨other, ?_, Progress.kept _ _⟩
      obtain ⟨hmem, hid⟩ := Table.mem_of_find hother
      have hne : row.id ≠ id := fun hsame =>
        hkey (List.mem_map.mpr ⟨other, hmem, hid.trans hsame.symm⟩)
      rw [Table.find_append hkey, if_neg hne]
      exact hother

namespace Advances

variable {caller : Caller} {rows rows' : Table}

theorem attemptsOf_le (h : Advances caller rows rows') (id : UUID) :
    attemptsOf rows id ≤ attemptsOf rows' id := by
  unfold attemptsOf
  cases hrow : rows.find id with
  | none => exact Nat.zero_le _
  | some row =>
      obtain ⟨row', hrow', hprogress⟩ := h.progress id row hrow
      rw [hrow']
      exact hprogress.attempts_le

/-- A copy goes on matching until its own worker claims again. -/
theorem matches_of (h : Advances caller rows rows') (hcaller : caller ≠ .claimant owner)
    (hr : Matches rows owner r) : Matches rows' owner r := by
  obtain ⟨row, hrow, hsame⟩ := hr
  obtain ⟨row', hrow', hprogress⟩ := h.progress r.id row hrow
  refine ⟨row', hrow', fun hheld => ?_⟩
  rcases hprogress.transition.eq_of_held_after hheld with heq | hclaimant
  · rw [heq] at hheld ⊢
    exact hsame hheld
  · exact absurd hclaimant hcaller

end Advances

/-- The table moves on under publishers whose locks are not claimed. -/
theorem Accounted.advance (h : Accounted s) {caller : Caller} {rows' : Table}
    (hrows : Advances caller s.rows rows')
    (hcaller : ∀ p ∈ s.publishers, caller ≠ .claimant (trimSpace p.config.workerID)) :
    Accounted { s with rows := rows' } where
  nodup := hrows.nodup
  bounded := hrows.bounded
  copies p hp r hr := hrows.matches_of (hcaller p hp) (h.copies p hp r hr)
  budget id := (h.budget id).trans (hrows.attemptsOf_le id)

/-! ## The steps -/

section
variable {s : System} {index : Nat} {p : Publisher}

theorem publishers_split (hp : s.publishers[index]? = some p) :
    s.publishers = s.publishers.take index ++ p :: s.publishers.drop (index + 1) := by
  obtain ⟨hlt, rfl⟩ := List.getElem?_eq_some_iff.mp hp
  rw [List.getElem_cons_drop, List.take_append_drop]

theorem mem_resume {next : Option Publisher} {q : Publisher}
    (hq : q ∈ (s.resume index next).publishers) : q ∈ s.publishers ∨ q ∈ next := by
  rcases List.mem_append.mp hq with hfront | hback
  · rcases List.mem_append.mp hfront with hkept | hnext
    · exact .inl (List.mem_of_mem_take hkept)
    · exact .inr (Option.mem_toList.mp hnext)
  · exact .inl (List.mem_of_mem_drop hback)

/-- The copies that wait after a call has gone on. -/
theorem pending_resume (hp : s.publishers[index]? = some p) (next : Option Publisher)
    (id : UUID) :
    pending (s.resume index next).publishers id + p.waiting.countP (fun r => r.id = id) =
      pending s.publishers id + pending next.toList id := by
  have hbefore : pending s.publishers id = pending (s.publishers.take index) id +
      (p.waiting.countP (fun r => r.id = id) + pending (s.publishers.drop (index + 1)) id) := by
    conv_lhs => rw [publishers_split hp]
    simp only [pending, List.flatMap_append, List.flatMap_cons, List.countP_append]
  have hafter : pending (s.resume index next).publishers id =
      pending (s.publishers.take index) id + pending next.toList id +
        pending (s.publishers.drop (index + 1)) id := by
    simp only [pending, System.resume, List.flatMap_append, List.countP_append]
  omega

/-- A call goes on with copies that it has, and none of them comes to wait again. -/
theorem Accounted.resume (h : Accounted s) (hp : s.publishers[index]? = some p)
    {next : Option Publisher}
    (hnext : ∀ q ∈ next, q.config = p.config ∧ q.copies ⊆ p.copies ∧ q.waiting = p.waiting) :
    Accounted (s.resume index next) where
  nodup := h.nodup
  bounded := h.bounded
  copies q hq r hr := by
    rcases mem_resume hq with hold | hnew
    · exact h.copies q hold r hr
    · obtain ⟨hconfig, hcopies, -⟩ := hnext q hnew
      rw [hconfig]
      exact h.copies p (List.mem_of_getElem? hp) r (hcopies hr)
  budget id := by
    have hbudget := h.budget id
    have hpending := pending_resume hp next id
    have hcount : pending next.toList id ≤ p.waiting.countP (fun r => r.id = id) := by
      cases next with
      | none => exact Nat.zero_le _
      | some q => simp [pending, (hnext q rfl).2.2]
    change handed s.broker id + pending (s.resume index next).publishers id ≤
      attemptsOf s.rows id
    omega

theorem Accounted.crash (h : Accounted s) (index : Nat) : Accounted (s.resume index none) := by
  cases hp : s.publishers[index]? with
  | some p => exact h.resume hp (by simp)
  | none =>
      have hlength := List.getElem?_eq_none_iff.mp hp
      have hsame : s.resume index none = s := by
        unfold System.resume
        rw [List.take_of_length_le hlength, List.drop_of_length_le (by omega)]
        simp
      rw [hsame]
      exact h

theorem handed_append (broker : List BrokerMessage) (config : OutboxPublisherConfig)
    (r : OutboxRecord) (id : UUID) :
    handed (broker ++ [brokerMessage config r]) id =
      handed broker id + [r].countP (fun r => r.id = id) := by
  have hsame : ((brokerMessage config r).id = id.text) ↔ r.id = id :=
    ⟨fun h => UUID.text_inj h, fun h => congrArg UUID.text h⟩
  simp only [handed, List.countP_append, List.countP_singleton, hsame]

/-- A hand-over moves one unit from the waiting copies to the broker. -/
theorem Accounted.publish {rest : List OutboxRecord} (h : Accounted s)
    (hp : s.publishers[index]? = some ⟨config, r :: rest, none⟩) (answer : Except String Unit) :
    Accounted ({ s with broker := s.broker ++ [brokerMessage config r] }.resume index
      (some ⟨config, rest, some (r, answer)⟩)) where
  nodup := h.nodup
  bounded := h.bounded
  copies q hq other hother := by
    rcases mem_resume hq with hold | hnew
    · exact h.copies q hold other hother
    · obtain rfl := Option.mem_some_iff.mp hnew
      exact h.copies _ (List.mem_of_getElem? hp) other hother
  budget id := by
    have hbudget := h.budget id
    have hpending := pending_resume (s := { s with
      broker := s.broker ++ [brokerMessage config r] }) hp
      (some ⟨config, rest, some (r, answer)⟩) id
    have hhanded := handed_append s.broker config r id
    have hsplit : (r :: rest).countP (fun r => r.id = id) =
        [r].countP (fun r => r.id = id) + rest.countP (fun r => r.id = id) := by
      rw [← List.singleton_append, List.countP_append]
    have hrest : pending (some (⟨config, rest, some (r, answer)⟩ : Publisher)).toList id =
        rest.countP (fun r => r.id = id) := by
      simp [pending]
    simp only at hpending
    change handed (s.broker ++ [brokerMessage config r]) id + pending _ id ≤
      attemptsOf s.rows id
    omega

/-- A publisher reports on a copy that matches. -/
theorem settleRecord_progress (hnodup : (rows.map (·.id)).Nodup)
    (hr : Matches rows (trimSpace config.workerID) r) (answer : Except String Unit) (now : Time) :
    List.Forall₂ (Progress (.settler (trimSpace config.workerID))) rows
      (settleRecord rows config r answer now).2 := by
  -- the row of the copy is the only one with its key
  have hcopy : ∀ row ∈ rows, row.id = r.id → HeldBy (trimSpace config.workerID) row →
      row.attempts = r.attempts ∧ row.maxAttempts = r.maxAttempts := by
    intro row hrow hid hheld
    obtain ⟨found, hfound, hsame⟩ := hr
    rw [← hid, Table.find_of_mem hnodup hrow] at hfound
    obtain rfl := Option.some.inj hfound
    exact hsame hheld
  cases answer with
  | ok => exact markPublished_forall₂ (Progress.kept _) fun row _ => Progress.published _
  | error reason =>
      cases hfailed : r.registerFailure config.workerID reason now config.retryPolicy with
      | error err =>
          simp only [settleRecord, hfailed]
          exact Table.forall₂_refl (Progress.kept _) rows
      | ok failed =>
          have hid := (OutboxRecord.registerFailure_eq_ok hfailed).1
          have hset : ∀ row ∈ rows, row.id = failed.id →
              HeldBy (trimSpace config.workerID) row →
              Progress (.settler (trimSpace config.workerID)) row (fail failed row) :=
            fun row hrow hrowid hheld =>
              Progress.failed hheld (hcopy row hrow (hrowid.trans hid) hheld) hfailed
          simp only [settleRecord, hfailed]
          split
          · exact markDeadLettered_forall₂ (Progress.kept _) fun _ => hset
          · exact scheduleRetry_forall₂ (Progress.kept _) fun _ => hset

theorem Accounted.settle {config : OutboxPublisherConfig} {r : OutboxRecord}
    {rest : List OutboxRecord} {answer : Except String Unit} (h : Accounted s)
    (hp : s.publishers[index]? = some ⟨config, rest, some (r, answer)⟩) (now : Time)
    {next : Option Publisher} (hnext : next = none ∨ next = some ⟨config, rest, none⟩) :
    Accounted ({ s with rows := (settleRecord s.rows config r answer now).2 }.resume index
      next) := by
  have hr : Matches s.rows (trimSpace config.workerID) r :=
    h.copies _ (List.mem_of_getElem? hp) r (by simp [Publisher.copies])
  have hrows := advances_of_forall₂ h.nodup h.bounded
    (settleRecord_progress h.nodup hr answer now)
  refine (h.advance hrows (by simp)).resume hp ?_
  intro q hq
  rcases hnext with rfl | rfl
  · exact absurd hq (by simp)
  · obtain rfl := Option.mem_some_iff.mp hq
    refine ⟨rfl, ?_, rfl⟩
    intro other hother
    exact List.mem_append_right _ hother

end

/-- A claimed record is the row that its key has afterwards. -/
theorem Claims.find_record {after : Table} {workerID : String} {taken records : List OutboxRecord}
    (h : Claims rows workerID taken records after) (hnodup : (rows.map (·.id)).Nodup)
    (hafter : (after.map (·.id)).Nodup) (hr : r ∈ records) :
    after.find r.id = some r ∧ attemptsOf rows r.id + 1 = attemptsOf after r.id := by
  obtain ⟨claimedAt, lockUntil, -, rfl, rfl⟩ := h.effect
  obtain ⟨row, hrow, rfl⟩ := List.mem_map.mp hr
  have hmem : claim (trimSpace workerID) claimedAt lockUntil row ∈
      rows.update (fun row => row.id ∈ taken.map (·.id))
        (claim (trimSpace workerID) claimedAt lockUntil) := by
    refine List.mem_map.mpr ⟨row, h.mem row hrow, ?_⟩
    rw [if_pos (List.mem_map_of_mem hrow)]
  have hfind := Table.find_of_mem hafter hmem
  refine ⟨hfind, ?_⟩
  have hbefore : rows.find (claim (trimSpace workerID) claimedAt lockUntil row).id = some row :=
    Table.find_of_mem hnodup (h.mem row hrow)
  unfold attemptsOf
  rw [hfind, hbefore]
  exact (toNat_add_one (h.fits row hrow)).symm

/-- A claim that returns nothing changes nothing. -/
theorem Claims.eq_of_nil {after : Table} {workerID : String} {taken : List OutboxRecord}
    (h : Claims rows workerID taken [] after) : after = rows := by
  obtain ⟨claimedAt, lockUntil, -, hrecords, rfl⟩ := h.effect
  obtain rfl := List.map_eq_nil_iff.mp hrecords.symm
  simp [Table.update]

/-- A claim pays for each of the copies that it hands out. -/
theorem Accounted.claim (h : Accounted s) {taken records : List OutboxRecord} {after : Table}
    (hclaims : Claims s.rows config.workerID taken records after)
    (hrows : Advances (.claimant (trimSpace config.workerID)) s.rows after)
    (hothers : ∀ p ∈ s.publishers, trimSpace p.config.workerID ≠ trimSpace config.workerID) :
    Accounted { s with
      rows := after
      publishers := s.publishers ++ [⟨config, records, none⟩] } where
  nodup := hrows.nodup
  bounded := hrows.bounded
  copies p hp r hr := by
    rcases List.mem_append.mp hp with hold | hnew
    · have hcaller : Caller.claimant (trimSpace config.workerID) ≠
          .claimant (trimSpace p.config.workerID) :=
        fun hsame => hothers p hold (Caller.claimant.inj hsame).symm
      exact hrows.matches_of hcaller (h.copies p hold r hr)
    · obtain rfl := List.mem_singleton.mp hnew
      exact ⟨r, (hclaims.find_record h.nodup hrows.nodup hr).1, fun _ => ⟨rfl, rfl⟩⟩
  budget id := by
    have hbudget := h.budget id
    have hsplit : pending (s.publishers ++ [⟨config, records, none⟩]) id =
        pending s.publishers id + records.countP (fun r => r.id = id) := by
      simp [pending, List.countP_append]
    change handed s.broker id + pending (s.publishers ++ [⟨config, records, none⟩]) id ≤
      attemptsOf after id
    by_cases hid : id ∈ records.map (·.id)
    · obtain ⟨r, hr, rfl⟩ := List.mem_map.mp hid
      have hone : records.countP (fun other => other.id = r.id) ≤ 1 := by
        have hnodup : (records.map (·.id)).Nodup := hclaims.ids_eq ▸ hclaims.nodup h.nodup
        have hcount := List.nodup_iff_count_le_one.mp hnodup r.id
        rw [List.count, List.countP_map] at hcount
        exact hcount
      have hpaid := (hclaims.find_record h.nodup hrows.nodup hr).2
      omega
    · have hnone : records.countP (fun r => r.id = id) = 0 := by
        rw [List.countP_eq_zero]
        intro r hr hmatch
        exact hid (List.mem_map.mpr ⟨r, hr, of_decide_eq_true hmatch⟩)
      have hle := hrows.attemptsOf_le id
      omega

/-- A careful step keeps the accounts. -/
theorem Accounted.step {lib : Platform} {s : System} (h : Accounted s) (codec : Codec)
    (event : Event lib) (hcareful : event.Careful codec s) : Accounted (event.step codec s) := by
  cases event with
  | insert new => exact h.advance (advances_insert h.nodup h.bounded codec new) (by simp)
  | claim config now locked =>
      have htransitions := @claimReady_transitions codec s.rows h.nodup
        (config.claimRequest now) locked
      have hrows := advances_of_forall₂ h.nodup h.bounded
        (htransitions.imp fun _ _ => Progress.claimed)
      rcases claimReady_cases codec s.rows (config.claimRequest now) locked with
        ⟨err, heq⟩ | ⟨taken, records, after, heq, hclaims⟩
      · simp only [Event.step, heq]
        exact h
      · simp only [heq] at hrows
        simp only [Event.Careful, heq] at hcareful
        simp only [Event.step, heq]
        split
        · rename_i hnone
          subst hnone
          rw [hclaims.eq_of_nil]
          exact h
        · rename_i hsome
          exact h.claim hclaims hrows (hcareful hsome)
  | publish index answer =>
      simp only [Event.step]
      split
      · rename_i config r rest hp
        exact h.publish hp answer
      · exact h
  | settle index now =>
      simp only [Event.step]
      split
      · rename_i config rest r answer hp
        have hsettled := fun next => @Accounted.settle s index config r rest answer h hp now next
        cases hreply : settleRecord s.rows config r answer now with
        | mk result rows =>
            rw [hreply] at hsettled
            cases result with
            | error err => exact hsettled none (.inl rfl)
            | ok =>
                by_cases hlast : rest = []
                · exact hsettled _ (.inl (if_pos hlast))
                · exact hsettled _ (.inr (if_neg hlast))
      · exact h
  | crash index => exact h.crash index
  | releaseExpiredLocks now =>
      have hrows : List.Forall₂ (Progress .cleaner) s.rows (releaseExpiredLocks s.rows now).2 :=
        releaseExpiredLocks_forall₂ (Progress.kept _) fun hnow row hrow hexpired =>
          Progress.released hexpired (hcareful hnow row hrow hexpired)
      exact h.advance (advances_of_forall₂ h.nodup h.bounded hrows) (by simp)

theorem Accounted.run {codec : Codec} (h : Accounted s) {events : List (Event lib)}
    (hcareful : CarefulRun codec s events) :
    Accounted (systemAfter codec s events) := by
  induction events generalizing s with
  | nil => exact h
  | cons event rest ih => exact ih (h.step codec event hcareful.1) hcareful.2

theorem CarefulRun.of_prefix {codec : Codec} {reached events : List (Event lib)}
    (hleading : reached <+: events) (h : CarefulRun codec s events) :
    CarefulRun codec s reached := by
  obtain ⟨rest, rfl⟩ := hleading
  induction reached generalizing s with
  | nil => trivial
  | cons event reached ih => exact ⟨h.1, ih h.2⟩

/-- In a careful run no record has more attempts than its maximum, nor more hand-overs to
the broker. -/
theorem attempts_are_bounded {lib : Platform} (codec : Codec) (events : List (Event lib))
    (hcareful : CarefulRun codec System.initial events) :
    ∀ reached, reached <+: events →
      ∀ row ∈ (systemAfter codec System.initial reached).rows,
        row.attempts ≤ row.maxAttempts ∧
        handed (systemAfter codec System.initial reached).broker row.id ≤
          row.maxAttempts.toNat := by
  intro reached hreached row hrow
  have haccounted := accounted_initially.run (hcareful.of_prefix hreached)
  have hbound := (haccounted.bounded row hrow).attempts_le
  refine ⟨hbound, ?_⟩
  have hbudget := haccounted.budget row.id
  have hattempts : attemptsOf (systemAfter codec System.initial reached).rows row.id =
      row.attempts.toNat := by
    rw [attemptsOf, Table.find_of_mem haccounted.nodup hrow]
    rfl
  have hle := UInt32.le_iff_toNat_le.mp hbound
  omega

namespace Shipment

open Crate

def worker : OutboxPublisherConfig := defaultOutboxPublisherConfig "worker-1"

/-- One delivery that the publisher does not survive: it crashes after the hand-over, and
the lock expires. -/
def interrupted (round : Nat) : List (Event platform) :=
  [.claim worker (after round) [], .publish 0 (.ok ()), .crash 0,
    .releaseExpiredLocks (after (round + 1))]

/-- A delivery that fails, one that is interrupted, and one that succeeds. -/
def delivered : List (Event platform) :=
  [.insert announced, .claim worker (after 0) [], .publish 0 (.error "broker unavailable"),
    .settle 0 (after 0)] ++ interrupted 1 ++
    [.claim worker (after 2) [], .publish 0 (.ok ()), .settle 0 (after 2)]

theorem delivered_within_bound :
    handed (systemAfter codec System.initial delivered).broker eventID = 3 ∧
      ∀ row ∈ (systemAfter codec System.initial delivered).rows,
        row.attempts ≤ row.maxAttempts ∧
        handed (systemAfter codec System.initial delivered).broker row.id ≤
          row.maxAttempts.toNat :=
  ⟨by decide +kernel, attempts_are_bounded codec delivered (by decide +kernel) delivered
    (List.prefix_refl _)⟩

/-- Eleven interrupted deliveries of a record with ten attempts. -/
def abandoned : List (Event platform) :=
  .insert announced :: (List.range 11).flatMap interrupted

/-- The record is given to the broker eleven times, by a single worker. -/
theorem released_records_exceed :
    (systemAfter codec System.initial abandoned).rows.map (fun row =>
        (row.id, row.attempts, row.maxAttempts)) = [(eventID, 11, 10)] ∧
      handed (systemAfter codec System.initial abandoned).broker eventID = 11 := by
  decide +kernel

end Shipment

end Delivery
end CargoPds
