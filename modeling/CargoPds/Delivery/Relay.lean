import Mathlib.Data.List.Pairwise
import CargoPds.Delivery.Attempts
import CargoPds.Pds.Outbox

/-!
# From the commands to the broker

Any number of commands write evaluations and their events to the database, and one
publisher takes the events from the outbox to the broker, which accepts them all.  The
steps of the parties are interleaved in any way.

The events of an evaluation are numbered by its versions (`Recorded`), while the queue is
ordered by the times of the events and, where these are equal, by identifiers that are
drawn at random.  `published_in_version_order` says which writes keep the two orders
together.  A command that records several events at one time does not
(`created_and_planned_out_of_order`).
-/

namespace CargoPds
namespace Delivery

open Evaluation Fallible Text Pds Concurrency

variable {records handed : List OutboxRecord} {known : Knowledge} {db : Database}

/-! ## The system -/

/-- The commands at work on the database, and the publisher at work on its outbox. -/
structure Relay (lib : Platform) where
  pool : Pool (interface lib) (ServiceCommand lib) (Except Pds.Error Response) (DurableWorld lib)
  broker : List BrokerMessage
  /-- The running call of `PublishOnce`. -/
  worker : Option Publisher

namespace Relay

variable {lib : Platform}

/-- An empty database. -/
def initial (evidence : Evidence.MemoryRepository) (registry : Policy.Registry lib) : Relay lib :=
  ⟨Pool.initial ⟨.empty, evidence, registry⟩, [], none⟩

def rows (s : Relay lib) : Table := s.pool.shared.database.outbox

/-- What the publisher works on. -/
def system (s : Relay lib) : System := ⟨s.rows, s.broker, s.worker.toList⟩

/-- The state after the publisher has worked on it. -/
def deliver (s : Relay lib) (after : System) : Relay lib where
  pool := { s.pool with
    shared := { s.pool.shared with
      database := { s.pool.shared.database with outbox := after.rows } } }
  broker := after.broker
  worker := after.publishers.head?

end Relay

/-- A step of a command or of the publisher. -/
inductive Move (lib : Platform) where
  | command (action : ServiceAction lib)
  /-- `PublishOnce` starts with its claim. -/
  | claim (now : Time)
  /-- The broker is given the next record and accepts it. -/
  | publish
  /-- The publication is stored. -/
  | settle (now : Time)

section
variable {lib : Platform} (codec : Codec) (config : OutboxPublisherConfig)

def Move.apply (s : Relay lib) : Move lib → Relay lib
  | command action =>
      { s with
        pool := s.pool.step (handleDurable lib codec) (fun command => command.serve.run) action }
  | claim now =>
      match s.worker with
      | none => s.deliver (Event.step codec s.system (.claim config now [] : Event lib))
      | some _ => s
  | publish => s.deliver (Event.step codec s.system (.publish 0 (.ok ()) : Event lib))
  | settle now => s.deliver (Event.step codec s.system (.settle 0 now : Event lib))

/-- The state after a sequence of steps. -/
def relayAfter (s : Relay lib) (moves : List (Move lib)) : Relay lib :=
  moves.foldl (Move.apply codec config) s

/-- The new rows are in the order of the queue, and none of their evaluation that still waits
comes after them. -/
def ComeLast (rows new : Table) : Prop :=
  new.Pairwise ByOccurrence ∧
    ∀ row ∈ rows, row.status = .pending → ∀ added ∈ new,
      row.aggregateID = added.aggregateID → ByOccurrence row added
deriving Decidable

/-- What the step writes comes last in the queue. -/
def Move.Queues (s : Relay lib) (move : Move lib) : Prop :=
  ComeLast s.rows ((move.apply codec config s).rows.drop s.rows.length)
deriving Decidable

/-- Every step of the run queues what it writes at the end. -/
def QueuesRun : Relay lib → List (Move lib) → Prop
  | _, [] => True
  | s, move :: moves => move.Queues codec config s ∧ QueuesRun (move.apply codec config s) moves

instance decidableQueuesRun : (s : Relay lib) → (moves : List (Move lib)) →
    Decidable (QueuesRun codec config s moves)
  | _, [] => inferInstanceAs (Decidable True)
  | s, move :: moves =>
      have := decidableQueuesRun (move.apply codec config s) moves
      inferInstanceAs (Decidable (_ ∧ _))

end

/-- The headers with the version in the messages of an evaluation. -/
def versionHeaders (broker : List BrokerMessage) (id : UUID) : List (Option String) :=
  (broker.filter fun message => message.key = id.text).map
    fun message => message.headers.lookup "aggregate_version"

/-- The messages of each evaluation carry increasing versions. -/
def InVersionOrder (broker : List BrokerMessage) : Prop :=
  ∀ id, ∃ versions : List Nat, versions.Pairwise (· < ·) ∧
    versionHeaders broker id = versions.map fun version => some (toString version)

/-! ## Records in the order of their versions -/

/-- The second record has the later version, if both are of one evaluation. -/
def Earlier (r other : OutboxRecord) : Prop :=
  r.aggregateID = other.aggregateID → r.aggregateVersion < other.aggregateVersion

theorem inVersionOrder_of_earlier (config : OutboxPublisherConfig) (h : handed.Pairwise Earlier) :
    InVersionOrder (handed.map (brokerMessage config)) := by
  intro id
  refine ⟨(handed.filter fun r => r.aggregateID = id).map (·.aggregateVersion), ?_, ?_⟩
  · rw [List.pairwise_map]
    refine (h.filter _).imp_of_mem ?_
    intro r other hr hother hearlier
    have hleft := of_decide_eq_true (List.mem_filter.mp hr).2
    have hright := of_decide_eq_true (List.mem_filter.mp hother).2
    exact hearlier (hleft.trans hright.symm)
  · have hkey : ((fun message : BrokerMessage => decide (message.key = id.text)) ∘
        brokerMessage config) = fun r => decide (r.aggregateID = id) := by
      funext r
      exact decide_eq_decide.mpr ⟨fun hsame => UUID.text_inj hsame, fun hsame => hsame ▸ rfl⟩
    rw [versionHeaders, List.filter_map, hkey, List.map_map, List.map_map]
    refine List.map_congr_left fun r _ => ?_
    simp [brokerMessage, List.lookup_cons]

/-- The database numbers the events of an evaluation by its versions. -/
structure Recorded (db : Database) : Prop where
  keys : (db.outbox.map (·.id)).Nodup
  numbered : db.outbox.Pairwise Earlier
  stored : ∀ row ∈ db.outbox, ∃ stored, db.evaluations row.aggregateID = some stored ∧
    row.aggregateVersion ≤ stored.version

/-- What the publisher has handed over, what it has claimed and what waits in the outbox, all
in the order of the versions. -/
structure Ordered (rows : Table) (handed claimed : List OutboxRecord) : Prop where
  /-- The waiting records of an evaluation are in the order of the queue. -/
  queued : rows.Pairwise fun row other => row.status = .pending → other.status = .pending →
    row.aggregateID = other.aggregateID → ByOccurrence row other
  /-- Nothing but a new record waits, and it waits for anyone. -/
  unfailed : ∀ row ∈ rows, row.status ≠ .retryScheduled ∧
    (row.status = .pending → row.lockUntil = none)
  earlier : (handed ++ claimed).Pairwise Earlier
  ahead : ∀ r ∈ handed ++ claimed, ∀ row ∈ rows, row.status = .pending → Earlier r row
  known : ∀ r ∈ handed ++ claimed, ∃ row ∈ rows, row.aggregateID = r.aggregateID ∧
    row.aggregateVersion = r.aggregateVersion

/-! ## Deliveries -/

/-- What a delivery without failures does to a row. -/
structure Delivers (row row' : OutboxRecord) : Prop where
  id : row'.id = row.id
  aggregateID : row'.aggregateID = row.aggregateID
  aggregateVersion : row'.aggregateVersion = row.aggregateVersion
  waiting : row' = row ∨ row'.status = .publishing ∨ row'.status = .published

theorem Delivers.refl (row : OutboxRecord) : Delivers row row := ⟨rfl, rfl, rfl, .inl rfl⟩

theorem Delivers.eq_of_pending {row row' : OutboxRecord} (h : Delivers row row')
    (hpending : row'.status = .pending) : row' = row := by
  rcases h.waiting with hsame | hstatus | hstatus
  · exact hsame
  · exact absurd (hpending.symm.trans hstatus) (by simp)
  · exact absurd (hpending.symm.trans hstatus) (by simp)

theorem Delivers.earlier {row row' other other' : OutboxRecord} (h : Delivers row row')
    (hother : Delivers other other') (hearlier : Earlier row other) : Earlier row' other' := by
  intro hsame
  rw [h.aggregateID, hother.aggregateID] at hsame
  rw [h.aggregateVersion, hother.aggregateVersion]
  exact hearlier hsame

theorem pairwise_of_forall₂ {α β : Type} {R : α → β → Prop} {P : α → α → Prop}
    {Q : β → β → Prop} {l : List α} {l' : List β} (h : List.Forall₂ R l l')
    (hP : l.Pairwise P) (hstep : ∀ a b a' b', R a a' → R b b' → P a b → Q a' b') :
    l'.Pairwise Q := by
  induction h with
  | nil => exact .nil
  | cons hhead htail ih =>
      obtain ⟨hfirst, hrest⟩ := List.pairwise_cons.mp hP
      refine List.pairwise_cons.mpr ⟨?_, ih hrest⟩
      intro b' hb'
      obtain ⟨b, hb, hR⟩ := exists_of_mem_right htail hb'
      exact hstep _ _ _ _ hhead hR (hfirst b hb)

theorem pairwise_either {α : Type} {R : α → α → Prop} {l : List α} (h : l.Pairwise R) {a b : α}
    (ha : a ∈ l) (hb : b ∈ l) (hne : a ≠ b) : R a b ∨ R b a := by
  have : Std.Symm fun a b => R a b ∨ R b a := ⟨fun _ _ => Or.symm⟩
  have hboth : l.Pairwise fun a b => R a b ∨ R b a := h.imp Or.inl
  exact hboth.forall ha hb hne

theorem Recorded.deliver (h : Recorded db) {rows : Table}
    (hrows : List.Forall₂ Delivers db.outbox rows) : Recorded { db with outbox := rows } := by
  refine ⟨?_, ?_, ?_⟩
  · change (rows.map (·.id)).Nodup
    rw [Table.ids_of_forall₂ hrows fun _ _ hrow => hrow.id]
    exact h.keys
  · exact pairwise_of_forall₂ hrows h.numbered fun _ _ _ _ ha hb => ha.earlier hb
  · intro row' hrow'
    obtain ⟨row, hrow, hdelivers⟩ := exists_of_mem_right hrows hrow'
    rw [hdelivers.aggregateID, hdelivers.aggregateVersion]
    exact h.stored row hrow

theorem Ordered.deliver {rows rows' : Table} {claimed : List OutboxRecord}
    (h : Ordered rows handed claimed) (hrows : List.Forall₂ Delivers rows rows') :
    Ordered rows' handed claimed where
  queued := by
    refine pairwise_of_forall₂ hrows h.queued ?_
    intro a b a' b' ha hb hqueued hpending hpending'
    obtain rfl := ha.eq_of_pending hpending
    obtain rfl := hb.eq_of_pending hpending'
    exact hqueued hpending hpending'
  unfailed := by
    intro row' hrow'
    obtain ⟨row, hrow, hdelivers⟩ := exists_of_mem_right hrows hrow'
    rcases hdelivers.waiting with hsame | hstatus | hstatus
    · rw [hsame]
      exact h.unfailed row hrow
    · simp [hstatus]
    · simp [hstatus]
  earlier := h.earlier
  ahead := by
    intro r hr row' hrow' hpending
    obtain ⟨row, hrow, hdelivers⟩ := exists_of_mem_right hrows hrow'
    obtain rfl := hdelivers.eq_of_pending hpending
    exact h.ahead r hr _ hrow hpending
  known := by
    intro r hr
    obtain ⟨row, hrow, haggregate, hversion⟩ := h.known r hr
    obtain ⟨row', hrow', hdelivers⟩ := exists_of_mem_left hrows hrow
    exact ⟨row', hrow', hdelivers.aggregateID.trans haggregate,
      hdelivers.aggregateVersion.trans hversion⟩

/-- The next record is handed over. -/
theorem Ordered.publish {rows : Table} {claimed : List OutboxRecord} {r : OutboxRecord}
    (h : Ordered rows handed (r :: claimed)) : Ordered rows (handed ++ [r]) claimed := by
  have hsame : handed ++ [r] ++ claimed = handed ++ r :: claimed := by simp
  exact ⟨h.queued, h.unfailed, hsame ▸ h.earlier, hsame ▸ h.ahead, hsame ▸ h.known⟩

/-- The publisher gives up the records it has claimed. -/
theorem Ordered.abandon {rows : Table} {claimed : List OutboxRecord}
    (h : Ordered rows handed claimed) : Ordered rows handed [] := by
  have hsub : ∀ r ∈ handed ++ [], r ∈ handed ++ claimed := by
    intro r hr
    rw [List.append_nil] at hr
    exact List.mem_append_left _ hr
  refine ⟨h.queued, h.unfailed, ?_, fun r hr => h.ahead r (hsub r hr), fun r hr =>
    h.known r (hsub r hr)⟩
  rw [List.append_nil]
  exact (List.pairwise_append.mp h.earlier).1

/-! ## Claims -/

instance : Std.Total ByOccurrence := by
  refine ⟨fun row other => ?_⟩
  simp only [ByOccurrence, Time.Before, Time.Equal]
  omega

instance : IsTrans OutboxRecord ByOccurrence := by
  refine ⟨fun row other third => ?_⟩
  simp only [ByOccurrence, Time.Before, Time.Equal]
  omega

theorem ByOccurrence.id_eq {row other : OutboxRecord} (h : ByOccurrence row other)
    (hback : ByOccurrence other row) : row.id = other.id := by
  simp only [ByOccurrence, Time.Before, Time.Equal] at h hback
  exact BitVec.eq_of_toNat_eq (by omega)

/-- What is left in the queue comes after what is taken. -/
theorem selected_byOccurrence (rows : Table) (claimedAt : Time) (limit : Nat) :
    (selected rows [] claimedAt limit).Pairwise ByOccurrence ∧
      ∀ row ∈ selected rows [] claimedAt limit, ∀ other ∈ rows, Claimable claimedAt other →
        other ∉ selected rows [] claimedAt limit → ByOccurrence row other := by
  have hsorted := List.pairwise_insertionSort ByOccurrence
    (rows.filter fun row => Claimable claimedAt row ∧ row.id ∉ ([] : List UUID))
  rw [← List.take_append_drop limit (List.insertionSort _ _), List.pairwise_append] at hsorted
  refine ⟨hsorted.1, fun row hrow other hother hclaimable hleft => hsorted.2.2 row hrow other ?_⟩
  have hmem : other ∈ (rows.filter fun row =>
      Claimable claimedAt row ∧ row.id ∉ ([] : List UUID)).insertionSort ByOccurrence :=
    (List.mem_insertionSort _).mpr
      (List.mem_filter.mpr ⟨hother, decide_eq_true ⟨hclaimable, List.not_mem_nil⟩⟩)
  rw [← List.take_append_drop limit (List.insertionSort _ _)] at hmem
  exact (List.mem_append.mp hmem).resolve_left hleft

section
variable {db : Database} (hrecorded : Recorded db) {handed : List OutboxRecord}
  (h : Ordered db.outbox handed [])
include hrecorded h

/-- Waiting records of one evaluation that are in the order of the queue are in the order of
their versions. -/
theorem Ordered.earlier_of_byOccurrence {row other : OutboxRecord} (hrow : row ∈ db.outbox)
    (hother : other ∈ db.outbox) (hpending : row.status = .pending)
    (hpending' : other.status = .pending) (hne : row ≠ other)
    (hbefore : ByOccurrence row other) : Earlier row other := by
  intro hsame
  rcases pairwise_either (hrecorded.numbered.and h.queued) hrow hother hne with
    ⟨hearlier, -⟩ | ⟨-, hqueued⟩
  · exact hearlier hsame
  · -- the other order would make their places equal
    have hid := hbefore.id_eq (hqueued hpending' hpending hsame.symm)
    exact absurd (List.inj_on_of_nodup_map hrecorded.keys hrow hother hid) hne

/-- A claim takes the next records of the queue. -/
theorem Ordered.claim {codec : Codec} {request : OutboxClaimRequest} {after : Table}
    (hclaim : claimReady codec db.outbox request [] = (.ok records, after)) :
    List.Forall₂ Delivers db.outbox after ∧ Ordered after handed records := by
  obtain ⟨-, -, rfl, -, hafter⟩ := claimReady_eq_ok hclaim
  generalize hset : Delivery.claim (trimSpace request.workerID) (timestamptz request.claimedAt)
    (timestamptz (request.claimedAt.toUTC.add request.lockDuration)) = set at hafter ⊢
  have hkept : ∀ row, Delivers row (set row) ∧ (set row).status = .publishing := by
    intro row
    rw [← hset]
    exact ⟨⟨rfl, rfl, rfl, .inr (.inl rfl)⟩, rfl⟩
  generalize htaken : selected db.outbox [] (timestamptz request.claimedAt)
    request.limit.toNat = taken at hafter ⊢
  obtain ⟨hsorted, hleft⟩ :=
    selected_byOccurrence db.outbox (timestamptz request.claimedAt) request.limit.toNat
  rw [htaken] at hsorted hleft
  have hmem : ∀ row ∈ taken, row ∈ db.outbox ∧ row.status = .pending := by
    intro row hrow
    rw [← htaken] at hrow
    obtain ⟨hrow, hready, -⟩ := mem_selected hrow
    exact ⟨hrow, hready.resolve_right fun hretry => (h.unfailed row hrow).1 hretry.1⟩
  have hdistinct : taken.Pairwise fun row other => row.id ≠ other.id := by
    rw [← htaken]
    exact List.pairwise_map.mp (selected_ids_nodup hrecorded.keys _ _ _)
  have htakes : ∀ row ∈ taken, ∀ other ∈ db.outbox, other.status = .pending → row ≠ other →
      ByOccurrence row other → Earlier row other := fun row hrow other hother hpending =>
    h.earlier_of_byOccurrence hrecorded (hmem row hrow).1 hother (hmem row hrow).2 hpending
  have hrows : List.Forall₂ Delivers db.outbox after := by
    rw [hafter]
    exact Table.forall₂_update Delivers.refl fun row _ _ => (hkept row).1
  have hdelivered := h.deliver hrows
  refine ⟨hrows, hdelivered.queued, hdelivered.unfailed, ?_, ?_, ?_⟩
  · refine List.pairwise_append.mpr ⟨(List.pairwise_append.mp h.earlier).1, ?_, ?_⟩
    · rw [List.pairwise_map]
      refine (hsorted.and hdistinct).imp_of_mem ?_
      rintro row other hrow hother ⟨hbefore, hne⟩
      exact (hkept row).1.earlier (hkept other).1 (htakes row hrow other (hmem other hother).1
        (hmem other hother).2 (fun hsame => hne (hsame ▸ rfl)) hbefore)
    · intro r hr claimed hclaimed
      obtain ⟨row, hrow, rfl⟩ := List.mem_map.mp hclaimed
      exact (Delivers.refl r).earlier (hkept row).1
        (h.ahead r (List.mem_append_left _ hr) row (hmem row hrow).1 (hmem row hrow).2)
  · intro r hr row' hrow' hpending
    rcases List.mem_append.mp hr with hold | hnew
    · exact hdelivered.ahead r (List.mem_append_left _ hold) row' hrow' hpending
    · obtain ⟨row, hrow, rfl⟩ := List.mem_map.mp hnew
      -- a row that still waits was not taken
      rw [hafter] at hrow'
      obtain ⟨other, hother, rfl⟩ := List.mem_map.mp hrow'
      by_cases htook : other.id ∈ taken.map (·.id)
      · rw [if_pos htook, (hkept other).2] at hpending
        exact absurd hpending (by simp)
      · rw [if_neg htook] at hpending ⊢
        have hnot : other ∉ taken := fun hin => htook (List.mem_map_of_mem hin)
        have hclaimable : Claimable (timestamptz request.claimedAt) other :=
          ⟨.inl hpending, by simp [(h.unfailed other hother).2 hpending]⟩
        exact (hkept row).1.earlier (Delivers.refl other) (htakes row hrow other hother hpending
          (fun hsame => hnot (hsame ▸ hrow)) (hleft row hrow other hother hclaimable hnot))
  · intro r hr
    rcases List.mem_append.mp hr with hold | hnew
    · exact hdelivered.known r (List.mem_append_left _ hold)
    · obtain ⟨row, hrow, rfl⟩ := List.mem_map.mp hnew
      refine ⟨set row, ?_, rfl, rfl⟩
      rw [hafter]
      exact List.mem_map.mpr ⟨row, (hmem row hrow).1, if_pos (List.mem_map_of_mem hrow)⟩

end

/-! ## Writes -/

/-- New records that come last in the queue are added to the outbox. -/
theorem Ordered.insert {rows new : Table} {claimed : List OutboxRecord}
    (h : Ordered rows handed claimed) (hnumbered : (rows ++ new).Pairwise Earlier)
    (huntouched : ∀ row ∈ new, Untouched row) (hlast : ComeLast rows new) :
    Ordered (rows ++ new) handed claimed where
  queued := by
    refine List.pairwise_append.mpr ⟨h.queued, hlast.1.imp fun hbefore _ _ _ => hbefore, ?_⟩
    exact fun row hrow added hadded hpending _ hsame => hlast.2 row hrow hpending added hadded hsame
  unfailed := by
    intro row hrow
    rcases List.mem_append.mp hrow with hold | hnew
    · exact h.unfailed row hold
    · simp [(huntouched row hnew).pending, (huntouched row hnew).unlocked]
  earlier := h.earlier
  ahead := by
    intro r hr row hrow hpending
    rcases List.mem_append.mp hrow with hold | hnew
    · exact h.ahead r hr row hold hpending
    · -- the record is in the table, before the new ones
      obtain ⟨known, hknown, haggregate, hversion⟩ := h.known r hr
      have hearlier := (List.pairwise_append.mp hnumbered).2.2 known hknown row hnew
      intro hsame
      rw [← hversion]
      exact hearlier (haggregate.trans hsame)
  known := by
    intro r hr
    obtain ⟨row, hrow, hsame⟩ := h.known r hr
    exact ⟨row, List.mem_append_left _ hrow, hsame⟩

section
variable {lib : Platform} {codec : Codec}

/-- A write is refused, or it replaces the row of the evaluation, which had the expected
version, and adds the records to the outbox. -/
theorem saveEvaluation_cases (db : Database) (snapshot : EvaluationSnapshot)
    (expectedVersion : Nat) (records : List OutboxRecord) :
    (∃ err, db.saveEvaluation lib codec snapshot expectedVersion records = (.error err, db)) ∨
      ∃ after, db.saveEvaluation lib codec snapshot expectedVersion records = (.ok (), after) ∧
        (∀ stored, db.evaluations snapshot.evaluationID = some stored →
          stored.version = expectedVersion) ∧
        (∃ payload, after.evaluations = Function.update db.evaluations snapshot.evaluationID
          (some ⟨snapshot.version, payload⟩)) ∧
        after.outbox = db.outbox ++ records.map outboxRow ∧
        ((db.outbox.map (·.id)).Nodup → (after.outbox.map (·.id)).Nodup) := by
  unfold Database.saveEvaluation
  cases htransaction : db.transaction lib codec (fun _ => false) snapshot expectedVersion
    records with
  | error err => exact .inl ⟨err, rfl⟩
  | ok after =>
      obtain ⟨payload, entry, ledger, -, hexpected, -, -, rfl, hnodup⟩ :=
        Database.transaction_eq_ok htransaction
      exact .inr ⟨_, rfl, hexpected, ⟨payload, rfl⟩, rfl, hnodup⟩

/-- The evaluations that a command has found had no events left. -/
def Loaded (known : Knowledge) : Prop := ∀ entry ∈ known.read, entry.2.domainEvents = []

/-- What a command writes has the versions that follow the expected one. -/
theorem writes_versions {command : ServiceCommand lib} {snapshot : EvaluationSnapshot}
    {expectedVersion : Nat} (h : Writes lib command known snapshot expectedVersion records)
    (hloaded : Loaded known) :
    records.map (·.aggregateVersion) =
        List.range' (expectedVersion + 1) (snapshot.version - expectedVersion) ∧
      expectedVersion ≤ snapshot.version ∧
      ∀ record ∈ records, record.aggregateID = snapshot.evaluationID ∧
        Untouched (outboxRow record) := by
  obtain ⟨e, e', hchanges, rfl, hannounced, -⟩ := h
  have hbase : (expectedVersion = 0 ∧ ∃ id sessionID createdAt,
        newEvaluation id sessionID createdAt = .ok e) ∨
      (expectedVersion = e.version ∧ e.domainEvents = []) := by
    rcases hchanges.base with ⟨sessionID, hzero, id, -, createdAt, hnew⟩ | ⟨id, hversion, hread⟩
    · exact .inl ⟨hzero, id, sessionID, createdAt, hnew⟩
    · exact .inr ⟨hversion, hloaded _ hread⟩
  obtain ⟨hversions, hle, hids⟩ := edits_events hchanges.edits hbase
  refine ⟨(announces_map hannounced).2.trans hversions, hle, fun record hrecord => ?_⟩
  obtain ⟨event, hevent, hrecorded⟩ := exists_of_mem_right hannounced hrecord
  refine ⟨?_, ?_⟩
  · rw [hrecorded.fields.1, hids event hevent]
    exact (Follows.of_edits hchanges.edits).evaluationID.symm
  · obtain ⟨createdAt, id, hcreated⟩ := hrecorded
    exact NewRecord.untouched ⟨record, event, createdAt, id, hcreated⟩

/-- A write of a command adds records that wait, and goes on with the versions. -/
theorem Recorded.save (h : Recorded db) {command : ServiceCommand lib}
    {snapshot : EvaluationSnapshot} {expectedVersion : Nat}
    (hwrites : Writes lib command known snapshot expectedVersion records) (hloaded : Loaded known) :
    let after := (db.saveEvaluation lib codec snapshot expectedVersion records).2
    Recorded after ∧
      ∃ new, after.outbox = db.outbox ++ new ∧ ∀ row ∈ new, Untouched row := by
  obtain ⟨hversions, hle, hrecords⟩ := writes_versions hwrites hloaded
  rcases @saveEvaluation_cases lib codec db snapshot expectedVersion records with
    ⟨err, hrefused⟩ | ⟨after, haccepted, hexpected, ⟨payload, hstored⟩, houtbox, hkeys⟩
  · rw [hrefused]
    exact ⟨h, [], (List.append_nil _).symm, fun _ hrow => absurd hrow List.not_mem_nil⟩
  · rw [haccepted]
    have hbelow : ∀ row ∈ db.outbox, row.aggregateID = snapshot.evaluationID →
        row.aggregateVersion ≤ expectedVersion := by
      intro row hrow hsame
      obtain ⟨stored, hfound, hversion⟩ := h.stored row hrow
      rw [hsame] at hfound
      exact hexpected stored hfound ▸ hversion
    have habove : ∀ record ∈ records, expectedVersion < record.aggregateVersion ∧
        record.aggregateVersion ≤ snapshot.version := by
      intro record hrecord
      have hmem : record.aggregateVersion ∈ records.map (·.aggregateVersion) :=
        List.mem_map_of_mem hrecord
      rw [hversions, List.mem_range'_1] at hmem
      omega
    refine ⟨⟨hkeys h.keys, ?_, ?_⟩, records.map outboxRow, houtbox, ?_⟩
    · rw [houtbox]
      refine List.pairwise_append.mpr ⟨h.numbered, ?_, ?_⟩
      · have hincreasing : (records.map (·.aggregateVersion)).Pairwise (· < ·) := by
          rw [hversions]
          exact List.pairwise_lt_range'
        rw [List.pairwise_map] at hincreasing ⊢
        refine hincreasing.imp ?_
        exact fun hlt _ => hlt
      · intro row hrow added hadded hsame
        obtain ⟨record, hrecord, rfl⟩ := List.mem_map.mp hadded
        exact (hbelow row hrow (hsame.trans (hrecords record hrecord).1)).trans_lt
          (habove record hrecord).1
    · intro row hrow
      rw [houtbox] at hrow
      rw [hstored]
      by_cases hsame : row.aggregateID = snapshot.evaluationID
      · rw [hsame, Function.update_self]
        refine ⟨_, rfl, ?_⟩
        rcases List.mem_append.mp hrow with hold | hnew
        · exact (hbelow row hold hsame).trans hle
        · obtain ⟨record, hrecord, rfl⟩ := List.mem_map.mp hnew
          exact (habove record hrecord).2
      · rw [Function.update_of_ne hsame]
        rcases List.mem_append.mp hrow with hold | hnew
        · exact h.stored row hold
        · obtain ⟨record, hrecord, rfl⟩ := List.mem_map.mp hnew
          exact absurd (hrecords record hrecord).1 hsame
    · intro row hrow
      obtain ⟨record, hrecord, rfl⟩ := List.mem_map.mp hrow
      exact (hrecords record hrecord).2

end

/-! ## All runs -/

section
variable {lib : Platform} {codec : Codec}

/-- Only a write of an evaluation touches the database. -/
theorem handleDurable_database {op : Op lib} (input : Surroundings) (world : DurableWorld lib)
    (hop : ∀ snapshot expectedVersion records,
      op ≠ .saveEvaluation snapshot expectedVersion records) :
    (handleDurable lib codec op input world).2.database = world.database := by
  cases op <;> first
    | exact absurd rfl (hop _ _ _)
    | rfl

theorem domainEvents_of_findEvaluation {id : UUID} {e : EvaluationAggregate}
    (h : db.findEvaluation lib codec id = .ok e) : e.domainEvents = [] := by
  simp only [Database.findEvaluation, bind_eq_ok] at h
  obtain ⟨⟨⟩, -, h⟩ := h
  split at h
  · exact absurd h (by simp)
  · split at h
    · exact absurd h (by simp)
    · simp only [Database.decodeSnapshot, bind_eq_ok] at h
      obtain ⟨⟨⟩, -, h⟩ := h
      split at h
      · exact absurd h (by simp)
      · rw [rehydrateEvaluation_eq_ok (mapError_eq_ok.mp h)]

theorem loaded_learn {command : ServiceCommand lib} {op : Op lib} (input : Surroundings)
    (world : DurableWorld lib) (h : Loaded known) :
    Loaded ((protocol lib command).learn known op (handleDurable lib codec op input world).1) := by
  cases op with
  | findEvaluation id =>
      cases hfind : world.database.findEvaluation lib codec id with
      | error err =>
          simp only [handleDurable, protocol, hfind]
          exact h
      | ok e =>
          simp only [handleDurable, protocol, hfind]
          refine List.forall_mem_cons.mpr ⟨?_, h⟩
          exact domainEvents_of_findEvaluation hfind
  | saveEvaluation snapshot expectedVersion records =>
      have hread : ∀ reply : Except Pds.Error Unit, ((protocol lib command).learn known
          (.saveEvaluation snapshot expectedVersion records) reply).read = known.read := by
        rintro (err | ⟨⟩) <;> rfl
      unfold Loaded
      rwa [hread]
  | newUUID => exact h
  | saveEvidence | findEvidence | listEvidenceBySession | add | suspend | retire | resolve
  | findVersion | now => exact h

theorem recorded_sustains :
    Pool.Sustains (handleDurable lib codec) (protocol lib)
      (fun world => Recorded world.database) (fun known _ => Loaded known)
      (fun _ _ => True) where
  refl _ := trivial
  trans _ _ _ _ _ := trivial
  stable _ _ _ _ hloaded := hloaded
  step := by
    rintro command known world op input hrecorded hloaded ⟨-, hallows⟩
    refine ⟨?_, trivial, loaded_learn input world hloaded⟩
    by_cases hop : ∃ snapshot expectedVersion records,
        op = .saveEvaluation snapshot expectedVersion records
    · obtain ⟨snapshot, expectedVersion, records, rfl⟩ := hop
      exact (hrecorded.save hallows hloaded).1
    · rw [handleDurable_database input world
        fun snapshot expectedVersion records h => hop ⟨snapshot, expectedVersion, records, h⟩]
      exact hrecorded

/-- The commands obey their protocol on a database that numbers the events. -/
abbrev Served (pool : Pool (interface lib) (ServiceCommand lib) (Except Pds.Error Response)
    (DurableWorld lib)) : Prop :=
  Pool.Obedient (protocol lib) (fun world : DurableWorld lib => Recorded world.database)
    (fun known _ => Loaded known)
    (fun result known => known.written = true → ∃ response, result = .ok response) pool

/-- An action of a command adds new records to the outbox, or none. -/
theorem Served.step {pool : Pool (interface lib) (ServiceCommand lib) (Except Pds.Error Response)
    (DurableWorld lib)} (h : Served pool) (action : ServiceAction lib) :
    let after := pool.step (handleDurable lib codec) (fun command => command.serve.run) action
    Served after ∧ ∃ new, after.shared.database.outbox = pool.shared.database.outbox ++ new ∧
      ∀ row ∈ new, Untouched row := by
  obtain ⟨hserved, hcases⟩ := Pool.Obedient.step recorded_sustains
    (fun command world _ => ⟨Knowledge.initial, fun _ hentry => absurd hentry List.not_mem_nil,
      command.obeys⟩) h action
  refine ⟨hserved, ?_⟩
  have hnone : ∃ new, pool.shared.database.outbox = pool.shared.database.outbox ++ new ∧
      ∀ row ∈ new, Untouched row :=
    ⟨[], (List.append_nil _).symm, fun _ hrow => absurd hrow List.not_mem_nil⟩
  rcases hcases with hsame | ⟨command, op, next, known, input, others, hrecorded, hloaded,
    ⟨-, hallows⟩, -, hstep⟩
  · rw [hsame]
    exact hnone
  · rw [hstep, Pool.shared_settle]
    by_cases hop : ∃ snapshot expectedVersion records,
        op = .saveEvaluation snapshot expectedVersion records
    · obtain ⟨snapshot, expectedVersion, records, rfl⟩ := hop
      exact (hrecorded.save hallows hloaded).2
    · rw [handleDurable_database input pool.shared
        fun snapshot expectedVersion records h => hop ⟨snapshot, expectedVersion, records, h⟩]
      exact hnone

end

/-- The publisher has the claimed records, and the broker has accepted the others. -/
def Carries (config : OutboxPublisherConfig) (claimed : List OutboxRecord) :
    Option Publisher → Prop
  | none => claimed = []
  | some p => p.config = config ∧ p.waiting = claimed ∧
      ∀ r answer, p.answered = some (r, answer) → answer = .ok ()

/-- The invariant of the relay. -/
structure Relayed {lib : Platform} (config : OutboxPublisherConfig) (s : Relay lib)
    (handed claimed : List OutboxRecord) : Prop where
  served : Served s.pool
  broker : s.broker = handed.map (brokerMessage config)
  worker : Carries config claimed s.worker
  ordered : Ordered s.rows handed claimed

section
variable {lib : Platform} {codec : Codec} {config : OutboxPublisherConfig} {s : Relay lib}
  {handed claimed : List OutboxRecord}

/-- The publisher changes nothing that the commands rely on. -/
theorem Relayed.deliver (h : Relayed config s handed claimed) (after : System)
    (hrows : List.Forall₂ Delivers s.rows after.rows) {handed' claimed' : List OutboxRecord}
    (hbroker : after.broker = handed'.map (brokerMessage config))
    (hworker : Carries config claimed' after.publishers.head?)
    (hordered : Ordered after.rows handed' claimed') :
    Relayed config (s.deliver after) handed' claimed' :=
  ⟨⟨h.served.1.deliver hrows, h.served.2⟩, hbroker, hworker, hordered⟩

theorem Relayed.command (h : Relayed config s handed claimed) (action : ServiceAction lib)
    (hqueues : (Move.command action).Queues codec config s) :
    Relayed config ((Move.command action).apply codec config s) handed claimed := by
  obtain ⟨hserved, new, houtbox, huntouched⟩ := @Served.step lib codec s.pool h.served action
  have hrows : ((Move.command action).apply codec config s).rows = s.rows ++ new := houtbox
  refine ⟨hserved, h.broker, h.worker, ?_⟩
  rw [Move.Queues, hrows, List.drop_left] at hqueues
  rw [hrows]
  refine h.ordered.insert ?_ huntouched hqueues
  rw [← hrows]
  exact hserved.1.numbered

theorem Relayed.claim (h : Relayed config s handed claimed) (now : Time) :
    ∃ handed' claimed',
      Relayed config ((Move.claim now).apply codec config s) handed' claimed' := by
  obtain ⟨pool, broker, worker⟩ := s
  cases worker with
  | some p => exact ⟨handed, claimed, h⟩
  | none =>
      obtain rfl : claimed = [] := h.worker
      simp only [Move.apply, Event.step, Relay.system, Option.toList_none]
      split
      · next err after hclaim =>
          obtain rfl := claimReady_eq_error hclaim
          exact ⟨handed, [], h.deliver ⟨_, broker, []⟩
            (Table.forall₂_refl Delivers.refl _) h.broker rfl h.ordered⟩
      · next records after hclaim =>
          obtain ⟨hrows, hordered⟩ := h.ordered.claim h.served.1 hclaim
          split
          · next hnone =>
              subst hnone
              exact ⟨handed, [], h.deliver ⟨after, broker, []⟩ hrows h.broker rfl hordered⟩
          · exact ⟨handed, records, h.deliver ⟨after, broker, [⟨config, records, none⟩]⟩ hrows
              h.broker ⟨rfl, rfl, by simp⟩ hordered⟩

theorem Relayed.publish (h : Relayed config s handed claimed) :
    ∃ handed' claimed',
      Relayed config (Move.publish.apply codec config s) handed' claimed' := by
  have hkeeps : List.Forall₂ Delivers s.rows s.rows := Table.forall₂_refl Delivers.refl _
  obtain ⟨pool, broker, worker⟩ := s
  cases worker with
  | none => exact ⟨handed, claimed, h.deliver _ hkeeps h.broker h.worker h.ordered⟩
  | some p =>
      obtain ⟨config', waiting, answered⟩ := p
      obtain ⟨rfl, rfl, hanswered⟩ := h.worker
      cases waiting with
      | nil => exact ⟨handed, [], h.deliver _ hkeeps h.broker h.worker h.ordered⟩
      | cons r rest =>
          cases answered with
          | some answer =>
              exact ⟨handed, r :: rest, h.deliver _ hkeeps h.broker h.worker h.ordered⟩
          | none =>
              refine ⟨handed ++ [r], rest, h.deliver _ hkeeps ?_ ⟨rfl, rfl, ?_⟩
                h.ordered.publish⟩
              · rw [List.map_append, ← h.broker]
                rfl
              · intro other answer hsame
                exact (Prod.mk.inj (Option.some.inj hsame)).2.symm

theorem Relayed.settle (h : Relayed config s handed claimed) (now : Time) :
    ∃ handed' claimed',
      Relayed config ((Move.settle now).apply codec config s) handed' claimed' := by
  have hkeeps : List.Forall₂ Delivers s.rows s.rows := Table.forall₂_refl Delivers.refl _
  obtain ⟨pool, broker, worker⟩ := s
  cases worker with
  | none => exact ⟨handed, claimed, h.deliver _ hkeeps h.broker h.worker h.ordered⟩
  | some p =>
      obtain ⟨config', waiting, answered⟩ := p
      obtain ⟨rfl, rfl, hanswered⟩ := h.worker
      cases answered with
      | none => exact ⟨handed, waiting, h.deliver _ hkeeps h.broker h.worker h.ordered⟩
      | some answered =>
          obtain ⟨r, answer⟩ := answered
          obtain rfl := hanswered r answer rfl
          have hrows : List.Forall₂ Delivers pool.shared.database.outbox
              (markPublished pool.shared.database.outbox r.id config'.workerID now).2 :=
            @markPublished_forall₂ pool.shared.database.outbox Delivers Delivers.refl
              config'.workerID r.id now fun row _ _ => ⟨rfl, rfl, rfl, .inr (.inr rfl)⟩
          cases hmark : markPublished pool.shared.database.outbox r.id config'.workerID now with
          | mk stored after =>
              rw [hmark] at hrows
              simp only [Move.apply, Event.step, Relay.system, settleRecord, Option.toList_some,
                List.getElem?_cons_zero, Relay.rows, hmark]
              cases stored with
              | error err =>
                  exact ⟨handed, [], h.deliver ⟨after, broker, []⟩ hrows h.broker rfl
                    (h.ordered.deliver hrows).abandon⟩
              | ok =>
                  by_cases hlast : waiting = []
                  · subst hlast
                    exact ⟨handed, [], h.deliver ⟨after, broker, []⟩ hrows h.broker rfl
                      (h.ordered.deliver hrows)⟩
                  · simp only [if_neg hlast]
                    exact ⟨handed, waiting, h.deliver ⟨after, broker, [⟨config', waiting, none⟩]⟩
                      hrows h.broker ⟨rfl, rfl, by simp⟩ (h.ordered.deliver hrows)⟩

/-- **Step lemma.** -/
theorem Relayed.step (h : Relayed config s handed claimed) (move : Move lib)
    (hqueues : move.Queues codec config s) :
    ∃ handed' claimed', Relayed config (move.apply codec config s) handed' claimed' := by
  cases move with
  | command action => exact ⟨handed, claimed, h.command action hqueues⟩
  | claim now => exact h.claim now
  | publish => exact h.publish
  | settle now => exact h.settle now

/-- **Run lemma.** -/
theorem Relayed.run (h : Relayed config s handed claimed) {moves : List (Move lib)}
    (hqueues : QueuesRun codec config s moves) :
    ∃ handed' claimed', Relayed config (relayAfter codec config s moves) handed' claimed' := by
  induction moves generalizing s handed claimed with
  | nil => exact ⟨handed, claimed, h⟩
  | cons move moves ih =>
      obtain ⟨handed', claimed', hstep⟩ := h.step move hqueues.1
      exact ih hstep hqueues.2

theorem relayed_initially (evidence : Evidence.MemoryRepository)
    (registry : Policy.Registry lib) : Relayed config (.initial evidence registry) [] [] :=
  ⟨Pool.Obedient.initial ⟨.nil, .nil, fun _ h => absurd h List.not_mem_nil⟩, rfl, rfl,
    .nil, fun _ h => absurd h List.not_mem_nil, .nil, fun _ h => absurd h List.not_mem_nil,
    fun _ h => absurd h List.not_mem_nil⟩

/-- Events are published in the order of the versions of their evaluation, if every write
adds its records at the end of the queue. -/
theorem published_in_version_order (codec : Codec) (config : OutboxPublisherConfig)
    (evidence : Evidence.MemoryRepository) (registry : Policy.Registry lib)
    (moves : List (Move lib))
    (h : QueuesRun codec config (.initial evidence registry) moves) :
    InVersionOrder (relayAfter codec config (.initial evidence registry) moves).broker := by
  obtain ⟨handed, claimed, hrelayed⟩ := (relayed_initially evidence registry).run h
  rw [hrelayed.broker]
  exact inVersionOrder_of_earlier config (List.pairwise_append.mp hrelayed.ordered.earlier).1

end

namespace Shipment

open Crate

/-- The standard library on the values of the example.  The queue does not depend on sums. -/
def library : Platform := { platform with sha256 := fun _ => BitVec.ofNat 256 1 }

def texts : Codec := ⟨fun _ => some [], fun _ => none, fun _ => true⟩

/-- `Create` with one rule, at eight o'clock, and the delivery of its two events.  The
records of the events get the two identifiers. -/
def creation (created planned : UUID) : List (Move library) :=
  .command (.invoke (.create session ["weight"])) ::
    [UUID.nil, evaluationID, UUID.nil, created, planned, UUID.nil].map (fun id =>
      .command (.advance 0 ⟨eight, id⟩)) ++
    [.claim eight, .publish, .settle eight, .publish, .settle eight]

/-- The messages of the evaluation. -/
def messages (created planned : UUID) : List (Option String) :=
  versionHeaders (relayAfter texts worker (.initial .empty .empty)
    (creation created planned)).broker evaluationID

/-- Both events are of one time, so their order is that of the identifiers. -/
theorem created_and_planned_out_of_order :
    messages (eventID + 1) eventID = [some "2", some "1"] := by
  decide

/-- With the identifiers the other way round the events come in their order. -/
theorem created_and_planned_in_order :
    messages eventID (eventID + 1) = [some "1", some "2"] ∧
      InVersionOrder (relayAfter texts worker (.initial .empty .empty)
        (creation eventID (eventID + 1))).broker :=
  ⟨by decide, published_in_version_order texts worker .empty .empty _ (by decide)⟩

end Shipment

end Delivery
end CargoPds
