import CargoPds.Evaluation.Invariant
import CargoPds.Pds.Commands

/-!
# The outbox and the end of an evaluation

Any number of commands work on one `MemoryStore`, with the steps of the others
between any two of their own.  This file describes a write that is accepted
(`Saves`) and derives from it, for every schedule:

* `outbox_numbers_versions`: the records of a stored evaluation carry its
  versions, each once and in order, and only a command that succeeds adds any;
* `ended_evaluations_are_final`: an ended evaluation and its records do not
  change any more, so no two commands end the same evaluation.

What carries the argument between the reading and the writing of one command is
`Known`: as long as the stored version is the one that was read, the stored
snapshot is.
-/

namespace CargoPds
namespace Pds

open Evaluation Concurrency

variable {id : UUID} {known : Knowledge} {m : MemoryStore} {lib : Platform}

/-- A record has the identity and the version of its event. -/
theorem Announces.fields {event : DomainEvent} {record : OutboxRecord}
    (h : Announces lib event record) :
    record.aggregateID = event.evaluationID ∧ record.aggregateVersion = event.version := by
  obtain ⟨createdAt, id, hrecord⟩ := h
  obtain ⟨-, -, -, payload, -, rfl⟩ := newOutboxRecord_eq_ok hrecord
  exact ⟨rfl, rfl⟩

theorem announces_map {events : List DomainEvent} {records : List OutboxRecord}
    (h : List.Forall₂ (Announces lib) events records) :
    records.map (·.aggregateID) = events.map (·.evaluationID) ∧
      records.map (·.aggregateVersion) = events.map (·.version) := by
  induction h with
  | nil => exact ⟨rfl, rfl⟩
  | cons hhead _ ih =>
      obtain ⟨hid, hversion⟩ := hhead.fields
      simp only [List.map_cons, hid, hversion, ih.1, ih.2, and_self]

/-- The events of an evaluation that was new or had none go on from the version before. -/
theorem edits_events {e e' : EvaluationAggregate} {version : Nat} (hedits : Edits e e')
    (hbase : (version = 0 ∧ ∃ id sessionID createdAt,
        newEvaluation id sessionID createdAt = .ok e) ∨
      (version = e.version ∧ e.domainEvents = [])) :
    e'.domainEvents.map (·.version) = List.range' (version + 1) (e'.version - version) ∧
      version ≤ e'.version ∧ ∀ event ∈ e'.domainEvents, event.evaluationID = e.evaluationID := by
  obtain ⟨news, hevents, hversions, hids⟩ := hedits.domainEvents
  have hle := (Follows.of_edits hedits).version
  rcases hbase with ⟨rfl, id, sessionID, createdAt, hnew⟩ | ⟨rfl, hempty⟩
  · -- a new evaluation comes with the event of its creation
    simp only [newEvaluation, Fallible.bind_eq_ok, Fallible.rejectIf_eq_ok,
      Fallible.pure_eq_ok, exists_const] at hnew
    obtain ⟨-, -, -, rfl⟩ := hnew
    refine ⟨?_, Nat.zero_le _, ?_⟩
    · rw [hevents, List.map_append, hversions]
      change [1] ++ List.range' (1 + 1) (e'.version - 1) = List.range' (0 + 1) (e'.version - 0)
      change 1 ≤ e'.version at hle
      have hcount : e'.version - 0 = e'.version - 1 + 1 := by omega
      rw [hcount, List.range'_succ]
      rfl
    · intro event hevent
      rw [hevents] at hevent
      rcases List.mem_append.mp hevent with hold | hadded
      · rw [List.mem_singleton.mp hold]
      · exact hids event hadded
  · rw [hempty, List.nil_append] at hevents
    rw [hevents]
    exact ⟨hversions, hle, hids⟩

namespace MemoryStore

/-- The records of one evaluation, in the order in which they were written. -/
def recordsOf (m : MemoryStore) (id : UUID) : List OutboxRecord :=
  m.outbox.filter fun record => record.aggregateID = id

/-- The stored version, or zero. -/
def versionOf (m : MemoryStore) (id : UUID) : Nat :=
  (m.snapshots id).elim 0 (·.version)

/-- Snapshots are stored under their identifiers, in the form that reading them
gives. -/
structure Tidy (m : MemoryStore) : Prop where
  keyed : ∀ id s, m.snapshots id = some s → s.evaluationID = id
  restored : ∀ id s, m.snapshots id = some s →
    rehydrateEvaluation s = .ok { s with domainEvents := [] }

/-- The records of an evaluation carry the versions up to the stored one. -/
def Numbered (m : MemoryStore) : Prop :=
  ∀ id, (m.recordsOf id).map (·.aggregateVersion) = List.range' 1 (m.versionOf id)

/-- What was read is still true of the versions that were read. -/
def Known (m : MemoryStore) (read : List (UUID × EvaluationAggregate)) : Prop :=
  ∀ id e, (id, e) ∈ read → e.domainEvents = [] ∧ ∃ s, m.snapshots e.evaluationID = some s ∧
    e.version ≤ s.version ∧ (s.version = e.version → s = e.snapshot)

/-- What clients may rely on: a stored version does not go back, and a snapshot
changes only with its version and until it has ended. -/
def Advances (before after : MemoryStore) : Prop :=
  ∀ id s, before.snapshots id = some s → ∃ s', after.snapshots id = some s' ∧
    s.version ≤ s'.version ∧
    (s'.version = s.version ∨ s.state.IsTerminal →
      s' = s ∧ after.recordsOf id = before.recordsOf id)

/-- A write that was accepted: the evaluation was new, or is stored as it was
read. -/
structure Saves {lib : Platform} (command : ServiceCommand lib) (m : MemoryStore)
    (e e' : EvaluationAggregate) (records : List OutboxRecord) (after : MemoryStore) : Prop where
  ended : command.Ends → e'.state.IsTerminal
  base : ((∃ id sessionID createdAt, newEvaluation id sessionID createdAt = .ok e) ∧
      m.snapshots e.evaluationID = none) ∨
    (e.domainEvents = [] ∧ m.snapshots e.evaluationID = some e.snapshot)
  edits : Edits e e'
  announced : List.Forall₂ (Announces lib) e'.domainEvents records
  checked : e'.snapshot.Checked
  snapshots : after.snapshots =
    Function.update m.snapshots e.evaluationID (some e'.snapshot.restored)
  outbox : after.outbox = m.outbox ++ records

theorem Advances.refl (m : MemoryStore) : m.Advances m :=
  fun _ s hs => ⟨s, hs, Nat.le_refl _, fun _ => ⟨rfl, rfl⟩⟩

theorem Advances.trans {a b c : MemoryStore} (first : a.Advances b) (second : b.Advances c) :
    a.Advances c := by
  intro id s hs
  obtain ⟨s', hs', hle, hsame⟩ := first id s hs
  obtain ⟨s'', hs'', hle', hsame'⟩ := second id s' hs'
  refine ⟨s'', hs'', hle.trans hle', ?_⟩
  intro hkept
  have hfirst : s' = s ∧ b.recordsOf id = a.recordsOf id := by
    refine hsame (hkept.imp ?_ fun hended => hended)
    intro hversion
    omega
  obtain ⟨rfl, hrecords⟩ := hfirst
  obtain ⟨hsnapshot, hrecords'⟩ := hsame' hkept
  exact ⟨hsnapshot, hrecords'.trans hrecords⟩

theorem Known.of_advances {after : MemoryStore} {read : List (UUID × EvaluationAggregate)}
    (h : m.Known read) (hadvances : m.Advances after) : after.Known read := by
  intro id e he
  obtain ⟨hevents, s, hs, hle, hsame⟩ := h id e he
  obtain ⟨s', hs', hle', hkept⟩ := hadvances _ s hs
  refine ⟨hevents, s', hs', hle.trans hle', ?_⟩
  intro hversion
  obtain ⟨rfl, -⟩ := hkept (Or.inl (by omega))
  exact hsame hversion

/-! ## Reading and writing -/

theorem Tidy.empty : empty.Tidy :=
  ⟨fun _ _ h => absurd h (by simp [MemoryStore.empty]),
    fun _ _ h => absurd h (by simp [MemoryStore.empty])⟩

/-- Writing anything keeps the store tidy. -/
theorem Tidy.saveEvaluation (htidy : m.Tidy) (snapshot : EvaluationSnapshot) (expectedVersion : Nat)
    (records : List OutboxRecord) :
    (m.saveEvaluation snapshot expectedVersion records).2.Tidy := by
  unfold MemoryStore.saveEvaluation
  split
  · exact htidy
  · split
    · exact htidy
    · rename_i aggregate haggregate
      obtain ⟨hchecked, rfl⟩ := rehydrateEvaluation_eq_ok_iff.mp haggregate
      have hcases : ∀ id s, Function.update m.snapshots snapshot.evaluationID
          (some snapshot.restored) id = some s →
          (id = snapshot.evaluationID ∧ s = snapshot.restored) ∨ m.snapshots id = some s := by
        intro id s hs
        by_cases hid : id = snapshot.evaluationID
        · rw [hid, Function.update_self] at hs
          exact Or.inl ⟨hid, (Option.some.inj hs).symm⟩
        · rw [Function.update_of_ne hid] at hs
          exact Or.inr hs
      refine ⟨?_, ?_⟩
      · intro id s hs
        rcases hcases id s hs with ⟨rfl, rfl⟩ | hold
        · rfl
        · exact htidy.keyed id s hold
      · intro id s hs
        rcases hcases id s hs with ⟨rfl, rfl⟩ | hold
        · rw [rehydrateEvaluation_eq_ok_iff, EvaluationSnapshot.restored_restored]
          exact ⟨hchecked.restored, rfl⟩
        · exact htidy.restored id s hold

/-- What is found is known. -/
theorem Tidy.known_of_find (htidy : m.Tidy) {e : EvaluationAggregate}
    (h : m.findEvaluation id = .ok e) : m.Known [(id, e)] := by
  obtain ⟨s, hs, hrehydrate⟩ := findEvaluation_eq_ok h
  rw [htidy.restored id s hs] at hrehydrate
  obtain rfl := Except.ok.inj hrehydrate
  intro other found hother
  obtain ⟨-, rfl⟩ := Prod.mk.inj (List.mem_singleton.mp hother)
  refine ⟨rfl, s, ?_, Nat.le_refl _, fun _ => rfl⟩
  rw [← hs]
  exact congrArg m.snapshots (htidy.keyed id s hs)

/-- A write of a changed evaluation is refused and changes nothing, or is accepted. -/
theorem saveEvaluation_changes {command : ServiceCommand lib} {e e' : EvaluationAggregate}
    {expectedVersion : Nat} {records : List OutboxRecord} (hknown : m.Known known.read)
    (hchanges : command.Changes known expectedVersion e e')
    (hrecords : List.Forall₂ (Announces lib) e'.domainEvents records) :
    (∃ err, m.saveEvaluation e'.snapshot expectedVersion records = (.error err, m)) ∨
      ((m.saveEvaluation e'.snapshot expectedVersion records).1 = .ok () ∧
        m.Saves command e e' records
          (m.saveEvaluation e'.snapshot expectedVersion records).2) := by
  have hedits := hchanges.edits
  have hid : e'.snapshot.evaluationID = e.evaluationID := (Follows.of_edits hedits).evaluationID
  by_cases hconflict : Conflicts (m.snapshots e'.snapshot.evaluationID) expectedVersion
  · refine Or.inl ⟨.concurrentModification, ?_⟩
    unfold saveEvaluation
    rw [if_pos hconflict]
  · cases hrehydrate : rehydrateEvaluation e'.snapshot with
    | error err =>
        refine Or.inl ⟨.evaluation err, ?_⟩
        simp only [saveEvaluation, if_neg hconflict, hrehydrate]
    | ok aggregate =>
        obtain ⟨hchecked, rfl⟩ := rehydrateEvaluation_eq_ok_iff.mp hrehydrate
        refine Or.inr ?_
        simp only [saveEvaluation, if_neg hconflict, hrehydrate]
        refine ⟨trivial, hchanges.ended, ?_, hedits, hrecords, hchecked, ?_, rfl⟩
        · rw [hid] at hconflict
          rcases hchanges.base with ⟨sessionID, rfl, id, -, createdAt, hnew⟩ | ⟨id, rfl, hread⟩
          · refine Or.inl ⟨⟨id, sessionID, createdAt, hnew⟩, ?_⟩
            by_contra hstored
            exact hconflict (Or.inl ⟨rfl, hstored⟩)
          · -- no conflict: the stored version is the one that was read
            obtain ⟨hevents, s, hs, -, hsame⟩ := hknown id e hread
            have hversion : s.version = e.version := by
              by_contra hne
              refine hconflict ?_
              rw [hs]
              rcases Nat.eq_zero_or_pos e.version with hzero | hpos
              · exact Or.inl ⟨hzero, by simp⟩
              · exact Or.inr ⟨hpos, by simpa using hne⟩
            rw [hsame hversion] at hs
            exact Or.inr ⟨hevents, hs⟩
        · change Function.update m.snapshots e'.snapshot.evaluationID _ = _
          rw [hid]
          rfl

/-- The same for a write of the protocol. -/
theorem saveEvaluation_cases {lib : Platform} {command : ServiceCommand lib}
    {m : MemoryStore} {known : Knowledge} {snapshot : EvaluationSnapshot}
    {expectedVersion : Nat} {records : List OutboxRecord} (hknown : m.Known known.read)
    (hwrites : Writes lib command known snapshot expectedVersion records) :
    (∃ err, m.saveEvaluation snapshot expectedVersion records = (.error err, m)) ∨
      ((m.saveEvaluation snapshot expectedVersion records).1 = .ok () ∧
        ∃ e e', m.Saves command e e' records
          (m.saveEvaluation snapshot expectedVersion records).2) := by
  obtain ⟨e, e', hchanges, rfl, hrecords, -⟩ := hwrites
  exact (saveEvaluation_changes hknown hchanges hrecords).imp id
    fun ⟨haccepted, hsaves⟩ => ⟨haccepted, e, e', hsaves⟩

/-! ## What an accepted write preserves -/

namespace Saves

variable {lib : Platform} {command : ServiceCommand lib} {m after : MemoryStore}
  {e e' : EvaluationAggregate} {records : List OutboxRecord}

theorem snapshots_self (h : m.Saves command e e' records after) :
    after.snapshots e.evaluationID = some e'.snapshot.restored := by
  rw [h.snapshots, Function.update_self]

theorem snapshots_other (h : m.Saves command e e' records after) (hid : id ≠ e.evaluationID) :
    after.snapshots id = m.snapshots id := by
  rw [h.snapshots, Function.update_of_ne hid]

/-- The events of an evaluation that is written go on from the stored version. -/
theorem events (h : m.Saves command e e' records after) :
    e'.domainEvents.map (·.version) =
        List.range' (m.versionOf e.evaluationID + 1)
          (e'.version - m.versionOf e.evaluationID) ∧
      m.versionOf e.evaluationID ≤ e'.version ∧
      ∀ event ∈ e'.domainEvents, event.evaluationID = e.evaluationID := by
  refine edits_events h.edits ?_
  rcases h.base with ⟨⟨id, sessionID, createdAt, hnew⟩, hnone⟩ | ⟨hempty, hstored⟩
  · exact .inl ⟨by rw [versionOf, hnone]; rfl, id, sessionID, createdAt, hnew⟩
  · exact .inr ⟨by rw [versionOf, hstored]; rfl, hempty⟩

/-- The records are all of the evaluation that is written. -/
theorem records_aggregateID (h : m.Saves command e e' records after) :
    ∀ record ∈ records, record.aggregateID = e.evaluationID := by
  intro record hrecord
  have hmem : record.aggregateID ∈ records.map (·.aggregateID) := List.mem_map_of_mem hrecord
  rw [(announces_map h.announced).1] at hmem
  obtain ⟨event, hevent, hsame⟩ := List.mem_map.mp hmem
  rw [← hsame]
  exact h.events.2.2 event hevent

theorem recordsOf_self (h : m.Saves command e e' records after) :
    after.recordsOf e.evaluationID = m.recordsOf e.evaluationID ++ records := by
  unfold recordsOf
  rw [h.outbox, List.filter_append]
  congr 1
  rw [List.filter_eq_self]
  exact fun record hrecord => decide_eq_true (h.records_aggregateID record hrecord)

theorem recordsOf_other (h : m.Saves command e e' records after) (hid : id ≠ e.evaluationID) :
    after.recordsOf id = m.recordsOf id := by
  unfold recordsOf
  rw [h.outbox, List.filter_append]
  have hnone : records.filter (fun record => record.aggregateID = id) = [] := by
    rw [List.filter_eq_nil_iff]
    intro record hrecord hsame
    exact hid ((of_decide_eq_true hsame).symm.trans (h.records_aggregateID record hrecord))
  rw [hnone, List.append_nil]

theorem numbered (h : m.Saves command e e' records after) (hnumbered : m.Numbered) :
    after.Numbered := by
  intro id
  by_cases hid : id = e.evaluationID
  · obtain ⟨hversions, hle, -⟩ := h.events
    have hstored : after.versionOf e.evaluationID = e'.version := by
      unfold versionOf
      rw [h.snapshots_self]
      rfl
    rw [hid, h.recordsOf_self, List.map_append, hnumbered, (announces_map h.announced).2,
      hversions, hstored]
    calc List.range' 1 (m.versionOf e.evaluationID) ++
          List.range' (m.versionOf e.evaluationID + 1)
            (e'.version - m.versionOf e.evaluationID)
        = List.range' 1 (m.versionOf e.evaluationID +
            (e'.version - m.versionOf e.evaluationID)) := by
          rw [Nat.add_comm (m.versionOf e.evaluationID) 1]
          exact List.range'_append_1
      _ = List.range' 1 e'.version := by
          congr 1
          omega
  · have hstored : after.versionOf id = m.versionOf id := by
      unfold versionOf
      rw [h.snapshots_other hid]
    rw [h.recordsOf_other hid, hstored]
    exact hnumbered id

/-- A write that does not raise the version, or is of an ended evaluation, does not
change anything. -/
theorem unchanged (h : m.Saves command e e' records after) (htidy : m.Tidy)
    {s : EvaluationSnapshot} (hs : m.snapshots e.evaluationID = some s)
    (hkept : e'.version = s.version ∨ s.state.IsTerminal) :
    e'.snapshot.restored = s ∧ records = [] := by
  rcases h.base with ⟨-, hnone⟩ | ⟨hempty, hstored⟩
  · rw [hnone] at hs
    exact absurd hs (by simp)
  · rw [hstored] at hs
    obtain rfl := Option.some.inj hs
    have hsame : e' = e := by
      rcases hkept with hversion | hended
      · rcases h.edits.eq_or_version_lt with hsame | hlt
        · exact hsame
        · exact absurd hversion (Nat.ne_of_gt hlt)
      · exact h.edits.eq_of_terminal hended
    obtain ⟨-, hfix⟩ := rehydrateEvaluation_eq_ok_iff.mp (htidy.restored _ _ hstored)
    refine ⟨?_, ?_⟩
    · rw [hsame]
      exact (congrArg EvaluationAggregate.snapshot hfix).symm
    · have hannounced := h.announced
      rw [hsame, hempty] at hannounced
      exact List.forall₂_nil_left_iff.mp hannounced

theorem advances (h : m.Saves command e e' records after) (htidy : m.Tidy) :
    m.Advances after := by
  intro id s hs
  by_cases hid : id = e.evaluationID
  · subst hid
    refine ⟨_, h.snapshots_self, ?_, ?_⟩
    · rcases h.base with ⟨-, hnone⟩ | ⟨-, hstored⟩
      · rw [hnone] at hs
        exact absurd hs (by simp)
      · rw [hstored] at hs
        obtain rfl := Option.some.inj hs
        exact (Follows.of_edits h.edits).version
    · intro hkept
      obtain ⟨hsnapshot, hrecords⟩ := h.unchanged htidy hs hkept
      refine ⟨hsnapshot, ?_⟩
      rw [h.recordsOf_self, hrecords, List.append_nil]
  · exact ⟨s, (h.snapshots_other hid).trans hs, Nat.le_refl _,
      fun _ => ⟨rfl, h.recordsOf_other hid⟩⟩

end Saves

end MemoryStore

/-! ## All schedules -/

/-- What happens next to the clients of the service. -/
abbrev ServiceAction (lib : Platform) := Action (ServiceCommand lib) Surroundings

/-- The clients of the service and its stores. -/
abbrev ServicePool (lib : Platform) :=
  Pool (interface lib) (ServiceCommand lib) (Except Error Response) (World lib)

/-- The clients and the stores after a schedule, from given stores. -/
def serviceAfter {lib : Platform} (world : World lib) (schedule : List (ServiceAction lib)) :
    ServicePool lib :=
  (Pool.initial world).run (handle lib) (fun command => command.serve.run) schedule

/-- One more action. -/
def serviceStep {lib : Platform} (pool : ServicePool lib) (action : ServiceAction lib) :
    ServicePool lib :=
  pool.step (handle lib) (fun command => command.serve.run) action

section
variable {lib : Platform}
variable {op : Op lib}

/-- Only a write of an evaluation touches the evaluation store. -/
theorem handle_store (input : Surroundings) (world : World lib)
    (hop : ∀ snapshot expectedVersion records, op ≠ .saveEvaluation snapshot expectedVersion
      records) :
    (handle lib op input world).2.store = world.store := by
  cases op <;> first
    | exact absurd rfl (hop _ _ _)
    | rfl

/-- What was learnt from a step stays known. -/
theorem known_of_learn {command : ServiceCommand lib} {input : Surroundings} {world : World lib}
    (htidy : world.store.Tidy) (hknown : world.store.Known known.read)
    (hadvances : world.store.Advances (handle lib op input world).2.store) :
    (handle lib op input world).2.store.Known
      ((protocol lib command).learn known op (handle lib op input world).1).read := by
  cases op with
  | findEvaluation id =>
      cases hfind : world.store.findEvaluation id with
      | error err =>
          simp only [handle, protocol, hfind]
          exact hknown
      | ok e =>
          simp only [handle, protocol, hfind]
          intro other found hother
          rcases List.mem_cons.mp hother with hnew | hold
          · exact htidy.known_of_find hfind other found (List.mem_singleton.mpr hnew)
          · exact hknown other found hold
  | saveEvaluation snapshot expectedVersion records =>
      have hread : ∀ reply : Except Error Unit, ((protocol lib command).learn known
          (.saveEvaluation snapshot expectedVersion records) reply).read = known.read := by
        rintro (err | ⟨⟩) <;> rfl
      rw [hread]
      exact hknown.of_advances hadvances
  | saveEvidence | findEvidence | listEvidenceBySession | add | suspend | retire | resolve
  | findVersion | now | newUUID => exact hknown

/-- Commands sustain every property of a tidy store that accepted writes keep. -/
theorem store_sustains (Q : MemoryStore → Prop)
    (hQ : ∀ (command : ServiceCommand lib) m e e' records after,
      m.Saves command e e' records after → Q m → Q after) :
    Pool.Sustains (handle lib) (protocol lib)
      (fun world => world.store.Tidy ∧ Q world.store)
      (fun known world => world.store.Known known.read)
      (fun world world' => world.store.Advances world'.store) where
  refl world := MemoryStore.Advances.refl _
  trans _ _ _ := MemoryStore.Advances.trans
  stable _ _ _ hadvances hknown := hknown.of_advances hadvances
  step := by
    rintro command known world op input ⟨htidy, hq⟩ hknown ⟨-, hallows⟩
    by_cases hop : ∃ snapshot expectedVersion records,
        op = .saveEvaluation snapshot expectedVersion records
    · obtain ⟨snapshot, expectedVersion, records, rfl⟩ := hop
      rcases MemoryStore.saveEvaluation_cases hknown hallows with ⟨err, hrefused⟩ |
        ⟨-, e, e', hsaves⟩
      · have hsame : (handle lib (.saveEvaluation snapshot expectedVersion records) input
            world).2.store = world.store := congrArg Prod.snd hrefused
        have hadvances : world.store.Advances (handle lib
            (.saveEvaluation snapshot expectedVersion records) input world).2.store := by
          rw [hsame]
          exact MemoryStore.Advances.refl _
        refine ⟨?_, hadvances, known_of_learn htidy hknown hadvances⟩
        rw [hsame]
        exact ⟨htidy, hq⟩
      · exact ⟨⟨htidy.saveEvaluation _ _ _, hQ _ _ _ _ _ _ hsaves hq⟩, hsaves.advances htidy,
          known_of_learn htidy hknown (hsaves.advances htidy)⟩
    · have hsame := handle_store input world
        fun snapshot expectedVersion records h => hop ⟨snapshot, expectedVersion, records, h⟩
      have hadvances : world.store.Advances (handle lib op input world).2.store := by
        rw [hsame]
        exact MemoryStore.Advances.refl _
      refine ⟨?_, hadvances, known_of_learn htidy hknown hadvances⟩
      rw [hsame]
      exact ⟨htidy, hq⟩

/-- The pools of commands on a tidy store with the property `Q`. -/
abbrev Served (Q : MemoryStore → Prop) (pool : ServicePool lib) : Prop :=
  Pool.Obedient (protocol lib)
    (fun world : World lib => world.store.Tidy ∧ Q world.store)
    (fun known world => world.store.Known known.read)
    (fun result known => known.written = true → ∃ response, result = .ok response) pool

theorem ServiceCommand.obeys_initially (command : ServiceCommand lib) (world : World lib) :
    ∃ known : Knowledge, world.store.Known known.read ∧
      command.serve.run.Obeys (protocol lib command)
        (fun result known => known.written = true → ∃ response, result = .ok response) known :=
  ⟨.initial, fun _ _ h => absurd h List.not_mem_nil, command.obeys⟩

/-- **An operation of a command.**  The store is left alone, or the operation is an
accepted write, with which the command returns successfully. -/
theorem store_of_performed {pool pool' : ServicePool lib}
    {command : ServiceCommand lib} {input : Surroundings}
    {next : op.Reply → Program (interface lib) (Except Error Response)}
    {others : List (ServiceCommand lib × Program (interface lib) (Except Error Response))}
    (hknown : pool.shared.store.Known known.read) (hallows : (protocol lib command).Allows known op)
    (hobeys : (next (handle lib op input pool.shared).1).Obeys (protocol lib command) (fun result
      known => known.written = true → ∃ response, result = .ok response) ((protocol lib
      command).learn known op (handle lib op input pool.shared).1))
    (hstep : pool' = (⟨(handle lib op input pool.shared).2, others, pool.finished⟩ : Pool (interface
      lib) (ServiceCommand lib) (Except Error Response) (World lib)).settle command (next (handle
      lib op input pool.shared).1)) :
    pool'.shared.store = pool.shared.store ∨
      ∃ e e' expectedVersion records response,
        op = .saveEvaluation e'.snapshot expectedVersion records ∧
        command.Changes known expectedVersion e e' ∧
        pool.shared.store.Saves command e e' records pool'.shared.store ∧
        pool'.finished = pool.finished ++ [(command, .ok response)] := by
  have hshared : pool'.shared = (handle lib op input pool.shared).2 := by
    rw [hstep, Pool.shared_settle]
  by_cases hop : ∃ snapshot expectedVersion records,
      op = .saveEvaluation snapshot expectedVersion records
  · obtain ⟨snapshot, expectedVersion, records, rfl⟩ := hop
    obtain ⟨hwritten, e, e', hchanges, rfl, hrecords, -⟩ := hallows
    rw [hshared]
    rcases MemoryStore.saveEvaluation_changes hknown hchanges hrecords with ⟨err, hrefused⟩ |
      ⟨haccepted, hsaves⟩
    · exact Or.inl (congrArg Prod.snd hrefused)
    · -- having written, the command may not perform another operation
      have hreply : (handle lib (.saveEvaluation e'.snapshot expectedVersion records) input
          pool.shared).1 = .ok () := haccepted
      rw [hreply] at hobeys
      rw [hstep, hreply]
      cases hrest : next (.ok ()) with
      | call op' next' =>
          rw [hrest] at hobeys
          exact absurd hobeys.1.1 (by simp [protocol])
      | done result =>
          rw [hrest] at hobeys
          obtain ⟨response, rfl⟩ := hobeys rfl
          exact Or.inr ⟨e, e', expectedVersion, records, response, rfl, hchanges, hsaves, rfl⟩
  · refine Or.inl ?_
    rw [hshared]
    exact handle_store input pool.shared
      fun snapshot expectedVersion records h => hop ⟨snapshot, expectedVersion, records, h⟩

variable {Q : MemoryStore → Prop}
  (hQ : ∀ (command : ServiceCommand lib) m e e' records after,
    m.Saves command e e' records after → Q m → Q after)
  {pool : ServicePool lib}

include hQ

theorem Served.step (h : Served Q pool) (action : ServiceAction lib) :
    Served Q (serviceStep pool action) :=
  (Pool.Obedient.step (store_sustains Q hQ) (fun command world _ => command.obeys_initially world)
    h action).1

theorem Served.run (h : Served Q pool) (schedule : List (ServiceAction lib)) :
    Served Q (pool.run (handle lib) (fun command => command.serve.run) schedule) ∧
      pool.shared.store.Advances
        (pool.run (handle lib) (fun command => command.serve.run) schedule).shared.store :=
  Pool.Obedient.run (store_sustains Q hQ) (fun command world _ => command.obeys_initially world)
    h schedule

/-- An action that changes the evaluation store is an accepted write, and with it
its command returns successfully. -/
theorem Served.step_store (h : Served Q pool) (action : ServiceAction lib) :
    (serviceStep pool action).shared.store = pool.shared.store ∨
      ∃ (command : ServiceCommand lib) (response : Response) (e e' : EvaluationAggregate)
        (records : List OutboxRecord),
        (serviceStep pool action).finished = pool.finished ++ [(command, .ok response)] ∧
          pool.shared.store.Saves command e e' records
            (serviceStep pool action).shared.store := by
  have hcases := (Pool.Obedient.step (store_sustains Q hQ)
    (fun command world _ => command.obeys_initially world) h action).2
  rcases hcases with hsame | ⟨command, op, next, known, input, others, -, hknown, hallows, hobeys,
    hstep⟩
  · exact Or.inl (congrArg World.store hsame)
  · refine (store_of_performed hknown hallows hobeys hstep).imp id ?_
    rintro ⟨e, e', expectedVersion, records, response, -, -, hsaves, hfinished⟩
    exact ⟨command, response, e, e', records, hfinished, hsaves⟩

omit hQ

/-- The service on an empty evaluation store. -/
theorem served_initially (evidence : Evidence.MemoryRepository) (registry : Policy.Registry lib)
    (schedule : List (ServiceAction lib)) :
    Served MemoryStore.Numbered (serviceAfter ⟨.empty, evidence, registry⟩ schedule) := by
  refine (Served.run (fun _ _ _ _ _ _ hsaves => hsaves.numbered)
    (Pool.Obedient.initial ⟨MemoryStore.Tidy.empty, ?_⟩) schedule).1
  intro id
  rfl

/-- **The outbox has each version once.**  After every schedule, the records of a
stored evaluation carry the versions `1, …, V` in this order, and every action
that adds records is the last one of a command that succeeds. -/
theorem outbox_numbers_versions (evidence : Evidence.MemoryRepository)
    (registry : Policy.Registry lib) (schedule : List (ServiceAction lib)) :
    let pool := serviceAfter ⟨.empty, evidence, registry⟩ schedule
    (∀ id s, pool.shared.store.snapshots id = some s →
      (pool.shared.store.recordsOf id).map (·.aggregateVersion) = List.range' 1 s.version) ∧
    ∀ action, (serviceStep pool action).shared.store.outbox ≠ pool.shared.store.outbox →
      ∃ command response,
        (serviceStep pool action).finished = pool.finished ++ [(command, .ok response)] := by
  intro pool
  have hserved : Served MemoryStore.Numbered pool := served_initially evidence registry schedule
  refine ⟨?_, ?_⟩
  · intro id s hs
    have hnumbered := hserved.1.2 id
    unfold MemoryStore.versionOf at hnumbered
    rw [hs] at hnumbered
    exact hnumbered
  · intro action hchanged
    rcases hserved.step_store (fun _ _ _ _ _ _ hsaves => hsaves.numbered) action with
      hsame | ⟨command, response, -, -, -, hfinished, -⟩
    · exact absurd (congrArg MemoryStore.outbox hsame) hchanged
    · exact ⟨command, response, hfinished⟩

/-! ## The end of an evaluation -/

/-- The action is the write by which a `Complete` or an `ExpireTimedOut` commits
for the evaluation. -/
def CommitsEnd (pool : ServicePool lib) (action : ServiceAction lib) (id : UUID) : Prop :=
  ∃ command response, command.Ends ∧
    (serviceStep pool action).finished = pool.finished ++ [(command, .ok response)] ∧
    (serviceStep pool action).shared.store.snapshots id ≠ pool.shared.store.snapshots id

/-- A committed end leaves an ended evaluation behind. -/
theorem CommitsEnd.ended (hserved : Served (fun _ => True) pool)
    {action : ServiceAction lib} (h : CommitsEnd pool action id) :
    ∃ s, (serviceStep pool action).shared.store.snapshots id = some s ∧ s.state.IsTerminal := by
  obtain ⟨command, response, hends, hfinished, hchanged⟩ := h
  rcases hserved.step_store (fun _ _ _ _ _ _ _ _ => trivial) action with
    hsame | ⟨writer, response', e, e', records, hfinished', hsaves⟩
  · exact absurd (congrFun (congrArg MemoryStore.snapshots hsame) id) hchanged
  · have hid : id = e.evaluationID := by
      by_contra hid
      exact hchanged (hsaves.snapshots_other hid)
    -- the command that returned with this action is the one that wrote
    rw [hfinished'] at hfinished
    obtain ⟨hreturned, -⟩ := List.cons.inj (List.append_cancel_left hfinished)
    obtain rfl := (Prod.mk.inj hreturned).1
    refine ⟨e'.snapshot.restored, ?_, hsaves.ended hends⟩
    rw [hid]
    exact hsaves.snapshots_self

/-- A store that was filled by any sequence of writes. -/
def storeAfter (writes : List (EvaluationSnapshot × Nat × List OutboxRecord)) : MemoryStore :=
  writes.foldl (fun m write => (m.saveEvaluation write.1 write.2.1 write.2.2).2) .empty

theorem storeAfter_tidy (writes : List (EvaluationSnapshot × Nat × List OutboxRecord)) :
    (storeAfter writes).Tidy := by
  unfold storeAfter
  have hempty := MemoryStore.Tidy.empty
  generalize MemoryStore.empty = m at hempty
  induction writes generalizing m with
  | nil => exact hempty
  | cons write rest ih => exact ih _ (hempty.saveEvaluation _ _ _)

theorem served_on_any_store (writes : List (EvaluationSnapshot × Nat × List OutboxRecord))
    (evidence : Evidence.MemoryRepository) (registry : Policy.Registry lib)
    (schedule : List (ServiceAction lib)) :
    Served (fun _ => True) (serviceAfter ⟨storeAfter writes, evidence, registry⟩ schedule) :=
  (Served.run (fun _ _ _ _ _ _ _ _ => trivial)
    (Pool.Obedient.initial ⟨storeAfter_tidy writes, trivial⟩) schedule).1

theorem serviceAfter_append (world : World lib) (schedule more : List (ServiceAction lib)) :
    serviceAfter world (schedule ++ more) =
      (serviceAfter world schedule).run (handle lib) (fun command => command.serve.run) more :=
  List.foldl_append

/-- An ended evaluation stays as it is. -/
theorem Served.final (hserved : Served (fun _ => True) pool) {s : EvaluationSnapshot}
    (hs : pool.shared.store.snapshots id = some s) (hended : s.state.IsTerminal)
    (more : List (ServiceAction lib)) :
    let later := pool.run (handle lib) (fun command => command.serve.run) more
    later.shared.store.snapshots id = some s ∧
      later.shared.store.recordsOf id = pool.shared.store.recordsOf id := by
  intro later
  have hadvances := (hserved.run (fun _ _ _ _ _ _ _ _ => trivial) more).2
  obtain ⟨s', hs', -, hkept⟩ := hadvances id s hs
  obtain ⟨rfl, hrecords⟩ := hkept (Or.inr hended)
  exact ⟨hs', hrecords⟩

/-- **An ended evaluation is final.**  Whatever the store held before, an
evaluation that has ended after some schedule keeps its snapshot and its records
under every continuation; so after a `Complete` or an `ExpireTimedOut` has
committed for an evaluation, none commits for it any more. -/
theorem ended_evaluations_are_final
    (writes : List (EvaluationSnapshot × Nat × List OutboxRecord))
    (evidence : Evidence.MemoryRepository) (registry : Policy.Registry lib)
    (schedule : List (ServiceAction lib)) (id : UUID) :
    let after := serviceAfter (⟨storeAfter writes, evidence, registry⟩ : World lib)
    (∀ s, (after schedule).shared.store.snapshots id = some s → s.state.IsTerminal →
      ∀ more, (after (schedule ++ more)).shared.store.snapshots id = some s ∧
        (after (schedule ++ more)).shared.store.recordsOf id =
          (after schedule).shared.store.recordsOf id) ∧
    ∀ action more action', CommitsEnd (after schedule) action id →
      ¬ CommitsEnd (after (schedule ++ action :: more)) action' id := by
  intro after
  have hserved := fun schedule => served_on_any_store writes evidence registry schedule
  refine ⟨?_, ?_⟩
  · intro s hs hended more
    simp only [after, serviceAfter_append]
    exact (hserved schedule).final hs hended more
  · intro action more action' hfirst hsecond
    -- the first commit has ended the evaluation, so the second changes nothing
    obtain ⟨s, hs, hended⟩ := hfirst.ended (hserved schedule)
    have hbefore : (after (schedule ++ action :: more)).shared.store.snapshots id = some s := by
      simp only [after, serviceAfter_append]
      exact (((hserved schedule).step (fun _ _ _ _ _ _ _ _ => trivial) action).final hs hended
        more).1
    have hafter : (serviceStep (after (schedule ++ action :: more))
        action').shared.store.snapshots id = some s :=
      ((hserved (schedule ++ action :: more)).final hbefore hended [action']).1
    obtain ⟨_, _, _, _, hchanged⟩ := hsecond
    exact hchanged (hafter.trans hbefore.symm)

end

end Pds
end CargoPds
