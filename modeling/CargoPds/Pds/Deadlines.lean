import CargoPds.Pds.Decisions
import CargoPds.Pds.Outbox

/-!
# No evaluation expires before its deadline

`ExpireTimedOut` reads an evaluation, computes the deadline of the phase it is in, and
writes the expired evaluation back under the version it has read.  Between the two other
commands may start or change the evaluation; then the version is another one and the
write is refused.

* `expireTimedOut_timely`: what the command writes has passed the deadline of the state it
  has read (`OnTime`);
* `OnTime.overdue`: an accepted write replaces that very state, so the deadline is the one
  of the phase the stored evaluation was in;
* `expired_after_deadline`: every stored EXPIRED evaluation comes from such a write, for
  every schedule of commands.
-/

namespace CargoPds
namespace Pds

open Evaluation Concurrency Program

variable {expectedVersion : Nat} {known : Knowledge}

/-! ## Deadlines -/

/-- `Validate` accepts the policy. -/
def TimeoutPolicy.Valid (p : TimeoutPolicy) : Prop :=
  0 ≤ p.createdTimeout ∧ 0 ≤ p.runningTimeout ∧ ¬ (p.createdTimeout = 0 ∧ p.runningTimeout = 0)

/-- The evaluation expired at its deadline or later: that of its execution if it was
started, and that of its creation otherwise. -/
def TimeoutPolicy.Overdue (p : TimeoutPolicy) (s : EvaluationSnapshot) : Prop :=
  ∃ expiredAt ∈ s.expiredAt,
    match s.startedAt with
    | some startedAt =>
        p.runningTimeout ≠ 0 ∧ ¬ expiredAt.Before (startedAt.add p.runningTimeout)
    | none => p.createdTimeout ≠ 0 ∧ ¬ expiredAt.Before (s.createdAt.add p.createdTimeout)

/-- The deadline of an evaluation whose times fit its state. -/
theorem TimeoutPolicy.deadline_eq_ok {p : TimeoutPolicy} {s : EvaluationSnapshot}
    {deadline : Time} (h : p.deadline s = .ok deadline) (htimes : s.TimesPresent) :
    p.Valid ∧ (s.state = .created ∨ s.state = .running) ∧
      match s.startedAt with
      | some startedAt => p.runningTimeout ≠ 0 ∧ deadline = startedAt.add p.runningTimeout
      | none => p.createdTimeout ≠ 0 ∧ deadline = s.createdAt.add p.createdTimeout := by
  simp only [TimeoutPolicy.deadline, Fallible.bind_eq_ok, Fallible.rejectIf_eq_ok, exists_const,
    not_or, not_lt] at h
  obtain ⟨hvalid, hdeadline⟩ := h
  unfold EvaluationSnapshot.TimesPresent at htimes
  cases hstate : s.state with
  | created =>
      simp only [hstate] at hdeadline htimes
      rw [htimes.1]
      split at hdeadline
      · exact absurd hdeadline (by simp)
      · rename_i hset
        exact ⟨hvalid, Or.inl rfl, hset, (Except.ok.inj hdeadline).symm⟩
  | running =>
      simp only [hstate] at hdeadline
      split at hdeadline
      · exact absurd hdeadline (by simp)
      · split at hdeadline
        · exact absurd hdeadline (by simp)
        · rename_i startedAt hstarted hset
          rw [hstarted]
          exact ⟨hvalid, Or.inr rfl, hset, (Except.ok.inj hdeadline).symm⟩
  | completed | cancelled | expired | other =>
      simp only [hstate] at hdeadline
      exact absurd hdeadline (by simp)

/-! ## What the command writes -/

/-- The snapshot is that of an evaluation that the command has read, expired after the
deadline of what was read. -/
def OnTime (id : UUID) (p : TimeoutPolicy) (known : Knowledge) (snapshot : EvaluationSnapshot)
    (expectedVersion : Nat) : Prop :=
  ∃ e e' now deadline, (id, e) ∈ known.read ∧ expectedVersion = e.version ∧
    snapshot = e'.snapshot ∧ p.deadline e.snapshot = .ok deadline ∧ ¬ now.Before deadline ∧
    e.expire now = .ok e'

theorem OnTime.mono {id : UUID} {p : TimeoutPolicy} {later : Knowledge}
    {snapshot : EvaluationSnapshot} (h : OnTime id p known snapshot expectedVersion)
    (hread : known.read ⊆ later.read) :
    OnTime id p later snapshot expectedVersion := by
  obtain ⟨e, e', now, deadline, hmem, hrest⟩ := h
  exact ⟨e, e', now, deadline, hread hmem, hrest⟩

/-- The condition on the writes of `ExpireTimedOut`; there is none on the others. -/
def ServiceCommand.Timed {lib : Platform} (command : ServiceCommand lib) (known : Knowledge)
    (op : Op lib) : Prop :=
  match command, op with
  | .governed (.expireTimedOut id p), .saveEvaluation s expectedVersion _ =>
      OnTime id p known s expectedVersion
  | _, _ => True

section
variable {lib : Platform} {id : UUID} {p : TimeoutPolicy} {known : Knowledge} {α : Type}

/-- The protocol of that condition. -/
def timedProtocol (lib : Platform) (command : ServiceCommand lib) :
    Protocol (interface lib) Knowledge where
  Allows := command.Timed
  learn := (protocol lib command).learn

/-- A client of `ExpireTimedOut` that writes on time. -/
abbrev Timely (id : UUID) (p : TimeoutPolicy) (client : Client lib α)
    (P : α → Knowledge → Prop) (known : Knowledge) : Prop :=
  Complies (timedProtocol lib (.governed (.expireTimedOut id p))) client P (fun _ => True) known

/-- Nothing that was read is forgotten. -/
theorem read_subset_learn (command : ServiceCommand lib) (op : Op lib) (reply : op.Reply) :
    known.read ⊆ ((timedProtocol lib command).learn known op reply).read := by
  cases op with
  | findEvaluation id =>
      cases reply with
      | error err => exact fun _ h => h
      | ok e => exact List.subset_cons_self _ _
  | newUUID | saveEvaluation => cases reply <;> exact fun _ h => h
  | _ => exact fun _ h => h

theorem Timely.perform (op : Op lib) {program : Program (interface lib) (Except Error α)}
    {decode : op.Reply → Except Error α} {P : α → Knowledge → Prop}
    (hop : ServiceCommand.Timed (.governed (.expireTimedOut id p)) known op)
    (hprogram : program = .call op fun reply => .done (decode reply))
    (hok : ∀ reply value, decode reply = .ok value →
      P value ((timedProtocol lib (.governed (.expireTimedOut id p))).learn known op reply)) :
    Timely id p (Program.attempt program : Client lib α) P known := by
  refine Complies.perform op decode hprogram ?_ hok fun _ _ _ => trivial
  exact hop

theorem now_timely :
    Timely id p (Client.now lib) (fun _ k => known.read ⊆ k.read) known :=
  Timely.perform .now trivial rfl fun reply _ _ => read_subset_learn _ .now reply

theorem newUUID_timely :
    Timely id p (Client.newUUID lib) (fun _ k => known.read ⊆ k.read) known :=
  Timely.perform .newUUID trivial rfl fun reply _ _ => read_subset_learn _ .newUUID reply

theorem find_timely :
    Timely id p (find lib id) (fun e k => (id, e) ∈ k.read) known := by
  refine Timely.perform (.findEvaluation id) trivial rfl ?_
  rintro reply e rfl
  exact List.mem_cons_self

theorem save_timely {e' : EvaluationAggregate} (value : α)
    (h : OnTime id p known e'.snapshot expectedVersion) :
    Timely id p (do
      save lib e' expectedVersion
      return value : Client lib α) (fun _ _ => True) known := by
  refine Complies.bind (P := fun _ _ => True) ?_ fun _ _ _ => Complies.pure trivial
  refine Complies.bind now_timely fun now k hk => ?_
  have hrecords : Timely id p (buildOutboxRecords lib e'.domainEvents now.toUTC)
      (fun _ k' => known.read ⊆ k'.read) k := by
    refine Complies.forEach (fun _ _ (k' : Knowledge) => known.read ⊆ k'.read) hk ?_
    intro finished values event k' hk'
    refine Complies.bind newUUID_timely fun recordID k'' hk'' => ?_
    exact Complies.compute (fun _ _ => List.Subset.trans hk' hk'') trivial
  refine Complies.bind hrecords fun records k' hk' => ?_
  exact Timely.perform (.saveEvaluation e'.snapshot expectedVersion records) (h.mono hk') rfl
    fun _ _ _ => trivial

/-- `ExpireTimedOut` writes nothing before the deadline of what it has read. -/
theorem expireTimedOut_timely (id : UUID) (p : TimeoutPolicy) :
    Timely id p (expireTimedOut lib id p) (fun _ _ => True) known := by
  refine Complies.bind find_timely fun e k hread => ?_
  split
  · exact Complies.pure trivial
  · refine Complies.compute_bind trivial fun deadline hdeadline => ?_
    refine Complies.bind now_timely fun now k' hk' => ?_
    refine Complies.compute_bind trivial fun _ hguard => ?_
    refine Complies.compute_bind trivial fun expired hexpired => ?_
    refine Complies.orElse ?_ fun k'' _ => ?_
    · exact save_timely _ ⟨e, expired, now.toUTC, deadline, hk' hread, rfl, rfl, hdeadline,
        Fallible.rejectIf_eq_ok.mp hguard, Fallible.mapError_eq_ok.mp hexpired⟩
    · exact Complies.bind find_timely fun _ _ _ => Complies.pure ⟨trivial, fun _ _ => trivial⟩

/-- The same of all commands. -/
theorem ServiceCommand.obeys_timed (command : ServiceCommand lib) :
    command.serve.run.Obeys (timedProtocol lib command) (fun _ _ => True) known := by
  have hfree : (∀ known op, (timedProtocol lib command).Allows known op) →
      command.serve.run.Obeys (timedProtocol lib command) (fun _ _ => True) known := fun hallows =>
    Obeys.of_allows _ hallows (fun _ _ => trivial) _ _
  cases command with
  | governed command =>
      cases command with
      | expireTimedOut id p =>
          have htimely : Timely id p
              (ServiceCommand.governed (.expireTimedOut id p) : ServiceCommand lib).serve
              (fun _ _ => True) known :=
            Complies.bind (expireTimedOut_timely id p) fun _ _ _ => Complies.pure trivial
          exact Obeys.mono _ (fun _ _ _ => trivial) ((complies_iff_obeys _).mp htimely)
      | _ => exact hfree fun _ op => by cases op <;> trivial
  | _ => exact hfree fun _ op => by cases op <;> trivial

end

/-! ## Which commands expire evaluations -/

section
open EvaluationAggregate

variable {e e' : EvaluationAggregate}

/-- Only `ExpireTimedOut` makes an evaluation EXPIRED. -/
theorem ServiceCommand.Changes.expires {lib : Platform} {command : ServiceCommand lib}
    (h : command.Changes known expectedVersion e e') (hexpired : e'.state = .expired) :
    e.state = .expired ∨ ∃ id p, command = .governed (.expireTimedOut id p) ∧
      known.Loads id expectedVersion e := by
  cases command with
  | governed command =>
      cases command with
      | createForPolicy sessionID policyID =>
          obtain ⟨-, plan, t, planned, binding, hplanned, hbound⟩ := h
          rw [bindVerificationPolicy_state hbound, registerPlan_state hplanned] at hexpired
          exact Or.inl hexpired
      | start id =>
          obtain ⟨-, t, hstarted⟩ := h
          obtain rfl := start_eq_ok hstarted
          exact absurd hexpired (by simp [EvaluationAggregate.raise])
      | qualifyAndBind id =>
          obtain ⟨-, -, binding, hbound⟩ := h
          exact Or.inl ((bindEvidenceSet_state hbound).symm.trans hexpired)
      | execute id =>
          obtain ⟨-, -, outcomes, t, -, hrecorded⟩ := h
          exact Or.inl ((recordRuleOutcomeBatch_state hrecorded).symm.trans hexpired)
      | complete id =>
          obtain ⟨-, result, reasons, t, hcompleted⟩ := h
          obtain ⟨-, -, nr, -, rfl⟩ := completeAt_eq_ok hcompleted
          exact absurd hexpired (by simp [EvaluationAggregate.raise])
      | expireTimedOut id p => exact Or.inr ⟨id, p, rfl, h.1⟩
      | ingest | add | suspend | retire => exact h.elim
  | create sessionID requiredRules =>
      obtain ⟨-, t, hplanned⟩ := h
      exact Or.inl ((registerPlan_state hplanned).symm.trans hexpired)
  | recordOutcome id outcome =>
      obtain ⟨-, t, -, hrecorded⟩ := h
      exact Or.inl ((recordRuleOutcome_state hrecorded).symm.trans hexpired)
  | bindEvidenceQualification id result =>
      exact Or.inl ((bindEvidenceSet_state h.2).symm.trans hexpired)
  | bindVerificationPolicy id binding =>
      exact Or.inl ((bindVerificationPolicy_state h.2).symm.trans hexpired)
  | resolveAndBindPolicy id policyID =>
      obtain ⟨-, binding, hbound⟩ := h
      exact Or.inl ((bindVerificationPolicy_state hbound).symm.trans hexpired)
  | snapshot | trace => exact h.elim

end

/-! ## All schedules -/

/-- What was read was asked for under its identifier. -/
def Knowledge.Keyed (known : Knowledge) : Prop :=
  ∀ id e, (id, e) ∈ known.read → e.evaluationID = id

section
variable {lib : Platform} {id : UUID} {p : TimeoutPolicy}

theorem keyed_of_learn {command : ServiceCommand lib} {op : Op lib} {input : Surroundings}
    {world : World lib} (htidy : world.store.Tidy) (h : known.Keyed) :
    ((protocol lib command).learn known op (handle lib op input world).1).Keyed := by
  cases op with
  | findEvaluation id =>
      cases hfind : world.store.findEvaluation id with
      | error err =>
          simp only [handle, protocol, hfind]
          exact h
      | ok found =>
          simp only [handle, protocol, hfind]
          intro other e hmem
          rcases List.mem_cons.mp hmem with hnew | hold
          · obtain ⟨rfl, rfl⟩ := Prod.mk.inj hnew
            obtain ⟨s, hs, hrehydrate⟩ := MemoryStore.findEvaluation_eq_ok hfind
            rw [htidy.restored other s hs] at hrehydrate
            obtain rfl := Except.ok.inj hrehydrate
            exact htidy.keyed other s hs
          · exact h other e hold
  | saveEvaluation snapshot expectedVersion records =>
      have hread : ∀ reply : Except Error Unit, ((protocol lib command).learn known
          (.saveEvaluation snapshot expectedVersion records) reply).read = known.read := by
        rintro (err | ⟨⟩) <;> rfl
      unfold Knowledge.Keyed
      rw [hread]
      exact h
  | saveEvidence | findEvidence | listEvidenceBySession | add | suspend | retire | resolve
  | findVersion | now | newUUID => exact h

/-- The pools of commands that expire evaluations on time. -/
abbrev ServedOnTime (pool : ServicePool lib) : Prop :=
  Pool.Obedient (fun command => (protocol lib command).restrict command.Timed)
    (fun world : World lib => world.store.Tidy ∧ True)
    (fun known world => world.store.Known known.read ∧ known.Keyed)
    (fun result known => known.written = true → ∃ response, result = .ok response) pool

theorem timed_sustains :
    Pool.Sustains (handle lib) (fun command => (protocol lib command).restrict command.Timed)
      (fun world => world.store.Tidy ∧ True)
      (fun known world => world.store.Known known.read ∧ known.Keyed)
      (fun world world' => world.store.Advances world'.store) :=
  ((store_sustains (fun _ => True) fun _ _ _ _ _ _ _ _ => trivial).remember
    fun _ _ _ _ _ hinv hkeyed => keyed_of_learn hinv.1 hkeyed).restrict _

theorem ServiceCommand.obeys_on_time (command : ServiceCommand lib) (world : World lib)
    (_ : world.store.Tidy ∧ True) :
    ∃ known : Knowledge, (world.store.Known known.read ∧ known.Keyed) ∧
      command.serve.run.Obeys ((protocol lib command).restrict command.Timed)
        (fun result known => known.written = true → ∃ response, result = .ok response) known :=
  ⟨.initial, ⟨fun _ _ h => absurd h List.not_mem_nil, fun _ _ h => absurd h List.not_mem_nil⟩,
    Obeys.restrict _ command.obeys command.obeys_timed⟩

/-- An accepted write of `ExpireTimedOut`: what it replaces is what was read, and the
deadline is that of the phase it was in. -/
theorem OnTime.overdue {m : MemoryStore} {snapshot : EvaluationSnapshot} (htidy : m.Tidy)
    (hknown : m.Known known.read) (hkeyed : known.Keyed)
    (h : OnTime id p known snapshot expectedVersion) {stored : EvaluationSnapshot}
    (hstored : m.snapshots id = some stored) (hversion : stored.version = expectedVersion) :
    p.Valid ∧ (stored.state = .created ∨ stored.state = .running) ∧
      snapshot.createdAt = stored.createdAt ∧ snapshot.startedAt = stored.startedAt ∧
      p.Overdue snapshot := by
  obtain ⟨e, e', now, deadline, hmem, rfl, rfl, hdeadline, hlate, hexpire⟩ := h
  obtain ⟨-, s, hs, -, hsame⟩ := hknown id e hmem
  rw [hkeyed id e hmem, hstored] at hs
  obtain rfl := Option.some.inj hs
  obtain rfl := hsame hversion
  have htimes := (rehydrateEvaluation_eq_ok_iff.mp (htidy.restored _ _ hstored)).1.times
  obtain ⟨hvalid, hphase, hdue⟩ := p.deadline_eq_ok hdeadline htimes
  obtain rfl := EvaluationAggregate.expire_eq_ok hexpire
  refine ⟨hvalid, hphase, rfl, rfl, now.toUTC, rfl, ?_⟩
  change match e.snapshot.startedAt with
    | some startedAt => _
    | none => _
  cases hstarted : e.snapshot.startedAt with
  | none =>
      simp only [hstarted] at hdue ⊢
      exact ⟨hdue.1, fun hearly => hlate (hdue.2 ▸ hearly)⟩
  | some startedAt =>
      simp only [hstarted] at hdue ⊢
      exact ⟨hdue.1, fun hearly => hlate (hdue.2 ▸ hearly)⟩

/-- The action is the write by which an `ExpireTimedOut` with the policy expires the
evaluation, which has passed the deadline of the phase it was stored in. -/
def ExpiredBy (pool : ServicePool lib) (action : ServiceAction lib) (id : UUID) (p : TimeoutPolicy)
    (s : EvaluationSnapshot) : Prop :=
  ∃ response before,
    (serviceStep pool action).finished =
      pool.finished ++ [(.governed (.expireTimedOut id p), .ok response)] ∧
    pool.shared.store.snapshots id = some before ∧
    (before.state = .created ∨ before.state = .running) ∧
    s.createdAt = before.createdAt ∧ s.startedAt = before.startedAt ∧
    (serviceStep pool action).shared.store.snapshots id = some s ∧
    p.Valid ∧ p.Overdue s

/-- **Step lemma.**  An evaluation that is EXPIRED after an action was stored like that
before, or the action has expired it on time. -/
theorem ServedOnTime.step_expired {pool : ServicePool lib}
    (h : ServedOnTime pool) (action : ServiceAction lib)
    {s : EvaluationSnapshot} (hs : (serviceStep pool action).shared.store.snapshots id = some s)
    (hexpired : s.state = .expired) :
    pool.shared.store.snapshots id = some s ∨ ∃ p, ExpiredBy pool action id p s := by
  have hcases := (Pool.Obedient.step timed_sustains ServiceCommand.obeys_on_time h action).2
  rcases hcases with hsame | ⟨command, op, next, known, input, others, ⟨htidy, -⟩,
    ⟨hknown, hkeyed⟩, ⟨hallows, htimed⟩, hobeys, hstep⟩
  · left
    rw [← hs]
    exact congrFun (congrArg (fun world : World lib => world.store.snapshots) hsame.symm) id
  rcases store_of_performed hknown hallows (Obeys.of_restrict _ hobeys) hstep with
    hsame | ⟨e, e', expectedVersion, records, response, rfl, hchanges, hsaves, hfinished⟩
  · left
    rw [← hs]
    exact congrFun (congrArg MemoryStore.snapshots hsame.symm) id
  by_cases hid : id = e.evaluationID
  · subst hid
    have hwritten : s = e'.snapshot.restored :=
      Option.some.inj (hs.symm.trans hsaves.snapshots_self)
    have hstate : e'.state = .expired := by
      rw [hwritten] at hexpired
      exact hexpired
    rcases hchanges.expires hstate with hold | ⟨target, p, rfl, hversion, hread⟩
    · rcases hsaves.base with ⟨⟨newID, sessionID, createdAt, hnew⟩, -⟩ | ⟨-, hstored⟩
      · rw [(EvaluationAggregate.newEvaluation_eq_ok hnew).1.created] at hold
        exact absurd hold (by decide)
      · -- an ended evaluation is written back as it is
        have hunchanged := (hsaves.unchanged htidy hstored (Or.inr (Or.inr (Or.inr hold)))).1
        rw [hwritten, hunchanged]
        exact Or.inl hstored
    · obtain rfl := hkeyed target e hread
      rcases hsaves.base with ⟨-, hnone⟩ | ⟨-, hstored⟩
      · obtain ⟨-, stored, hstored, -⟩ := hknown _ e hread
        exact absurd (hnone.symm.trans hstored) (by simp)
      · obtain ⟨hvalid, hphase, hcreated, hstarted, hoverdue⟩ :=
          OnTime.overdue htidy hknown hkeyed htimed hstored hversion.symm
        have hfix := (rehydrateEvaluation_eq_ok_iff.mp (htidy.restored _ _ hstored)).2
        have hutc : e.snapshot.createdAt.toUTC = e.snapshot.createdAt :=
          (congrArg (fun aggregate => aggregate.snapshot.createdAt) hfix).symm
        refine Or.inr ⟨p, response, e.snapshot, hfinished, hstored, hphase, ?_, ?_, hs, hvalid, ?_⟩
        · rw [hwritten]
          exact (congrArg Time.toUTC hcreated).trans hutc
        · rw [hwritten]
          exact hstarted
        · rw [hwritten]
          exact hoverdue
  · left
    rw [← hs]
    exact (hsaves.snapshots_other hid).symm

theorem servedOnTime_initially (evidence : Evidence.MemoryRepository)
    (registry : Policy.Registry lib) (schedule : List (ServiceAction lib)) :
    ServedOnTime (serviceAfter ⟨.empty, evidence, registry⟩ schedule) :=
  (Pool.Obedient.run timed_sustains ServiceCommand.obeys_on_time
    (Pool.Obedient.initial ⟨MemoryStore.Tidy.empty, trivial⟩) schedule).1

/-- **No evaluation expires before its deadline.**  For every schedule of commands over an
empty store, every stored EXPIRED evaluation was written by an `ExpireTimedOut` whose
policy is valid and sets a timeout for the phase the evaluation was in, and it expired
that long after it was started, or, never started, after it was created. -/
theorem expired_after_deadline (evidence : Evidence.MemoryRepository)
    (registry : Policy.Registry lib) (schedule : List (ServiceAction lib))
    (id : UUID) (s : EvaluationSnapshot)
    (hs : (serviceAfter ⟨.empty, evidence, registry⟩ schedule).shared.store.snapshots id = some s)
    (hexpired : s.state = .expired) :
    ∃ earlier action later p, schedule = earlier ++ action :: later ∧
      ExpiredBy (serviceAfter ⟨.empty, evidence, registry⟩ earlier) action id p s := by
  -- from the last action back to the one that has expired the evaluation
  induction schedule using List.reverseRecOn with
  | nil => exact absurd hs (by simp [serviceAfter, Pool.run, Pool.initial, MemoryStore.empty])
  | append_singleton schedule action ih =>
      rw [serviceAfter_append] at hs
      have hserved := servedOnTime_initially evidence registry schedule
      rcases hserved.step_expired action hs hexpired with hold | ⟨p, hby⟩
      · obtain ⟨earlier, first, later, p, hschedule, hby⟩ := ih hold
        refine ⟨earlier, first, later ++ [action], p, ?_, hby⟩
        rw [hschedule, List.append_assoc, List.cons_append]
      · exact ⟨schedule, action, [], p, rfl, hby⟩

end

/-! ## An evaluation that is started while it expires -/

namespace Crate

/-- The JSON of the event with which an evaluation expires; the others are as before. -/
def expiringEventJson (event : DomainEvent) : Option Json :=
  match event.body with
  | .evaluationExpired reasons t => some (.object [
      ("EvaluationID", idJson event.evaluationID), ("SessionID", idJson event.sessionID),
      ("ReasonCodes", textsJson reasons), ("ExpiredAt", timeJson t),
      ("Version", .number (toString event.version))])
  | _ => eventJson event

/-- The platform of the example with that event. -/
def expiringPlatform : Platform :=
  { platform with marshalEvent := fun event => (expiringEventJson event).map render }

/-- An hour for either phase. -/
def hourly : TimeoutPolicy := ⟨hour, hour⟩

/-- Steps of the client at the given time. -/
def steps (thread : Nat) (now : Time) (ids : List Nat) :
    List (Action (ServiceCommand expiringPlatform) Surroundings) :=
  ids.map fun id => .advance thread ⟨now, BitVec.ofNat 128 id⟩

/-- An evaluation is created at eight and read for its expiration; it is started before the
expiration of nine o'clock is written, which is refused, and it expires at ten. -/
def overtaken : List (Action (ServiceCommand expiringPlatform) Surroundings) :=
  .invoke (.create session []) :: steps 0 eight [1, 2, 3, 4, 5] ++
  .invoke (.governed (.expireTimedOut 2 hourly)) :: steps 0 (eight.add hour) [6] ++
  .invoke (.governed (.start 2)) :: steps 1 (eight.add hour) [7, 8, 9, 10, 11] ++
  steps 0 (eight.add hour) [12, 13, 14, 15, 16] ++
  .invoke (.governed (.expireTimedOut 2 hourly)) ::
    steps 0 (eight.add (2 * hour)) [17, 18, 19, 20, 21]

/-- The start is not overruled: the evaluation expires an hour after it. -/
theorem overtaken_expires_on_time :
    ∃ s, (serviceAfter ⟨.empty, .empty, .empty⟩ overtaken).shared.store.snapshots 2 = some s ∧
      s.state = .expired ∧ s.startedAt = some (eight.add hour) ∧
      ∃ earlier action later p, overtaken = earlier ++ action :: later ∧
        ExpiredBy (serviceAfter ⟨.empty, .empty, .empty⟩ earlier) action 2 p s := by
  have hstored : ((serviceAfter ⟨.empty, .empty, .empty⟩ overtaken).shared.store.snapshots 2).map
      (fun s => (s.state, s.startedAt)) = some (.expired, some (eight.add hour)) := by
    decide
  obtain ⟨s, hs, hfields⟩ := Option.map_eq_some_iff.mp hstored
  obtain ⟨hstate, hstarted⟩ := Prod.mk.inj hfields
  exact ⟨s, hs, hstate, hstarted, expired_after_deadline .empty .empty overtaken 2 s hs hstate⟩

end Crate

end Pds
end CargoPds
