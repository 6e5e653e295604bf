import CargoPds.Concurrency.Indifference
import CargoPds.Evidence.Order
import CargoPds.Pds.Decisions
import CargoPds.Pds.Outbox

/-!
# The order of evidence does not influence a decision

The qualification sorts the evidence of a session, the operators count it, look for the
one object that matches, or sort it themselves.  So none of them sees in which order the
evidence is given (`Operator.evaluate_perm` here, `Qualifier.qualifySet_perm` in
`Evidence.Order`).

The only listing of evidence that a command of the service asks for goes straight into
the qualification.  Commands are therefore indifferent to its order
(`ServiceCommand.unordered`), and a repository that lists the evidence in another order
leads every schedule through the same states and to the same replies.
-/

namespace CargoPds

/-! ## Operators -/

namespace RuleOperator

variable (lib : Platform)

theorem selectValue_perm {left right : RuleInput} (h : left.evidence.Perm right.evidence)
    (selector : Selector) : selectValue lib left selector = selectValue lib right selector := by
  have hmatching := h.filter fun snapshot => SelectorMatches snapshot selector
  unfold selectValue
  generalize left.evidence.filter (fun snapshot => SelectorMatches snapshot selector) = found
    at hmatching ⊢
  generalize right.evidence.filter (fun snapshot => SelectorMatches snapshot selector) = other
    at hmatching ⊢
  match found with
  | [] => rw [List.nil_perm.mp hmatching]
  | [snapshot] => rw [List.singleton_perm.mp hmatching]
  | first :: second :: rest =>
      have hlength := hmatching.length_eq
      match other with
      | [] => exact absurd hlength (by simp)
      | [_] => exact absurd hlength (by simp)
      | _ :: _ :: _ => rfl

/-- An operator gives the same decision on the same evidence in another order. -/
theorem Operator.evaluate_perm (operator : Operator) {left right : RuleInput}
    (hids : Evidence.DistinctIDs left.evidence) (h : left.evidence.Perm right.evidence) :
    operator.evaluate lib left = operator.evaluate lib right := by
  cases operator with
  | «match» ruleID selector expected | range ruleID selector minimum maximum
  | tolerance ruleID selector expected delta =>
      simp only [Operator.evaluate, decideValue, selectValue_perm lib h]
  | existence ruleID evidenceType sourceID minimumCount =>
      have hcount := (h.filter fun snapshot =>
        SelectorMatches snapshot ⟨evidenceType, sourceID, ""⟩).length_eq
      simp only [Operator.evaluate, hcount]
  | sequence ruleID steps maxGap maxDuration =>
      simp only [Operator.evaluate, Evidence.sorted_perm hids h]

end RuleOperator

/-! ## Listings -/

namespace Evidence.MemoryRepository

variable {lib : Platform}

/-- No identifier is used twice. -/
theorem distinctIDs_saveEvidence {m : MemoryRepository} (h : DistinctIDs m.objects)
    (snapshot : Snapshot) : DistinctIDs (m.saveEvidence lib snapshot).2.objects := by
  unfold saveEvidence
  split
  · exact h
  · rename_i object _
    split
    · split <;> exact h
    · rename_i hnew
      unfold DistinctIDs
      rw [List.map_append, List.map_singleton, List.nodup_append]
      refine ⟨h, List.nodup_singleton _, ?_⟩
      intro id hid other hother hsame
      obtain ⟨stored, hstored, rfl⟩ := List.mem_map.mp hid
      rw [List.mem_singleton] at hother
      rw [lookup, List.find?_eq_none] at hnew
      exact hnew stored hstored (decide_eq_true (hsame.trans hother))

/-- What is listed are entries of the map. -/
theorem distinctIDs_listEvidenceBySession {m : MemoryRepository} (h : DistinctIDs m.objects)
    {sessionID : UUID} {objects : List Object}
    (hlisted : m.listEvidenceBySession lib sessionID = .ok objects) :
    DistinctIDs (objects.map (·.snapshot)) := by
  simp only [listEvidenceBySession, Fallible.bind_eq_ok, Fallible.rejectIf_eq_ok,
    exists_const] at hlisted
  have hobjects := Fallible.mapM_eq_ok.mp hlisted.2
  have hsnapshots : objects.map (·.snapshot) =
      (m.objects.filter fun snapshot => snapshot.sessionID = sessionID).insertionSort
        fun left right => ¬ ObservedLess right left := by
    rw [← List.forall₂_eq_eq_eq, List.forall₂_map_left_iff]
    refine hobjects.flip.imp ?_
    intro object stored hobject
    rw [((rehydrate_eq_ok lib).mp hobject).2]
  rw [hsnapshots]
  have hsorted := List.perm_insertionSort (fun left right => ¬ ObservedLess right left)
    (m.objects.filter fun snapshot => snapshot.sessionID = sessionID)
  refine (hsorted.map _).nodup_iff.mpr ?_
  exact h.sublist (List.filter_sublist.map _)

end Evidence.MemoryRepository

/-! ## Commands -/

namespace Pds

open Evaluation Concurrency Program

/-- Two answers are one, or lists of the same evidence in different orders. -/
def SameAnswer (lib : Platform) (op : Op lib) (left right : op.Reply) : Prop :=
  left = right ∨ match op, left, right with
    | .listEvidenceBySession _, .ok objects, .ok others =>
        Evidence.DistinctIDs (objects.map (·.snapshot)) ∧ objects.Perm others
    | _, _, _ => False

/-- A client that does not see the order of a listing. -/
abbrev Unordered {lib : Platform} {α : Type} (client : Client lib α) : Prop :=
  Steady (I := interface lib) (SameAnswer lib) client

section
variable {lib : Platform} {α β : Type}
variable {next : α → Client lib β}

/-- The rule for all operations but the listing. -/
theorem Unordered.perform (op : Op lib) {program : Program (interface lib) (Except Error α)}
    {decode : op.Reply → Except Error α}
    (hprogram : program = .call op fun reply => .done (decode reply))
    (hop : ∀ sessionID, op ≠ .listEvidenceBySession sessionID) :
    Unordered (Program.attempt program : Client lib α) := by
  refine Steady.perform op decode hprogram ?_
  rintro left right (hsame | hlisting)
  · exact hsame
  · cases op <;> first
      | exact absurd rfl (hop _)
      | exact hlisting.elim

/-- The rule for the listing. -/
theorem Unordered.listing {sessionID : UUID} {next : List Evidence.Object → Client lib α}
    (hsame : ∀ objects others : List Evidence.Object,
      Evidence.DistinctIDs (objects.map (·.snapshot)) → objects.Perm others →
        next objects = next others)
    (hnext : ∀ objects, Unordered (next objects)) :
    Unordered (Client.listEvidenceBySession lib sessionID >>= next) := by
  refine steady_iff.mpr ⟨?_, ?_⟩
  · rintro left right (rfl | hlisting)
    · rfl
    · cases left with
      | error err => exact hlisting.elim
      | ok objects =>
          cases right with
          | error err => exact hlisting.elim
          | ok others => exact congrArg ExceptT.run (hsame objects others hlisting.1 hlisting.2)
  · rintro (err | objects)
    · exact trivial
    · exact steady_iff.mp (hnext objects)

theorem now_unordered : Unordered (Client.now lib) :=
  Unordered.perform .now rfl nofun

theorem newUUID_unordered : Unordered (Client.newUUID lib) :=
  Unordered.perform .newUUID rfl nofun

theorem find_unordered (id : UUID) : Unordered (find lib id) :=
  Unordered.perform (.findEvaluation id) rfl nofun

theorem findVersion_unordered (policyID version hash : String) :
    Unordered (Client.findVersion lib policyID version hash) :=
  Unordered.perform (.findVersion policyID version hash) rfl nofun

theorem resolve_unordered (policyID : String) (t : Time) :
    Unordered (Client.resolve lib policyID t) :=
  Unordered.perform (.resolve policyID t) rfl nofun

theorem findEvidence_unordered (id : UUID) : Unordered (Client.findEvidence lib id) :=
  Unordered.perform (.findEvidence id) rfl nofun

/-- A computation comes before the rest of a client. -/
theorem Unordered.computing {x : Except Error α} (hnext : ∀ value, Unordered (next value)) :
    Unordered (Program.compute x >>= next : Client lib β) :=
  (Steady.compute x).bind hnext

theorem Unordered.guard {refused : Prop} [Decidable refused] {err : Error}
    {next : Unit → Client lib β} (hnext : ∀ value, Unordered (next value)) :
    Unordered (Client.rejectIf refused err >>= next : Client lib β) :=
  Unordered.computing hnext

theorem Unordered.evaluated {x : Except Evaluation.Error α}
    (hnext : ∀ value, Unordered (next value)) :
    Unordered (Client.evaluated x >>= next : Client lib β) :=
  Unordered.computing hnext

theorem Unordered.required {field : Option α} {err : Error}
    (hnext : ∀ value, Unordered (next value)) :
    Unordered (Client.required field err >>= next : Client lib β) :=
  Unordered.computing hnext

theorem save_unordered (aggregate : EvaluationAggregate) (expectedVersion : Nat) :
    Unordered (save lib aggregate expectedVersion) := by
  refine now_unordered.bind fun now => Steady.bind (Steady.forEach ?_ _) fun records => ?_
  · intro event
    exact newUUID_unordered.bind fun id => Steady.compute _
  · exact Unordered.perform (.saveEvaluation aggregate.snapshot expectedVersion records) rfl nofun

/-- A write, with a value to return. -/
theorem saving_unordered (aggregate : EvaluationAggregate) (expectedVersion : Nat) (value : α) :
    Unordered (do save lib aggregate expectedVersion; return value : Client lib α) :=
  (save_unordered aggregate expectedVersion).bind fun _ => Steady.pure value

theorem latest_unordered (id : UUID) (accept : EvaluationAggregate → Option α) :
    Unordered (latest lib id accept) :=
  (find_unordered id).bind fun _ => Steady.pure _

/-- The listing of a session goes into its qualification only. -/
theorem qualifySession_unordered (sessionID : UUID) (qualifier : Evidence.Qualifier) :
    Unordered (qualifySession lib sessionID qualifier) := by
  refine Unordered.guard fun _ => Unordered.listing ?_ fun objects =>
    now_unordered.bind fun now => Steady.compute _
  intro objects others hids hperm
  have hpresent : Evidence.presentSnapshots (objects.map some) = objects.map (·.snapshot) := by
    simp [Evidence.presentSnapshots, List.filterMap_map]
  have hresult : ∀ now : Time,
      qualifier.qualifySet lib sessionID (objects.map some) now.toUTC =
        qualifier.qualifySet lib sessionID (others.map some) now.toUTC := fun now =>
    qualifier.qualifySet_perm lib sessionID (hpresent.symm ▸ hids) (hperm.map some) now.toUTC
  simp only [hresult]

theorem bindEvidenceQualification_unordered (id : UUID)
    (result : Evidence.SessionQualificationResult) :
    Unordered (bindEvidenceQualification lib id result) :=
  (find_unordered id).bind fun _ => Unordered.evaluated fun _ => saving_unordered _ _ _

theorem qualifyAndBind_unordered (id : UUID) : Unordered (qualifyAndBind lib id) := by
  refine (find_unordered id).bind fun aggregate => ?_
  split
  · exact Steady.pure _
  · refine Unordered.required fun binding => (findVersion_unordered _ _ _).bind fun version => ?_
    refine Unordered.guard fun _ => Unordered.computing fun policy =>
      Unordered.computing fun qualifier => ?_
    refine (qualifySession_unordered _ qualifier).bind fun result => ?_
    exact (bindEvidenceQualification_unordered id result).orElse (latest_unordered id _)

theorem createForPolicy_unordered (sessionID : UUID) (policyID : String) :
    Unordered (createForPolicy lib sessionID policyID) := by
  refine now_unordered.bind fun now => (resolve_unordered policyID _).bind fun resolved => ?_
  refine newUUID_unordered.bind fun id => Unordered.evaluated fun created => ?_
  exact Unordered.evaluated fun planned => Unordered.evaluated fun bound => saving_unordered _ _ _

theorem start_unordered (id : UUID) : Unordered (start lib id) := by
  refine (find_unordered id).bind fun aggregate => ?_
  split
  · exact Steady.pure _
  · refine now_unordered.bind fun now => Unordered.evaluated fun started => ?_
    exact (saving_unordered _ _ _).orElse (latest_unordered id _)

theorem complete_unordered (id : UUID) : Unordered (complete lib id) := by
  refine (find_unordered id).bind fun aggregate => ?_
  split
  · exact Steady.pure _
  · refine Unordered.evaluated fun derived => now_unordered.bind fun now => ?_
    exact Unordered.evaluated fun completed =>
      (saving_unordered _ _ _).orElse (latest_unordered id _)

theorem expireTimedOut_unordered (id : UUID) (policy : TimeoutPolicy) :
    Unordered (expireTimedOut lib id policy) := by
  refine (find_unordered id).bind fun aggregate => ?_
  split
  · exact Steady.pure _
  · refine Unordered.computing fun deadline => now_unordered.bind fun now => ?_
    exact Unordered.guard fun _ => Unordered.evaluated fun expired =>
      (saving_unordered _ _ _).orElse (latest_unordered id _)

theorem resolveRuleOperator_unordered (binding : PolicyBinding) (ruleID : String) :
    Unordered (resolveRuleOperator lib binding ruleID) := by
  refine Unordered.guard fun _ => (findVersion_unordered _ _ _).bind fun version => ?_
  exact Unordered.guard fun _ => Unordered.computing fun operator =>
    Unordered.guard fun _ => Steady.pure _

theorem requiredOperator_unordered (binding : PolicyBinding) (ruleID : String) :
    Unordered (requiredOperator lib binding ruleID) :=
  (resolveRuleOperator_unordered binding ruleID).bind fun _ =>
    Unordered.guard fun _ => Steady.pure _

theorem boundEvidence_unordered (sessionID : UUID) (reference : EvidenceReference) :
    Unordered (boundEvidence lib sessionID reference) := by
  refine Unordered.guard fun _ => (findEvidence_unordered _).bind fun stored => ?_
  exact Unordered.guard fun _ => Unordered.computing fun object => Steady.pure _

theorem executeRules_unordered (id : UUID) (aggregate : EvaluationAggregate)
    (binding : EvidenceSetBinding) (policy : PolicyBinding) :
    Unordered (executeRules lib id aggregate binding policy) := by
  refine Steady.bind (Steady.forEach (requiredOperator_unordered policy) _) fun operators => ?_
  refine Steady.bind (Steady.forEach (boundEvidence_unordered _) _) fun qualified => ?_
  refine now_unordered.bind fun now => Unordered.computing fun outcomes => ?_
  exact Unordered.evaluated fun recorded => saving_unordered _ _ _

theorem execute_unordered (id : UUID) : Unordered (execute lib id) := by
  refine (find_unordered id).bind fun aggregate => Unordered.required fun binding => ?_
  refine Unordered.guard fun _ => Unordered.required fun policy => ?_
  split
  · split
    · exact Steady.pure _
    · exact Steady.compute _
  · exact executeRules_unordered id aggregate binding policy

theorem ingest_unordered (config : Evidence.ServiceConfig) (input : Evidence.Input) :
    Unordered (ingest lib config input) := by
  have hid : Unordered (if input.evidenceID = UUID.nil then Client.newUUID lib
      else pure input.evidenceID) := by
    split
    · exact newUUID_unordered
    · exact Steady.pure _
  refine hid.bind fun id => now_unordered.bind fun now => Unordered.computing fun object => ?_
  refine Steady.bind (Unordered.perform (.saveEvidence object.snapshot) rfl nofun) fun _ => ?_
  exact (findEvidence_unordered _).bind fun stored => Steady.pure _

theorem Command.unordered (command : Command lib) : Unordered command.serve := by
  cases command with
  | createForPolicy sessionID policyID =>
      exact (createForPolicy_unordered sessionID policyID).bind fun _ => Steady.pure _
  | start id => exact (start_unordered id).bind fun _ => Steady.pure _
  | qualifyAndBind id => exact (qualifyAndBind_unordered id).bind fun _ => Steady.pure _
  | execute id => exact (execute_unordered id).bind fun _ => Steady.pure _
  | complete id => exact (complete_unordered id).bind fun _ => Steady.pure _
  | expireTimedOut id policy =>
      exact (expireTimedOut_unordered id policy).bind fun _ => Steady.pure _
  | ingest config input => exact (ingest_unordered config input).bind fun _ => Steady.pure _
  | add activated =>
      exact Steady.bind (Unordered.perform (.add activated) rfl nofun) fun _ => Steady.pure _
  | suspend policyID version t =>
      exact Steady.bind (Unordered.perform (.suspend policyID version t) rfl nofun)
        fun _ => Steady.pure _
  | retire policyID version t =>
      exact Steady.bind (Unordered.perform (.retire policyID version t) rfl nofun)
        fun _ => Steady.pure _

/-- No command sees the order in which evidence is listed. -/
theorem ServiceCommand.unordered (command : ServiceCommand lib) : Unordered command.serve := by
  cases command with
  | governed command => exact command.unordered
  | create sessionID requiredRules =>
      refine Steady.bind (now_unordered.bind fun now => ?_) fun _ => Steady.pure _
      refine newUUID_unordered.bind fun id => Unordered.evaluated fun created => ?_
      exact Unordered.evaluated fun planned => saving_unordered _ _ _
  | recordOutcome id outcome =>
      have htime : Unordered (evaluationTime lib outcome) := by
        unfold evaluationTime
        split
        · exact now_unordered.bind fun _ => Steady.pure _
        · exact Steady.pure _
      refine Steady.bind ((find_unordered id).bind fun aggregate => ?_) fun _ => Steady.pure _
      exact htime.bind fun evaluatedAt => Unordered.evaluated fun recorded =>
        saving_unordered _ _ _
  | bindEvidenceQualification id result =>
      exact (bindEvidenceQualification_unordered id result).bind fun _ => Steady.pure _
  | bindVerificationPolicy id binding =>
      refine Steady.bind ((find_unordered id).bind fun aggregate => ?_) fun _ => Steady.pure _
      exact Unordered.evaluated fun bound => saving_unordered _ _ _
  | resolveAndBindPolicy id policyID =>
      refine Steady.bind ((find_unordered id).bind fun aggregate => ?_) fun _ => Steady.pure _
      refine (resolve_unordered policyID _).bind fun resolved => Unordered.guard fun _ => ?_
      exact now_unordered.bind fun now => Unordered.evaluated fun bound => saving_unordered _ _ _
  | snapshot id => exact (find_unordered id).bind fun _ => Steady.pure _
  | trace id => exact (find_unordered id).bind fun _ => Steady.pure _

end

/-! ## A repository with another order -/

/-- The operations on stores whose listings of evidence come in the order that `arrange`
gives them. -/
def handleArranged (lib : Platform)
    (arrange : Surroundings → World lib → List Evidence.Object → List Evidence.Object)
    (op : (interface lib).Op) (surroundings : Surroundings) (world : World lib) :
    (interface lib).Resp op × World lib :=
  match op with
  | .listEvidenceBySession sessionID =>
      ((handle lib (.listEvidenceBySession sessionID) surroundings world).1.map
        (arrange surroundings world), world)
  | other => handle lib other surroundings world

section
variable {lib : Platform}
  {arrange : Surroundings → World lib → List Evidence.Object → List Evidence.Object}

/-- The two kinds of stores differ in the order of a listing only. -/
theorem handleArranged_same (harrange : ∀ surroundings world objects,
      (arrange surroundings world objects).Perm objects)
    (op : (interface lib).Op) (surroundings : Surroundings) (world : World lib)
    (hids : Evidence.DistinctIDs world.evidence.objects) :
    Evidence.DistinctIDs (handle lib op surroundings world).2.evidence.objects ∧
      (handleArranged lib arrange op surroundings world).2 =
        (handle lib op surroundings world).2 ∧
      SameAnswer lib op (handleArranged lib arrange op surroundings world).1
        (handle lib op surroundings world).1 := by
  cases op with
  | listEvidenceBySession sessionID =>
      refine ⟨hids, rfl, ?_⟩
      cases hlisted : world.evidence.listEvidenceBySession lib sessionID with
      | error err =>
          refine Or.inl ?_
          simp only [handleArranged, handle, hlisted]
          rfl
      | ok objects =>
          have hperm := harrange surroundings world objects
          have hdistinct := Evidence.MemoryRepository.distinctIDs_listEvidenceBySession hids hlisted
          refine Or.inr ?_
          simp only [handleArranged, handle, hlisted]
          exact ⟨((hperm.map _).map _).nodup_iff.mpr hdistinct, hperm⟩
  | saveEvidence snapshot =>
      exact ⟨Evidence.MemoryRepository.distinctIDs_saveEvidence hids snapshot, rfl, Or.inl rfl⟩
  | saveEvaluation | findEvaluation | findEvidence | add | suspend | retire | resolve
  | findVersion | now | newUUID => exact ⟨hids, rfl, Or.inl rfl⟩

end

/-- The order of evidence never changes a decision.  Objects with identifiers of their own
are qualified alike in every order, whatever the order in which `QualifySet` ranges over
its map; every operator that a policy compiles to decides alike; and a repository that
lists evidence in another order gives every schedule of commands the same run. -/
theorem evidence_order_is_immaterial (lib : Platform) :
    (∀ (q : Evidence.Qualifier) (sessionID : UUID) (evaluatedAt : Time)
      (iterate iterate' : Evidence.Groups → Evidence.Groups)
      (objects others : List (Option Evidence.Object)),
      (∀ groups, (iterate groups).Perm groups) → (∀ groups, (iterate' groups).Perm groups) →
      Evidence.DistinctIDs (Evidence.presentSnapshots objects) → objects.Perm others →
        q.qualifySetVia iterate lib sessionID objects evaluatedAt =
          q.qualifySetVia iterate' lib sessionID others evaluatedAt) ∧
    (∀ (version : Policy.Version lib) (ruleID : String) (operator : RuleOperator.Operator)
      (input : RuleOperator.RuleInput) (others : List Evidence.Snapshot),
      RuleOperator.compileRule lib version ruleID = .ok operator →
      Evidence.DistinctIDs input.evidence → input.evidence.Perm others →
        operator.evaluate lib input = operator.evaluate lib { input with evidence := others }) ∧
    (∀ (arrange : Surroundings → World lib → List Evidence.Object → List Evidence.Object)
      (schedule : List (ServiceAction lib)),
      (∀ surroundings world objects, (arrange surroundings world objects).Perm objects) →
        (Pool.initial (World.empty lib)).run (handleArranged lib arrange)
            (fun command : ServiceCommand lib => command.serve.run) schedule =
          serviceAfter (World.empty lib) schedule) := by
  refine ⟨?_, ?_, ?_⟩
  · intro q sessionID evaluatedAt iterate iterate' objects others hiterate hiterate' hids hperm
    rw [Evidence.Qualifier.qualifySetVia_eq hiterate, Evidence.Qualifier.qualifySetVia_eq hiterate']
    exact q.qualifySet_perm lib sessionID hids hperm evaluatedAt
  · intro version ruleID operator input others _ hids hperm
    exact operator.evaluate_perm lib hids hperm
  · intro arrange schedule harrange
    refine Pool.run_eq_of_indifferent (SameAnswer lib)
      (fun world => Evidence.DistinctIDs world.evidence.objects) (handleArranged_same harrange)
      (fun command => steady_iff.mp command.unordered) ?_ ?_ schedule
    · exact fun entry hentry => absurd hentry List.not_mem_nil
    · exact List.nodup_nil

namespace Crate

/-- The identifier of a second weight. -/
def secondID : UUID := BitVec.ofNat 128 0x1b2c3d4e5f6a4b7c8d9eaf0b1c2d3e4f

/-- The snapshot that `NewObject` makes of a weight. -/
def weighed (id : UUID) (payload : Json) : Evidence.Snapshot where
  evidenceID := id
  sessionID := session
  sourceID := "scale-17"
  sourceType := "SCALE"
  evidenceType := "WEIGHT"
  observedAt := eight
  receivedAt := eight
  payload := render payload
  confidence := none
  provenance := []
  integrity := ⟨"SHA-256", platform.digest (render payload), "evidence.v1", "pds.v1", "HTTP"⟩

/-- A policy without requirements. -/
def lenient : Evidence.Qualifier where
  policy := {
    version := "qualification.v1"
    trustedSources := []
    allowedTypes := []
    allowedAcquisitionMethods := []
    maxAge := 0
    futureTolerance := 0
    requireConfidence := false
    minimumConfidence := none
    requiredProvenance := []
    requiredPayloadFields := [] }

/-- The weights of both crates for the operators. -/
def weights : RuleOperator.RuleInput :=
  ⟨evaluationID, session, "cargo-transfer", "1.0.0", policyHash sortedPlan,
    [weighed evidenceID weight, weighed secondID heavyWeight]⟩

/-- Two weights of one scale at one time, in both orders: they are rejected as conflicting
observations, the rule on their presence holds, and a command that lists them, here on
empty stores, does not see the order. -/
theorem weights_in_any_order :
    (lenient.qualifySetVia id platform session
        [some ⟨weighed evidenceID weight⟩, some ⟨weighed secondID heavyWeight⟩] eight =
      lenient.qualifySetVia List.reverse platform session
        [some ⟨weighed secondID heavyWeight⟩, some ⟨weighed evidenceID weight⟩] eight ∧
      (lenient.qualifySetVia id platform session
        [some ⟨weighed evidenceID weight⟩, some ⟨weighed secondID heavyWeight⟩] eight).map
          (·.evidence.map (·.reasons)) =
        .ok [[⟨.conflictingObservation, "payload"⟩], [⟨.conflictingObservation, "payload"⟩]]) ∧
    ((RuleOperator.Operator.existence "presence" "WEIGHT" "" 1).evaluate platform weights =
      (RuleOperator.Operator.existence "presence" "WEIGHT" "" 1).evaluate platform
        { weights with
          evidence := [weighed secondID heavyWeight, weighed evidenceID weight] }) ∧
    (Pool.initial (World.empty platform)).run
        (handleArranged platform fun _ _ => List.reverse)
        (fun command : ServiceCommand platform => command.serve.run)
        [.invoke (.governed (.qualifyAndBind evaluationID)), .advance 0 ⟨eight, UUID.nil⟩] =
      serviceAfter (World.empty platform)
        [.invoke (.governed (.qualifyAndBind evaluationID)), .advance 0 ⟨eight, UUID.nil⟩] := by
  have horder := evidence_order_is_immaterial platform
  refine ⟨⟨horder.1 lenient session eight id List.reverse _ _ (fun _ => List.Perm.refl _)
    List.reverse_perm ?_ (List.Perm.swap ..), by decide⟩, ?_, ?_⟩
  · unfold Evidence.DistinctIDs
    decide
  · refine horder.2.1 sortedVersion "presence" _ weights _ (by decide +kernel) ?_
      (List.Perm.swap ..)
    unfold Evidence.DistinctIDs
    decide
  · exact horder.2.2 (fun _ _ => List.reverse) _ fun _ _ _ => List.reverse_perm _

end Crate

end Pds

end CargoPds
