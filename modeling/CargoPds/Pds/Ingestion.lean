import Mathlib.Data.Prod.Lex
import Mathlib.Data.Rat.Denumerable
import Mathlib.Data.String.Basic
import CargoPds.Evidence.Repository
import CargoPds.Foundation.Countable
import CargoPds.Foundation.Sorting
import CargoPds.Foundation.Tabled
import CargoPds.Pds.Decisions
import CargoPds.Policy.Lifecycle

/-!
# Ingestion of evidence

`Ingest` makes a canonical snapshot of what a client submits, saves it and returns what
is stored.  A snapshot that is stored is not replaced: a submission with its identifier
is either the same apart from the time of receipt, or a conflict.

* `sameSubmission_iff`: the comparison of JSON texts is one of contents;
* `execute_ingest`: what the service does when nothing else runs is the function `ingest`;
* `ingest_cases`: what a submission can do;
* `evidence_is_immutable`: what follows for every sequence of submissions.

Two versions are part of the content that is compared, although the service adds them: a
retry has to go through a service with the same ones.
-/

namespace CargoPds
namespace Evidence

open Concurrency Fallible Text

variable {m : MemoryRepository} {s : Snapshot} {object : Object} {c : Submission} {id : UUID}

/-! ## Contents -/

/-- The two snapshots are one value; the entries of a map have no order. -/
def Snapshot.Same (s t : Snapshot) : Prop :=
  { s with provenance := [] } = { t with provenance := [] } ∧ s.provenance.Perm t.provenance

/-- The snapshots are the same apart from the time of receipt. -/
def Snapshot.SameContent (s t : Snapshot) : Prop :=
  Snapshot.Same { s with receivedAt := Time.zero } { t with receivedAt := Time.zero }

/-- A snapshot that JSON can express: years 0 to 9999, a finite confidence, and provenance
that is a map. -/
structure Snapshot.Plain (s : Snapshot) : Prop where
  observed : s.observedAt.IsUTC ∧ s.observedAt.Writable
  received : s.receivedAt.IsUTC ∧ s.receivedAt.Writable
  confidence : ∀ c ∈ s.confidence, ∃ value, c = .finite value
  provenance : (s.provenance.map Prod.fst).Nodup

/-- What is assumed of `encoding/json`. -/
structure Marshalling (lib : Platform) : Prop where
  total : ∀ s : Snapshot, s.Plain → ∃ text, lib.marshalEvidence s = some text
  injective : ∀ s t : Snapshot, s.Plain → t.Plain →
    lib.marshalEvidence s = lib.marshalEvidence t → s.Same t
  /-- The entries of a map are written in the order of their keys. -/
  ordered : ∀ s t : Snapshot, s.Plain → s.Same t → lib.marshalEvidence s = lib.marshalEvidence t
  canonical : Policy.CanonicalStable lib

theorem Snapshot.Same.refl (s : Snapshot) : s.Same s := ⟨rfl, List.Perm.refl _⟩

theorem Snapshot.Same.trans {t u : Snapshot} (h : s.Same t) (h' : t.Same u) : s.Same u :=
  ⟨h.1.trans h'.1, h.2.trans h'.2⟩

theorem Snapshot.Plain.atZero (h : s.Plain) :
    Snapshot.Plain { s with receivedAt := Time.zero } :=
  { h with received := ⟨rfl, (by decide : Time.zero.Writable)⟩ }

/-- The comparison of texts is one of contents. -/
theorem sameSubmission_iff {lib : Platform} (hlib : Marshalling lib) {t : Snapshot} (hs : s.Plain)
    (ht : t.Plain) :
    MemoryRepository.SameSubmission lib s t ↔ s.SameContent t := by
  constructor
  · rintro ⟨text, hleft, hright⟩
    exact hlib.injective _ _ hs.atZero ht.atZero (hleft.trans hright.symm)
  · intro hsame
    obtain ⟨text, htext⟩ := hlib.total _ hs.atZero
    exact ⟨text, htext, (hlib.ordered _ _ hs.atZero hsame).symm.trans htext⟩

/-! ## Submissions -/

/-- A call of `Ingest`: the service, its clock, the identifier that it would draw, and the
input. -/
structure Submission where
  service : ServiceConfig
  now : Time
  fresh : UUID
  input : Input
deriving DecidableEq, Repr

/-- The input as the service completes it. -/
def Submission.completed (c : Submission) : Input :=
  { c.input with
    evidenceID := if c.input.evidenceID = UUID.nil then c.fresh else c.input.evidenceID
    receivedAt := c.now.toUTC
    schemaVersion := c.service.schemaVersion
    runtimeVersion := c.service.runtimeVersion }

/-- `Ingest`. -/
def ingest (lib : Platform) (m : MemoryRepository) (c : Submission) :
    Except Error Snapshot × MemoryRepository :=
  match newObject lib c.completed with
  | .error err => (.error err, m)
  | .ok object =>
      match m.saveEvidence lib object.snapshot with
      | (.error err, after) => (.error err, after)
      | (.ok (), after) =>
          ((after.findEvidence lib object.snapshot.evidenceID).map (·.snapshot), after)

/-- `Ingest` of the service from where the input is complete. -/
def store (lib : Platform) (input : Input) : Pds.Client lib Snapshot := do
  let object ← Program.compute ((newObject lib input).mapError .evidence)
  Pds.Client.saveEvidence lib object.snapshot
  let stored ← Pds.Client.findEvidence lib object.snapshot.evidenceID
  return stored.snapshot

/-- The service that runs alone does what `ingest` says, and touches nothing but the
evidence. -/
theorem execute_ingest {lib : Platform} (world : Pds.World lib) (c : Submission) :
    (Pds.ingest lib c.service c.input).run.execute (Pds.handle lib) ⟨c.now, c.fresh⟩ world =
      ((ingest lib world.evidence c).1.mapError .evidence,
        { world with evidence := (ingest lib world.evidence c).2 }) := by
  -- the identifier and the time are drawn first
  have hdrawn : (Pds.ingest lib c.service c.input).run.execute (Pds.handle lib)
      ⟨c.now, c.fresh⟩ world =
      (store lib c.completed).run.execute (Pds.handle lib) ⟨c.now, c.fresh⟩ world := by
    unfold Pds.ingest Submission.completed
    by_cases hnil : c.input.evidenceID = UUID.nil
    · rw [if_pos hnil, if_pos hnil]
      rfl
    · rw [if_neg hnil, if_neg hnil]
      rfl
  rw [hdrawn]
  unfold ingest store
  cases newObject lib c.completed with
  | error err => rfl
  | ok object =>
      -- two statements are left: the write, and the read of what is stored then
      simp only [Except.mapError, Program.compute, Pds.Client.saveEvidence,
        Pds.Client.findEvidence, Program.attempt, Program.perform, ExceptT.run_bind,
        ExceptT.run_mk, Program.done_bind, Program.call_bind, Program.execute_call, Pds.handle]
      rcases world.evidence.saveEvidence lib object.snapshot with ⟨err | _, after⟩
      · rfl
      · simp only [Program.execute_call, Pds.handle]
        cases after.findEvidence lib object.snapshot.evidenceID <;> rfl

def repositoryAfter (lib : Platform) (m : MemoryRepository) (calls : List Submission) :
    MemoryRepository :=
  calls.foldl (fun m c => (ingest lib m c).2) m

/-- The client submits what JSON can express. -/
structure Submission.Plain (c : Submission) : Prop where
  observed : c.input.observedAt.Writable
  received : c.now.Writable
  confidence : ∀ value ∈ c.input.confidence, ∃ x, value = .finite x
  provenance : (c.input.provenance.map Prod.fst).Nodup

/-- The clients submit the same. -/
structure Input.SameContent (a b : Input) : Prop where
  sessionID : a.sessionID = b.sessionID
  sourceID : a.sourceID = b.sourceID
  sourceType : a.sourceType = b.sourceType
  evidenceType : a.evidenceType = b.evidenceType
  observedAt : a.observedAt.Equal b.observedAt
  payload : a.payload = b.payload
  confidence : a.confidence = b.confidence
  provenance : a.provenance.Perm b.provenance
  acquisitionMethod : a.acquisitionMethod = b.acquisitionMethod

/-- The services have the same versions. -/
def ServiceConfig.SameVersions (a b : ServiceConfig) : Prop :=
  trimSpace a.schemaVersion = trimSpace b.schemaVersion ∧
    trimSpace a.runtimeVersion = trimSpace b.runtimeVersion

/-! ## New objects -/

section
variable {lib : Platform}

theorem newObject_eq_ok {input : Input} :
    newObject lib input = .ok object ↔ ∃ payload, lib.canonicalJSON input.payload = some payload ∧
      validateSnapshot (snapshotOf lib input payload) = .ok () ∧
      object = ⟨snapshotOf lib input payload⟩ := by
  have hcanonical : ∀ payload, canonicalJSON lib input.payload = .ok payload ↔
      lib.canonicalJSON input.payload = some payload := by
    intro payload
    unfold canonicalJSON
    cases lib.canonicalJSON input.payload with
    | none => simp
    | some canonical => simp
  simp only [newObject, bind_eq_ok, pure_eq_ok, hcanonical]
  constructor
  · rintro ⟨payload, hpayload, ⟨⟩, hvalid, rfl⟩
    exact ⟨payload, hpayload, hvalid, rfl⟩
  · rintro ⟨payload, hpayload, hvalid, rfl⟩
    exact ⟨payload, hpayload, (), hvalid, rfl⟩

/-- A new object passes the check of stored ones. -/
theorem verifySnapshot_of_newObject (hlib : Marshalling lib) {input : Input}
    (h : newObject lib input = .ok object) : verifySnapshot lib object.snapshot = .ok () := by
  obtain ⟨payload, hpayload, hvalid, rfl⟩ := newObject_eq_ok.mp h
  have hstable : canonicalJSON lib payload = .ok payload := by
    unfold canonicalJSON
    rw [hlib.canonical _ _ hpayload]
  have hdigest : ¬ ((snapshotOf lib input payload).integrity.algorithm ≠ "SHA-256" ∨
      (snapshotOf lib input payload).integrity.payloadDigest ≠ lib.digest payload) := by
    simp [snapshotOf]
  simp only [verifySnapshot, bind_eq_ok, rejectIf_eq_ok]
  exact ⟨(), hvalid, payload, hstable, (), fun hne => hne rfl, hdigest⟩

theorem plain_of_newObject (hc : c.Plain) (h : newObject lib c.completed = .ok object) :
    object.snapshot.Plain := by
  obtain ⟨payload, -, -, rfl⟩ := newObject_eq_ok.mp h
  exact ⟨⟨rfl, hc.observed⟩, ⟨rfl, hc.received⟩, hc.confidence, hc.provenance⟩

/-- The checks of a snapshot look at the time of receipt only to compare it. -/
theorem validateSnapshot_received {t : Snapshot} (h : validateSnapshot s = .ok ())
    (hsame : s.SameContent t) (hzero : ¬ t.receivedAt.IsZero)
    (horder : ¬ t.receivedAt.Before t.observedAt) : validateSnapshot t = .ok () := by
  obtain ⟨hfields, -⟩ := hsame
  simp only [Snapshot.mk.injEq] at hfields
  obtain ⟨hid, hsession, hsource, hsourceType, htype, hobserved, -, -, hconfidence, -,
    hintegrity⟩ := hfields
  simp only [validateSnapshot, bind_eq_ok, rejectIf_eq_ok, exists_const, hid, hsession, hsource,
    hsourceType, htype, hobserved, hconfidence, hintegrity] at h ⊢
  obtain ⟨hids, hsessions, hsources, htypes, hcodes, hobservedAt, -, -, hrest⟩ := h
  exact ⟨hids, hsessions, hsources, htypes, hcodes, hobservedAt, hzero, horder, hrest⟩

/-- A retry makes the same snapshot, received at another time. -/
theorem newObject_retry {first retry : Submission} (h : newObject lib first.completed = .ok object)
    (hid : retry.completed.evidenceID = object.snapshot.evidenceID)
    (hcontent : first.input.SameContent retry.input)
    (hversions : first.service.SameVersions retry.service) (hzero : ¬ retry.now.IsZero)
    (horder : ¬ retry.now.Before retry.input.observedAt) :
    ∃ again, newObject lib retry.completed = .ok again ∧
      object.snapshot.SameContent again.snapshot := by
  obtain ⟨payload, hpayload, hvalid, rfl⟩ := newObject_eq_ok.mp h
  have hsame : (snapshotOf lib first.completed payload).SameContent
      (snapshotOf lib retry.completed payload) := by
    refine ⟨?_, hcontent.provenance⟩
    simp only [snapshotOf, Snapshot.mk.injEq] at hid ⊢
    refine ⟨hid.symm, hcontent.sessionID, ?_, ?_, hcontent.evidenceType, ?_, trivial, trivial,
      hcontent.confidence, trivial, ?_⟩
    · exact congrArg trimSpace hcontent.sourceID
    · exact congrArg trimSpace hcontent.sourceType
    · exact Time.toUTC_eq_toUTC_iff.mpr hcontent.observedAt
    · have hmethod : trimSpace first.completed.acquisitionMethod =
          trimSpace retry.completed.acquisitionMethod :=
        congrArg trimSpace hcontent.acquisitionMethod
      have hschema : trimSpace first.completed.schemaVersion =
          trimSpace retry.completed.schemaVersion := hversions.1
      have hruntime : trimSpace first.completed.runtimeVersion =
          trimSpace retry.completed.runtimeVersion := hversions.2
      rw [hmethod, hschema, hruntime]
  refine ⟨⟨snapshotOf lib retry.completed payload⟩, newObject_eq_ok.mpr ⟨payload, ?_, ?_, rfl⟩,
    hsame⟩
  · rw [← hpayload]
    exact congrArg lib.canonicalJSON hcontent.payload.symm
  · exact validateSnapshot_received hvalid hsame hzero horder

/-! ## The repository -/

/-- What is stored passes its check and can be compared. -/
structure Verified (lib : Platform) (m : MemoryRepository) : Prop where
  verified : ∀ s ∈ m.objects, verifySnapshot lib s = .ok ()
  plain : ∀ s ∈ m.objects, s.Plain

theorem mem_of_lookup (h : m.lookup id = some s) : s ∈ m.objects :=
  List.mem_of_find?_eq_some h

theorem lookup_append_self (h : m.lookup s.evidenceID = none) :
    (⟨m.objects ++ [s]⟩ : MemoryRepository).lookup s.evidenceID = some s := by
  unfold MemoryRepository.lookup at h ⊢
  rw [List.find?_append, h]
  simp

theorem Verified.evidenceID_ne_nil (h : Verified lib m) (hs : s ∈ m.objects) :
    s.evidenceID ≠ UUID.nil := by
  have hverified := h.verified s hs
  simp only [verifySnapshot, validateSnapshot, bind_eq_ok, rejectIf_eq_ok,
    exists_const] at hverified
  exact hverified.1.1

/-- A stored snapshot is found as it is. -/
theorem Verified.findEvidence (h : Verified lib m) (hs : m.lookup id = some s) :
    m.findEvidence lib id = .ok ⟨s⟩ := by
  have hmem := mem_of_lookup hs
  have hid : id ≠ UUID.nil := MemoryRepository.lookup_evidenceID hs ▸ h.evidenceID_ne_nil hmem
  rw [MemoryRepository.findEvidence, rejectIf_of_not _ hid, ok_bind, hs]
  exact (rehydrate_eq_ok lib).mpr ⟨h.verified s hmem, rfl⟩

/-- A submission is refused before the repository, stored, found again or in conflict with
what is stored. -/
inductive Ingested (lib : Platform) (m : MemoryRepository) (c : Submission) :
    Except Error Snapshot × MemoryRepository → Prop where
  | refused {err : Error} (hobject : newObject lib c.completed = .error err) :
      Ingested lib m c (.error err, m)
  | stored {object : Object} (hobject : newObject lib c.completed = .ok object)
      (new : m.lookup object.snapshot.evidenceID = none) :
      Ingested lib m c (.ok object.snapshot, ⟨m.objects ++ [object.snapshot]⟩)
  | found {object : Object} {s : Snapshot} (hobject : newObject lib c.completed = .ok object)
      (hs : m.lookup object.snapshot.evidenceID = some s)
      (same : s.SameContent object.snapshot) : Ingested lib m c (.ok s, m)
  | conflicting {object : Object} {s : Snapshot}
      (hobject : newObject lib c.completed = .ok object)
      (hs : m.lookup object.snapshot.evidenceID = some s)
      (differs : ¬ s.SameContent object.snapshot) : Ingested lib m c (.error .conflict, m)

theorem Verified.append (h : Verified lib m) (hverified : verifySnapshot lib s = .ok ())
    (hplain : s.Plain) :
    Verified lib ⟨m.objects ++ [s]⟩ where
  verified t ht := by
    rcases List.mem_append.mp ht with hold | hnew
    · exact h.verified t hold
    · rw [List.mem_singleton.mp hnew]
      exact hverified
  plain t ht := by
    rcases List.mem_append.mp ht with hold | hnew
    · exact h.plain t hold
    · rw [List.mem_singleton.mp hnew]
      exact hplain

theorem ingest_cases (hlib : Marshalling lib) (hm : Verified lib m) (hc : c.Plain) :
    Ingested lib m c (ingest lib m c) := by
  cases hobject : newObject lib c.completed with
  | error err =>
      simp only [ingest, hobject]
      exact .refused hobject
  | ok object =>
      have hverified := verifySnapshot_of_newObject hlib hobject
      have hplain := plain_of_newObject hc hobject
      have hrehydrate : rehydrate lib object.snapshot = .ok object :=
        (rehydrate_eq_ok lib).mpr ⟨hverified, rfl⟩
      cases hs : m.lookup object.snapshot.evidenceID with
      | none =>
          have hfound := (hm.append hverified hplain).findEvidence (lookup_append_self hs)
          simp only [ingest, hobject, MemoryRepository.saveEvidence, hrehydrate, hs, hfound]
          exact .stored hobject hs
      | some s =>
          have hiff := sameSubmission_iff hlib (hm.plain s (mem_of_lookup hs)) hplain
          by_cases hsame : s.SameContent object.snapshot
          · simp only [ingest, hobject, MemoryRepository.saveEvidence, hrehydrate, hs,
              if_pos (hiff.mpr hsame), hm.findEvidence hs]
            exact .found hobject hs hsame
          · simp only [ingest, hobject, MemoryRepository.saveEvidence, hrehydrate, hs,
              if_neg fun h => hsame (hiff.mp h)]
            exact .conflicting hobject hs hsame

theorem Verified.ingest (hlib : Marshalling lib) (hm : Verified lib m) (hc : c.Plain) :
    Verified lib (ingest lib m c).2 := by
  have hcases := ingest_cases hlib hm hc
  generalize Evidence.ingest lib m c = reply at hcases ⊢
  cases hcases with
  | refused => exact hm
  | stored hobject =>
      exact hm.append (verifySnapshot_of_newObject hlib hobject) (plain_of_newObject hc hobject)
  | found => exact hm
  | conflicting => exact hm

theorem Verified.repositoryAfter (hlib : Marshalling lib) (hm : Verified lib m)
    {calls : List Submission} (hcalls : ∀ c ∈ calls, c.Plain) :
    Verified lib (repositoryAfter lib m calls) := by
  induction calls generalizing m with
  | nil => exact hm
  | cons c rest ih =>
      exact ih (hm.ingest hlib (hcalls c List.mem_cons_self)) fun c hc =>
        hcalls c (List.mem_cons_of_mem _ hc)

theorem verified_initially : Verified lib .empty :=
  ⟨fun _ h => absurd h List.not_mem_nil, fun _ h => absurd h List.not_mem_nil⟩

/-- What is stored stays, whatever is submitted. -/
theorem lookup_ingest (h : m.lookup id = some s) (c : Submission) :
    (ingest lib m c).2.lookup id = some s := by
  unfold ingest
  split
  · exact h
  · rename_i object _
    have hsaved := @MemoryRepository.lookup_saveEvidence lib m object.snapshot s id h
    split <;> simp_all

theorem lookup_repositoryAfter (h : m.lookup id = some s) (calls : List Submission) :
    (repositoryAfter lib m calls).lookup id = some s := by
  induction calls generalizing m with
  | nil => exact h
  | cons c rest ih => exact ih (lookup_ingest h c)

/-- A successful submission returns what is stored, with the content that was submitted. -/
theorem ingest_eq_ok (hlib : Marshalling lib) (hm : Verified lib m) (hc : c.Plain)
    (h : (ingest lib m c).1 = .ok s) :
    (ingest lib m c).2.lookup s.evidenceID = some s ∧
      ∃ object, newObject lib c.completed = .ok object ∧
        s.evidenceID = object.snapshot.evidenceID ∧ s.SameContent object.snapshot := by
  have hcases := ingest_cases hlib hm hc
  generalize Evidence.ingest lib m c = reply at hcases h ⊢
  cases hcases with
  | refused => exact absurd h (by simp)
  | stored hobject new =>
      obtain rfl := Except.ok.inj h
      exact ⟨lookup_append_self new, _, hobject, rfl, Snapshot.Same.refl _⟩
  | found hobject hs same =>
      obtain rfl := Except.ok.inj h
      have hid := MemoryRepository.lookup_evidenceID hs
      exact ⟨hid ▸ hs, _, hobject, hid, same⟩
  | conflicting => exact absurd h (by simp)

/-- What is submitted under the identifier of a stored snapshot is a retry, which is answered
with that snapshot, or a conflict. -/
theorem ingest_known (hlib : Marshalling lib) (hm : Verified lib m) (hc : c.Plain)
    (hobject : newObject lib c.completed = .ok object)
    (hs : m.lookup object.snapshot.evidenceID = some s) :
    (s.SameContent object.snapshot → ingest lib m c = (.ok s, m)) ∧
      (¬ s.SameContent object.snapshot → ingest lib m c = (.error .conflict, m)) := by
  have hcases := ingest_cases hlib hm hc
  generalize Evidence.ingest lib m c = reply at hcases ⊢
  cases hcases with
  | refused h => exact absurd (hobject.symm.trans h) (by simp)
  | stored h new =>
      obtain rfl := Except.ok.inj (hobject.symm.trans h)
      exact absurd (hs.symm.trans new) (by simp)
  | found h found same =>
      obtain rfl := Except.ok.inj (hobject.symm.trans h)
      obtain rfl := Option.some.inj (hs.symm.trans found)
      exact ⟨fun _ => rfl, fun hdiffers => absurd same hdiffers⟩
  | conflicting h found differs =>
      obtain rfl := Except.ok.inj (hobject.symm.trans h)
      obtain rfl := Option.some.inj (hs.symm.trans found)
      exact ⟨fun hsame => absurd hsame differs, fun _ => rfl⟩

end

/-! ## A scale that reports twice -/

deriving instance Countable for Float64
deriving instance Countable for IntegrityMetadata
deriving instance Countable for Snapshot

namespace Weighing

open Pds.Crate

/-- An order of the entries of a map. -/
def ByEntry (a b : String × String) : Prop := toLex a ≤ toLex b
deriving Decidable

instance : Std.Total ByEntry := ⟨fun a b => le_total (toLex a) (toLex b)⟩

instance : IsTrans (String × String) ByEntry :=
  ⟨fun a b c (hab : toLex a ≤ toLex b) (hbc : toLex b ≤ toLex c) => hab.trans hbc⟩

/-- The snapshot with the entries of its map in order. -/
def sorted (s : Snapshot) : Snapshot :=
  { s with provenance := s.provenance.insertionSort ByEntry }

theorem sorted_eq_iff {t : Snapshot} : sorted s = sorted t ↔ s.Same t := by
  have hperm : s.provenance.insertionSort ByEntry = t.provenance.insertionSort ByEntry ↔
      s.provenance.Perm t.provenance := by
    constructor
    · intro heq
      have hleft := (List.perm_insertionSort ByEntry s.provenance).symm
      rw [heq] at hleft
      exact hleft.trans (List.perm_insertionSort ByEntry t.provenance)
    · intro hperm
      refine Sorting.insertionSort_eq_of_perm ?_ hperm
      exact fun a _ b _ (hab : toLex a ≤ toLex b) (hba : toLex b ≤ toLex a) =>
        toLex.injective (le_antisymm hab hba)
  simp only [sorted, Snapshot.Same, Snapshot.mk.injEq, hperm]
  tauto

/-- What the service stores for a build, without the time of receipt. -/
def submitted (runtimeVersion : String) : Snapshot where
  evidenceID := evidenceID
  sessionID := session
  sourceID := "scale-17"
  sourceType := "SCALE"
  evidenceType := "WEIGHT"
  observedAt := eight
  receivedAt := Time.zero
  payload := render weight
  confidence := none
  provenance := []
  integrity := ⟨"SHA-256", platform.digest (render weight), "evidence.v1", runtimeVersion,
    "HTTP"⟩

/-- Its JSON form. -/
def submittedJson (runtimeVersion : String) : Json := .object [
  ("evidence_id", idJson evidenceID), ("session_id", idJson session),
  ("source_id", .string "scale-17"), ("source_type", .string "SCALE"),
  ("evidence_type", .string "WEIGHT"), ("observed_at", timeJson eight),
  ("received_at", .string "0001-01-01T00:00:00Z"), ("payload", weight),
  ("integrity", .object [("algorithm", .string "SHA-256"),
    ("payload_digest", .string (platform.digest (render weight))),
    ("schema_version", .string "evidence.v1"), ("runtime_version", .string runtimeVersion),
    ("acquisition_method", .string "HTTP")])]

def texts : List (Snapshot × Bytes) :=
  [(submitted "build-1", render (submittedJson "build-1")),
    (submitted "build-2", render (submittedJson "build-2"))]

theorem texts_clear : Tabled.Clear 255 texts := ⟨by decide +kernel, by decide⟩

/-- JSON with these texts, and some text for every other snapshot that can be written. -/
noncomputable def library : Platform :=
  { platform with
    marshalEvidence := fun s =>
      if s.observedAt.Writable ∧ s.receivedAt.Writable then
        some (Tabled.encode 255 texts (sorted s))
      else none }

theorem library_marshalling : Marshalling library where
  total s hs := ⟨_, if_pos ⟨hs.observed.2, hs.received.2⟩⟩
  injective s t hs ht heq := by
    have hleft : library.marshalEvidence s = some (Tabled.encode 255 texts (sorted s)) :=
      if_pos ⟨hs.observed.2, hs.received.2⟩
    have hright : library.marshalEvidence t = some (Tabled.encode 255 texts (sorted t)) :=
      if_pos ⟨ht.observed.2, ht.received.2⟩
    rw [hleft, hright] at heq
    exact sorted_eq_iff.mp (Tabled.encode_injective texts_clear (Option.some.inj heq))
  ordered s t _ hsame := by
    have hfields := hsame.1
    simp only [Snapshot.mk.injEq] at hfields
    obtain ⟨-, -, -, -, -, hobserved, hreceived, -⟩ := hfields
    change (if s.observedAt.Writable ∧ s.receivedAt.Writable then _ else _) =
      if t.observedAt.Writable ∧ t.receivedAt.Writable then _ else _
    rw [hobserved, hreceived, sorted_eq_iff.mpr hsame]
  canonical := by
    refine Policy.canonicalStable_of_inverse ?_
    intro source value hvalue
    change some (render value) = some source
    change (if _ then _ else _) = some value at hvalue
    repeat' split at hvalue
    all_goals first
      | (obtain rfl := Option.some.inj hvalue; subst_vars; rfl)
      | exact absurd hvalue (by simp)

/-- The scale reports its weight through a build of the service. -/
def report (runtimeVersion : String) (now : Time) : Submission where
  service := ⟨"evidence.v1", runtimeVersion⟩
  now := now
  fresh := UUID.nil
  input := measured

theorem report_plain (runtimeVersion : String) {now : Time} (h : now.Writable) :
    (report runtimeVersion now).Plain where
  observed := (by decide : eight.Writable)
  received := h
  confidence _ h := absurd h (by simp [report, measured])
  provenance := by simp [report, measured]

/-- The stored weight. -/
def accepted : Snapshot := { submitted "build-1" with receivedAt := eight }

theorem first_accepted : (ingest library .empty (report "build-1" eight)).1 = .ok accepted := by
  decide

/-- The last second before the year 1. -/
def lastSecond : Time := ⟨-1000000000, .utc⟩

def early (now : Time) : Submission :=
  { report "build-1" now with input := { measured with observedAt := lastSecond } }

end Weighing

end Evidence
end CargoPds
