import CargoPds.Foundation.Commitment
import CargoPds.Foundation.Countable
import CargoPds.Foundation.Tabled
import CargoPds.Policy.Version

/-!
# What the hash of a policy binds

Approval, activation, evaluation and replay all name a policy by its hash, the SHA-256
sum of the JSON of its fields.  `calculateHash` ignores the error of `json.Marshal`,
which refuses a time with a UTC year outside 0, …, 9999, and `NewVersion` and
`Rehydrate` accept such times.  So the hash binds exactly the versions whose times can
be written (`policy_hash_binds_iff_writable`), and all others have the hash of the empty
message.
-/

namespace CargoPds
namespace Policy

open Fallible Text Commitment

/-- The hashed part of a snapshot. -/
def Snapshot.envelope (snapshot : Snapshot) : Envelope :=
  ⟨snapshot.policyID, snapshot.version, snapshot.schemaVersion, snapshot.effectiveFrom,
    snapshot.effectiveUntil, snapshot.requiredRuleIDs, snapshot.document⟩

/-- The times of the envelope have UTC years that `json.Marshal` writes. -/
def Envelope.Writable (envelope : Envelope) : Prop :=
  envelope.effectiveFrom.Writable ∧ ∀ t ∈ envelope.effectiveUntil, t.Writable
deriving Decidable

section
variable (lib : Platform)
variable {version : Version lib}

/-- The form of the envelopes that are hashed: the times are in UTC and the document is
canonical JSON. -/
structure Envelope.Canonical (envelope : Envelope) : Prop where
  effectiveFrom : envelope.effectiveFrom.IsUTC
  effectiveUntil : ∀ t ∈ envelope.effectiveUntil, t.IsUTC
  document : ∃ source, lib.canonicalJSON source = some envelope.document

/-- `json.Marshal` on envelopes. -/
abbrev EncodesEnvelopes : Prop :=
  Encodes lib.marshalPolicyEnvelope (Envelope.Canonical lib) Envelope.Writable

variable {lib}

/-- A version that `NewVersion` or `Rehydrate` has returned. -/
def Version.Accepted (version : Version lib) : Prop :=
  (∃ input, newVersion lib input = .ok version) ∨
    ∃ snapshot, rehydrate lib snapshot = .ok version

/-- The message whose sum is the hash of a version. -/
def Version.message (version : Version lib) : Bytes :=
  hashed lib.marshalPolicyEnvelope version.snapshot.envelope

theorem Version.hash_message (version : Version lib) :
    version.snapshot.hash = (lib.sha256 version.message).text := version.hash_eq

theorem newVersion_eq_ok {input : Input} (h : newVersion lib input = .ok version) :
    lib.canonicalJSON input.document = some version.snapshot.document := by
  unfold newVersion at h
  split at h
  · exact absurd h (by simp)
  · rename_i document hdocument
    split at h
    · exact absurd h (by simp)
    · rename_i snapshot hsnapshot
      rw [hdocument, ← Except.ok.inj h]
      simp only [normalizeAndValidate, bind_eq_ok, rejectIf_eq_ok, exists_const,
        pure_eq_ok] at hsnapshot
      obtain ⟨-, -, -, -, -, -, plan, -, rfl⟩ := hsnapshot
      rfl

/-- The fields of a normal snapshot make a version. -/
theorem newVersion_of_normal {snapshot : Snapshot} {source : Bytes} (h : snapshot.Normal)
    (hsource : lib.canonicalJSON source = some snapshot.document) :
    ∃ version : Version lib, newVersion lib ⟨snapshot.policyID, snapshot.version,
        snapshot.schemaVersion, snapshot.effectiveFrom, snapshot.effectiveUntil,
        snapshot.requiredRuleIDs, source⟩ = .ok version ∧
      version.snapshot.envelope = snapshot.envelope := by
  have hnormal : ({ snapshot with hash := "" } : Snapshot).Normal :=
    ⟨h.policyID_canonical, h.version_canonical, h.schemaVersion_canonical, h.effectiveFrom_set,
      h.effectiveFrom_utc, h.effectiveUntil_utc, h.period, h.plan_nonempty, h.plan_normal⟩
  unfold newVersion
  split
  · rename_i hnone
    rw [hsource] at hnone
    exact absurd hnone (by simp)
  · rename_i document hdocument
    rw [hsource] at hdocument
    obtain rfl := Option.some.inj hdocument
    split
    · rename_i err herr
      exact absurd (herr.symm.trans hnormal.normalize) (by simp)
    · rename_i normalized hnormalized
      obtain rfl := Except.ok.inj (hnormalized.symm.trans hnormal.normalize)
      exact ⟨_, rfl, rfl⟩

theorem Version.Accepted.canonical (h : version.Accepted) :
    version.snapshot.envelope.Canonical lib := by
  refine ⟨version.normal.effectiveFrom_utc, version.normal.effectiveUntil_utc, ?_⟩
  rcases h with ⟨input, hinput⟩ | ⟨snapshot, hsnapshot⟩
  · exact ⟨input.document, newVersion_eq_ok hinput⟩
  · refine ⟨version.snapshot.document, ?_⟩
    unfold rehydrate at hsnapshot
    split at hsnapshot
    · exact absurd hsnapshot (by simp)
    · split at hsnapshot
      · exact absurd hsnapshot (by simp)
      · rename_i canonical hcanonical
        split at hsnapshot
        · exact absurd hsnapshot (by simp)
        · rename_i hsame
          split at hsnapshot
          · rw [← Except.ok.inj hsnapshot, hcanonical, not_not.mp hsame]
            rfl
          · exact absurd hsnapshot (by simp)

/-- Every accepted version has a sibling under another policy identifier. -/
theorem Version.Accepted.sibling (h : version.Accepted) :
    ∃ policyID ≠ version.snapshot.policyID, ∃ other : Version lib, other.Accepted ∧
      other.snapshot.envelope = { version.snapshot.envelope with policyID := policyID } := by
  obtain ⟨policyID, hne, hcanonical⟩ := exists_other (P := Text.Canonical)
    (show "a" ≠ "b" by decide) ⟨by decide, by decide⟩ ⟨by decide, by decide⟩
    version.snapshot.policyID
  obtain ⟨source, hsource⟩ := h.canonical.document
  have hnormal : ({ version.snapshot with policyID := policyID } : Snapshot).Normal :=
    { version.normal with policyID_canonical := hcanonical }
  obtain ⟨other, hother, henvelope⟩ := newVersion_of_normal hnormal hsource
  exact ⟨policyID, hne, other, Or.inl ⟨_, hother⟩, henvelope⟩

/-- **The hash of a policy binds its fields** if and only if its times can be written:
then no other accepted version has the same hash.  `known` are the messages among which
SHA-256 has no collisions. -/
theorem policy_hash_binds_iff_writable (hjson : EncodesEnvelopes lib) {known : Set Bytes}
    (hsum : Set.InjOn lib.sha256 known) (version : Version lib) (haccepted : version.Accepted)
    (hknown : version.message ∈ known) :
    (∀ other : Version lib, other.Accepted → other.message ∈ known →
      other.snapshot.hash = version.snapshot.hash →
        other.snapshot.envelope = version.snapshot.envelope) ↔
      version.snapshot.envelope.Writable := by
  constructor
  · intro hbinds
    by_contra hnot
    -- the sibling has the same times, so both have the hash of the empty message
    obtain ⟨policyID, hne, other, hother, henvelope⟩ := haccepted.sibling
    have hnot' : ¬ other.snapshot.envelope.Writable := by
      rw [henvelope]
      exact hnot
    have hmessage : other.message = version.message := by
      unfold Version.message
      rw [hjson.hashed_eq_nil haccepted.canonical hnot,
        hjson.hashed_eq_nil hother.canonical hnot']
    have hsame := hbinds other hother (by rw [hmessage]; exact hknown)
      (by rw [other.hash_message, version.hash_message, hmessage])
    rw [henvelope] at hsame
    exact hne (congrArg Envelope.policyID hsame)
  · intro hwritable other hother hother_known hhash
    rw [other.hash_message, version.hash_message] at hhash
    exact (hjson.eq_of_sum_eq hsum haccepted.canonical hother.canonical hwritable hknown
      hother_known (Digest.text_inj hhash).symm).symm

end

/-! ## A policy of two modes

The platform below does on the values of this example what the standard library does. -/

deriving instance Countable for Envelope

/-- An encoder with given texts for some envelopes meets the assumptions on
`json.Marshal`. -/
theorem encodesEnvelopes_of_table {lib : Platform} {texts : List (Envelope × Bytes)}
    (hclear : Tabled.Clear 255 texts) (hsome : ∀ entry ∈ texts, entry.2 ≠ [])
    (h : lib.marshalPolicyEnvelope = fun envelope =>
      if envelope.Writable then some (Tabled.encode 255 texts envelope) else none) :
    EncodesEnvelopes lib := by
  unfold EncodesEnvelopes
  rw [h]
  exact Tabled.encodes hclear hsome _ Envelope.Writable

namespace Mode

def strict : Bytes := utf8 "\x7b\"mode\":\"strict\"\x7d"
def relaxed : Bytes := utf8 "\x7b\"mode\":\"relaxed\"\x7d"

/-- Eight o'clock on the first of March 2026. -/
def eight : Time := ⟨63907948800000000000, .utc⟩

/-- 9999-12-31T23:30:00-01:00, which in UTC is in the year 10000. -/
def late : Time := ⟨Time.yearTenThousand + 1800 * 10 ^ 9, .zone "" (-3600)⟩

def input (effectiveFrom : Time) (document : Bytes) : Input :=
  ⟨"cargo-transfer", "1.0.0", "policy.document.v1", effectiveFrom, none, ["weight"], document⟩

/-- The envelope of the strict policy and its JSON. -/
def texts : List (Envelope × Bytes) := [
  (⟨"cargo-transfer", "1.0.0", "policy.document.v1", eight, none, ["weight"], strict⟩,
    utf8 "\x7b\"policy_id\":\"cargo-transfer\",\"version\":\"1.0.0\"," ++
    utf8 "\"schema_version\":\"policy.document.v1\"," ++
    utf8 "\"effective_from\":\"2026-03-01T08:00:00Z\",\"required_rule_ids\":[\"weight\"]," ++
    utf8 "\"document\":\x7b\"mode\":\"strict\"\x7d\x7d")]

theorem texts_clear : Tabled.Clear 255 texts := ⟨by decide, by decide⟩

/-- The SHA-256 sums of that text and of the empty message. -/
def sums : List (Bytes × Digest) :=
  ([], 0xe3b0c44298fc1c149afbf4c8996fb92427ae41e4649b934ca495991b7852b855) ::
    texts.map fun entry => (entry.2,
      0x9a175eb35421c3846d98c62f6cfa0c71790c45d76d4e581948ad81b36a8d7e86)

/-- JSON on the two documents. -/
def json : Platform where
  __ := Platform.silent
  decodeJSON payload :=
    if payload = strict then some (.object [("mode", .string "strict")])
    else if payload = relaxed then some (.object [("mode", .string "relaxed")])
    else none
  marshalJSON
    | .object [("mode", .string "strict")] => some strict
    | .object [("mode", .string "relaxed")] => some relaxed
    | _ => none

noncomputable def platform : Platform where
  __ := json
  sha256 payload := (sums.lookup payload).getD Digest.zero
  marshalPolicyEnvelope envelope :=
    if envelope.Writable then some (Tabled.encode 255 texts envelope) else none

/-- The messages that are hashed. -/
def known : Set Bytes := { message | message ∈ sums.map (·.1) }

instance (message : Bytes) : Decidable (message ∈ known) :=
  inferInstanceAs (Decidable (message ∈ sums.map (·.1)))

theorem encodes : EncodesEnvelopes platform :=
  encodesEnvelopes_of_table texts_clear (by decide) rfl

theorem sums_injOn : Set.InjOn platform.sha256 known := by
  have hdistinct : ∀ x ∈ sums.map (·.1), ∀ y ∈ sums.map (·.1),
      (sums.lookup x).getD Digest.zero = (sums.lookup y).getD Digest.zero → x = y := by
    decide +kernel
  exact fun x hx y hy heq => hdistinct x hx y hy heq

/-- The snapshots that `NewVersion` makes of the inputs. -/
def snapshot (effectiveFrom : Time) (document : Bytes) (hash : String) : Snapshot :=
  ⟨"cargo-transfer", "1.0.0", "policy.document.v1", effectiveFrom, none, ["weight"], document,
    hash⟩

/-- The sum of the empty message as a hash. -/
def emptyHash : String := "sha256:e3b0c44298fc1c149afbf4c8996fb92427ae41e4649b934ca495991b7852b855"

theorem late_strict : ∃ version : Version platform,
    newVersion platform (input late strict) = .ok version ∧
      version.snapshot = snapshot late.toUTC strict emptyHash ∧ version.message ∈ known := by
  have hmade : (newVersion platform (input late strict)).map (·.snapshot) =
      .ok (snapshot late.toUTC strict emptyHash) := by decide
  obtain ⟨version, hversion, hsnapshot⟩ := map_eq_ok.mp hmade
  refine ⟨version, hversion, hsnapshot, ?_⟩
  unfold Version.message
  rw [hsnapshot]
  decide

theorem late_relaxed : ∃ version : Version platform,
    newVersion platform (input late relaxed) = .ok version ∧
      version.snapshot = snapshot late.toUTC relaxed emptyHash ∧ version.message ∈ known := by
  have hmade : (newVersion platform (input late relaxed)).map (·.snapshot) =
      .ok (snapshot late.toUTC relaxed emptyHash) := by decide
  obtain ⟨version, hversion, hsnapshot⟩ := map_eq_ok.mp hmade
  refine ⟨version, hversion, hsnapshot, ?_⟩
  unfold Version.message
  rw [hsnapshot]
  decide

theorem eight_strict : ∃ version : Version platform,
    newVersion platform (input eight strict) = .ok version ∧
      version.snapshot = snapshot eight strict
        "sha256:9a175eb35421c3846d98c62f6cfa0c71790c45d76d4e581948ad81b36a8d7e86" ∧
      version.message ∈ known := by
  have hmade : (newVersion platform (input eight strict)).map (·.snapshot) =
      .ok (snapshot eight strict
        "sha256:9a175eb35421c3846d98c62f6cfa0c71790c45d76d4e581948ad81b36a8d7e86") := by
    decide +kernel
  obtain ⟨version, hversion, hsnapshot⟩ := map_eq_ok.mp hmade
  refine ⟨version, hversion, hsnapshot, ?_⟩
  unfold Version.message
  rw [hsnapshot]
  decide

end Mode

/-- Two policies with different documents, whose times are in the UTC year 10000, have
the same hash. -/
theorem unwritable_policies_share_hash :
    EncodesEnvelopes Mode.platform ∧ Set.InjOn Mode.platform.sha256 Mode.known ∧
      ∃ strict relaxed : Version Mode.platform,
        newVersion Mode.platform (Mode.input Mode.late Mode.strict) = .ok strict ∧
        newVersion Mode.platform (Mode.input Mode.late Mode.relaxed) = .ok relaxed ∧
        strict.message ∈ Mode.known ∧ relaxed.message ∈ Mode.known ∧
        strict.snapshot.hash = relaxed.snapshot.hash ∧
        strict.snapshot.document ≠ relaxed.snapshot.document := by
  obtain ⟨strict, hstrict, hs, hsknown⟩ := Mode.late_strict
  obtain ⟨relaxed, hrelaxed, hr, hrknown⟩ := Mode.late_relaxed
  refine ⟨Mode.encodes, Mode.sums_injOn, strict, relaxed, hstrict, hrelaxed, hsknown, hrknown,
    ?_, ?_⟩
  · rw [hs, hr]
    rfl
  · rw [hs, hr]
    decide

/-- The strict policy of 2026 is the only one with its hash. -/
theorem strict_policy_bound :
    ∃ version : Version Mode.platform,
      newVersion Mode.platform (Mode.input Mode.eight Mode.strict) = .ok version ∧
      version.message ∈ Mode.known ∧ version.snapshot.envelope.Writable ∧
      ∀ other : Version Mode.platform, other.Accepted → other.message ∈ Mode.known →
        other.snapshot.hash = version.snapshot.hash →
          other.snapshot.envelope = version.snapshot.envelope := by
  obtain ⟨version, hversion, hsnapshot, hknown⟩ := Mode.eight_strict
  have hwritable : version.snapshot.envelope.Writable := by
    rw [hsnapshot]
    decide
  exact ⟨version, hversion, hknown, hwritable, (policy_hash_binds_iff_writable Mode.encodes
    Mode.sums_injOn version (Or.inl ⟨_, hversion⟩) hknown).mpr hwritable⟩

end Policy
end CargoPds
