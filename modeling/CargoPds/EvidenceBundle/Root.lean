import CargoPds.EvidenceBundle.Manifest
import CargoPds.Foundation.Commitment
import CargoPds.Foundation.Countable
import CargoPds.Foundation.Tabled

/-!
# What the root of a bundle binds

Signatures, timestamps, certificates and audit records all name a bundle by its root,
the SHA-256 sum of the JSON of its manifest; the manifest names the objects by their
sums.  `calculateRoot` ignores the error of `json.Marshal`, which refuses a time with a
year outside 0, …, 9999 or an offset of 24 hours or more, and `Verify` accepts such a time.
So the root binds exactly the bundles whose time can be written
(`bundle_root_binds_iff_writable`).

The name of a zone is not written, nor are the seconds of its offset.  The results are
about a set of locations that differ in what is written, such as UTC and zones whose
offsets are different numbers of minutes, none of them 0.
-/

namespace CargoPds
namespace EvidenceBundle

open Fallible Commitment

section
variable {lib : Platform} {enc : Encoding}

/-! ## Accepted bundles -/

/-- What `Verify` accepts. -/
structure Verified (lib : Platform) (enc : Encoding) (bundle : Bundle) : Prop where
  schema : bundle.manifest.schemaVersion = schemaVersion
  bundleID : bundle.manifest.bundleID ≠ UUID.nil
  evaluationID : bundle.manifest.evaluationID ≠ UUID.nil
  sessionID : bundle.manifest.sessionID ≠ UUID.nil
  generatedAt : ¬ bundle.manifest.generatedAt.IsZero
  algorithm : bundle.manifest.hashAlgorithm = hashAlgorithm
  root : calculateRoot lib enc bundle.manifest = bundle.manifest.bundleRoot
  valid : ∀ object ∈ bundle.objects, validateObject enc object = .ok ()
  described : (bundle.objects.insertionSort ByPath).map (describe lib) = bundle.manifest.objects

/-- The loop of `Verify` compares the objects with their descriptors one by one. -/
theorem verifyObjects_eq_ok (lib : Platform) (enc : Encoding) (objects : List Object)
    (descriptors : List ObjectDescriptor) :
    (objects.length = descriptors.length ∧
      ∃ results, (objects.zip descriptors).mapM (verifyObject lib enc) = .ok results) ↔
      (∀ object ∈ objects, validateObject enc object = .ok ()) ∧
        objects.map (describe lib) = descriptors := by
  induction objects generalizing descriptors with
  | nil => cases descriptors <;> simp [pure, Except.pure]
  | cons object rest ih =>
      cases descriptors with
      | nil => simp
      | cons descriptor more =>
          simp only [List.length_cons, Nat.add_right_cancel_iff, List.zip_cons_cons,
            List.mapM_cons, bind_eq_ok, pure_eq_ok, List.forall_mem_cons, List.map_cons,
            List.cons.injEq]
          have hround : (∃ u, verifyObject lib enc (object, descriptor) = .ok u) ↔
              validateObject enc object = .ok () ∧ describe lib object = descriptor := by
            simp only [verifyObject, bind_eq_ok, rejectIf_eq_ok, not_not, exists_const]
            exact ⟨fun h => h.elim fun _ hround => hround, fun h => ⟨(), h⟩⟩
          constructor
          · rintro ⟨hlength, _, u, hu, results, hresults, -⟩
            obtain ⟨hvalid, hdescribed⟩ := hround.mp ⟨u, hu⟩
            obtain ⟨hrest, hmore⟩ := (ih more).mp ⟨hlength, results, hresults⟩
            exact ⟨⟨hvalid, hrest⟩, hdescribed, hmore⟩
          · rintro ⟨⟨hvalid, hrest⟩, hdescribed, hmore⟩
            obtain ⟨u, hu⟩ := hround.mpr ⟨hvalid, hdescribed⟩
            obtain ⟨hlength, results, hresults⟩ := (ih more).mpr ⟨hrest, hmore⟩
            exact ⟨hlength, _, u, hu, results, hresults, rfl⟩

theorem verify_eq_ok {bundle : Bundle} :
    verify lib enc bundle = .ok () ↔ Verified lib enc bundle := by
  have hobjects := verifyObjects_eq_ok lib enc (bundle.objects.insertionSort ByPath)
    bundle.manifest.objects
  have hmem : ∀ object, object ∈ bundle.objects.insertionSort ByPath ↔ object ∈ bundle.objects :=
    fun object => (List.perm_insertionSort ByPath bundle.objects).mem_iff
  simp only [verify, bind_eq_ok, rejectIf_eq_ok, pure_eq_ok, exists_const, not_or, not_not,
    ne_eq, and_true]
  constructor
  · rintro ⟨⟨hschema, hbundle, hevaluation, hsession, htime, halgorithm⟩, hroot, hlength,
      results, hresults⟩
    obtain ⟨hvalid, hdescribed⟩ := hobjects.mp ⟨hlength, results, hresults⟩
    exact ⟨hschema, hbundle, hevaluation, hsession, htime, halgorithm, hroot,
      fun object hobject => hvalid object ((hmem object).mpr hobject), hdescribed⟩
  · intro h
    obtain ⟨hlength, hresults⟩ := hobjects.mpr
      ⟨fun object hobject => h.valid object ((hmem object).mp hobject), h.described⟩
    exact ⟨⟨h.schema, h.bundleID, h.evaluationID, h.sessionID, h.generatedAt, h.algorithm⟩,
      h.root, hlength, hresults⟩

/-! ## Binding -/

/-- `json.Marshal` on manifests whose times are in `zones`. -/
abbrev EncodesManifests (enc : Encoding) (zones : Set Location) : Prop :=
  Encodes enc.marshalManifest (fun manifest => manifest.generatedAt.location ∈ zones)
    fun manifest => manifest.generatedAt.Marshals

/-- The manifest whose sum is the root. -/
def Manifest.unrooted (manifest : Manifest) : Manifest := { manifest with bundleRoot := "" }

/-- The messages that are hashed for a bundle: its manifest and its objects. -/
def Bundle.messages (enc : Encoding) (bundle : Bundle) : List Bytes :=
  hashed enc.marshalManifest bundle.manifest.unrooted :: bundle.objects.map (·.payload)

theorem calculateRoot_eq (manifest : Manifest) : calculateRoot lib enc manifest =
    (lib.sha256 (hashed enc.marshalManifest manifest.unrooted)).text := rfl

theorem Manifest.ext_unrooted {left right : Manifest} (h : left.unrooted = right.unrooted)
    (hroot : left.bundleRoot = right.bundleRoot) : left = right := by
  cases left
  cases right
  simp only [unrooted, Manifest.mk.injEq, and_true] at h hroot ⊢
  exact ⟨h.1, h.2.1, h.2.2.1, h.2.2.2.1, h.2.2.2.2.1, h.2.2.2.2.2.1, h.2.2.2.2.2.2.1,
    h.2.2.2.2.2.2.2, hroot⟩

/-- Objects are determined by their descriptors. -/
theorem eq_of_describe_eq {known : Set Bytes} (hsum : Set.InjOn lib.sha256 known)
    {left right : List Object} (hleft : ∀ object ∈ left, object.payload ∈ known)
    (hright : ∀ object ∈ right, object.payload ∈ known)
    (h : left.map (describe lib) = right.map (describe lib)) : left = right := by
  induction left generalizing right with
  | nil => exact (List.map_eq_nil_iff.mp h.symm).symm
  | cons object rest ih =>
      cases right with
      | nil => exact absurd h (by simp)
      | cons other more =>
          rw [List.map_cons, List.map_cons, List.cons.injEq] at h
          rw [List.forall_mem_cons] at hleft hright
          have hsame : object = other := by
            obtain ⟨hpath, hmedia, -, hdigest⟩ := ObjectDescriptor.mk.injEq .. ▸ h.1
            have hpayload := hsum hleft.1 hright.1 (Digest.text_inj hdigest)
            cases object
            cases other
            exact Object.mk.injEq .. ▸ ⟨hpath, hmedia, hpayload⟩
          rw [hsame, ih hleft.2 hright.2 h.2]

/-- A bundle whose time can be written is bound by its root. -/
theorem Verified.eq_of_root_eq {zones : Set Location} (hjson : EncodesManifests enc zones)
    {known : Set Bytes} (hsum : Set.InjOn lib.sha256 known) {bundle other : Bundle}
    (h : Verified lib enc bundle) (hother : Verified lib enc other)
    (hzone : bundle.manifest.generatedAt.location ∈ zones)
    (hother_zone : other.manifest.generatedAt.location ∈ zones)
    (hmarshals : bundle.manifest.generatedAt.Marshals)
    (hknown : ∀ m ∈ bundle.messages enc, m ∈ known)
    (hother_known : ∀ m ∈ other.messages enc, m ∈ known)
    (hroot : other.manifest.bundleRoot = bundle.manifest.bundleRoot) :
    other.manifest = bundle.manifest ∧ other.objects.Perm bundle.objects := by
  obtain ⟨hmanifest, hpayloads⟩ := List.forall_mem_cons.mp hknown
  obtain ⟨hother_manifest, hother_payloads⟩ := List.forall_mem_cons.mp hother_known
  have hunrooted : bundle.manifest.unrooted = other.manifest.unrooted := by
    refine hjson.eq_of_sum_eq hsum hzone hother_zone hmarshals hmanifest hother_manifest ?_
    apply Digest.text_inj
    rw [← calculateRoot_eq, ← calculateRoot_eq, h.root, hother.root, hroot]
  have hsame : other.manifest = bundle.manifest :=
    Manifest.ext_unrooted hunrooted.symm hroot
  refine ⟨hsame, ?_⟩
  have hsorted : other.objects.insertionSort ByPath = bundle.objects.insertionSort ByPath := by
    refine eq_of_describe_eq hsum ?_ ?_ ?_
    · intro object hobject
      refine hother_payloads _ (List.mem_map_of_mem ?_)
      exact (List.perm_insertionSort ByPath _).mem_iff.mp hobject
    · intro object hobject
      refine hpayloads _ (List.mem_map_of_mem ?_)
      exact (List.perm_insertionSort ByPath _).mem_iff.mp hobject
    · rw [hother.described, h.described, hsame]
  have hperm := (List.perm_insertionSort ByPath other.objects).symm
  rw [hsorted] at hperm
  exact hperm.trans (List.perm_insertionSort ByPath bundle.objects)

/-- **The root binds the bundle** if and only if its time can be written: then every
accepted bundle with the same root has the same manifest and the same objects up to
order.  `zones` are the locations in use, which are written differently, and `known` are
the messages among which SHA-256 has no collisions. -/
theorem bundle_root_binds_iff_writable {zones : Set Location} (hjson : EncodesManifests enc zones)
    {known : Set Bytes} (hsum : Set.InjOn lib.sha256 known) (bundle : Bundle)
    (hverify : verify lib enc bundle = .ok ())
    (hzone : bundle.manifest.generatedAt.location ∈ zones)
    (hknown : ∀ m ∈ bundle.messages enc, m ∈ known) :
    (∀ other : Bundle, verify lib enc other = .ok () →
      other.manifest.generatedAt.location ∈ zones → (∀ m ∈ other.messages enc, m ∈ known) →
      other.manifest.bundleRoot = bundle.manifest.bundleRoot →
        other.manifest = bundle.manifest ∧ other.objects.Perm bundle.objects) ↔
      bundle.manifest.generatedAt.Marshals := by
  rw [verify_eq_ok] at hverify
  constructor
  · intro hbinds
    by_contra hnot
    -- under another identifier the manifest has the same root
    obtain ⟨id, hne, hid⟩ := exists_other (P := (· ≠ UUID.nil)) (show (1 : UUID) ≠ 2 by decide)
      (by decide) (by decide) bundle.manifest.bundleID
    let other : Bundle := { bundle with manifest := { bundle.manifest with bundleID := id } }
    have hmanifest : hashed enc.marshalManifest other.manifest.unrooted =
        hashed enc.marshalManifest bundle.manifest.unrooted :=
      (hjson.hashed_eq_nil (x := other.manifest.unrooted) hzone hnot).trans
        (hjson.hashed_eq_nil (x := bundle.manifest.unrooted) hzone hnot).symm
    have hmessages : other.messages enc = bundle.messages enc := by
      unfold Bundle.messages
      rw [hmanifest]
    have hother : Verified lib enc other := { hverify with
      bundleID := hid
      root := by
        rw [calculateRoot_eq, hmanifest, ← calculateRoot_eq]
        exact hverify.root }
    obtain ⟨hsame, -⟩ := hbinds other (verify_eq_ok.mpr hother) hzone
      (by rw [hmessages]; exact hknown) rfl
    exact hne (congrArg Manifest.bundleID hsame)
  · intro hmarshals other hother hother_zone hother_known hroot
    exact hverify.eq_of_root_eq hjson hsum (verify_eq_ok.mp hother) hzone hother_zone hmarshals
      hknown hother_known hroot

end

/-! ## A bundle of one object

The platform and the encoding below do on the values of this example what the standard
library does. -/

deriving instance Countable for ObjectDescriptor
deriving instance Countable for PolicyReference
deriving instance Countable for Manifest

namespace Single

def verified : Bytes := utf8 "\x7b\"result\":\"VERIFIED\"\x7d"
def rejected : Bytes := utf8 "\x7b\"result\":\"REJECTED\"\x7d"

/-- Eight o'clock on the first of March 2026. -/
def eight : Time := ⟨63907948800000000000, .utc⟩

/-- The first instant of the year 10000. -/
def late : Time := ⟨Time.yearTenThousand, .utc⟩

/-- Eight o'clock again, in a zone 24 hours east of UTC. -/
def distant : Time := ⟨eight.instant, .zone "" 86400⟩

def zones : Set Location := {.utc, distant.location}

/-- The bundle with one object. -/
def bundle (generatedAt : Time) (payload : Bytes) (digest root : String) : Bundle where
  manifest := {
    schemaVersion := schemaVersion
    bundleID := BitVec.ofNat 128 0x1d2c3b4a596847788695a4b3c2d1e0f0
    evaluationID := BitVec.ofNat 128 0x7d5c1e90b3a2487f9c6a5e4d3c2b1002
    sessionID := BitVec.ofNat 128 0x6f1c2d3e4a5b4c6d8e7f901a2b3c4d5e
    generatedAt := generatedAt
    hashAlgorithm := hashAlgorithm
    policy := ⟨"cargo-transfer", "1.0.0",
      "sha256:9a175eb35421c3846d98c62f6cfa0c71790c45d76d4e581948ad81b36a8d7e86"⟩
    objects := [⟨"decision-trace.json", "application/json", 21, digest⟩]
    bundleRoot := root }
  objects := [⟨"decision-trace.json", "application/json", payload⟩]

def verifiedDigest : String :=
  "sha256:8d0468a4dafbc513d2a8698f59e6f1adc07c09efdfe74b61a20666196026a6e0"

def rejectedDigest : String :=
  "sha256:851488883342ccb8873a6790e5a7adf56134b091cf221e584046d012bfc1a44b"

def descriptorText (descriptor : ObjectDescriptor) : Bytes :=
  utf8 "\x7b\"path\":\"" ++ utf8 descriptor.path ++
  utf8 "\",\"media_type\":\"" ++ utf8 descriptor.mediaType ++
  utf8 "\",\"size\":" ++ utf8 (toString descriptor.size) ++
  utf8 ",\"digest\":\"" ++ utf8 descriptor.digest ++ utf8 "\"\x7d"

/-- The JSON of a manifest of this example, made at eight o'clock, up to its root. -/
def manifestHead (manifest : Manifest) : Bytes :=
  utf8 "\x7b\"schema_version\":\"" ++ utf8 manifest.schemaVersion ++
  utf8 "\",\"bundle_id\":\"" ++ utf8 manifest.bundleID.text ++
  utf8 "\",\"evaluation_id\":\"" ++ utf8 manifest.evaluationID.text ++
  utf8 "\",\"session_id\":\"" ++ utf8 manifest.sessionID.text ++
  utf8 "\",\"generated_at\":\"2026-03-01T08:00:00Z\",\"hash_algorithm\":\"" ++
  utf8 manifest.hashAlgorithm ++
  utf8 "\",\"policy\":\x7b\"policy_id\":\"" ++ utf8 manifest.policy.policyID ++
  utf8 "\",\"version\":\"" ++ utf8 manifest.policy.version ++
  utf8 "\",\"hash\":\"" ++ utf8 manifest.policy.hash ++ utf8 "\"\x7d,\"objects\":[" ++
  (utf8 ",").intercalate (manifest.objects.map descriptorText) ++
  utf8 "],\"bundle_root\":\""

def manifestText (manifest : Manifest) : Bytes :=
  manifestHead manifest ++ utf8 manifest.bundleRoot ++ utf8 "\"\x7d"

/-- The manifest of 2026 with its JSON. -/
def texts : List (Manifest × Bytes) :=
  let manifest := (bundle eight verified verifiedDigest "").manifest
  [(manifest, manifestText manifest)]

theorem texts_clear : Tabled.Clear 255 texts := ⟨by decide, by decide⟩

/-- The SHA-256 sums of that text, of the two payloads and of the empty message. -/
def sums : List (Bytes × Digest) :=
  [([], 0xe3b0c44298fc1c149afbf4c8996fb92427ae41e4649b934ca495991b7852b855),
    (verified,
      0x8d0468a4dafbc513d2a8698f59e6f1adc07c09efdfe74b61a20666196026a6e0),
    (rejected,
      0x851488883342ccb8873a6790e5a7adf56134b091cf221e584046d012bfc1a44b)] ++
  texts.map fun entry => (entry.2,
    0xb4e9bcfab4e757b1f44ecbd5084b5b94b64ab685603880d5fee7e12d427c2ed9)

def root : String := "sha256:b4e9bcfab4e757b1f44ecbd5084b5b94b64ab685603880d5fee7e12d427c2ed9"

def emptyRoot : String :=
  "sha256:e3b0c44298fc1c149afbf4c8996fb92427ae41e4649b934ca495991b7852b855"

def platform : Platform where
  __ := Platform.silent
  sha256 payload := (sums.lookup payload).getD Digest.zero

noncomputable def encoding : Encoding where
  marshalTrace _ := none
  unmarshalTrace _ := none
  marshalPolicy _ := none
  unmarshalPolicy _ := none
  unmarshalEvidence _ := none
  marshalReference _ := none
  marshalManifest manifest :=
    if manifest.generatedAt.Marshals then some (Tabled.encode 255 texts manifest) else none
  valid payload := payload = verified || payload = rejected

/-- The messages that are hashed. -/
def known : Set Bytes := { message | message ∈ sums.map (·.1) }

instance (message : Bytes) : Decidable (message ∈ known) :=
  inferInstanceAs (Decidable (message ∈ sums.map (·.1)))

theorem encodes : EncodesManifests encoding zones := by
  have htext : ∀ entry ∈ texts, entry.2 ≠ [] := by decide
  exact Tabled.encodes texts_clear htext _ fun manifest => manifest.generatedAt.Marshals

theorem sums_injOn : Set.InjOn platform.sha256 known := by
  have hdistinct : ∀ x ∈ sums.map (·.1), ∀ y ∈ sums.map (·.1),
      (sums.lookup x).getD Digest.zero = (sums.lookup y).getD Digest.zero → x = y := by
    decide +kernel
  exact fun x hx y hy heq => hdistinct x hx y hy heq

end Single

/-- Two bundles of the year 10000 with different objects have the same root, and so have two
of a zone 24 hours from UTC. -/
theorem unwritable_bundles_share_root :
    EncodesManifests Single.encoding Single.zones ∧
      Set.InjOn Single.platform.sha256 Single.known ∧
      ∀ t ∈ [Single.late, Single.distant], t.location ∈ Single.zones ∧
        ∃ left right : Bundle,
          left.manifest.generatedAt = t ∧ right.manifest.generatedAt = t ∧
          verify Single.platform Single.encoding left = .ok () ∧
          verify Single.platform Single.encoding right = .ok () ∧
          (∀ m ∈ left.messages Single.encoding, m ∈ Single.known) ∧
          (∀ m ∈ right.messages Single.encoding, m ∈ Single.known) ∧
          left.manifest.bundleRoot = right.manifest.bundleRoot ∧
          left.manifest ≠ right.manifest ∧ ¬ left.objects.Perm right.objects := by
  refine ⟨Single.encodes, Single.sums_injOn, ?_⟩
  simp only [List.forall_mem_cons, List.not_mem_nil, false_imp_iff, implies_true, and_true]
  refine ⟨⟨.inl rfl,
    Single.bundle Single.late Single.verified Single.verifiedDigest Single.emptyRoot,
    Single.bundle Single.late Single.rejected Single.rejectedDigest Single.emptyRoot, ?_⟩,
    .inr rfl,
    Single.bundle Single.distant Single.verified Single.verifiedDigest Single.emptyRoot,
    Single.bundle Single.distant Single.rejected Single.rejectedDigest Single.emptyRoot, ?_⟩ <;>
  decide

/-- The bundle of 2026 is the only one with its root. -/
theorem single_bundle_bound :
    verify Single.platform Single.encoding (Single.bundle Single.eight Single.verified
        Single.verifiedDigest Single.root) = .ok () ∧
      Single.eight.Marshals ∧
      ∀ other : Bundle, verify Single.platform Single.encoding other = .ok () →
        other.manifest.generatedAt.location ∈ Single.zones →
        (∀ m ∈ other.messages Single.encoding, m ∈ Single.known) →
        other.manifest.bundleRoot = Single.root →
          other.manifest = (Single.bundle Single.eight Single.verified Single.verifiedDigest
            Single.root).manifest ∧
          other.objects.Perm [⟨"decision-trace.json", "application/json", Single.verified⟩] := by
  have hverify : verify Single.platform Single.encoding (Single.bundle Single.eight
      Single.verified Single.verifiedDigest Single.root) = .ok () := by decide +kernel
  have hmarshals : Single.eight.Marshals := by decide
  exact ⟨hverify, hmarshals, (bundle_root_binds_iff_writable Single.encodes Single.sums_injOn _
    hverify (.inl rfl) (by decide +kernel)).mpr hmarshals⟩

end EvidenceBundle
end CargoPds
