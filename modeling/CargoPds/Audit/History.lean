import Mathlib.Data.List.Chain
import Mathlib.Data.Set.Function
import CargoPds.Audit.Chain
import CargoPds.Foundation.HashChain
import CargoPds.Foundation.Layout

/-!
# The head of the ledger fixes its history

An auditor who knows the root of the last entry knows every entry before it: the
message that is hashed for an entry consists of fields of fixed width, so it
determines the entry, and the root of the previous entry is one of the fields.

Two representations matter here.  A sequence number is a `uint64`, and the occurrence
time enters the message as `uint64(t.UnixMicro())`, which determines the time as long
as the microseconds fit into an `int64`; a `TIMESTAMPTZ` column holds no other times.
-/

namespace CargoPds
namespace Audit

/-- What is hashed for an entry: every field but the root. -/
def Entry.message (entry : Entry) : Bytes :=
  utf8 chainDomain ++ [entry.kind.code] ++ scalar entry.sequence ++ entry.previousRoot.bytes ++
    entry.recordRoot.bytes ++ microScalar entry.occurredAt

/-- The occurrence time is one that `UnixMicro` expresses, and the sequence number is
a `uint64`. -/
structure Entry.Representable (entry : Entry) : Prop where
  sequence : entry.sequence < 2 ^ 64
  earliest : -2 ^ 63 ≤ entry.occurredAt.unixMicro
  latest : entry.occurredAt.unixMicro < 2 ^ 63

instance (entry : Entry) : Decidable entry.Representable :=
  decidable_of_iff (entry.sequence < 2 ^ 64 ∧ -2 ^ 63 ≤ entry.occurredAt.unixMicro ∧
      entry.occurredAt.unixMicro < 2 ^ 63)
    ⟨fun h => ⟨h.1, h.2.1, h.2.2⟩, fun h => ⟨h.1, h.2, h.3⟩⟩

/-! ## The message determines the entry -/

theorem RecordKind.code_inj {left right : RecordKind} (hleft : left.IsValid)
    (hright : right.IsValid) (h : left.code = right.code) : left = right := by
  cases left with
  | other code => exact absurd hleft id
  | evaluation | estimator | responsibilityHandover | evidenceBundle =>
      cases right with
      | other code => exact absurd hright id
      | evaluation | estimator | responsibilityHandover | evidenceBundle =>
          revert h
          decide

theorem scalar_inj {left right : Nat} (hleft : left < 2 ^ 64) (hright : right < 2 ^ 64)
    (h : scalar left = scalar right) : left = right :=
  bigEndian_inj hleft hright h

/-- Whole microseconds in UTC are determined by `UnixMicro`. -/
theorem eq_of_unixMicro_eq {t u : Time} (ht : t.toUTC.truncate = t) (hu : u.toUTC.truncate = u)
    (h : t.unixMicro = u.unixMicro) : t = u := by
  have hinstant : ∀ time : Time, time.toUTC.truncate = time →
      time.instant = time.unixMicro * 1000 + Time.unixEpoch := by
    intro time htime
    have hwhole : time.instant - time.instant % 1000 = time.instant :=
      congrArg Time.instant htime
    change time.instant = (time.instant - Time.unixEpoch) / 1000 * 1000 + Time.unixEpoch
    unfold Time.unixEpoch
    omega
  have hutc : ∀ time : Time, time.toUTC.truncate = time → time.location = .utc := by
    intro time htime
    rw [← htime]
    rfl
  have hsame : t.instant = u.instant := by rw [hinstant t ht, hinstant u hu, h]
  cases t
  cases u
  exact Time.mk.injEq _ _ _ _ |>.mpr ⟨hsame, (hutc _ ht).trans (hutc _ hu).symm⟩

theorem microScalar_inj {t u : Time} (ht : -2 ^ 63 ≤ t.unixMicro ∧ t.unixMicro < 2 ^ 63)
    (hu : -2 ^ 63 ≤ u.unixMicro ∧ u.unixMicro < 2 ^ 63) (h : microScalar t = microScalar u) :
    t.unixMicro = u.unixMicro := by
  have hfits : ∀ micro : Int, (micro % 2 ^ 64).toNat < 2 ^ 64 := by
    intro micro
    omega
  have hwrapped := scalar_inj (hfits _) (hfits _) h
  -- both numbers lie in one period of the wrap-around
  omega

variable (lib : Platform)

/-- A valid entry is what `NewEntry` makes of its fields. -/
theorem Entry.valid_iff {entry : Entry} :
    entry.validate lib = .ok () ↔
      entry.kind.IsValid ∧ entry.sequence ≠ 0 ∧
        (entry.sequence = 1 ↔ entry.previousRoot = Digest.zero) ∧
        entry.recordRoot ≠ Digest.zero ∧ ¬ entry.occurredAt.IsZero ∧
        entry.occurredAt.toUTC.truncate = entry.occurredAt ∧
        entry.root = lib.sha256 entry.message := by
  rw [Entry.validate_eq_ok, newEntry_eq_ok]
  have hentry : entryOf lib entry.sequence entry.kind entry.previousRoot entry.recordRoot
      entry.occurredAt = entry ↔ entry.occurredAt.toUTC.truncate = entry.occurredAt ∧
        entry.root = lib.sha256 entry.message := by
    constructor
    · intro h
      have htime : entry.occurredAt.toUTC.truncate = entry.occurredAt :=
        congrArg Entry.occurredAt h
      refine ⟨htime, ?_⟩
      have hroot := congrArg Entry.root h
      change calculateRoot lib _ _ _ _ entry.occurredAt.toUTC.truncate = entry.root at hroot
      rw [htime] at hroot
      exact hroot.symm
    · rintro ⟨htime, hroot⟩
      cases entry
      simp only [entryOf, Entry.mk.injEq, true_and]
      refine ⟨htime, ?_⟩
      rw [htime]
      exact hroot.symm
  rw [hentry]

/-- The message of a valid entry determines its fields. -/
theorem Entry.eq_of_message_eq {left right : Entry} (hleft : left.validate lib = .ok ())
    (hright : right.validate lib = .ok ()) (hfits : left.Representable)
    (hfits' : right.Representable) (h : left.message = right.message) : left = right := by
  obtain ⟨hkind, -, -, -, -, htime, hroot⟩ := (Entry.valid_iff lib).mp hleft
  obtain ⟨hkind', -, -, -, -, htime', hroot'⟩ := (Entry.valid_iff lib).mp hright
  have hroots : left.root = right.root := by rw [hroot, hroot', h]
  unfold Entry.message at h
  -- the fields are taken off from the front, each by its width
  simp only [List.append_assoc] at h
  obtain ⟨-, h⟩ := field_inj rfl h
  obtain ⟨hcode, h⟩ := field_inj (by simp) h
  obtain ⟨hsequence, h⟩ := field_inj (by simp [scalar]) h
  obtain ⟨hprevious, h⟩ := field_inj (by simp) h
  obtain ⟨hrecord, hmicro⟩ := field_inj (by simp) h
  have hkinds := RecordKind.code_inj hkind hkind' (List.head_eq_of_cons_eq hcode)
  have hsequences := scalar_inj hfits.sequence hfits'.sequence hsequence
  have htimes := eq_of_unixMicro_eq htime htime'
    (microScalar_inj ⟨hfits.earliest, hfits.latest⟩ ⟨hfits'.earliest, hfits'.latest⟩ hmicro)
  have hpreviouses := Digest.bytes_inj hprevious
  have hrecords := Digest.bytes_inj hrecord
  cases left
  cases right
  simp only [Entry.mk.injEq]
  exact ⟨hsequences, hkinds, hpreviouses, hrecords, htimes, hroots⟩

/-! ## Ledgers -/

/-- The entries after `entry`: the next sequence number and the root of `entry`. -/
def Entry.Continues (entry next : Entry) : Prop :=
  next.sequence = entry.sequence + 1 ∧ next.previousRoot = entry.root
deriving Decidable

/-- The entries form one chain from sequence 1 on. -/
abbrev Chained (entries : List Entry) : Prop :=
  HashChain.Chained Entry.sequence Entry.previousRoot Entry.root 1 Digest.zero entries

/-- A list of entries as an auditor checks it: each entry is valid by itself, the first
has sequence 1, and every entry continues the one before. -/
structure Checked (entries : List Entry) : Prop where
  valid : ∀ entry ∈ entries, entry.validate lib = .ok ()
  start : ∀ entry ∈ entries.head?, entry.sequence = 1
  linked : entries.IsChain Entry.Continues

theorem Checked.chained {entries : List Entry} (h : Checked lib entries) : Chained entries := by
  have hlinked : ∀ (first : Nat) (genesis : Digest) (rest : List Entry),
      rest.IsChain Entry.Continues →
      (∀ entry ∈ rest.head?, entry.sequence = first ∧ entry.previousRoot = genesis) →
      HashChain.Chained Entry.sequence Entry.previousRoot Entry.root first genesis rest := by
    intro first genesis rest
    induction rest generalizing first genesis with
    | nil => exact fun _ _ => trivial
    | cons entry rest ih =>
        intro hchain hfirst
        obtain ⟨hsequence, hprevious⟩ := hfirst entry rfl
        refine ⟨hsequence, hprevious, ih _ _ hchain.tail ?_⟩
        intro next hnext
        obtain ⟨hnumber, hlink⟩ := hchain.rel_head? hnext
        exact ⟨by rw [hnumber, hsequence], hlink⟩
  refine hlinked 1 Digest.zero entries h.linked ?_
  intro entry hentry
  have hone := h.start entry hentry
  obtain ⟨-, -, hgenesis, -⟩ :=
    (Entry.valid_iff lib).mp (h.valid entry (List.mem_of_mem_head? hentry))
  exact ⟨hone, hgenesis.mp hone⟩

/-- **The head of the ledger fixes the whole history.**  Two checked lists of entries,
of whatever lengths, whose last entries have the same root are the same list.  `known`
are the messages among which SHA-256 has no collisions. -/
theorem ledger_head_fixes_history {known : Set Bytes} (hsum : Set.InjOn lib.sha256 known)
    {left right : List Entry} (hleft : Checked lib left) (hright : Checked lib right)
    (hfits : ∀ entry ∈ left ++ right, entry.Representable)
    (hknown : ∀ entry ∈ left ++ right, entry.message ∈ known)
    {last last' : Entry} (hlast : left.getLast? = some last)
    (hlast' : right.getLast? = some last') (hroot : last.root = last'.root) : left = right := by
  have hroots : ∀ a ∈ left, ∀ b ∈ right, a.root = b.root → a = b := by
    intro a ha b hb hsame
    have ha' := List.mem_append_left right ha
    have hb' := List.mem_append_right left hb
    obtain ⟨-, -, -, -, -, -, hroota⟩ := (Entry.valid_iff lib).mp (hleft.valid a ha)
    obtain ⟨-, -, -, -, -, -, hrootb⟩ := (Entry.valid_iff lib).mp (hright.valid b hb)
    rw [hroota, hrootb] at hsame
    exact Entry.eq_of_message_eq lib (hleft.valid a ha) (hright.valid b hb) (hfits a ha')
      (hfits b hb') (hsum (hknown a ha') (hknown b hb') hsame)
  have hhead : HashChain.head Entry.root Digest.zero left =
      HashChain.head Entry.root Digest.zero right := by
    unfold HashChain.head
    rw [hlast, hlast', Option.map_some, Option.map_some, hroot]
  refine HashChain.Chained.eq_of_head hleft.chained hright.chained hroots ?_ ?_ hhead
  · rintro rfl
    exact absurd hlast (by simp)
  · rintro rfl
    exact absurd hlast' (by simp)

/-! ## A ledger of two entries -/

namespace Dock

/-- The entry of an evaluation, on the first of March 2026 at eight o'clock. -/
def evaluated : Entry where
  sequence := 1
  kind := .evaluation
  previousRoot := Digest.zero
  recordRoot := 0x8d0468a4dafbc513d2a8698f59e6f1adc07c09efdfe74b61a20666196026a6e0
  occurredAt := ⟨63907948800000000000, .utc⟩
  root := 0x994a7460f5956054600549cc382fd9ff37b1be7e129c4746b1afcb31dbfc46bc

/-- The entry of the handover a minute later. -/
def handedOver : Entry where
  sequence := 2
  kind := .responsibilityHandover
  previousRoot := evaluated.root
  recordRoot := 0x587a00e87325618ed0c2f0a2788c244c18326b535675922a22b05cfe33a15290
  occurredAt := ⟨63907948860000000000, .utc⟩
  root := 0x12252f171cac9f6010f4afd7ce5fadb381d513222fd4c6039e3ee823f3a98b2f

def ledger : List Entry := [evaluated, handedOver]

/-- The standard library, as far as the ledger uses it: the sums of its two messages. -/
def platform : Platform where
  __ := Platform.silent
  sha256 message :=
    if message = evaluated.message then evaluated.root
    else if message = handedOver.message then handedOver.root
    else Digest.zero

/-- The messages that are hashed. -/
def known : Set Bytes := { message | message ∈ ledger.map Entry.message }

theorem known_injOn : Set.InjOn platform.sha256 known := by
  have hdistinct : ∀ x ∈ ledger.map Entry.message, ∀ y ∈ ledger.map Entry.message,
      platform.sha256 x = platform.sha256 y → x = y := by
    decide
  exact fun x hx y hy => hdistinct x hx y hy

/-- The ledger as `NewEntry` makes it from the records, with clocks of another zone and
a finer grain. -/
def recorded : List Entry :=
  let first := entryOf platform 1 .evaluation Digest.zero evaluated.recordRoot
    ⟨63907948800000000400, .zone "" 7200⟩
  [first, entryOf platform 2 .responsibilityHandover first.root handedOver.recordRoot
    ⟨63907948860000000999, .zone "" 7200⟩]

theorem ledger_checked : Checked platform ledger where
  valid := by decide
  start := by decide
  linked := by decide

theorem recorded_checked : Checked platform recorded where
  valid := by decide
  start := by decide
  linked := by decide

end Dock

/-- The ledger that was recorded is the one that an auditor holds, since both end in
the root of the handover. -/
theorem dock_history_fixed :
    Checked Dock.platform Dock.ledger ∧ Checked Dock.platform Dock.recorded ∧
      (∃ last ∈ Dock.recorded.getLast?, last.root = Dock.handedOver.root) ∧
      Dock.ledger = Dock.recorded := by
  have hentries : ∀ entry ∈ Dock.ledger ++ Dock.recorded,
      entry.Representable ∧ entry.message ∈ Dock.ledger.map Entry.message := by
    decide
  have hlast : ∃ last ∈ Dock.recorded.getLast?, last.root = Dock.handedOver.root :=
    ⟨_, rfl, by decide⟩
  obtain ⟨last, hmem, hroot⟩ := hlast
  refine ⟨Dock.ledger_checked, Dock.recorded_checked, ⟨last, hmem, hroot⟩, ?_⟩
  exact ledger_head_fixes_history Dock.platform Dock.known_injOn Dock.ledger_checked
    Dock.recorded_checked (fun entry hentry => (hentries entry hentry).1)
    (fun entry hentry => (hentries entry hentry).2)
    (rfl : Dock.ledger.getLast? = some Dock.handedOver) hmem hroot.symm

end Audit
end CargoPds
