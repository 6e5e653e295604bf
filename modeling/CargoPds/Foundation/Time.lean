import Mathlib.Algebra.Order.Ring.Int
import Mathlib.Order.Defs.LinearOrder
import Mathlib.Data.Int.Order.Basic

/-!
# Time

A value of `time.Time` is an instant together with a location.  Instants are
counted in nanoseconds from the zero time (January 1, year 1, UTC).  The
methods compare instants only, while the operator `==` also compares the
location; code that uses `==` normalises with `UTC` first.

Monotonic clock readings are not modelled: every time that the code stores has
passed through `UTC`, which strips them.
-/

namespace CargoPds

/-- The location of a `time.Time`.  The offset of a zone is the one at the time, in seconds
east of UTC; nothing reads it after `Add`, so daylight saving does not matter. -/
inductive Location where
  | utc
  | zone (name : String) (offset : Int)
deriving DecidableEq, Repr

def Location.offset : Location → Int
  | utc => 0
  | zone _ offset => offset

/-- A `time.Time` without a monotonic clock reading. -/
structure Time where
  instant : Int
  location : Location
deriving DecidableEq, Repr

namespace Time

variable {t : Time}

/-- The zero value `time.Time{}`. -/
def zero : Time := ⟨0, .utc⟩

/-- `IsZero`. -/
def IsZero (t : Time) : Prop := t.instant = 0
deriving Decidable

/-- `After`. -/
def After (t u : Time) : Prop := u.instant < t.instant
deriving Decidable

/-- `Before`. -/
def Before (t u : Time) : Prop := t.instant < u.instant
deriving Decidable

/-- `Equal`, which ignores the location. -/
def Equal (t u : Time) : Prop := t.instant = u.instant
deriving Decidable

/-- `UTC`: the same instant, located in UTC. -/
def toUTC (t : Time) : Time := ⟨t.instant, .utc⟩

/-- A time that `UTC` leaves unchanged. -/
def IsUTC (t : Time) : Prop := t.location = .utc
deriving Decidable

/-- `Add` of a duration in nanoseconds. -/
def add (t : Time) (duration : Int) : Time := ⟨t.instant + duration, t.location⟩

/-- The largest `time.Duration`. -/
def maxDuration : Int := 2 ^ 63 - 1

/-- `Sub`: the difference in nanoseconds, saturated to an `int64`. -/
def sub (t u : Time) : Int :=
  max (-maxDuration - 1) (min maxDuration (t.instant - u.instant))

/-- Nanoseconds in a microsecond, `time.Microsecond`. -/
def microsecond : Int := 1000

/-- `Truncate(time.Microsecond)`: round down to a multiple of a microsecond
since the zero time. -/
def truncate (t : Time) : Time := ⟨t.instant - t.instant % microsecond, t.location⟩

/-- A whole number of microseconds. -/
def WholeMicroseconds (t : Time) : Prop := t.instant % microsecond = 0
deriving Decidable

/-- The days since January 1, year 1, on the calendar of the location. -/
def day (t : Time) : Int := (t.instant + t.location.offset * 10 ^ 9) / (86400 * 10 ^ 9)

/-- `Year`.  Four centuries have 146097 days.  The last century, the last four years and the
last year of what contains them may be longer by a day. -/
def year (t : Time) : Int :=
  let century := min 3 (t.day % 146097 / 36524)
  let rest := t.day % 146097 - 36524 * century
  400 * (t.day / 146097) + 100 * century + 4 * (rest / 1461) + min 3 (rest % 1461 / 365) + 1

/-- `json.Marshal` writes the time: the year has four digits and the offset is below 24
hours. -/
def Marshals (t : Time) : Prop :=
  0 ≤ t.year ∧ t.year ≤ 9999 ∧ t.location.offset.natAbs < 86400
deriving Decidable

/-- `json.Marshal` writes the time in UTC. -/
def Writable (t : Time) : Prop := t.toUTC.Marshals
deriving Decidable

/-- The first instant of the year 0, in nanoseconds. -/
def yearZero : Int := -366 * 86400 * 10 ^ 9

/-- The first instant of the year 10000. -/
def yearTenThousand : Int := 3652059 * 86400 * 10 ^ 9

/-- January 1, 1970. -/
def unixEpoch : Int := 719162 * 86400 * 10 ^ 9

/-- `UnixMicro`. -/
def unixMicro (t : Time) : Int := (t.instant - unixEpoch) / microsecond

@[simp] theorem toUTC_instant (t : Time) : t.toUTC.instant = t.instant := rfl

@[simp] theorem toUTC_isUTC (t : Time) : t.toUTC.IsUTC := rfl

@[simp] theorem toUTC_toUTC (t : Time) : t.toUTC.toUTC = t.toUTC := rfl

@[simp] theorem isZero_toUTC (t : Time) : t.toUTC.IsZero ↔ t.IsZero := Iff.rfl

theorem toUTC_eq_of_isUTC (h : t.IsUTC) : t.toUTC = t := by
  cases t with
  | mk instant location =>
      change location = .utc at h
      rw [h]
      rfl

theorem writable_iff : t.Writable ↔ yearZero ≤ t.instant ∧ t.instant < yearTenThousand := by
  obtain ⟨days, hdays⟩ : ∃ days, t.toUTC.day = days := ⟨_, rfl⟩
  have hinstant : t.instant / (86400 * 10 ^ 9) = days := by
    simpa [day, toUTC, Location.offset] using hdays
  unfold Writable Marshals year yearZero yearTenThousand
  rw [hdays]
  simp only [toUTC, Location.offset]
  -- both bounds lie in the last year of four centuries
  have hcycle : days / 146097 < -1 ∨ days / 146097 = -1 ∨
      (0 ≤ days / 146097 ∧ days / 146097 < 24) ∨ days / 146097 = 24 ∨ 24 < days / 146097 := by
    omega
  rcases hcycle with h | h | h | h | h <;> omega

theorem toUTC_eq_toUTC_iff {u : Time} : t.toUTC = u.toUTC ↔ t.Equal u := by
  simp [toUTC, Equal]

@[simp] theorem truncate_isUTC_iff (t : Time) : t.truncate.IsUTC ↔ t.IsUTC := Iff.rfl

theorem truncate_wholeMicroseconds (t : Time) : t.truncate.WholeMicroseconds := by
  change (t.instant - t.instant % 1000) % 1000 = 0
  omega

theorem truncate_eq_self_iff : t.truncate = t ↔ t.WholeMicroseconds := by
  cases t with
  | mk instant location =>
      simp only [truncate, WholeMicroseconds, Time.mk.injEq, and_true]
      omega

theorem truncate_instant_le (t : Time) : t.truncate.instant ≤ t.instant := by
  change t.instant - t.instant % 1000 ≤ t.instant
  omega

/-- Times that are a microsecond apart stay apart after truncation. -/
theorem truncate_instant_lt {u : Time} (h : t.instant + microsecond ≤ u.instant) :
    t.truncate.instant < u.truncate.instant := by
  change t.instant + 1000 ≤ u.instant at h
  change t.instant - t.instant % 1000 < u.instant - u.instant % 1000
  omega

end Time

end CargoPds
