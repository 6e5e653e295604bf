import Mathlib.Algebra.Order.Ring.Int
import Mathlib.Data.List.Basic

/-!
# Bytes, identifiers and digests

Byte slices are lists of bytes.  A `uuid.UUID` and a SHA-256 sum are arrays of
fixed length without further structure, so they are bit vectors; their texts
are the hexadecimal forms that the code compares, sorts and embeds in paths.
-/

namespace CargoPds

/-- A `[]byte`. -/
abbrev Bytes := List UInt8

/-- The conversion `[]byte(text)`. -/
def utf8 (text : String) : Bytes := text.toUTF8.data.toList

/-- The bytes of a fixed-size array, most significant byte first. -/
def bigEndian (size : Nat) (value : Nat) : Bytes :=
  (List.range size).map fun index => UInt8.ofNat (value / 256 ^ (size - 1 - index))

namespace Hex

/-- One lower-case hexadecimal digit. -/
def digit (value : Nat) : Char :=
  if value % 16 < 10 then Char.ofNat ('0'.toNat + value % 16)
  else Char.ofNat ('a'.toNat + (value % 16 - 10))

/-- `%x` of an array of `size` hexadecimal digits. -/
def digits (size : Nat) (value : Nat) : List Char :=
  (List.range size).map fun index => digit (value / 16 ^ (size - 1 - index))

/-- The characters `[0-9a-f]`. -/
def isDigit (c : Char) : Bool := ('0' ≤ c && c ≤ '9') || ('a' ≤ c && c ≤ 'f')

/-- The value of one digit as `hex.Decode` reads it, in either case. -/
def valueOf (c : Char) : Option Nat :=
  if '0' ≤ c ∧ c ≤ '9' then some (c.toNat - '0'.toNat)
  else if 'a' ≤ c ∧ c ≤ 'f' then some (c.toNat - 'a'.toNat + 10)
  else if 'A' ≤ c ∧ c ≤ 'F' then some (c.toNat - 'A'.toNat + 10)
  else none

/-- `hex.Decode` into an array, read as one number. -/
def decode (text : List Char) : Option Nat :=
  text.foldl (fun acc c => do return (← acc) * 16 + (← valueOf c)) (some 0)

theorem digit_mod (value : Nat) : digit (value % 16) = digit value := by
  unfold digit
  rw [Nat.mod_mod]

theorem digit_inj {value other : Nat} (h : digit value = digit other) :
    value % 16 = other % 16 := by
  have hsmall : ∀ a < 16, ∀ b < 16, digit a = digit b → a = b := by decide
  rw [← digit_mod value, ← digit_mod other] at h
  exact hsmall _ (Nat.mod_lt _ (by decide)) _ (Nat.mod_lt _ (by decide)) h

theorem digits_succ (size value : Nat) :
    digits (size + 1) value = digits size (value / 16) ++ [digit value] := by
  unfold digits
  rw [List.range_succ, List.map_append, List.map_singleton]
  congr 1
  · refine List.map_congr_left fun index hindex => ?_
    have hlt := List.mem_range.mp hindex
    have hexponent : size + 1 - 1 - index = size - 1 - index + 1 := by omega
    rw [hexponent, Nat.pow_succ, Nat.mul_comm, Nat.div_div_eq_div_mul]
  · rw [Nat.add_sub_cancel, Nat.sub_self, Nat.pow_zero, Nat.div_one]

/-- The digits of a number determine it. -/
theorem digits_inj {size value other : Nat} (hvalue : value < 16 ^ size)
    (hother : other < 16 ^ size) (h : digits size value = digits size other) :
    value = other := by
  induction size generalizing value other with
  | zero => rw [Nat.pow_zero] at hvalue hother; omega
  | succ size ih =>
      rw [digits_succ, digits_succ] at h
      obtain ⟨hhigh, hlow⟩ := List.append_inj' h rfl
      have hquot := ih (by rw [Nat.pow_succ] at hvalue; omega)
        (by rw [Nat.pow_succ] at hother; omega) hhigh
      have hrem := digit_inj (List.head_eq_of_cons_eq hlow)
      omega

theorem length_digits (size value : Nat) : (digits size value).length = size := by
  rw [digits, List.length_map, List.length_range]

theorem digit_ne_dash (value : Nat) : digit value ≠ '-' := by
  have hsmall : ∀ small < 16, digit small ≠ '-' := by decide
  rw [← digit_mod]
  exact hsmall _ (Nat.mod_lt _ (by decide))

end Hex

/-- A `uuid.UUID`. -/
abbrev UUID := BitVec 128

instance lawfulBEqUUID : LawfulBEq UUID := inferInstance

namespace UUID

/-- `uuid.Nil`. -/
protected def nil : UUID := 0

/-- `String()`: `xxxxxxxx-xxxx-xxxx-xxxx-xxxxxxxxxxxx`. -/
def text (id : UUID) : String :=
  let all := Hex.digits 32 id.toNat
  let part (start size : Nat) := (all.drop start).take size
  String.ofList (part 0 8 ++ '-' :: part 8 4 ++ '-' :: part 12 4 ++ '-' :: part 16 4 ++
    '-' :: part 20 12)

/-- The digits of an identifier are its text without the hyphens. -/
theorem filter_text (id : UUID) :
    id.text.toList.filter (· ≠ '-') = Hex.digits 32 id.toNat := by
  have hdigit : ∀ start size,
      (((Hex.digits 32 id.toNat).drop start).take size).filter (· ≠ '-') =
        ((Hex.digits 32 id.toNat).drop start).take size := by
    intro start size
    rw [List.filter_eq_self]
    intro c hc
    obtain ⟨index, -, rfl⟩ := List.mem_map.mp (List.mem_of_mem_drop (List.mem_of_mem_take hc))
    exact decide_eq_true (Hex.digit_ne_dash _)
  have hjoin : ∀ all : List Char, all.length = 32 →
      all.take 8 ++ (all.drop 8).take 4 ++ (all.drop 12).take 4 ++ (all.drop 16).take 4 ++
        (all.drop 20).take 12 = all := by
    intro all hall
    have hlast : (all.drop 20).take 12 = all.drop 20 :=
      List.take_of_length_le (by simp [hall])
    rw [hlast]
    simp only [← List.take_add, List.take_append_drop]
  simp only [text, String.toList_ofList, List.filter_append, List.filter_cons, hdigit]
  simpa using hjoin _ (Hex.length_digits 32 _)

theorem text_inj {left right : UUID} (h : left.text = right.text) : left = right := by
  have hdigits : Hex.digits 32 left.toNat = Hex.digits 32 right.toNat := by
    rw [← filter_text, ← filter_text, h]
  have hbound : ∀ id : UUID, id.toNat < 16 ^ 32 := fun id => id.isLt
  exact BitVec.eq_of_toNat_eq (Hex.digits_inj (hbound left) (hbound right) hdigits)

end UUID

/-- A SHA-256 sum, `[32]byte`. -/
abbrev Digest := BitVec 256

namespace Digest

/-- The zero array `[32]byte{}`. -/
def zero : Digest := 0

/-- The bytes of the array. -/
def bytes (digest : Digest) : Bytes := bigEndian 32 digest.toNat

/-- `fmt.Sprintf("sha256:%x", digest)`. -/
def text (digest : Digest) : String :=
  "sha256:" ++ String.ofList (Hex.digits 64 digest.toNat)

/-- The pattern `^sha256:[0-9a-f]{64}$`. -/
def IsText (text : String) : Prop :=
  text.toList.take 7 = "sha256:".toList ∧ (text.toList.drop 7).length = 64 ∧
    (text.toList.drop 7).all Hex.isDigit = true
deriving Decidable

/-- A digest is determined by its text. -/
theorem text_inj {left right : Digest} (h : left.text = right.text) : left = right := by
  have hlist := congrArg String.toList h
  simp only [text, String.toList_append, String.toList_ofList] at hlist
  have hdigits := List.append_cancel_left hlist
  have hbound : ∀ digest : Digest, digest.toNat < 16 ^ 64 := fun digest => digest.isLt
  exact BitVec.eq_of_toNat_eq (Hex.digits_inj (hbound left) (hbound right) hdigits)

end Digest

end CargoPds
