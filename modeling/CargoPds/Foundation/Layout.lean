import Mathlib.Data.String.Basic
import CargoPds.Foundation.Identity

/-!
# Layouts of hashed messages

A hash binds the fields of a message if the fields can be read back from it.  Fields
of a fixed width are written one after the other; this file shows that such a field
has its width and determines its value.  A field of variable width stands behind its
length (`counted_inj`) or before a separator (`append_separator_inj`), and a digest that
is written as a text can be read back from the text (`Digest.decode_text`).
-/

namespace CargoPds

@[simp] theorem length_bigEndian (size value : Nat) : (bigEndian size value).length = size := by
  unfold bigEndian
  rw [List.length_map, List.length_range]

theorem bigEndian_succ (size value : Nat) :
    bigEndian (size + 1) value = bigEndian size (value / 256) ++ [UInt8.ofNat value] := by
  unfold bigEndian
  rw [List.range_succ, List.map_append, List.map_singleton]
  congr 1
  · refine List.map_congr_left fun index hindex => ?_
    have hlt := List.mem_range.mp hindex
    have hexponent : size + 1 - 1 - index = size - 1 - index + 1 := by omega
    rw [hexponent, Nat.pow_succ, Nat.mul_comm, Nat.div_div_eq_div_mul]
  · rw [Nat.add_sub_cancel, Nat.sub_self, Nat.pow_zero, Nat.div_one]

/-- A number that fits into the field is determined by its bytes. -/
theorem bigEndian_inj {size value other : Nat} (hvalue : value < 256 ^ size)
    (hother : other < 256 ^ size) (h : bigEndian size value = bigEndian size other) :
    value = other := by
  induction size generalizing value other with
  | zero =>
      rw [Nat.pow_zero] at hvalue hother
      omega
  | succ size ih =>
      rw [bigEndian_succ, bigEndian_succ] at h
      obtain ⟨hhigh, hlow⟩ := List.append_inj' h rfl
      have hquot := ih (by rw [Nat.pow_succ] at hvalue; omega)
        (by rw [Nat.pow_succ] at hother; omega) hhigh
      have hrem : value % 256 = other % 256 := by
        have hbyte := congrArg UInt8.toNat (List.head_eq_of_cons_eq hlow)
        rwa [UInt8.toNat_ofNat', UInt8.toNat_ofNat'] at hbyte
      omega

/-- Two fields of one width in front of two messages can be taken off. -/
theorem field_inj {first second rest rest' : Bytes} (hwidth : first.length = second.length)
    (h : first ++ rest = second ++ rest') : first = second ∧ rest = rest' :=
  List.append_inj h hwidth

section
variable {α : Type} {x : α} {front front' back back' : List α}

/-- The first separator splits a list in one way, -/
theorem append_separator_inj (h : x ∉ front) (h' : x ∉ front')
    (heq : front ++ x :: back = front' ++ x :: back') : front = front' ∧ back = back' := by
  rcases List.append_eq_append_iff.mp heq with ⟨between, rfl, hrest⟩ | ⟨between, rfl, hrest⟩
  · cases between with
    | nil => simpa using hrest
    | cons y between =>
        obtain ⟨rfl, -⟩ := List.cons.inj hrest
        exact absurd (List.mem_append_right _ List.mem_cons_self) h'
  · cases between with
    | nil => simpa using hrest.symm
    | cons y between =>
        obtain ⟨rfl, -⟩ := List.cons.inj hrest
        exact absurd (List.mem_append_right _ List.mem_cons_self) h

/-- and so does the last one. -/
theorem append_separator_inj_last (h : x ∉ back) (h' : x ∉ back')
    (heq : front ++ x :: back = front' ++ x :: back') : front = front' ∧ back = back' := by
  have hreversed : back.reverse ++ x :: front.reverse = back'.reverse ++ x :: front'.reverse := by
    simpa using congrArg List.reverse heq
  obtain ⟨hback, hfront⟩ := append_separator_inj (by rwa [List.mem_reverse])
    (by rwa [List.mem_reverse]) hreversed
  exact ⟨List.reverse_inj.mp hfront, List.reverse_inj.mp hback⟩

end

/-- Two fields behind their lengths in front of two messages can be taken off. -/
theorem counted_inj {size : Nat} {first second rest rest' : Bytes}
    (hfirst : first.length < 256 ^ size) (hsecond : second.length < 256 ^ size)
    (h : bigEndian size first.length ++ first ++ rest =
      bigEndian size second.length ++ second ++ rest') : first = second ∧ rest = rest' := by
  rw [List.append_assoc, List.append_assoc] at h
  obtain ⟨hcount, hfields⟩ := field_inj (by simp) h
  exact field_inj (bigEndian_inj hfirst hsecond hcount) hfields

/-- A string is determined by its bytes. -/
theorem utf8_inj {left right : String} (h : utf8 left = utf8 right) : left = right :=
  String.toByteArray_inj.mp (ByteArray.ext (Array.toList_inj.mp h))

namespace Hex

theorem valueOf_digit (value : Nat) : valueOf (digit value) = some (value % 16) := by
  have hsmall : ∀ small < 16, valueOf (digit small) = some small := by decide
  rw [← digit_mod]
  exact hsmall _ (Nat.mod_lt _ (by decide))

/-- The digits of a number are read back. -/
theorem decode_digits {size value : Nat} (h : value < 16 ^ size) :
    decode (digits size value) = some value := by
  induction size generalizing value with
  | zero =>
      rw [Nat.pow_zero] at h
      obtain rfl : value = 0 := by omega
      rfl
  | succ size ih =>
      have hhigh : decode (digits size (value / 16)) = some (value / 16) :=
        ih (by rw [Nat.pow_succ] at h; omega)
      have hvalue : value / 16 * 16 + value % 16 = value := by omega
      unfold decode at hhigh ⊢
      rw [digits_succ, List.foldl_append, hhigh]
      simp [valueOf_digit, hvalue]

end Hex

namespace Digest

@[simp] theorem length_bytes (digest : Digest) : digest.bytes.length = 32 :=
  length_bigEndian 32 _

theorem bytes_inj {left right : Digest} (h : left.bytes = right.bytes) : left = right := by
  have hbound : ∀ digest : Digest, digest.toNat < 256 ^ 32 := fun digest => digest.isLt
  exact BitVec.eq_of_toNat_eq (bigEndian_inj (hbound left) (hbound right) h)

theorem toList_text (digest : Digest) :
    digest.text.toList = "sha256:".toList ++ Hex.digits 64 digest.toNat := by
  simp only [text, String.toList_append, String.toList_ofList]

/-- The label and one byte for each digit. -/
theorem length_utf8_text (digest : Digest) : (utf8 digest.text).length = 71 := by
  have hdigit : ∀ value, (Hex.digit value).utf8Size = 1 := by
    intro value
    have hsmall : ∀ small < 16, (Hex.digit small).utf8Size = 1 := by decide
    rw [← Hex.digit_mod]
    exact hsmall _ (Nat.mod_lt _ (by decide))
  have hdigits : ∀ chars : List Char, (∀ c ∈ chars, c.utf8Size = 1) →
      (String.ofList chars).utf8ByteSize = chars.length := by
    intro chars hchars
    rw [String.utf8ByteSize_ofList]
    induction chars with
    | nil => rfl
    | cons c rest ih =>
        rw [List.forall_mem_cons] at hchars
        simp [String.utf8Len_cons, ih hchars.2, hchars.1]
  have hsize : digest.text.utf8ByteSize = 71 := by
    unfold text
    rw [String.utf8ByteSize_append, hdigits (Hex.digits 64 _), Hex.length_digits]
    · rfl
    · intro c hc
      obtain ⟨index, -, rfl⟩ := List.mem_map.mp hc
      exact hdigit _
  exact hsize

/-- The digits behind the label are those of the digest. -/
theorem decode_text (digest : Digest) :
    Hex.decode (digest.text.toList.drop 7) = some digest.toNat := by
  have hbound : digest.toNat < 16 ^ 64 := digest.isLt
  rw [toList_text, List.drop_left' (by decide), Hex.decode_digits hbound]

end Digest

end CargoPds
