import Mathlib.Data.List.Basic
import Mathlib.Data.Set.Function

/-!
# Values named by a hash

A value is named by the hash of its encoding.  The encoder may refuse a value, and a
caller that ignores the error hashes the empty message instead.  Such a name binds the
values that the encoder writes (`Encodes.eq_of_sum_eq`), and all other values have one
name in common (`Encodes.hashed_eq_nil`).

No hash function is free of collisions, so this is assumed only of a set of messages.
-/

namespace CargoPds
namespace Commitment

variable {α β δ : Type}

/-- The message that is hashed for a value when an error of the encoder is ignored. -/
def hashed (encode : α → Option (List β)) (x : α) : List β := (encode x).getD []

/-- On the values of a domain, the encoder refuses those that cannot be written, and
no two values have the same text. -/
structure Encodes (encode : α → Option (List β)) (Domain Writable : α → Prop) : Prop where
  written : ∀ x, Domain x → Writable x → ∃ text, encode x = some text ∧ text ≠ []
  injective : ∀ x y, Domain x → Domain y → Writable x → Writable y →
    encode x = encode y → x = y
  refused : ∀ x, Domain x → ¬ Writable x → encode x = none

/-- There is a value besides the given one. -/
theorem exists_other {P : α → Prop} {a b : α} (hne : a ≠ b) (ha : P a) (hb : P b) (x : α) :
    ∃ y, y ≠ x ∧ P y := by
  by_cases h : a = x
  · exact ⟨b, fun hb => hne (h.trans hb.symm), hb⟩
  · exact ⟨a, h, ha⟩

namespace Encodes

variable {encode : α → Option (List β)} {Domain Writable : α → Prop} {sum : List β → δ}
  {known : Set (List β)}

theorem hashed_eq_nil (h : Encodes encode Domain Writable) {x : α} (hx : Domain x)
    (hnot : ¬ Writable x) : hashed encode x = [] := by
  unfold hashed
  rw [h.refused x hx hnot]
  rfl

theorem hashed_ne_nil (h : Encodes encode Domain Writable) {x : α} (hx : Domain x)
    (hwritable : Writable x) : hashed encode x ≠ [] := by
  obtain ⟨text, htext, hne⟩ := h.written x hx hwritable
  unfold hashed
  rw [htext]
  exact hne

/-- A value that can be written is bound by its message. -/
theorem eq_of_hashed_eq (h : Encodes encode Domain Writable) {x y : α} (hx : Domain x)
    (hy : Domain y) (hwritable : Writable x) (heq : hashed encode x = hashed encode y) :
    x = y := by
  have hy' : Writable y := by
    by_contra hnot
    rw [h.hashed_eq_nil hy hnot] at heq
    exact h.hashed_ne_nil hx hwritable heq
  obtain ⟨text, htext, -⟩ := h.written x hx hwritable
  obtain ⟨text', htext', -⟩ := h.written y hy hy'
  refine h.injective x y hx hy hwritable hy' ?_
  simp only [hashed, htext, htext', Option.getD_some] at heq
  rw [htext, htext', heq]

/-- A value that can be written is bound by its hash. -/
theorem eq_of_sum_eq (h : Encodes encode Domain Writable) (hsum : Set.InjOn sum known)
    {x y : α} (hx : Domain x) (hy : Domain y) (hwritable : Writable x)
    (hknown : hashed encode x ∈ known) (hknown' : hashed encode y ∈ known)
    (heq : sum (hashed encode x) = sum (hashed encode y)) : x = y :=
  h.eq_of_hashed_eq hx hy hwritable (hsum hknown hknown' heq)

end Encodes

end Commitment
end CargoPds
