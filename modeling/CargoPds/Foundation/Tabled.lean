import Mathlib.Data.Countable.Basic
import Mathlib.Data.List.Nodup
import Mathlib.Data.Set.Countable
import Mathlib.Logic.Equiv.List
import CargoPds.Foundation.Commitment

/-!
# Encoders with given texts

For the countably many values of a type, an injective encoder is determined by a
table of texts: the values in the table have these texts, and any other value is
written as a number in unary behind a mark that no text starts with.  The encoder and
its inverse can be evaluated on the table.  Such an encoder names its values by a hash
as `Commitment` asks (`encodes`).
-/

namespace CargoPds
namespace Tabled

variable {α β : Type}

/-- No two values of the table have the same text, and none starts with the mark. -/
structure Clear (mark : β) (table : List (α × List β)) : Prop where
  nodup : (table.map (·.2)).Nodup
  unmarked : ∀ entry ∈ table, entry.2.head? ≠ some mark

theorem mem_of_lookup [BEq α] [LawfulBEq α] {table : List (α × β)} {x : α} {y : β}
    (h : table.lookup x = some y) : (x, y) ∈ table := by
  obtain ⟨before, after, hsplit, -⟩ := List.lookup_eq_some_iff.mp h
  rw [hsplit]
  exact List.mem_append_right _ List.mem_cons_self

variable [Countable α]

/-- A number for every value. -/
noncomputable def number : α → Nat := Classical.choose (exists_injective_nat α)

theorem number_injective : Function.Injective (number : α → Nat) :=
  Classical.choose_spec (exists_injective_nat α)

variable [DecidableEq α]

noncomputable def encode (mark : β) (table : List (α × List β)) (x : α) : List β :=
  (table.lookup x).getD (mark :: List.replicate (number x) mark)

variable {mark : β} {table : List (α × List β)}

theorem encode_of_lookup {x : α} {text : List β} (h : table.lookup x = some text) :
    encode mark table x = text := by
  unfold encode
  rw [h, Option.getD_some]

theorem encode_of_lookup_none {x : α} (h : table.lookup x = none) :
    encode mark table x = mark :: List.replicate (number x) mark := by
  unfold encode
  rw [h, Option.getD_none]

theorem encode_ne_nil (h : ∀ entry ∈ table, entry.2 ≠ []) (x : α) :
    encode mark table x ≠ [] := by
  cases hlookup : table.lookup x with
  | none =>
      rw [encode_of_lookup_none hlookup]
      exact List.cons_ne_nil _ _
  | some text =>
      rw [encode_of_lookup hlookup]
      exact h _ (mem_of_lookup hlookup)

variable [DecidableEq β]

noncomputable def decode (table : List (α × List β)) (text : List β) : Option α :=
  match table.find? fun entry => entry.2 = text with
  | some entry => some entry.1
  | none => Function.partialInv number (text.length - 1)

theorem decode_encode (h : Clear mark table) (x : α) :
    decode table (encode mark table x) = some x := by
  unfold decode
  cases hlookup : table.lookup x with
  | some text =>
      rw [encode_of_lookup hlookup]
      have hmem := mem_of_lookup hlookup
      cases hfind : table.find? fun entry => entry.2 = text with
      | none => exact absurd (List.find?_eq_none.mp hfind _ hmem) (by simp)
      | some entry =>
          -- the texts of the table are distinct
          have htext : entry.2 = text := by simpa using List.find?_some hfind
          have hsame := List.inj_on_of_nodup_map h.nodup (List.mem_of_find?_eq_some hfind) hmem
            htext
          rw [hsame]
  | none =>
      rw [encode_of_lookup_none hlookup]
      have hnone : table.find?
          (fun entry => entry.2 = mark :: List.replicate (number x) mark) = none := by
        rw [List.find?_eq_none]
        intro entry hentry heq
        refine h.unmarked entry hentry ?_
        rw [of_decide_eq_true heq, List.head?_cons]
      rw [hnone]
      change Function.partialInv number _ = some x
      rw [List.length_cons, List.length_replicate, Nat.add_sub_cancel]
      exact Function.partialInv_left number_injective x

theorem encode_injective (h : Clear mark table) : Function.Injective (encode mark table) := by
  intro x y heq
  have hx := decode_encode h x
  rw [heq, decode_encode h y] at hx
  exact (Option.some.inj hx).symm

/-- Such an encoder, with the values refused that cannot be written. -/
theorem encodes (h : Clear mark table) (hsome : ∀ entry ∈ table, entry.2 ≠ [])
    (Domain Writable : α → Prop) [DecidablePred Writable] :
    Commitment.Encodes (fun x => if Writable x then some (encode mark table x) else none)
      Domain Writable where
  written x _ hx := ⟨_, if_pos hx, encode_ne_nil hsome x⟩
  injective x y _ _ hx hy heq := by
    simp only [if_pos hx, if_pos hy] at heq
    exact encode_injective h (Option.some.inj heq)
  refused _ _ hnot := if_neg hnot

end Tabled
end CargoPds
