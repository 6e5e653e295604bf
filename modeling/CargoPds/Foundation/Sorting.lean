import Mathlib.Data.List.Sort

/-!
# Sorting

Sorting forgets the order of a list when no two of its elements tie.
-/

namespace CargoPds
namespace Sorting

section
variable {α : Type} {r : α → α → Prop} [DecidableRel r] [Std.Total r] [IsTrans α r]

/-- Two arrangements of the same elements are sorted into the same list. -/
theorem insertionSort_eq_of_perm {items others : List α}
    (hties : ∀ a ∈ items, ∀ b ∈ items, r a b → r b a → a = b) (h : items.Perm others) :
    items.insertionSort r = others.insertionSort r := by
  have hleft := List.perm_insertionSort r items
  have hright := List.perm_insertionSort r others
  have hperm : (items.insertionSort r).Perm (others.insertionSort r) :=
    hleft.trans (h.trans hright.symm)
  refine hperm.eq_of_pairwise ?_ (List.pairwise_insertionSort r items)
    (List.pairwise_insertionSort r others)
  intro a b ha hb
  have hmem : b ∈ items := h.mem_iff.mpr (hright.mem_iff.mp hb)
  exact hties a (hleft.mem_iff.mp ha) b hmem

end

/-! ## Sorting by rank

The comparison `less` of a stable sort compares the ranks of two elements; the order
that it sorts by is `fun a b => ¬ less b a`. -/

section
variable {α β : Type} [LinearOrder β] {less : α → α → Prop} [DecidableRel less] (rank : α → β)

/-- The ranks in a sorted list never fall. -/
theorem pairwise_rank_insertionSort (hless : ∀ a b, less a b ↔ rank a < rank b)
    (items : List α) :
    (items.insertionSort fun a b => ¬ less b a).Pairwise fun a b => rank a ≤ rank b := by
  have hle : ∀ a b, ¬ less b a ↔ rank a ≤ rank b := by
    intro a b
    rw [hless, not_lt]
  have : Std.Total fun a b => ¬ less b a :=
    ⟨fun a b => by simpa only [hle] using le_total (rank a) (rank b)⟩
  have : IsTrans α fun a b => ¬ less b a :=
    ⟨fun a b c => by simpa only [hle] using le_trans⟩
  exact (List.pairwise_insertionSort _ items).imp fun hab => (hle _ _).mp hab

/-- They rise when no two elements have the same. -/
theorem pairwise_rank_insertionSort_of_nodup (hless : ∀ a b, less a b ↔ rank a < rank b)
    {items : List α} (hnodup : (items.map rank).Nodup) :
    (items.insertionSort fun a b => ¬ less b a).Pairwise fun a b => rank a < rank b := by
  have hperm := List.perm_insertionSort (fun a b => ¬ less b a) items
  have hdistinct : (items.insertionSort fun a b => ¬ less b a).Pairwise
      fun a b => rank a ≠ rank b :=
    List.pairwise_map.mp ((hperm.map rank).nodup_iff.mpr hnodup)
  exact (pairwise_rank_insertionSort rank hless items).imp₂ (fun _ _ => lt_of_le_of_ne)
    hdistinct

theorem insertionSort_eq_of_rank (hless : ∀ a b, less a b ↔ rank a < rank b)
    {items others : List α}
    (hties : ∀ a ∈ items, ∀ b ∈ items, rank a = rank b → a = b) (h : items.Perm others) :
    (items.insertionSort fun a b => ¬ less b a) = others.insertionSort fun a b => ¬ less b a := by
  have hle : ∀ a b, ¬ less b a ↔ rank a ≤ rank b := by
    intro a b
    rw [hless, not_lt]
  have : Std.Total fun a b => ¬ less b a :=
    ⟨fun a b => by simpa only [hle] using le_total (rank a) (rank b)⟩
  have : IsTrans α fun a b => ¬ less b a :=
    ⟨fun a b c => by simpa only [hle] using le_trans⟩
  refine insertionSort_eq_of_perm ?_ h
  intro a ha b hb hab hba
  exact hties a ha b hb (le_antisymm ((hle a b).mp hab) ((hle b a).mp hba))

end

end Sorting
end CargoPds
