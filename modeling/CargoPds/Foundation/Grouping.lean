import CargoPds.Foundation.Loops

/-!
# Grouping by a key

A loop that files every item under its key in a map leaves, for each key, the items with
this key in their order (`Grouped`).  What is computed from the groups of a map may
depend on the order in which the map is ranged over; `Grouped` does not.
-/

namespace CargoPds
namespace Grouping

open Fallible

variable {α β κ : Type} [DecidableEq κ] {key : α → κ}

/-- `groups[key(item)] = append(groups[key(item)], item)`, for a map that is kept as the
list of its entries. -/
def insert (key : α → κ) (item : α) : List (κ × List α) → List (κ × List α)
  | [] => [(key item, [item])]
  | group :: rest =>
      if group.1 = key item then (group.1, group.2 ++ [item]) :: rest
      else group :: insert key item rest

/-- The map holds each item under its key. -/
structure Grouped (key : α → κ) (all : List α) (groups : List (κ × List α)) : Prop where
  complete : ∀ group ∈ groups, group.2 = all.filter fun item => key item = group.1
  distinct : (groups.map (·.1)).Nodup
  covers : ∀ item ∈ all, key item ∈ groups.map (·.1)

theorem keys_insert (item : α) (groups : List (κ × List α)) :
    (insert key item groups).map (·.1) = appendNew (groups.map (·.1)) (key item) := by
  induction groups with
  | nil => rfl
  | cons group rest ih =>
      unfold insert
      by_cases hkey : group.1 = key item
      · rw [if_pos hkey, List.map_cons, List.map_cons, appendNew, if_pos]
        exact List.mem_cons.mpr (Or.inl hkey.symm)
      · rw [if_neg hkey, List.map_cons, ih, List.map_cons]
        by_cases hmem : key item ∈ rest.map (·.1)
        · simp [appendNew, hmem]
        · simp [appendNew, hmem, Ne.symm hkey]

/-- An entry is one of before, or the one of the new item. -/
theorem mem_insert {item : α} {groups : List (κ × List α)} {group : κ × List α}
    (hdistinct : (groups.map (·.1)).Nodup) (h : group ∈ insert key item groups) :
    (group ∈ groups ∧ group.1 ≠ key item) ∨
      (∃ earlier, (key item, earlier) ∈ groups ∧ group = (key item, earlier ++ [item])) ∨
      (key item ∉ groups.map (·.1) ∧ group = (key item, [item])) := by
  induction groups with
  | nil => exact Or.inr (Or.inr ⟨List.not_mem_nil, List.mem_singleton.mp h⟩)
  | cons head rest ih =>
      rw [List.map_cons, List.nodup_cons] at hdistinct
      unfold insert at h
      by_cases hkey : head.1 = key item
      · rw [if_pos hkey] at h
        rcases List.mem_cons.mp h with rfl | hrest
        · refine Or.inr (Or.inl ⟨head.2, List.mem_cons.mpr (Or.inl ?_), by rw [hkey]⟩)
          rw [← hkey]
        · refine Or.inl ⟨List.mem_cons_of_mem _ hrest, ?_⟩
          intro hsame
          exact hdistinct.1 (by rw [hkey, ← hsame]; exact List.mem_map_of_mem hrest)
      · rw [if_neg hkey] at h
        rcases List.mem_cons.mp h with rfl | hrest
        · exact Or.inl ⟨List.mem_cons_self, hkey⟩
        · rcases ih hdistinct.2 hrest with ⟨hmem, hne⟩ | ⟨earlier, hmem, hgroup⟩ | ⟨hnew, hgroup⟩
          · exact Or.inl ⟨List.mem_cons_of_mem _ hmem, hne⟩
          · exact Or.inr (Or.inl ⟨earlier, List.mem_cons_of_mem _ hmem, hgroup⟩)
          · refine Or.inr (Or.inr ⟨?_, hgroup⟩)
            rw [List.map_cons, List.mem_cons, not_or]
            exact ⟨Ne.symm hkey, hnew⟩

namespace Grouped

variable {all : List α} {groups others : List (κ × List α)}

theorem nil : Grouped key [] [] :=
  ⟨fun _ h => absurd h List.not_mem_nil, List.nodup_nil, fun _ h => absurd h List.not_mem_nil⟩

/-- The order of the entries does not matter. -/
theorem perm (h : Grouped key all groups) (hperm : others.Perm groups) :
    Grouped key all others := by
  have hkeys := hperm.map (·.1)
  refine ⟨?_, hkeys.nodup_iff.mpr h.distinct, ?_⟩
  · intro group hgroup
    exact h.complete group (hperm.mem_iff.mp hgroup)
  · intro item hitem
    exact hkeys.mem_iff.mpr (h.covers item hitem)

/-- **Step lemma.** -/
theorem insert (h : Grouped key all groups) (item : α) :
    Grouped key (all ++ [item]) (Grouping.insert key item groups) := by
  refine ⟨?_, ?_, ?_⟩
  · intro group hgroup
    rw [List.filter_append]
    rcases mem_insert h.distinct hgroup with
      ⟨hmem, hne⟩ | ⟨earlier, hmem, rfl⟩ | ⟨hnew, rfl⟩
    · rw [h.complete group hmem]
      simp [Ne.symm hne]
    · have hearlier := h.complete _ hmem
      simp only at hearlier
      rw [hearlier]
      simp
    · have hnone : all.filter (fun other => key other = key item) = [] := by
        rw [List.filter_eq_nil_iff]
        intro other hother hsame
        exact hnew (of_decide_eq_true hsame ▸ h.covers other hother)
      rw [hnone]
      simp
  · rw [keys_insert]
    exact nodup_appendNew _ h.distinct
  · intro other hother
    rw [keys_insert, mem_appendNew]
    rcases List.mem_append.mp hother with hold | hnew
    · exact Or.inl (h.covers other hold)
    · exact Or.inr (by rw [List.mem_singleton.mp hnew])

/-- **Run lemma.** -/
theorem foldl_insert (h : Grouped key all groups) (items : List α) :
    Grouped key (all ++ items)
      (items.foldl (fun groups item => Grouping.insert key item groups) groups) := by
  induction items generalizing all groups with
  | nil => simpa using h
  | cons item rest ih => simpa using ih (h.insert item)

/-- Of all groups, one has the key of an item. -/
theorem flatMap_key (h : Grouped key all groups) {item : α} (hitem : item ∈ all)
    (values : List β) :
    groups.flatMap (fun group => if key item = group.1 then values else []) = values := by
  have hmem := h.covers item hitem
  have hdistinct := h.distinct
  clear h hitem
  induction groups with
  | nil => exact absurd hmem List.not_mem_nil
  | cons group rest ih =>
      rw [List.map_cons, List.nodup_cons] at hdistinct
      rw [List.flatMap_cons]
      by_cases hkey : key item = group.1
      · have hrest : rest.flatMap (fun other => if key item = other.1 then values else []) =
            [] := by
          rw [List.flatMap_eq_nil_iff]
          intro other hother
          rw [if_neg]
          intro hsame
          exact hdistinct.1 (by rw [← hkey, hsame]; exact List.mem_map_of_mem hother)
        rw [if_pos hkey, hrest, List.append_nil]
      · rw [if_neg hkey, List.nil_append]
        refine ih ?_ hdistinct.2
        rw [List.map_cons] at hmem
        exact (List.mem_cons.mp hmem).resolve_left hkey

end Grouped

end Grouping
end CargoPds
