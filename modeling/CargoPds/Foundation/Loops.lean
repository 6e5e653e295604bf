import Mathlib.Data.List.Forall2
import Mathlib.Data.List.Nodup
import CargoPds.Foundation.Fallible

/-!
# Loops of fallible code

A loop that appends to a slice and returns early on an error is a `mapM` or a
`foldlM` in `Except`.  This file has the rules by which such loops are
inverted, the maps that some of them fill, and `appendNew`, the body of the loops
that drop repeated elements.
-/

namespace CargoPds
namespace Fallible

variable {ε α β : Type}
variable {items seen : List α}

/-- A loop over all elements succeeds exactly when every round does. -/
theorem mapM_eq_ok {f : α → Except ε β} {results : List β} :
    items.mapM f = .ok results ↔ List.Forall₂ (fun a b => f a = .ok b) items results := by
  induction items generalizing results with
  | nil => rw [List.mapM_nil, pure_eq_ok, List.forall₂_nil_left_iff, eq_comm]
  | cons item rest ih =>
      simp only [List.mapM_cons, bind_eq_ok, pure_eq_ok, ih, List.forall₂_cons_left_iff]
      constructor
      · rintro ⟨b, hb, bs, hbs, rfl⟩
        exact ⟨b, bs, hb, hbs, rfl⟩
      · rintro ⟨b, bs, hb, hbs, rfl⟩
        exact ⟨b, hb, bs, hbs, rfl⟩

section
variable {R : α → β → Prop} {results : List β}

/-- A list can be matched up as soon as each of its elements can. -/
theorem exists_forall₂_iff :
    (∃ results, List.Forall₂ R items results) ↔ ∀ item ∈ items, ∃ b, R item b := by
  induction items with
  | nil => simp
  | cons item rest ih =>
      rw [List.forall_mem_cons, ← ih]
      constructor
      · rintro ⟨_, h⟩
        obtain ⟨b, results, hhead, hrest, -⟩ := List.forall₂_cons_left_iff.mp h
        exact ⟨⟨b, hhead⟩, results, hrest⟩
      · rintro ⟨⟨b, hhead⟩, results, hrest⟩
        exact ⟨b :: results, List.Forall₂.cons hhead hrest⟩

/-- The keys of a list are those of its counterpart. -/
theorem map_key_of_forall₂ {κ : Type} {key : α → κ} {keyOf : β → κ}
    (h : List.Forall₂ R items results) (hkey : ∀ a b, R a b → keyOf b = key a) :
    results.map keyOf = items.map key := by
  induction h with
  | nil => rfl
  | cons hhead _ ih => rw [List.map_cons, List.map_cons, hkey _ _ hhead, ih]

end

/-- What every round of a loop keeps holds at its end. -/
theorem foldlM_invariant {f : β → α → Except ε β} (P : β → Prop)
    (hstep : ∀ acc item acc', P acc → f acc item = .ok acc' → P acc') {init final : β}
    (hinit : P init) (h : items.foldlM f init = .ok final) : P final := by
  induction items generalizing init with
  | nil =>
      obtain rfl := pure_eq_ok.mp h
      exact hinit
  | cons item rest ih =>
      rw [List.foldlM_cons] at h
      obtain ⟨acc, hacc, hrest⟩ := bind_eq_ok.mp h
      exact ih (hstep _ _ _ hinit hacc) hrest

/-! ## Maps kept as lists

A map is often kept as the list of its values, each of which knows its key. -/

section
variable {κ : Type} [DecidableEq κ] {key : α → κ} {items : List α} {item : α}

/-- Looking up the key of an entry finds the entry. -/
theorem find?_key_of_nodup (hmem : item ∈ items) (hnodup : (items.map key).Nodup) :
    items.find? (fun other => key other = key item) = some item := by
  cases hfind : items.find? fun other => key other = key item with
  | none =>
      rw [List.find?_eq_none] at hfind
      exact absurd (decide_eq_true rfl) (hfind item hmem)
  | some other =>
      have hkey : key other = key item := by simpa using List.find?_some hfind
      rw [List.inj_on_of_nodup_map hnodup (List.mem_of_find?_eq_some hfind) hmem hkey]

/-- Deleting the key of an entry removes that entry alone. -/
theorem perm_cons_filter_of_nodup (hmem : item ∈ items) (hnodup : (items.map key).Nodup) :
    items.Perm (item :: items.filter fun other => key other ≠ key item) := by
  induction items with
  | nil => exact absurd hmem (by simp)
  | cons head rest ih =>
      rw [List.map_cons, List.nodup_cons] at hnodup
      rcases List.mem_cons.mp hmem with rfl | hrest
      · -- the entry is the head, and nothing else has its key
        have hkeep : rest.filter (fun other => key other ≠ key item) = rest := by
          rw [List.filter_eq_self]
          intro other hother
          have hne : key other ≠ key item := fun h =>
            hnodup.1 (h ▸ List.mem_map_of_mem hother)
          simpa using hne
        rw [List.filter_cons_of_neg (by simp), hkeep]
      · have hne : key head ≠ key item := fun h =>
          hnodup.1 (h ▸ List.mem_map_of_mem hrest)
        rw [List.filter_cons_of_pos (by simpa using hne)]
        exact ((ih hrest hnodup.2).cons head).trans (List.Perm.swap ..)

end

/-! ## Two lists side by side -/

section
variable {γ : Type} {R : α → γ → Prop} {items : List α} {others : List γ}

/-- Every element has its counterpart. -/
theorem exists_of_mem_left (h : List.Forall₂ R items others) {a : α} (hmem : a ∈ items) :
    ∃ c ∈ others, R a c := by
  induction h with
  | nil => exact absurd hmem List.not_mem_nil
  | cons hhead _ ih =>
      rcases List.mem_cons.mp hmem with rfl | htail
      · exact ⟨_, List.mem_cons_self, hhead⟩
      · obtain ⟨c, hc, hrel⟩ := ih htail
        exact ⟨c, List.mem_cons_of_mem _ hc, hrel⟩

theorem exists_of_mem_right (h : List.Forall₂ R items others) {c : γ} (hmem : c ∈ others) :
    ∃ a ∈ items, R a c :=
  exists_of_mem_left h.flip hmem

/-- A search with corresponding conditions stops at corresponding elements. -/
theorem find?_forall₂ (h : List.Forall₂ R items others) {p : α → Bool} {q : γ → Bool}
    (hpq : ∀ a c, R a c → p a = q c) :
    (items.find? p = none ∧ others.find? q = none) ∨
      ∃ a c, items.find? p = some a ∧ others.find? q = some c ∧ R a c := by
  induction h with
  | nil => exact .inl ⟨rfl, rfl⟩
  | cons hhead hrest ih =>
      rename_i a c rest rest'
      rw [List.find?_cons, List.find?_cons, ← hpq a c hhead]
      cases hcase : p a with
      | true => exact .inr ⟨a, c, rfl, rfl, hhead⟩
      | false => exact ih

end

variable [DecidableEq α]

/-- Append an element that is not there yet. -/
def appendNew (seen : List α) (item : α) : List α :=
  if item ∈ seen then seen else seen ++ [item]

theorem appendNew_of_not_mem {item : α} (h : item ∉ seen) :
    appendNew seen item = seen ++ [item] :=
  if_neg h

theorem mem_appendNew {item other : α} :
    other ∈ appendNew seen item ↔ other ∈ seen ∨ other = item := by
  unfold appendNew
  split
  · rename_i hmem
    constructor
    · exact Or.inl
    · rintro (h | rfl)
      · exact h
      · exact hmem
  · simp

theorem nodup_appendNew (item : α) (h : seen.Nodup) :
    (appendNew seen item).Nodup := by
  unfold appendNew
  split
  · exact h
  · rename_i hnew
    rw [List.nodup_append]
    refine ⟨h, List.nodup_singleton item, ?_⟩
    intro a ha b hb
    rw [List.mem_singleton] at hb
    rintro rfl
    exact hnew (hb ▸ ha)

/-- The loop that drops repetitions drops nothing else. -/
theorem mem_foldl_appendNew {item : α} :
    item ∈ items.foldl appendNew seen ↔ item ∈ seen ∨ item ∈ items := by
  induction items generalizing seen with
  | nil => simp
  | cons first rest ih => rw [List.foldl_cons, ih, mem_appendNew, List.mem_cons, or_assoc]

theorem foldl_appendNew_eq_nil : items.foldl appendNew [] = [] ↔ items = [] := by
  simp only [List.eq_nil_iff_forall_not_mem, mem_foldl_appendNew, List.not_mem_nil, false_or]

/-- A list without repetitions survives the loop that drops repetitions. -/
theorem foldl_appendNew_of_nodup (h : (seen ++ items).Nodup) :
    items.foldl appendNew seen = seen ++ items := by
  induction items generalizing seen with
  | nil => simp
  | cons item rest ih =>
      have hnew : item ∉ seen := by
        intro hmem
        exact (List.disjoint_of_nodup_append h) hmem List.mem_cons_self
      rw [List.foldl_cons, appendNew_of_not_mem hnew]
      have hshift : seen ++ [item] ++ rest = seen ++ item :: rest := by simp
      rw [ih (by rwa [hshift]), hshift]

end Fallible
end CargoPds
