import Mathlib.Data.List.Basic
import Mathlib.Data.List.Induction

/-!
# Hash chains

A chain is a list of entries that are numbered one after the other and of which each
names the root of the entry before it.  The first entry names a fixed root, the
*genesis*.

* `chained_concat`: appending an entry keeps a chain exactly if the entry continues
  it;
* `Chained.number_eq`, `Chained.previous_eq`: what stands at an index;
* `Chained.filter_number`: a number belongs to one entry;
* `Chained.eq_of_head`: if the root of an entry determines the entry, the root at the
  end of a chain determines the whole chain.  The two chains may have different
  lengths: the numbers tell where an entry stands.
-/

namespace CargoPds
namespace HashChain

variable {ε ρ : Type} (number : ε → Nat) (previous root : ε → ρ)
variable {entries : List ε} {first : Nat} {genesis : ρ} {entry : ε}

/-- The list is a chain whose first entry has number `first` and names `genesis`. -/
def Chained : Nat → ρ → List ε → Prop
  | _, _, [] => True
  | first, genesis, entry :: rest =>
      number entry = first ∧ previous entry = genesis ∧ Chained (first + 1) (root entry) rest

/-- The root that the next entry has to name. -/
def head (genesis : ρ) (entries : List ε) : ρ := (entries.getLast?.map root).getD genesis

variable {number previous root}

@[simp] theorem head_nil (genesis : ρ) : head root genesis ([] : List ε) = genesis := rfl

@[simp] theorem head_concat (genesis : ρ) (entries : List ε) (entry : ε) :
    head root genesis (entries ++ [entry]) = root entry := by
  unfold head
  rw [List.getLast?_concat]
  rfl

theorem head_cons (genesis : ρ) (entry : ε) (rest : List ε) :
    head root genesis (entry :: rest) = head root (root entry) rest := by
  unfold head
  cases rest with
  | nil => rfl
  | cons next rest =>
      rw [List.getLast?_cons_cons]
      cases hlast : (next :: rest).getLast? with
      | none => exact absurd (List.getLast?_eq_none_iff.mp hlast) (by simp)
      | some last => rfl

/-- An entry continues a chain if it has the next number and names its head. -/
theorem chained_concat :
    Chained number previous root first genesis (entries ++ [entry]) ↔
      Chained number previous root first genesis entries ∧
        number entry = first + entries.length ∧ previous entry = head root genesis entries := by
  induction entries generalizing first genesis with
  | nil => simp [Chained]
  | cons other rest ih =>
      rw [List.cons_append, Chained, Chained, ih, head_cons, List.length_cons]
      have hnumber : first + 1 + rest.length = first + (rest.length + 1) := by omega
      rw [hnumber]
      tauto

/-- The entry at an index has the number of that index. -/
theorem Chained.number_eq (h : Chained number previous root first genesis entries) {index : Nat}
    (hentry : entries[index]? = some entry) : number entry = first + index := by
  induction entries generalizing first genesis index with
  | nil => exact absurd hentry (by simp)
  | cons other rest ih =>
      cases index with
      | zero =>
          rw [List.getElem?_cons_zero] at hentry
          rw [← Option.some.inj hentry]
          exact h.1
      | succ index =>
          rw [List.getElem?_cons_succ] at hentry
          have hrest := ih h.2.2 hentry
          omega

/-- Every entry names the head of the entries before it. -/
theorem Chained.previous_eq (h : Chained number previous root first genesis entries) {index : Nat}
    (hentry : entries[index]? = some entry) :
    previous entry = head root genesis (entries.take index) := by
  induction entries generalizing first genesis index with
  | nil => exact absurd hentry (by simp)
  | cons other rest ih =>
      cases index with
      | zero =>
          rw [List.getElem?_cons_zero] at hentry
          rw [← Option.some.inj hentry]
          exact h.2.1
      | succ index =>
          rw [List.getElem?_cons_succ] at hentry
          rw [List.take_succ_cons, head_cons]
          exact ih h.2.2 hentry

/-- No two entries of a chain have the same number. -/
theorem Chained.filter_number (h : Chained number previous root first genesis entries)
    (hentry : entry ∈ entries) :
    entries.filter (fun other => number other = number entry) = [entry] := by
  have hlater : ∀ {first : Nat} {genesis : ρ} {rest : List ε},
      Chained number previous root first genesis rest → ∀ other ∈ rest,
        first ≤ number other := by
    intro first genesis rest hrest other hother
    obtain ⟨index, hindex⟩ := List.mem_iff_getElem?.mp hother
    have hnumber := hrest.number_eq hindex
    omega
  induction entries generalizing first genesis with
  | nil => exact absurd hentry (by simp)
  | cons other rest ih =>
      obtain ⟨hfirst, -, hrest⟩ := h
      rcases List.mem_cons.mp hentry with rfl | hmem
      · have hnone : rest.filter (fun other => number other = number entry) = [] := by
          refine List.filter_eq_nil_iff.mpr ?_
          intro other hother
          have hnumber := hlater hrest other hother
          simp only [decide_eq_true_eq]
          omega
        rw [List.filter_cons_of_pos (by simp), hnone]
      · have hnumber := hlater hrest entry hmem
        have hother : number other ≠ number entry := by omega
        rw [List.filter_cons_of_neg (by simpa using hother)]
        exact ih hrest hmem

/-- **The head of a chain fixes the chain**, if no two entries of the chains at hand
have the same root. -/
theorem Chained.eq_of_head {genesis' : ρ} {left right : List ε}
    (hleft : Chained number previous root first genesis left)
    (hright : Chained number previous root first genesis' right)
    (hroots : ∀ a ∈ left, ∀ b ∈ right, root a = root b → a = b) (hlength : left ≠ [])
    (hlength' : right ≠ []) (hhead : head root genesis left = head root genesis' right) :
    left = right := by
  induction left using List.reverseRecOn generalizing right with
  | nil => exact absurd rfl hlength
  | append_singleton entries entry ih =>
      obtain ⟨others, other, rfl⟩ := (List.eq_nil_or_concat' right).resolve_left hlength'
      rw [head_concat, head_concat] at hhead
      -- the last entries have one root, so they are the same entry
      have hlast : entry = other :=
        hroots entry (by simp) other (by simp) hhead
      subst hlast
      obtain ⟨hleft, hnumber, hprevious⟩ := chained_concat.mp hleft
      obtain ⟨hright, hnumber', hprevious'⟩ := chained_concat.mp hright
      have hsame : entries.length = others.length := by omega
      have hheads : head root genesis entries = head root genesis' others := by
        rw [← hprevious, ← hprevious']
      have hinits : entries = others := by
        by_cases hempty : entries = []
        · rw [hempty] at hsame
          rw [hempty, List.length_eq_zero_iff.mp hsame.symm]
        · refine ih hleft hright ?_ hempty ?_ hheads
          · intro a ha b hb
            exact hroots a (List.mem_append_left _ ha) b (List.mem_append_left _ hb)
          · rintro rfl
            exact hempty (List.length_eq_zero_iff.mp hsame)
      rw [hinits]

end HashChain
end CargoPds
