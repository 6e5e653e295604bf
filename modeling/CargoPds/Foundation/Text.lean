import Mathlib.Algebra.Order.Ring.Int
import Mathlib.Data.List.DropRight

/-!
# Text

Strings of the source are modelled by Lean strings, that is, by sequences of
Unicode code points.  On valid UTF-8 the byte order `<` of the source is the
order of code points, which is Lean's `<` on strings.
-/

namespace CargoPds
namespace Text

variable {text : String}

/-- Code points that `unicode.IsSpace` accepts. -/
def isSpace (c : Char) : Bool :=
  c.toNat ∈ [0x09, 0x0A, 0x0B, 0x0C, 0x0D, 0x20, 0x85, 0xA0, 0x1680, 0x2000, 0x2001,
    0x2002, 0x2003, 0x2004, 0x2005, 0x2006, 0x2007, 0x2008, 0x2009, 0x200A, 0x2028,
    0x2029, 0x202F, 0x205F, 0x3000]

/-- `strings.TrimSpace`: drop white space at both ends. -/
def trimSpace (text : String) : String :=
  String.ofList ((text.toList.dropWhile isSpace).rdropWhile isSpace)

/-- A string that is not empty and has no white space at its ends.  Most
identifiers of the source are checked to be of this form. -/
def Canonical (text : String) : Prop :=
  text ≠ "" ∧ text = trimSpace text
deriving Decidable

/-- Trimming at the right keeps a list trimmed at the left. -/
theorem dropWhile_rdropWhile_of_dropWhile_eq {p : Char → Bool} {chars : List Char}
    (h : chars.dropWhile p = chars) :
    (chars.rdropWhile p).dropWhile p = chars.rdropWhile p := by
  cases hcut : chars.rdropWhile p with
  | nil => rfl
  | cons head tail =>
      have hsub : (chars.rdropWhile p) <+: chars := List.rdropWhile_prefix p chars
      rw [hcut] at hsub
      obtain ⟨rest, hrest⟩ := hsub
      have hhead : p head = false := by
        by_contra hp
        rw [Bool.not_eq_false] at hp
        have hlen := congrArg List.length h
        rw [← hrest, List.cons_append, List.dropWhile_cons_of_pos hp, List.length_cons] at hlen
        have hle := (List.dropWhile_suffix (l := tail ++ rest) p).length_le
        omega
      exact List.dropWhile_cons_of_neg (by simp [hhead])

@[simp] theorem trimSpace_trimSpace (text : String) :
    trimSpace (trimSpace text) = trimSpace text := by
  have hleft : (text.toList.dropWhile isSpace).dropWhile isSpace =
      text.toList.dropWhile isSpace := List.dropWhile_idempotent _ _
  unfold trimSpace
  rw [String.toList_ofList, dropWhile_rdropWhile_of_dropWhile_eq hleft,
    List.rdropWhile_idempotent]

theorem canonical_trimSpace (h : trimSpace text ≠ "") :
    Canonical (trimSpace text) :=
  ⟨h, (trimSpace_trimSpace text).symm⟩

theorem Canonical.trimSpace_ne_empty (h : Canonical text) :
    trimSpace text ≠ "" := by
  rw [← h.2]
  exact h.1

/-! ## Upper-case codes -/

/-- The upper-case form of a code point as far as it is an ASCII letter.  Beyond
`a`..`z` these are the dotless `i` and the long `s`.  Every other code point has
no ASCII upper-case form, so it is left alone: each use below compares the
result with a pattern of ASCII characters. -/
def toUpperChar (c : Char) : Char :=
  if 'a' ≤ c ∧ c ≤ 'z' then Char.ofNat (c.toNat - 32)
  else if c.toNat = 0x131 then 'I'
  else if c.toNat = 0x17F then 'S'
  else c

/-- `strings.ToUpper`, up to letters without an ASCII upper-case form. -/
def toUpper (text : String) : String :=
  String.ofList (text.toList.map toUpperChar)

/-- The characters `[A-Z]`. -/
def isUpper (c : Char) : Bool := 'A' ≤ c && c ≤ 'Z'

/-- The characters `[A-Z0-9_]`. -/
def isCodeChar (c : Char) : Bool := isUpper c || ('0' ≤ c && c ≤ '9') || c == '_'

/-- The pattern `^[A-Z][A-Z0-9_]{shortest,longest}$`. -/
def MatchesCode (shortest longest : Nat) (text : String) : Prop :=
  match text.toList with
  | [] => False
  | head :: tail =>
      isUpper head = true ∧ shortest ≤ tail.length ∧ tail.length ≤ longest ∧
        tail.all isCodeChar = true

instance (shortest longest : Nat) (text : String) :
    Decidable (MatchesCode shortest longest text) := by
  unfold MatchesCode
  split <;> infer_instance

theorem MatchesCode.all_isCodeChar {shortest longest : Nat}
    (h : MatchesCode shortest longest text) :
    ∀ c ∈ text.toList, isCodeChar c = true := by
  unfold MatchesCode at h
  split at h
  · exact h.elim
  · rename_i head tail htext
    obtain ⟨hhead, -, -, htail⟩ := h
    intro c hc
    rw [htext, List.mem_cons] at hc
    rcases hc with rfl | hc
    · simp [isCodeChar, hhead]
    · exact List.all_eq_true.mp htail c hc

theorem toNat_of_isCodeChar {c : Char} (h : isCodeChar c = true) :
    (65 ≤ c.toNat ∧ c.toNat ≤ 90) ∨ (48 ≤ c.toNat ∧ c.toNat ≤ 57) ∨ c.toNat = 95 := by
  simp only [isCodeChar, isUpper, Bool.or_eq_true, Bool.and_eq_true, decide_eq_true_eq,
    beq_iff_eq] at h
  rcases h with (⟨hlow, hhigh⟩ | ⟨hlow, hhigh⟩) | rfl
  · exact Or.inl ⟨hlow, hhigh⟩
  · exact Or.inr (Or.inl ⟨hlow, hhigh⟩)
  · exact Or.inr (Or.inr rfl)

theorem isSpace_eq_false_of_isCodeChar {c : Char} (h : isCodeChar c = true) :
    isSpace c = false := by
  have hrange := toNat_of_isCodeChar h
  simp only [isSpace, List.mem_cons, List.not_mem_nil, or_false, decide_eq_false_iff_not]
  omega

theorem toUpperChar_of_isCodeChar {c : Char} (h : isCodeChar c = true) :
    toUpperChar c = c := by
  have hrange := toNat_of_isCodeChar h
  have hlower : ¬ ('a' ≤ c ∧ c ≤ 'z') := by
    rintro ⟨hlow, -⟩
    have hlow' : 97 ≤ c.toNat := hlow
    omega
  unfold toUpperChar
  rw [if_neg hlower, if_neg (by omega), if_neg (by omega)]

/-- Trimming leaves a text without white space alone. -/
theorem trimSpace_of_no_space (h : ∀ c ∈ text.toList, isSpace c = false) :
    trimSpace text = text := by
  have hleft : text.toList.dropWhile isSpace = text.toList := by
    cases hchars : text.toList with
    | nil => rfl
    | cons head tail =>
        have hhead := h head (by rw [hchars]; exact List.mem_cons_self)
        exact List.dropWhile_cons_of_neg (by simp [hhead])
  have hright : text.toList.rdropWhile isSpace = text.toList := by
    rw [List.rdropWhile_eq_self_iff]
    intro hne
    simp [h _ (List.getLast_mem hne)]
  unfold trimSpace
  rw [hleft, hright, String.ofList_toList]

/-- A code is already trimmed. -/
theorem MatchesCode.trimSpace_eq {shortest longest : Nat} (h : MatchesCode shortest longest text) :
    trimSpace text = text :=
  trimSpace_of_no_space fun c hc => isSpace_eq_false_of_isCodeChar (h.all_isCodeChar c hc)

/-- A code is already in upper case. -/
theorem MatchesCode.toUpper_eq {shortest longest : Nat} (h : MatchesCode shortest longest text) :
    toUpper text = text := by
  have hmap : text.toList.map toUpperChar = text.toList := by
    rw [List.map_congr_left fun c hc => toUpperChar_of_isCodeChar (h.all_isCodeChar c hc),
      List.map_id']
  unfold toUpper
  rw [hmap, String.ofList_toList]

end Text
end CargoPds
