import CargoPds.Foundation.Layout
import CargoPds.Foundation.Text

/-!
# Reading identifiers

`uuid.Parse` takes the digits of an identifier in either case, with hyphens anywhere and
white space around them; so it reads what `String` writes.
-/

namespace CargoPds
namespace UUID

/-- `Parse`.  A text with a character beyond ASCII has no 32 digits, whether its length is
counted in bytes or in characters. -/
def parse (value : String) : Option UUID :=
  let compact := (Text.trimSpace value).toList.filter (· ≠ '-')
  if compact.length ≠ 32 then none else (Hex.decode compact).map (BitVec.ofNat 128)

theorem parse_text (id : UUID) : parse id.text = some id := by
  have hdigit : ∀ small < 16, Text.isSpace (Hex.digit small) = false := by decide
  have htrimmed : Text.trimSpace id.text = id.text := by
    refine Text.trimSpace_of_no_space fun c hc => ?_
    by_cases hdash : c = '-'
    · rw [hdash]
      decide
    · have hmem : c ∈ Hex.digits 32 id.toNat := by
        rw [← filter_text]
        exact List.mem_filter.mpr ⟨hc, by simpa using hdash⟩
      obtain ⟨index, -, rfl⟩ := List.mem_map.mp hmem
      rw [← Hex.digit_mod]
      exact hdigit _ (Nat.mod_lt _ (by decide))
  unfold parse
  simp only [htrimmed, filter_text, Hex.length_digits, ne_eq, not_true_eq_false, if_false]
  rw [Hex.decode_digits (show id.toNat < 16 ^ 32 from id.isLt)]
  simp

end UUID
end CargoPds
