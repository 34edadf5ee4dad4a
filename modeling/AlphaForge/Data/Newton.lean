/-
Newton's iteration for the floor of a square root.

From a guess at or above the root the next guess is not below it, and a guess that does
not go down is the root.
-/
import Mathlib.Data.Nat.Sqrt
import Mathlib.Tactic.Linarith

namespace AlphaForge
namespace Newton

def next (n a : Nat) : Nat := (a + n / a) / 2

/-- Half the sum of two factors is at least the root of their product. -/
theorem sqrt_le_next {n a : Nat} (ha : 0 < a) : Nat.sqrt n ≤ next n a := by
  rw [next, Nat.le_div_iff_mul_le (by decide)]
  by_cases hle : Nat.sqrt n * 2 ≤ a
  · exact Nat.le_trans hle (Nat.le_add_right a _)
  · obtain ⟨d, hd⟩ := Nat.exists_eq_add_of_le (Nat.le_of_lt (Nat.lt_of_not_le hle))
    have hroot : Nat.sqrt n * Nat.sqrt n ≤ n := Nat.sqrt_le n
    have hproduct : d * a ≤ n := by
      rcases Nat.le_total a d with hda | hda
      · nlinarith
      · nlinarith
    have hquotient : d ≤ n / a := (Nat.le_div_iff_mul_le ha).mpr hproduct
    omega

theorem le_sqrt_of_le_next {n a : Nat} (ha : 0 < a) (h : a ≤ next n a) : a ≤ Nat.sqrt n := by
  rw [next, Nat.le_div_iff_mul_le (by decide)] at h
  rw [Nat.le_sqrt]
  exact (Nat.le_div_iff_mul_le ha).mp (by omega)

theorem next_pos {n a : Nat} (ha : 0 < a) (hn : 0 < n) : 0 < next n a :=
  Nat.lt_of_lt_of_le (Nat.sqrt_pos.mpr hn) (sqrt_le_next ha)

end Newton
end AlphaForge
