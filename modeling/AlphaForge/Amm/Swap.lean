/-
Constant-product swaps whose outputs are rounded down.

A swap that trades `net` of one asset takes `reserveOut * net / (reserveIn + net)` of
the other.  Two swaps in a row take no more than one of both parts: the first rounding
leaves the second a little more to share, but never a whole unit more.
-/
import Mathlib.Tactic.Linarith
import Mathlib.Tactic.Ring

namespace Amm

/-- What a swap takes out. -/
def swapOutput (reserveIn reserveOut net : Nat) : Nat := reserveOut * net / (reserveIn + net)

theorem swapOutput_mul_le (reserveIn reserveOut net : Nat) :
    swapOutput reserveIn reserveOut net * (reserveIn + net) ≤ reserveOut * net :=
  Nat.div_mul_le_self _ _

theorem le_swapOutput {reserveIn reserveOut net out : Nat} (hin : 0 < reserveIn)
    (h : out * (reserveIn + net) ≤ reserveOut * net) : out ≤ swapOutput reserveIn reserveOut net :=
  (Nat.le_div_iff_mul_le (by omega)).mpr h

theorem swapOutput_le (reserveIn reserveOut net : Nat) :
    swapOutput reserveIn reserveOut net ≤ reserveOut := by
  refine Nat.div_le_of_le_mul ?_
  rw [Nat.mul_comm]
  exact Nat.mul_le_mul_right _ (Nat.le_add_left _ _)

theorem swapOutput_lt {reserveIn reserveOut net : Nat} (hin : 0 < reserveIn)
    (hout : 0 < reserveOut) : swapOutput reserveIn reserveOut net < reserveOut := by
  refine Nat.div_lt_of_lt_mul ?_
  rw [Nat.mul_comm (reserveIn + net)]
  exact (Nat.mul_lt_mul_left hout).mpr (by omega)

theorem swapOutput_mono {reserveIn reserveOut net net' : Nat} (hin : 0 < reserveIn)
    (h : net ≤ net') :
    swapOutput reserveIn reserveOut net ≤ swapOutput reserveIn reserveOut net' := by
  obtain ⟨more, rfl⟩ := Nat.exists_eq_add_of_le h
  refine le_swapOutput hin ?_
  have hfloor := swapOutput_mul_le reserveIn reserveOut net
  have hle := swapOutput_le reserveIn reserveOut net
  calc swapOutput reserveIn reserveOut net * (reserveIn + (net + more))
      = swapOutput reserveIn reserveOut net * (reserveIn + net) +
          swapOutput reserveIn reserveOut net * more := by ring
    _ ≤ reserveOut * net + reserveOut * more :=
        Nat.add_le_add hfloor (Nat.mul_le_mul_right _ hle)
    _ = reserveOut * (net + more) := by ring

/-- A second swap against what the first left, with at least the first part added to the
reserve. -/
theorem swapOutput_split {reserveIn reserveIn' reserveOut net₁ net₂ : Nat} (hin : 0 < reserveIn)
    (hgrown : reserveIn + net₁ ≤ reserveIn') :
    swapOutput reserveIn reserveOut net₁ +
        swapOutput reserveIn' (reserveOut - swapOutput reserveIn reserveOut net₁) net₂ ≤
      swapOutput reserveIn reserveOut (net₁ + net₂) := by
  have hfirst := swapOutput_mul_le reserveIn reserveOut net₁
  have hsecond := swapOutput_mul_le reserveIn'
    (reserveOut - swapOutput reserveIn reserveOut net₁) net₂
  have hle := swapOutput_le reserveIn reserveOut net₁
  generalize swapOutput reserveIn reserveOut net₁ = out₁ at *
  generalize swapOutput reserveIn' (reserveOut - out₁) net₂ = out₂ at *
  obtain ⟨left, rfl⟩ := Nat.exists_eq_add_of_le hle
  rw [Nat.add_sub_cancel_left] at hsecond
  refine le_swapOutput hin ?_
  have hshared : out₂ * (reserveIn + net₁ + net₂) ≤ left * net₂ :=
    Nat.le_trans (Nat.mul_le_mul_left _ (by omega)) hsecond
  calc (out₁ + out₂) * (reserveIn + (net₁ + net₂))
      = out₁ * (reserveIn + net₁) + out₁ * net₂ + out₂ * (reserveIn + net₁ + net₂) := by ring
    _ ≤ (out₁ + left) * net₁ + out₁ * net₂ + left * net₂ := by omega
    _ = (out₁ + left) * (net₁ + net₂) := by ring

end Amm
