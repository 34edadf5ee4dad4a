/-
What one share of a two-asset pool is worth.

A pool holds `x` and `y` of two assets against `supply` shares, and the worth of
a share is the geometric mean of the two holdings per share, squared so that it
stays rational: `x * y / supply ^ 2`.  `NoWorse a b` compares two pools by that
quotient without dividing.  The lemmas below give, for a swap, a deposit and a
withdrawal, the rounding direction that keeps shares from losing worth.
-/
import Mathlib.Algebra.Order.Field.Rat
import Mathlib.Tactic.Ring
import Mathlib.Tactic.Linarith
import Mathlib.Tactic.FieldSimp
import Mathlib.Tactic.Positivity

namespace Amm

structure Shares where
  x : Nat
  y : Nat
  supply : Nat

namespace Shares

/-- A share of `b` is worth at least a share of `a`. -/
def NoWorse (a b : Shares) : Prop :=
  a.x * a.y * b.supply * b.supply ≤ b.x * b.y * a.supply * a.supply

/-- The squared worth of one share. -/
def worth (a : Shares) : ℚ := (a.x * a.y : ℚ) / (a.supply : ℚ) ^ 2

theorem NoWorse.refl (a : Shares) : NoWorse a a := Nat.le_refl _

theorem NoWorse.trans {a b c : Shares} (hb : 0 < b.supply) (hab : NoWorse a b)
    (hbc : NoWorse b c) : NoWorse a c := by
  unfold NoWorse at *
  have hpos : 0 < b.supply * b.supply := Nat.mul_pos hb hb
  refine Nat.le_of_mul_le_mul_right ?_ hpos
  calc a.x * a.y * c.supply * c.supply * (b.supply * b.supply)
      = a.x * a.y * b.supply * b.supply * (c.supply * c.supply) := by ring
    _ ≤ b.x * b.y * a.supply * a.supply * (c.supply * c.supply) :=
        Nat.mul_le_mul_right _ hab
    _ = b.x * b.y * c.supply * c.supply * (a.supply * a.supply) := by ring
    _ ≤ c.x * c.y * b.supply * b.supply * (a.supply * a.supply) :=
        Nat.mul_le_mul_right _ hbc
    _ = c.x * c.y * a.supply * a.supply * (b.supply * b.supply) := by ring

theorem worth_le_worth {a b : Shares} (ha : 0 < a.supply) (hb : 0 < b.supply)
    (h : NoWorse a b) : worth a ≤ worth b := by
  have haq : (0 : ℚ) < (a.supply : ℚ) ^ 2 := by positivity
  have hbq : (0 : ℚ) < (b.supply : ℚ) ^ 2 := by positivity
  have hq : (a.x * a.y * b.supply * b.supply : ℚ) ≤ b.x * b.y * a.supply * a.supply := by
    exact_mod_cast h
  unfold worth
  rw [div_le_div_iff₀ haq hbq]
  nlinarith [hq]

/-- A pool that shares may not leave empty keeps both assets: a positive worth
stays positive. -/
theorem NoWorse.positive {a b : Shares} (hx : 0 < a.x) (hy : 0 < a.y) (hb : 0 < b.supply)
    (h : NoWorse a b) : 0 < b.x ∧ 0 < b.y := by
  have hleft : 0 < a.x * a.y * b.supply * b.supply :=
    Nat.mul_pos (Nat.mul_pos (Nat.mul_pos hx hy) hb) hb
  have hright : 0 < b.x * b.y * a.supply * a.supply := Nat.lt_of_lt_of_le hleft h
  constructor
  · apply Nat.pos_of_ne_zero
    intro h0
    simp [h0] at hright
  · apply Nat.pos_of_ne_zero
    intro h0
    simp [h0] at hright

end Shares

/-- The output of a swap, rounded down, for the part `net` of the input that
trades. -/
theorem swap_product {reserveIn reserveOut amount net output : Nat}
    (hnet : net ≤ amount) (hle : output ≤ reserveOut)
    (hout : output * (reserveIn + net) ≤ reserveOut * net) :
    reserveIn * reserveOut ≤ (reserveIn + amount) * (reserveOut - output) := by
  obtain ⟨rest, rfl⟩ : ∃ rest, reserveOut = output + rest := ⟨reserveOut - output, by omega⟩
  have hrest : output + rest - output = rest := by omega
  rw [hrest]
  have hkey : reserveIn * (output + rest) ≤ (reserveIn + net) * rest := by nlinarith [hout]
  exact Nat.le_trans hkey (Nat.mul_le_mul_right _ (by omega))

/-- A deposit rounded up raises a holding at least as fast as the supply. -/
theorem deposit_scale {holding supply shares paid : Nat} (h : shares * holding ≤ paid * supply) :
    holding * (supply + shares) ≤ (holding + paid) * supply := by
  nlinarith [h]

/-- A withdrawal rounded down lowers a holding at most as fast as the supply. -/
theorem withdraw_scale {holding supply shares paid : Nat} (hs : shares ≤ supply)
    (hp : paid ≤ holding) (h : paid * supply ≤ shares * holding) :
    holding * (supply - shares) ≤ (holding - paid) * supply := by
  obtain ⟨left, rfl⟩ : ∃ left, supply = shares + left := ⟨supply - shares, by omega⟩
  obtain ⟨kept, rfl⟩ : ∃ kept, holding = paid + kept := ⟨holding - paid, by omega⟩
  have h1 : shares + left - shares = left := by omega
  have h2 : paid + kept - paid = kept := by omega
  rw [h1, h2]
  nlinarith [h]

/-- Scaling both holdings at least as well as the supply keeps the worth. -/
theorem noWorse_of_scale {a b : Shares} (hx : a.x * b.supply ≤ b.x * a.supply)
    (hy : a.y * b.supply ≤ b.y * a.supply) : a.NoWorse b := by
  unfold Shares.NoWorse
  calc a.x * a.y * b.supply * b.supply = (a.x * b.supply) * (a.y * b.supply) := by ring
    _ ≤ (b.x * a.supply) * (b.y * a.supply) := Nat.mul_le_mul hx hy
    _ = b.x * b.y * a.supply * a.supply := by ring

/-- With the supply unchanged only the product counts. -/
theorem noWorse_of_product {a b : Shares} (hs : b.supply = a.supply)
    (hp : a.x * a.y ≤ b.x * b.y) : a.NoWorse b := by
  unfold Shares.NoWorse
  rw [hs]
  exact Nat.mul_le_mul_right _ (Nat.mul_le_mul_right _ hp)

end Amm
