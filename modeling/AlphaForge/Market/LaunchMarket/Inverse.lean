/-
The two ways to read the price of native currency.

`usdcForEth` rounds down twice and `ethForUsdc` up twice.  Each floor has the ceiling
across it as its adjoint, so the two formulas are adjoint as they stand: what native
amount buys at least some USDC is decided exactly by the least one that does.
-/
import AlphaForge.Market.LaunchMarket.Executable
import Mathlib.Order.Bounds.Defs

namespace AlphaForge
namespace LaunchMarket

open Evm

/-! ## One rounding -/

theorem ceilDiv_le_iff {a b : Nat} (hb : 0 < b) (k : Nat) : ceilDiv a b ≤ k ↔ a ≤ k * b := by
  rw [ceilDiv, ← Nat.lt_add_one_iff, Nat.div_lt_iff_lt_mul hb, Nat.add_one_mul]
  omega

theorem ceilDiv_pos {a b : Nat} (ha : 0 < a) (hb : 0 < b) : 0 < ceilDiv a b := by
  by_contra hzero
  have hle : a ≤ 0 * b := (ceilDiv_le_iff hb 0).mp (by omega)
  omega

/-! ## Both conversions -/

/-- What is left of a gross amount reaches `usdc` from the gross amount of `usdc` on. -/
theorem le_net_iff {feeBps : Nat} (hfee : feeBps < 10000) (gross usdc : Nat) :
    usdc ≤ gross - ceilDiv (gross * feeBps) 10000 ↔
      ceilDiv (usdc * 10000) (10000 - feeBps) ≤ gross := by
  rw [net_eq (Nat.le_of_lt hfee), Nat.le_div_iff_mul_le (by decide),
    ceilDiv_le_iff (Nat.sub_pos_of_lt hfee)]

theorem le_gross_iff {price : Nat} (hprice : 0 < price) (eth gross : Nat) :
    gross ≤ eth * price / 10 ^ 18 ↔ ceilDiv (gross * 10 ^ 18) price ≤ eth := by
  rw [Nat.le_div_iff_mul_le (Nat.pow_pos (by decide)), ceilDiv_le_iff hprice]

section Conversion

variable {price : Nat} {feeBps : Int} (hprice : 0 < price) (hfee : 0 ≤ feeBps ∧ feeBps ≤ 1000)

include hprice hfee

theorem usdcForEth_of {eth : Nat} (heth : 0 < eth) :
    usdcForEth eth price feeBps = .ok
      (eth * price / 10 ^ 18 - ceilDiv (eth * price / 10 ^ 18 * feeBps.toNat) 10000) := by
  rw [usdcForEth, ensure_of ⟨heth, hprice, hfee⟩]
  rfl

theorem ethForUsdc_of {usdc : Nat} (husdc : 0 < usdc) :
    ethForUsdc usdc price feeBps = .ok
      (ceilDiv (ceilDiv (usdc * 10000) (10000 - feeBps).toNat * 10 ^ 18) price) := by
  rw [ethForUsdc, ensure_of ⟨husdc, hprice, hfee⟩]
  rfl

theorem le_usdcForEth_iff {eth usdc : Nat} (heth : 0 < eth) (husdc : 0 < usdc) :
    ∃ bought native, usdcForEth eth price feeBps = .ok bought ∧
      ethForUsdc usdc price feeBps = .ok native ∧ (usdc ≤ bought ↔ native ≤ eth) := by
  refine ⟨_, _, usdcForEth_of hprice hfee heth, ethForUsdc_of hprice hfee husdc, ?_⟩
  have hnet : (10000 - feeBps).toNat = 10000 - feeBps.toNat := by omega
  rw [hnet, le_net_iff (by omega), le_gross_iff hprice]

theorem ethForUsdc_pos {usdc native : Nat} (husdc : 0 < usdc)
    (h : ethForUsdc usdc price feeBps = .ok native) : 0 < native := by
  rw [ethForUsdc_of hprice hfee husdc] at h
  obtain rfl := Except.ok.inj h
  have hgross : 0 < ceilDiv (usdc * 10000) (10000 - feeBps).toNat :=
    ceilDiv_pos (by omega) (by omega)
  exact ceilDiv_pos (Nat.mul_pos hgross (Nat.pow_pos (by decide))) hprice

end Conversion

/-- Native amounts that buy at least this much USDC. -/
def Buys (usdc price : Nat) (feeBps : Int) : Set Nat :=
  {eth | 0 < eth ∧ ∃ bought, usdcForEth eth price feeBps = .ok bought ∧ usdc ≤ bought}

/-- Whatever the price and the fee, an amount of native currency buys at least `usdc`
exactly from `ethForUsdc` on, which is the least amount that does. -/
theorem conversions_inverse {eth usdc price : Nat} {feeBps : Int} (heth : 0 < eth)
    (husdc : 0 < usdc) (hprice : 0 < price) (hlow : 0 ≤ feeBps) (hhigh : feeBps ≤ 1000) :
    ∃ bought native, usdcForEth eth price feeBps = .ok bought ∧
      ethForUsdc usdc price feeBps = .ok native ∧
      (usdc ≤ bought ↔ native ≤ eth) ∧ IsLeast (Buys usdc price feeBps) native := by
  have hfee : 0 ≤ feeBps ∧ feeBps ≤ 1000 := ⟨hlow, hhigh⟩
  obtain ⟨bought, native, hbought, hnative, hiff⟩ := le_usdcForEth_iff hprice hfee heth husdc
  have hpos := ethForUsdc_pos hprice hfee husdc hnative
  refine ⟨bought, native, hbought, hnative, hiff, ⟨hpos, ?_⟩, ?_⟩
  · obtain ⟨out, native', hout, hnative', hiff'⟩ := le_usdcForEth_iff hprice hfee hpos husdc
    obtain rfl := Except.ok.inj (hnative.symm.trans hnative')
    exact ⟨out, hout, hiff'.mpr (Nat.le_refl _)⟩
  · rintro other ⟨hother, out, hout, hle⟩
    obtain ⟨out', native', hout', hnative', hiff'⟩ := le_usdcForEth_iff hprice hfee hother husdc
    obtain rfl := Except.ok.inj (hnative.symm.trans hnative')
    obtain rfl := Except.ok.inj (hout.symm.trans hout')
    exact hiff'.mp hle

/-- One USDC at 2500 USDC for a native unit and a fee of 50 basis points. -/
theorem conversions_inverse_one :
    ∃ bought native, usdcForEth 402010050251257 2500000000 50 = .ok bought ∧
      ethForUsdc 1000000 2500000000 50 = .ok native ∧
      (1000000 ≤ bought ↔ native ≤ 402010050251257) ∧
      IsLeast (Buys 1000000 2500000000 50) native :=
  conversions_inverse (by decide) (by decide) (by decide) (by decide) (by decide)

end LaunchMarket
end AlphaForge
