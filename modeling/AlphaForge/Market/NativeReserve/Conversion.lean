/-
Converting back and forth never profits.

Both conversions floor their quotient and keep a fee, so each is at most the exact
rational amount and the way back starts from no more than that.  The way back is also
never refused: it ends below an amount that was a word.
-/
import AlphaForge.Market.LaunchMarket.Executable

namespace AlphaForge
namespace NativeReserve

open Evm LaunchMarket

variable {c : Config} {price output fee : Nat}

/-- What is left of an amount after the fee. -/
def afterFee (c : Config) (amount : Nat) : Nat :=
  amount - ceilDiv (amount * c.conversionFeeBps) 10000

theorem afterFee_le (c : Config) (amount : Nat) : afterFee c amount ≤ amount := Nat.sub_le _ _

section Fee

variable (hfee : c.conversionFeeBps ≤ 500)

include hfee

theorem afterFee_mono {a b : Nat} (h : a ≤ b) : afterFee c a ≤ afterFee c b :=
  net_mono (by omega) h

theorem nativeToUsdc_eq_ok {amount : Nat} :
    nativeToUsdc c amount price = .ok (output, fee) ↔
      amount * price / 10 ^ 18 ≤ maxUint256 ∧ output = afterFee c (amount * price / 10 ^ 18) ∧
        fee = ceilDiv (amount * price / 10 ^ 18 * c.conversionFeeBps) 10000 := by
  constructor
  · intro h
    have hfits : amount * price / 10 ^ 18 ≤ maxUint256 := by
      simp only [nativeToUsdc, bind_eq_ok, mulDiv_eq_ok] at h
      obtain ⟨_, ⟨_, hfits, _⟩, _⟩ := h
      exact hfits
    rw [nativeToUsdc_of hfee hfits, Except.ok.injEq, Prod.mk.injEq] at h
    exact ⟨hfits, h.1.symm, h.2.symm⟩
  · rintro ⟨hfits, rfl, rfl⟩
    exact nativeToUsdc_of hfee hfits

theorem usdcToNative_eq_ok {amount : Nat} (hprice : price ≠ 0) (hword : amount ≤ maxUint256) :
    usdcToNative c amount price = .ok (output, fee) ↔
      afterFee c amount * 10 ^ 18 / price ≤ maxUint256 ∧
        output = afterFee c amount * 10 ^ 18 / price ∧
        fee = ceilDiv (amount * c.conversionFeeBps) 10000 := by
  constructor
  · intro h
    have hfits : afterFee c amount * 10 ^ 18 / price ≤ maxUint256 := by
      have hceil : (mulDivCeil amount c.conversionFeeBps 10000 : Result Empty Nat) =
          .ok (ceilDiv (amount * c.conversionFeeBps) 10000) :=
        mulDivCeil_of (by decide) (Nat.le_trans (fee_le (by omega) amount) hword)
      rw [usdcToNative, hceil, ok_bind, checkedSub_of (fee_le (by omega) amount), ok_bind,
        bind_eq_ok] at h
      obtain ⟨_, hout, _⟩ := h
      exact (mulDiv_eq_ok.mp hout).2.1
    rw [usdcToNative_of hfee hprice hword hfits, Except.ok.injEq, Prod.mk.injEq] at h
    exact ⟨hfits, h.1.symm, h.2.symm⟩
  · rintro ⟨hfits, rfl, rfl⟩
    exact usdcToNative_of hfee hprice hword hfits

/-- Native currency into USDC and back. -/
theorem native_round_trip (hprice : price ≠ 0) {amount : Nat} (hword : amount ≤ maxUint256)
    (h : nativeToUsdc c amount price = .ok (output, fee)) :
    ∃ back fee', usdcToNative c output price = .ok (back, fee') ∧ back ≤ amount := by
  obtain ⟨hfits, rfl, _⟩ := (nativeToUsdc_eq_ok hfee).mp h
  generalize hgross : amount * price / 10 ^ 18 = gross at hfits
  have hback : afterFee c (afterFee c gross) * 10 ^ 18 / price ≤ amount := by
    refine Nat.div_le_of_le_mul ?_
    calc afterFee c (afterFee c gross) * 10 ^ 18
        ≤ gross * 10 ^ 18 := Nat.mul_le_mul_right _
          (Nat.le_trans (afterFee_le c _) (afterFee_le c gross))
      _ ≤ amount * price := hgross ▸ Nat.div_mul_le_self _ _
      _ = price * amount := Nat.mul_comm _ _
  have hoked := (usdcToNative_eq_ok hfee hprice (Nat.le_trans (afterFee_le c gross) hfits)).mpr
    ⟨Nat.le_trans hback hword, rfl, rfl⟩
  exact ⟨_, _, hoked, hback⟩

/-- USDC into native currency and back. -/
theorem usdc_round_trip (hprice : price ≠ 0) {amount : Nat} (hword : amount ≤ maxUint256)
    (h : usdcToNative c amount price = .ok (output, fee)) :
    ∃ back fee', nativeToUsdc c output price = .ok (back, fee') ∧ back ≤ amount := by
  obtain ⟨hfits, rfl, _⟩ := (usdcToNative_eq_ok hfee hprice hword).mp h
  have hgross : afterFee c amount * 10 ^ 18 / price * price / 10 ^ 18 ≤ amount := by
    refine Nat.div_le_of_le_mul ?_
    calc afterFee c amount * 10 ^ 18 / price * price
        ≤ afterFee c amount * 10 ^ 18 := Nat.div_mul_le_self _ _
      _ ≤ amount * 10 ^ 18 := Nat.mul_le_mul_right _ (afterFee_le c amount)
      _ = 10 ^ 18 * amount := Nat.mul_comm _ _
  have hoked := (nativeToUsdc_eq_ok hfee).mpr ⟨Nat.le_trans hgross hword, rfl, rfl⟩
  exact ⟨_, _, hoked, Nat.le_trans (afterFee_le c _) hgross⟩

/-- A smaller amount is converted whenever a larger one is, and for no more. -/
theorem nativeToUsdc_mono {a b : Nat} (hle : a ≤ b)
    (h : nativeToUsdc c b price = .ok (output, fee)) :
    ∃ less fee', nativeToUsdc c a price = .ok (less, fee') ∧ less ≤ output := by
  obtain ⟨hfits, rfl, _⟩ := (nativeToUsdc_eq_ok hfee).mp h
  have hgross : a * price / 10 ^ 18 ≤ b * price / 10 ^ 18 :=
    Nat.div_le_div_right (Nat.mul_le_mul_right _ hle)
  have hoked := (nativeToUsdc_eq_ok hfee).mpr ⟨Nat.le_trans hgross hfits, rfl, rfl⟩
  exact ⟨_, _, hoked, afterFee_mono hfee hgross⟩

theorem usdcToNative_mono (hprice : price ≠ 0) {a b : Nat} (hle : a ≤ b) (hword : b ≤ maxUint256)
    (h : usdcToNative c b price = .ok (output, fee)) :
    ∃ less fee', usdcToNative c a price = .ok (less, fee') ∧ less ≤ output := by
  obtain ⟨hfits, rfl, _⟩ := (usdcToNative_eq_ok hfee hprice hword).mp h
  have hless : afterFee c a * 10 ^ 18 / price ≤ afterFee c b * 10 ^ 18 / price :=
    Nat.div_le_div_right (Nat.mul_le_mul_right _ (afterFee_mono hfee hle))
  have hoked := (usdcToNative_eq_ok hfee hprice (Nat.le_trans hle hword)).mpr
    ⟨Nat.le_trans hless hfits, rfl, rfl⟩
  exact ⟨_, _, hoked, hless⟩

end Fee

/-- At one price, an amount that is converted can be converted back, for no more than it
was, and both conversions take a smaller amount whenever they take a larger one and give
no more for it. -/
theorem conversion_never_profits (c : Config) (hfee : c.conversionFeeBps ≤ 500) (price : Nat)
    (hprice : 0 < price) (amount : Nat) (hword : amount ≤ maxUint256) :
    (∀ usdc fee, nativeToUsdc c amount price = .ok (usdc, fee) →
      (∃ back fee', usdcToNative c usdc price = .ok (back, fee') ∧ back ≤ amount) ∧
      ∀ a ≤ amount, ∃ less fee', nativeToUsdc c a price = .ok (less, fee') ∧ less ≤ usdc) ∧
    (∀ native fee, usdcToNative c amount price = .ok (native, fee) →
      (∃ back fee', nativeToUsdc c native price = .ok (back, fee') ∧ back ≤ amount) ∧
      ∀ a ≤ amount, ∃ less fee', usdcToNative c a price = .ok (less, fee') ∧ less ≤ native) := by
  have hne : price ≠ 0 := Nat.pos_iff_ne_zero.mp hprice
  exact ⟨fun _ _ h => ⟨native_round_trip hfee hne hword h,
      fun _ hle => nativeToUsdc_mono hfee hle h⟩,
    fun _ _ h => ⟨usdc_round_trip hfee hne hword h,
      fun _ hle => usdcToNative_mono hfee hne hle hword h⟩⟩

/-- One and a half native units at 2500 USDC and the highest fee, and 1000 USDC. -/
theorem conversions_at_2500 :
    let c : Config := ⟨1, 2, 3, 500⟩
    nativeToUsdc c 1500000000000000000 2500000000 = .ok (3562500000, 187500000) ∧
      (∃ back fee', usdcToNative c 3562500000 2500000000 = .ok (back, fee') ∧
        back ≤ 1500000000000000000) ∧
      usdcToNative c 1000000000 2500000000 = .ok (380000000000000000, 50000000) ∧
      ∃ back fee', nativeToUsdc c 380000000000000000 2500000000 = .ok (back, fee') ∧
        back ≤ 1000000000 :=
  ⟨rfl, ((conversion_never_profits ⟨1, 2, 3, 500⟩ (by decide) 2500000000 (by decide)
      1500000000000000000 (by decide)).1 _ _ rfl).1,
    rfl, ((conversion_never_profits ⟨1, 2, 3, 500⟩ (by decide) 2500000000 (by decide)
      1000000000 (by decide)).2 _ _ rfl).1⟩

end NativeReserve
end AlphaForge
