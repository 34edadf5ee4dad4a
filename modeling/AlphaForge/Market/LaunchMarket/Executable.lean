/-
What the service signs, the contracts carry out.

Each formula exists twice.  They agree wherever the contract's intermediate values
fit a word, and the conversion of a sale is monotone in what the pool paid, so a
floor taken before the conversion is a floor after it.
-/
import AlphaForge.Market.LaunchMarket
import AlphaForge.Market.PassPool

namespace AlphaForge
namespace LaunchMarket

open Evm
open MarketTypes (NativeQuote)

variable {e : Answers} {request : QuoteRequest} {signed : Signed}

theorem uint_eq_ok {v : String} {n : Nat} (h : uint v = .ok n) :
    n = Text.ofDecimal v ∧ n < 2 ^ 256 := by
  simp only [uint, bind_eq_ok, ensure_eq_ok, pure_eq_ok] at h
  obtain ⟨_, _, _, hfits, rfl⟩ := h
  exact ⟨rfl, hfits⟩

theorem uint_repr {n : Nat} (h : n < 2 ^ 256) : uint n.repr = .ok n := by
  have hdecimal : Text.isDecimal 77 n.repr = true :=
    Text.isDecimal_repr (Nat.lt_of_lt_of_le h (by decide))
  rw [uint, Text.ofDecimal_repr, ensure_of hdecimal, ok_bind, ensure_of h, ok_bind]
  rfl

/-- An amount is the text it was read from. -/
theorem repr_of_uint {v : String} {n : Nat} (h : uint v = .ok n) : n.repr = v := by
  simp only [uint, bind_eq_ok, ensure_eq_ok, pure_eq_ok] at h
  obtain ⟨_, hdecimal, _, _, rfl⟩ := h
  exact Text.repr_ofDecimal hdecimal

theorem lt_of_uint {v : String} {n : Nat} (h : uint v = .ok n) : n < 2 ^ 256 :=
  (uint_eq_ok h).2

/-! ## The two conversions -/

/-- An amount less its fee, in one division. -/
theorem net_eq {feeBps : Nat} (hfee : feeBps ≤ 10000) (amount : Nat) :
    amount - ceilDiv (amount * feeBps) 10000 = amount * (10000 - feeBps) / 10000 := by
  have hle : amount * feeBps ≤ amount * 10000 := Nat.mul_le_mul_left amount hfee
  unfold ceilDiv
  rw [Nat.mul_sub]
  omega

theorem fee_le {feeBps : Nat} (hfee : feeBps ≤ 10000) (amount : Nat) :
    ceilDiv (amount * feeBps) 10000 ≤ amount := by
  have hle : amount * feeBps ≤ amount * 10000 := Nat.mul_le_mul_left amount hfee
  unfold ceilDiv
  omega

theorem net_mono {feeBps a b : Nat} (hfee : feeBps ≤ 10000) (h : a ≤ b) :
    a - ceilDiv (a * feeBps) 10000 ≤ b - ceilDiv (b * feeBps) 10000 := by
  rw [net_eq hfee, net_eq hfee]
  exact Nat.div_le_div_right (Nat.mul_le_mul_right _ h)

section Reserve

variable {c : NativeReserve.Config} (hfee : c.conversionFeeBps ≤ 500)

include hfee

theorem nativeToUsdc_of {eth price : Nat} (hfits : eth * price / 10 ^ 18 ≤ maxUint256) :
    NativeReserve.nativeToUsdc c eth price =
      .ok (eth * price / 10 ^ 18 - ceilDiv (eth * price / 10 ^ 18 * c.conversionFeeBps) 10000,
        ceilDiv (eth * price / 10 ^ 18 * c.conversionFeeBps) 10000) := by
  have hle := fee_le (by omega : c.conversionFeeBps ≤ 10000) (eth * price / 10 ^ 18)
  have hceil : (mulDivCeil (eth * price / 10 ^ 18) c.conversionFeeBps 10000 : Result Empty Nat) =
      .ok (ceilDiv (eth * price / 10 ^ 18 * c.conversionFeeBps) 10000) :=
    mulDivCeil_of (by decide) (Nat.le_trans hle hfits)
  rw [NativeReserve.nativeToUsdc, mulDiv_of (by decide) hfits, ok_bind, hceil, ok_bind,
    checkedSub_of hle, ok_bind]
  rfl

theorem usdcToNative_of {usdc price : Nat} (hprice : price ≠ 0) (husdc : usdc ≤ maxUint256)
    (hfits : (usdc - ceilDiv (usdc * c.conversionFeeBps) 10000) * 10 ^ 18 / price ≤ maxUint256) :
    NativeReserve.usdcToNative c usdc price =
      .ok ((usdc - ceilDiv (usdc * c.conversionFeeBps) 10000) * 10 ^ 18 / price,
        ceilDiv (usdc * c.conversionFeeBps) 10000) := by
  have hle := fee_le (by omega : c.conversionFeeBps ≤ 10000) usdc
  have hceil : (mulDivCeil usdc c.conversionFeeBps 10000 : Result Empty Nat) =
      .ok (ceilDiv (usdc * c.conversionFeeBps) 10000) :=
    mulDivCeil_of (by decide) (Nat.le_trans hle husdc)
  rw [NativeReserve.usdcToNative, hceil, ok_bind, checkedSub_of hle, ok_bind,
    mulDiv_of hprice hfits, ok_bind]
  rfl

end Reserve

/-! ## The pool -/

section Pool

variable {amount reserveIn reserveOut output fee : Nat}

/-- The quote of the pool in one formula, where its denominator fits a word. -/
theorem pool_quote_eq_ok (hamount : 0 < amount) (hin : 0 < reserveIn) (hout : 0 < reserveOut)
    (ha : amount ≤ maxUint256) (ho : reserveOut ≤ maxUint256)
    (hfits : reserveIn + (amount - ceilDiv (amount * 30) 10000) ≤ maxUint256) :
    PassPool.quote true reserveIn reserveOut amount = .ok (output, fee) ↔
      fee = ceilDiv (amount * 30) 10000 ∧
      output = (amount - fee) * reserveOut / (reserveIn + (amount - fee)) ∧
      output ≠ 0 ∧ output < reserveOut := by
  have hle := fee_le (by decide : 30 ≤ 10000) amount
  have hceil : (mulDivCeil amount PassPool.feeBps 10000 : Result Empty Nat) =
      .ok (ceilDiv (amount * 30) 10000) := mulDivCeil_of (by decide) (Nat.le_trans hle ha)
  have hquotient : reserveOut * (amount - ceilDiv (amount * 30) 10000) /
      (reserveIn + (amount - ceilDiv (amount * 30) 10000)) ≤ maxUint256 := by
    refine Nat.le_trans (Nat.div_le_of_le_mul ?_) ho
    rw [Nat.mul_comm]
    exact Nat.mul_le_mul_right _ (Nat.le_add_left _ _)
  have hopen : (true : Bool) = true ∧ amount ≠ 0 ∧ reserveIn ≠ 0 ∧ reserveOut ≠ 0 :=
    ⟨rfl, by omega, by omega, by omega⟩
  rw [PassPool.quote, require_of hopen, ok_bind, hceil, ok_bind, checkedSub_of hle, ok_bind,
    checkedAdd_of hfits, ok_bind, mulDiv_of (by omega) hquotient, ok_bind,
    Nat.mul_comm reserveOut]
  simp only [bind_eq_ok, require_eq_ok, pure_eq_ok, Prod.mk.injEq]
  constructor
  · rintro ⟨_, hpositive, rfl, rfl⟩
    exact ⟨rfl, rfl, hpositive⟩
  · rintro ⟨rfl, rfl, hpositive⟩
    exact ⟨(), hpositive, rfl, rfl⟩

theorem ammQuote_eq_ok (hamount : 0 < amount) (hin : 0 < reserveIn) (hout : 0 < reserveOut) :
    (∃ impact, ammQuote amount reserveIn reserveOut 30 = .ok ⟨output, fee, impact⟩) ↔
      fee = ceilDiv (amount * 30) 10000 ∧
      output = (amount - fee) * reserveOut / (reserveIn + (amount - fee)) ∧
      output ≠ 0 ∧ output < reserveOut := by
  simp only [ammQuote, bind_eq_ok, ensure_eq_ok, pure_eq_ok, AmmQuote.mk.injEq]
  constructor
  · rintro ⟨impact, _, _, _, _, _, hpositive, rfl, rfl, _⟩
    exact ⟨rfl, rfl, hpositive⟩
  · rintro ⟨rfl, rfl, hpositive⟩
    exact ⟨_, (), ⟨hamount, hin, hout⟩, (), by decide, (), hpositive, rfl, rfl, rfl⟩

end Pool

/-! ## What was signed -/

/-- The amounts behind a signed quote. -/
structure Computed (e : Answers) (request : QuoteRequest) (signed : Signed) (amount price : Nat)
    (a : Amounts) : Prop where
  read : amount = Text.ofDecimal request.amountRaw
  positive : amount ≠ 0
  priced : price ≠ 0
  computed : amounts e request amount price = .ok a
  affordable : request.operation ≠ .sell → a.ethAmount < 2 ^ 256
  amountIn : signed.value.amountIn = if request.operation = .sell then amount else a.ethAmount
  usdcAmount : signed.value.usdcAmount =
    if request.operation = .sell then a.minUsdc else a.usdcAmount
  minOut : signed.value.minOut = a.minOut
  ethAmount : signed.value.ethAmount = a.ethAmount
  ethUsdPrice : signed.value.ethUsdPrice = price

theorem quote_ok (h : quote e request = .ok signed) :
    ∃ amount price a, Computed e request signed amount price a := by
  simp only [quote, bind_eq_ok, ensure_eq_ok] at h
  obtain ⟨amount, hamount, _, _, _, hopen, h⟩ := h
  have hpositive : amount ≠ 0 := by
    simp only [checkOpen, bind_eq_ok, ensure_eq_ok] at hopen
    obtain ⟨_, hne, _⟩ := hopen
    exact hne
  split at h
  · next reference signer _ _ =>
    simp only [bind_eq_ok, ensure_eq_ok, pure_eq_ok] at h
    obtain ⟨_, _, ⟨price, expiresAt⟩, hprice, _, _, a, ha, _, hbalance, _, _, rfl⟩ := h
    simp only [readPrice, bind_eq_ok, ensure_eq_ok, pure_eq_ok, Prod.mk.injEq] at hprice
    obtain ⟨_, _, _, ⟨hprice, _⟩, _, _, rfl, _⟩ := hprice
    refine ⟨amount, _, a, (uint_eq_ok hamount).1, hpositive, hprice, ha, fun hside => ?_, rfl, rfl,
      rfl, rfl, rfl⟩
    simp only [checkBalance, if_neg hside, bind_eq_ok, ensure_eq_ok] at hbalance
    obtain ⟨balance, hread, hle⟩ := hbalance
    exact Nat.lt_of_le_of_lt hle (uint_eq_ok hread).2
  · cases h

section Signed

variable {c : NativeReserve.Config} {amount price : Nat} {a : Amounts}

theorem mint_signed (h : Computed e request signed amount price a)
    (hmint : request.operation = .mint) :
    amount % (2 * 10 ^ 12) = 0 ∧ signed.value.usdcAmount = amount / (2 * 10 ^ 12) ∧
      signed.value.minOut = amount ∧ signed.value.amountIn = signed.value.ethAmount ∧
      (mulDivCeil signed.value.usdcAmount (10 ^ 18) signed.value.ethUsdPrice : Result Empty Nat) =
        .ok signed.value.ethAmount := by
  have hcomputed := h.computed
  have hfits := h.affordable (by simp [hmint])
  simp only [amounts, hmint, mintAmounts, mintCost, bind_eq_ok, ensure_eq_ok, pure_eq_ok] at hcomputed
  obtain ⟨_, ⟨_, _, _, hexact, rfl⟩, rfl⟩ := hcomputed
  have husdc : signed.value.usdcAmount = amount * mintPriceUsdc / passUnit := by
    simpa [hmint] using h.usdcAmount
  have hin : signed.value.amountIn = signed.value.ethAmount := by
    rw [h.amountIn, h.ethAmount, if_neg (by simp [hmint])]
  have hmax : maxUint256 = 2 ^ 256 - 1 := rfl
  have hunit : amount * mintPriceUsdc / passUnit = amount / (2 * 10 ^ 12) := by
    unfold mintPriceUsdc passUnit
    omega
  refine ⟨hexact, husdc.trans hunit, h.minOut, hin, ?_⟩
  rw [h.ethUsdPrice, husdc, h.ethAmount]
  refine mulDivCeil_of h.priced ?_
  unfold ceilDiv at hfits
  dsimp only at hfits
  omega

theorem buy_signed (hbps : e.conversion.feeBps = c.conversionFeeBps)
    (hfee : c.conversionFeeBps ≤ 500) (h : Computed e request signed amount price a)
    (hbuy : request.operation = .buy)
    (hgross : signed.value.ethAmount * signed.value.ethUsdPrice / 10 ^ 18 ≤ maxUint256) :
    ∃ fee, NativeReserve.nativeToUsdc c signed.value.ethAmount signed.value.ethUsdPrice =
      .ok (signed.value.usdcAmount, fee) := by
  have hcomputed := h.computed
  simp only [amounts, hbuy, buyAmounts, usdcForEth, bind_eq_ok, ensure_eq_ok, pure_eq_ok] at hcomputed
  obtain ⟨_, ⟨_, _, rfl⟩, _, _, _, _, _, _, _, _, _, _, minOut, _, rfl⟩ := hcomputed
  have husdc := h.usdcAmount
  rw [if_neg (by simp [hbuy]), hbps, Int.toNat_natCast] at husdc
  rw [h.ethAmount, h.ethUsdPrice] at hgross ⊢
  rw [husdc]
  exact ⟨_, nativeToUsdc_of hfee hgross⟩

theorem sell_signed (hbps : e.conversion.feeBps = c.conversionFeeBps)
    (hfee : c.conversionFeeBps ≤ 500) (h : Computed e request signed amount price a)
    (hsell : request.operation = .sell) {actualUsdc : Nat} (hword : actualUsdc ≤ maxUint256)
    (hactual : signed.value.usdcAmount ≤ actualUsdc)
    (hfits : (actualUsdc - ceilDiv (actualUsdc * c.conversionFeeBps) 10000) * 10 ^ 18 /
      signed.value.ethUsdPrice ≤ maxUint256) :
    ∃ output fee, NativeReserve.usdcToNative c actualUsdc signed.value.ethUsdPrice =
      .ok (output, fee) ∧ signed.value.minOut ≤ output := by
  have hcomputed := h.computed
  simp only [amounts, hsell, sellAmounts, ethSaleOutput, bind_eq_ok, ensure_eq_ok,
    pure_eq_ok] at hcomputed
  obtain ⟨_, _, _, _, minUsdc, _, _, _, _, ⟨_, _, rfl⟩, _, _, _, _, _, _, _, _, _, _, _, _,
    rfl⟩ := hcomputed
  have husdc := h.usdcAmount
  rw [if_pos hsell] at husdc
  rw [husdc] at hactual
  have hminOut := h.minOut
  rw [hbps, Int.toNat_natCast] at hminOut
  rw [h.ethUsdPrice] at hfits ⊢
  refine ⟨_, _, usdcToNative_of hfee h.priced hword hfits, ?_⟩
  rw [hminOut]
  exact Nat.div_le_div_right (Nat.mul_le_mul_right _ (net_mono (by omega) hactual))

end Signed

/-- A quote that was signed satisfies the arithmetic of the contract it is for, and
the two formulas of the pool agree, where the contract's values fit a word. -/
theorem signed_quotes_executable {c : NativeReserve.Config}
    (hbps : e.conversion.feeBps = c.conversionFeeBps) (hfee : c.conversionFeeBps ≤ 500) :
    (∀ request signed, quote e request = .ok signed → signed.value.minOut ≠ 0 →
      match request.operation with
      | .mint =>
          Text.ofDecimal request.amountRaw ≠ 0 ∧
          Text.ofDecimal request.amountRaw % (2 * 10 ^ 12) = 0 ∧
          signed.value.usdcAmount = Text.ofDecimal request.amountRaw / (2 * 10 ^ 12) ∧
          signed.value.minOut = Text.ofDecimal request.amountRaw ∧
          signed.value.amountIn = signed.value.ethAmount ∧
          (mulDivCeil signed.value.usdcAmount (10 ^ 18) signed.value.ethUsdPrice :
            Result Empty Nat) = .ok signed.value.ethAmount
      | .buy =>
          signed.value.amountIn = signed.value.ethAmount ∧
          (signed.value.ethAmount * signed.value.ethUsdPrice / 10 ^ 18 ≤ maxUint256 →
            ∃ fee, NativeReserve.nativeToUsdc c signed.value.ethAmount signed.value.ethUsdPrice =
              .ok (signed.value.usdcAmount, fee))
      | .sell =>
          ∀ actualUsdc, actualUsdc ≤ maxUint256 → signed.value.usdcAmount ≤ actualUsdc →
            (actualUsdc - ceilDiv (actualUsdc * c.conversionFeeBps) 10000) * 10 ^ 18 /
              signed.value.ethUsdPrice ≤ maxUint256 →
            ∃ output fee, NativeReserve.usdcToNative c actualUsdc signed.value.ethUsdPrice =
              .ok (output, fee) ∧ signed.value.minOut ≤ output) ∧
    ∀ amount reserveIn reserveOut output fee, 0 < amount → 0 < reserveIn → 0 < reserveOut →
      amount ≤ maxUint256 → reserveOut ≤ maxUint256 →
      reserveIn + (amount - ceilDiv (amount * 30) 10000) ≤ maxUint256 →
      ((∃ impact, ammQuote amount reserveIn reserveOut 30 = .ok ⟨output, fee, impact⟩) ↔
        PassPool.quote true reserveIn reserveOut amount = .ok (output, fee)) := by
  refine ⟨fun request signed hquote _ => ?_, ?_⟩
  · obtain ⟨amount, price, a, h⟩ := quote_ok hquote
    have hread := h.read
    subst hread
    split
    · next hmint => exact ⟨h.positive, mint_signed h hmint⟩
    · next hbuy =>
      refine ⟨?_, buy_signed hbps hfee h hbuy⟩
      rw [h.amountIn, h.ethAmount, if_neg (by simp [hbuy])]
    · next hsell =>
      intro actualUsdc hword hactual hfits
      exact sell_signed hbps hfee h hsell hword hactual hfits
  · intro amount reserveIn reserveOut output fee hamount hin hout ha ho hfits
    rw [ammQuote_eq_ok hamount hin hout, pool_quote_eq_ok hamount hin hout ha ho hfits]

/-- A launched market at a fee and a price, with what the pool answers. -/
def exampleAnswers (feeBps : Int) (price usdcReserve output : String) : Answers :=
  { router := 5, strategy := fun _ => ⟨7, none⟩
    market := fun _ => ⟨.launched, "0", some 8, "500000000000000000000000", "250000000000"⟩
    conversion := ⟨"200000000000000000000", usdcReserve, true, true, none, feeBps⟩
    accountKey := 1, ethBalanceRaw := "2000000000000000000"
    availableRaw := fun _ => "1000000000000000000000"
    reference := some ⟨price, 95⟩, signer := some 6, now := 100, policySigner := 6, policyEpoch := 1
    quoteAmm := fun _ _ _ => .ok ⟨output, "3"⟩, nonce := 77 }

def exampleRequest (operation : Operation) (amountRaw : String) (slippageBps : Int) : QuoteRequest :=
  ⟨9, .tsla, operation, amountRaw, slippageBps⟩

def exampleReserve (conversionFeeBps : Nat) : NativeReserve.Config := ⟨4, 2, 3, conversionFeeBps⟩

/-- A sale of 100 PASS at 2000 dollars, with a percent of slippage and of fee, and
a quote of the pool. -/
theorem sale_executable :
    (∃ signed, quote (exampleAnswers 100 "2000000000" "1000000000000" "49840000")
        (exampleRequest .sell "100000000000000000000" 100) = .ok signed ∧
      ∃ output fee, NativeReserve.usdcToNative (exampleReserve 100) 49500000
        signed.value.ethUsdPrice = .ok (output, fee) ∧ signed.value.minOut ≤ output) ∧
    PassPool.quote true 250000000000 (500000 * 10 ^ 18) 100000000 =
      .ok (199320510980221087830, 300000) := by
  have hbps : (exampleAnswers 100 "2000000000" "1000000000000" "49840000").conversion.feeBps =
      (exampleReserve 100).conversionFeeBps := rfl
  obtain ⟨hquotes, hpool⟩ := signed_quotes_executable hbps (by decide)
  have hsigned : quote (exampleAnswers 100 "2000000000" "1000000000000" "49840000")
      (exampleRequest .sell "100000000000000000000" 100) = .ok _ := rfl
  have hmin := hquotes _ _ hsigned (by decide)
  refine ⟨⟨_, hsigned, ?_⟩, ?_⟩
  · exact hmin 49500000 (by decide) (by decide) (by decide)
  · exact (hpool _ _ _ _ _ (by decide) (by decide) (by decide) (by decide) (by decide)
      (by decide)).mp ⟨_, rfl⟩

set_option maxRecDepth 4096 in
/-- Values beyond a word: a sale into a pool that pays `2 ^ 255`, a buy whose gross
value is `2 ^ 256`, and reserves whose sum is. -/
theorem overflows_not_executable :
    (∃ signed, quote (exampleAnswers 0 "1" "0" "100") (exampleRequest .sell "1000" 0) =
        .ok signed ∧ signed.value.minOut ≠ 0 ∧ signed.value.usdcAmount ≤ 2 ^ 255 ∧
      NativeReserve.usdcToNative (exampleReserve 0) (2 ^ 255) signed.value.ethUsdPrice =
        .error arithmeticPanic) ∧
    (∃ signed, quote (exampleAnswers 500
        "57896044618658097711785492504343953926634992332820282019728792003956564819968"
        "115792089237316195423570985008687907853269984665640564039457584007913129639935" "1000")
        (exampleRequest .buy "2000000000000000000" 0) = .ok signed ∧ signed.value.minOut ≠ 0 ∧
      NativeReserve.nativeToUsdc (exampleReserve 500) signed.value.ethAmount
        signed.value.ethUsdPrice = .error arithmeticPanic) ∧
    (∃ answer, ammQuote 10000 (2 ^ 256 - 1) (2 ^ 256 - 1) 30 = .ok answer ∧
      PassPool.quote true (2 ^ 256 - 1) (2 ^ 256 - 1) 10000 = .error arithmeticPanic) := by
  refine ⟨⟨_, rfl, by decide, by decide, rfl⟩, ⟨_, rfl, by decide, rfl⟩, ⟨_, rfl, rfl⟩⟩

end LaunchMarket
end AlphaForge
