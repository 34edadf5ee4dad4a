/-
The figures of a quote, as the service decides them.

A sale for ETH is computed in USDC and shown in ETH.  At a price of at most one USDC
unit a wei the floor of its conversion loses less than a unit, and a ceiling brings it
back.  The figures of every branch fit a word, except the fee of a sale in USDC.
-/
import AlphaForge.Market.LaunchMarket.Inverse
import AlphaForge.Market.QuoteService

namespace AlphaForge
namespace QuoteService

open Evm
open LaunchMarket (Thrown ceilDiv ethSaleOutput lt_of_uint minOutput uint_repr)
open QuoteTransaction

/-! ## A sale for ETH -/

section Sale

variable {usdc price output : Nat} {feeBps : Int}

theorem ethSaleOutput_eq_ok : ethSaleOutput usdc price feeBps = .ok output ↔
    (0 < usdc ∧ 0 < price ∧ 0 ≤ feeBps ∧ feeBps ≤ 1000) ∧
      (usdc - ceilDiv (usdc * feeBps.toNat) 10000) * 10 ^ 18 / price = output := by
  simp only [ethSaleOutput, bind_eq_ok, ensure_eq_ok, pure_eq_ok, exists_const]

theorem ethSaleOutput_mono {usdc' output' : Nat} (hle : usdc' ≤ usdc)
    (h : ethSaleOutput usdc price feeBps = .ok output)
    (h' : ethSaleOutput usdc' price feeBps = .ok output') : output' ≤ output := by
  obtain ⟨⟨_, _, hlow, hhigh⟩, rfl⟩ := ethSaleOutput_eq_ok.mp h
  obtain ⟨_, rfl⟩ := ethSaleOutput_eq_ok.mp h'
  have hnet := LaunchMarket.net_mono (by omega : feeBps.toNat ≤ 10000) hle
  exact Nat.div_le_div_right (Nat.mul_le_mul_right _ hnet)

/-- The ceiling brings back what the floor of the conversion lost. -/
theorem ceilDiv_floor {net : Nat} (hprice : 0 < price) (hunit : price ≤ 10 ^ 18) :
    ceilDiv (net * 10 ^ 18 / price * price) (10 ^ 18) = net := by
  apply Nat.le_antisymm
  · rw [LaunchMarket.ceilDiv_le_iff (by decide)]
    exact Nat.div_mul_le_self _ _
  · by_contra hless
    have hceil : net * 10 ^ 18 / price * price ≤ (net - 1) * 10 ^ 18 :=
      (LaunchMarket.ceilDiv_le_iff (by decide) _).mp (by omega)
    have hfloor : net * 10 ^ 18 < net * 10 ^ 18 / price * price + price :=
      Nat.lt_div_mul_add hprice
    omega

/-- The client recovers what the pool paid. -/
theorem gross_recovered (hunit : price ≤ 10 ^ 18)
    (h : ethSaleOutput usdc price feeBps = .ok output) :
    ceilDiv (output * price) (10 ^ 18) + ceilDiv (usdc * feeBps.toNat) 10000 = usdc := by
  obtain ⟨⟨_, hprice, hlow, hhigh⟩, rfl⟩ := ethSaleOutput_eq_ok.mp h
  have hfee := LaunchMarket.fee_le (by omega : feeBps.toNat ≤ 10000) usdc
  rw [ceilDiv_floor hprice hunit]
  omega

theorem ceilDiv_tdiv (hlow : 0 ≤ feeBps) :
    ((usdc : Int) * feeBps + 10000 - 1).tdiv 10000 = (ceilDiv (usdc * feeBps.toNat) 10000 : Nat) := by
  obtain ⟨fee, rfl⟩ := Int.eq_ofNat_of_zero_le hlow
  have hcast : (usdc : Int) * fee + 10000 - 1 = ((usdc * fee + 10000 - 1 : Nat) : Int) := by
    have hone : 1 ≤ usdc * fee + 10000 := by omega
    rw [Int.ofNat_sub hone]
    push_cast
    rfl
  rw [hcast, Int.toNat_natCast, ceilDiv]
  exact (Int.ofNat_tdiv _ _).symm

end Sale

/-! ## What the service decides -/

section Native

variable {e : LaunchMarket.Answers} {request : LaunchMarket.QuoteRequest}
  {signed : LaunchMarket.Signed}

/-- The amounts behind a quote that was signed. -/
structure Figures (e : LaunchMarket.Answers) (request : LaunchMarket.QuoteRequest)
    (signed : LaunchMarket.Signed) (amount price : Nat) (reference : LaunchMarket.EthReference)
    (a : LaunchMarket.Amounts) : Prop where
  read : LaunchMarket.uint request.amountRaw = .ok amount
  referenced : e.reference = some reference
  priced : LaunchMarket.uint reference.ethUsdPriceRaw = .ok price
  computed : LaunchMarket.amounts e request amount price = .ok a
  fits : LaunchMarket.Fits signed.value
  output : signed.output = a.output
  conversionFee : signed.conversionFee = a.conversionFee
  minOut : signed.value.minOut = a.minOut
  minUsdc : request.operation = .sell → signed.value.usdcAmount = a.minUsdc

theorem figures_of_quote (h : LaunchMarket.quote e request = .ok signed) :
    ∃ amount price reference a, Figures e request signed amount price reference a := by
  simp only [LaunchMarket.quote, bind_eq_ok, ensure_eq_ok] at h
  obtain ⟨amount, hamount, _, _, _, _, h⟩ := h
  split at h
  · next reference signer hreference _ =>
    simp only [bind_eq_ok, ensure_eq_ok, pure_eq_ok] at h
    obtain ⟨_, _, ⟨price, expiresAt⟩, hprice, _, _, a, ha, _, _, _, hfits, rfl⟩ := h
    simp only [LaunchMarket.readPrice, bind_eq_ok, ensure_eq_ok, pure_eq_ok, Prod.mk.injEq] at hprice
    obtain ⟨_, hread, _, _, _, _, rfl, _⟩ := hprice
    exact ⟨amount, _, reference, a, hamount, hreference, hread, ha, hfits, rfl, rfl, rfl,
      fun hsell => if_pos hsell⟩
  · cases h

section Figures

variable {amount price : Nat} {reference : LaunchMarket.EthReference} {a : LaunchMarket.Amounts}

theorem Figures.mint (h : Figures e request signed amount price reference a)
    (hmint : request.operation = .mint) :
    signed.output = amount ∧ signed.value.minOut = amount ∧ signed.conversionFee = 0 := by
  have hcomputed := h.computed
  simp only [LaunchMarket.amounts, hmint, LaunchMarket.mintAmounts, bind_eq_ok,
    pure_eq_ok] at hcomputed
  obtain ⟨_, _, rfl⟩ := hcomputed
  exact ⟨h.output, h.minOut, h.conversionFee⟩

theorem Figures.buy (h : Figures e request signed amount price reference a)
    (hbuy : request.operation = .buy) (hunit : price ≤ 10 ^ 18) :
    minOutput signed.output request.slippageBps = .ok signed.value.minOut ∧
      signed.output < 2 ^ 256 ∧ signed.conversionFee < 2 ^ 256 := by
  have hcomputed := h.computed
  simp only [LaunchMarket.amounts, hbuy, LaunchMarket.buyAmounts, bind_eq_ok, ensure_eq_ok,
    pure_eq_ok] at hcomputed
  obtain ⟨_, _, _, _, _, _, _, _, output, houtput, _, _, minOut, hminOut, rfl⟩ := hcomputed
  refine ⟨?_, ?_, ?_⟩
  · rw [h.output, h.minOut]
    exact hminOut
  · rw [h.output]
    exact lt_of_uint houtput
  · have hgross : amount * price / 10 ^ 18 ≤ amount :=
      Nat.div_le_of_le_mul (by rw [Nat.mul_comm]; exact Nat.mul_le_mul_right _ hunit)
    have hamount := lt_of_uint h.read
    rw [h.conversionFee]
    show amount * price / 10 ^ 18 - _ < _
    omega

/-- A sale for ETH in terms of what the pool pays. -/
structure NativeSale (e : LaunchMarket.Answers) (request : LaunchMarket.QuoteRequest)
    (signed : LaunchMarket.Signed) (amount price usdc : Nat) : Prop where
  answered : ∃ answer, e.quoteAmm request.strategyId .sell amount = .ok answer ∧
    LaunchMarket.uint answer.outputRaw = .ok usdc
  minUsdc : minOutput usdc request.slippageBps = .ok signed.value.usdcAmount
  output : ethSaleOutput usdc price e.conversion.feeBps = .ok signed.output
  minOut : ethSaleOutput signed.value.usdcAmount price e.conversion.feeBps =
    .ok signed.value.minOut
  conversionFee : signed.conversionFee = ceilDiv (usdc * e.conversion.feeBps.toNat) 10000
  covered : signed.output < 2 ^ 256

theorem Figures.sell (h : Figures e request signed amount price reference a)
    (hsell : request.operation = .sell) :
    ∃ usdc, NativeSale e request signed amount price usdc := by
  have hcomputed := h.computed
  simp only [LaunchMarket.amounts, hsell, LaunchMarket.sellAmounts, bind_eq_ok, ensure_eq_ok,
    pure_eq_ok] at hcomputed
  obtain ⟨answer, hanswer, usdc, husdc, minUsdc, hminUsdc, ethAmount, hethAmount, minOut, hminOut,
    reserve, hreserve, _, hcovered, _, _, _, _, _, _, _, _, rfl⟩ := hcomputed
  have hsigned : signed.value.usdcAmount = minUsdc := h.minUsdc hsell
  refine ⟨usdc, ⟨answer, hanswer, husdc⟩, ?_, ?_, ?_, h.conversionFee, ?_⟩
  · rw [hsigned]
    exact hminUsdc
  · rw [h.output]
    exact hethAmount
  · rw [hsigned, h.minOut]
    exact hminOut
  · rw [h.output]
    exact Nat.lt_of_le_of_lt hcovered (lt_of_uint hreserve)

end Figures

end Native

section Drafts

variable {ethers : Ethers} {e : Answers} {request : QuoteRequest} {amount : Nat} {d : Draft}

theorem minOutput_le {slippageBps : Int} {out least : Nat}
    (h : minOutput out slippageBps = .ok least) : least ≤ out := by
  simp only [minOutput, bind_eq_ok, ensure_eq_ok, pure_eq_ok] at h
  obtain ⟨_, ⟨hlow, hhigh⟩, _, _, rfl⟩ := h
  refine Nat.div_le_of_le_mul ?_
  rw [Nat.mul_comm]
  exact Nat.mul_le_mul_right _ (by omega)

/-- What a branch decides, as far as the client checks the figures for themselves. -/
structure Presentable (d : Draft) : Prop where
  output : d.output < 2 ^ 256
  minOut : d.minOut ≤ d.output
  conversionFee : d.conversionFee < 2 ^ 256
  value : ∃ n, LaunchMarket.uint d.transaction.value = .ok n

/-- The price of native currency is at most one USDC unit a wei. -/
def PriceWithin (e : Answers) : Prop :=
  ∀ reference ∈ e.reference, ∀ price,
    LaunchMarket.uint reference.ethUsdPriceRaw = .ok price → price ≤ 10 ^ 18

theorem uint_zero : LaunchMarket.uint "0" = .ok 0 := rfl

theorem claim_presentable (h : claimDraft ethers e request amount = .ok d) :
    Presentable d := by
  simp only [claimDraft, bind_eq_ok] at h
  obtain ⟨_, _, h⟩ := h
  split at h
  · cases h
  · simp only [bind_eq_ok, pure_eq_ok] at h
    obtain ⟨_, _, _, _, _, _, _, _, _, _, _, _, _, _, rfl⟩ := h
    have hfits : claimUsdc < 2 ^ 256 := by decide
    exact ⟨hfits, Nat.le_refl _, Nat.two_pow_pos _, 0, uint_zero⟩

/-- The draft of what was signed. -/
structure Drafted (ethers : Ethers) (e : Answers) (operation : LaunchMarket.Operation)
    (amount : Nat) (d : Draft) (signed : LaunchMarket.Signed) : Prop where
  output : d.output = signed.output
  minOut : d.minOut = signed.value.minOut
  conversionFee : d.conversionFee = signed.conversionFee
  reference : d.reference = e.reference
  value : d.transaction.value = if operation = .sell then "0" else signed.value.ethAmount.repr
  encoded : ∃ signature, ethers.encodeFunctionData
    (signedCall operation amount signed.value signature) = .ok d.transaction.data

theorem drafted_of_native {operation : LaunchMarket.Operation}
    (h : nativeDraft ethers e request operation amount = .ok d) :
    ∃ signed, LaunchMarket.quote e.native (nativeRequest request operation) = .ok signed ∧
      Drafted ethers e operation amount d signed := by
  simp only [nativeDraft, bind_eq_ok, pure_eq_ok] at h
  obtain ⟨signed, hsigned, signature, _, data, hdata, rfl⟩ := h
  exact ⟨signed, hsigned, rfl, rfl, rfl, rfl, rfl, signature, hdata⟩

theorem Drafted.value_read {operation : LaunchMarket.Operation} {signed : LaunchMarket.Signed}
    (h : Drafted ethers e operation amount d signed) (hfits : LaunchMarket.Fits signed.value) :
    ∃ n, LaunchMarket.uint d.transaction.value = .ok n := by
  rw [h.value]
  split
  · exact ⟨0, uint_zero⟩
  · exact ⟨_, uint_repr hfits.2.2.2.2.1⟩

theorem native_presentable (hunit : PriceWithin e) (hread : LaunchMarket.uint request.amountRaw = .ok amount)
    {operation : LaunchMarket.Operation}
    (h : nativeDraft ethers e request operation amount = .ok d) : Presentable d := by
  obtain ⟨signed, hsigned, hdraft⟩ := drafted_of_native h
  obtain ⟨amount', price, reference, a, hfigures⟩ := figures_of_quote hsigned
  have hamount : amount' = amount := Except.ok.inj (hfigures.read.symm.trans hread)
  subst hamount
  have hprice := hunit reference hfigures.referenced price hfigures.priced
  have hvalue := hdraft.value_read hfigures.fits
  obtain ⟨hdout, hdmin, hdfee, _, _, _⟩ := hdraft
  cases operation with
  | mint =>
      obtain ⟨hout, hmin, hfee⟩ := hfigures.mint rfl
      refine ⟨?_, ?_, ?_, hvalue⟩
      · rw [hdout, hout]
        exact lt_of_uint hread
      · rw [hdout, hdmin, hout, hmin]
      · rw [hdfee, hfee]
        exact Nat.two_pow_pos _
  | buy =>
      obtain ⟨hmin, hout, hfee⟩ := hfigures.buy rfl hprice
      rw [← hdout] at hmin hout
      rw [← hdmin] at hmin
      exact ⟨hout, minOutput_le hmin, by rw [hdfee]; exact hfee, hvalue⟩
  | sell =>
      obtain ⟨usdc, hsale⟩ := hfigures.sell rfl
      obtain ⟨⟨answer, _, husdc⟩, hminUsdc, hout, hmin, hfee, hcovered⟩ := hsale
      obtain ⟨⟨_, _, hlow, hhigh⟩, _⟩ := ethSaleOutput_eq_ok.mp hout
      have hfeeLe :=
        LaunchMarket.fee_le (by omega : e.native.conversion.feeBps.toNat ≤ 10000) usdc
      refine ⟨by rw [hdout]; exact hcovered, ?_, ?_, hvalue⟩
      · rw [hdout, hdmin]
        exact ethSaleOutput_mono (minOutput_le hminUsdc) hout hmin
      · rw [hdfee, hfee]
        exact Nat.lt_of_le_of_lt hfeeLe (lt_of_uint husdc)

theorem subscription_ok (h : subscriptionDraft ethers e request amount = .ok d) :
    d.output = amount ∧ d.minOut = amount ∧ d.conversionFee = 0 ∧ d.transaction.value = "0" := by
  simp only [subscriptionDraft, bind_eq_ok, ensure_eq_ok] at h
  obtain ⟨_, _, _, _, _, _, h⟩ := h
  split at h
  · cases h
  · simp only [bind_eq_ok, pure_eq_ok] at h
    obtain ⟨_, _, rfl⟩ := h
    exact ⟨rfl, rfl, rfl, rfl⟩

theorem pool_ok {operation : LaunchMarket.Operation}
    (h : poolDraft ethers e request operation amount = .ok d) :
    minOutput d.output request.slippageBps = .ok d.minOut ∧ d.output < 2 ^ 256 ∧
      d.conversionFee = 0 ∧ d.transaction.value = "0" := by
  simp only [poolDraft, bind_eq_ok] at h
  obtain ⟨_, _, _, _, output, houtput, minOut, hmin, _, _, _, _, h⟩ := h
  split at h
  · cases h
  · simp only [bind_eq_ok, pure_eq_ok] at h
    obtain ⟨_, _, rfl⟩ := h
    exact ⟨hmin, lt_of_uint houtput, rfl, rfl⟩

theorem trade_presentable (hunit : PriceWithin e)
    (hread : LaunchMarket.uint request.amountRaw = .ok amount) {operation : LaunchMarket.Operation}
    (h : tradeDraft ethers e request operation amount = .ok d) : Presentable d := by
  simp only [tradeDraft, bind_eq_ok] at h
  obtain ⟨_, _, h⟩ := h
  split at h
  · exact native_presentable hunit hread h
  split at h
  · obtain ⟨hout, hmin, hfee, hvalue⟩ := subscription_ok h
    refine ⟨by rw [hout]; exact lt_of_uint hread, by rw [hout, hmin], ?_, 0, by rw [hvalue]; rfl⟩
    rw [hfee]
    exact Nat.two_pow_pos _
  · obtain ⟨hmin, hout, hfee, hvalue⟩ := pool_ok h
    refine ⟨hout, minOutput_le hmin, ?_, 0, by rw [hvalue]; rfl⟩
    rw [hfee]
    exact Nat.two_pow_pos _

theorem trade_mint (hread : LaunchMarket.uint request.amountRaw = .ok amount)
    (h : tradeDraft ethers e request .mint amount = .ok d) : d.output = amount := by
  simp only [tradeDraft, bind_eq_ok, if_true] at h
  obtain ⟨_, _, h⟩ := h
  split at h
  · obtain ⟨signed, hsigned, hdraft⟩ := drafted_of_native h
    obtain ⟨amount', price, reference, a, hfigures⟩ := figures_of_quote hsigned
    rw [hdraft.output, (hfigures.mint rfl).1]
    exact Except.ok.inj (hfigures.read.symm.trans hread)
  · exact (subscription_ok h).1

/-- A minimum that is shown as it is enforced. -/
theorem trade_slips {operation : LaunchMarket.Operation} (hmint : operation ≠ .mint)
    (hother : ¬ (operation = .sell ∧ request.asset = .eth)) (hunit : PriceWithin e)
    (h : tradeDraft ethers e request operation amount = .ok d) :
    minOutput d.output request.slippageBps = .ok d.minOut := by
  simp only [tradeDraft, bind_eq_ok, if_neg hmint] at h
  obtain ⟨_, _, h⟩ := h
  split at h
  · next heth =>
    obtain ⟨signed, hsigned, hdraft⟩ := drafted_of_native h
    obtain ⟨amount', price, reference, a, hfigures⟩ := figures_of_quote hsigned
    have hbuy : operation = .buy := by
      cases operation with
      | mint => exact absurd rfl hmint
      | buy => rfl
      | sell => exact absurd ⟨rfl, heth⟩ hother
    subst hbuy
    rw [hdraft.output, hdraft.minOut]
    exact (hfigures.buy rfl (hunit reference hfigures.referenced price hfigures.priced)).1
  · exact (pool_ok h).1

theorem trade_sale (heth : request.asset = .eth)
    (hread : LaunchMarket.uint request.amountRaw = .ok amount)
    (h : tradeDraft ethers e request .sell amount = .ok d) :
    ∃ signed price usdc reference, Drafted ethers e .sell amount d signed ∧
      e.reference = some reference ∧ LaunchMarket.uint reference.ethUsdPriceRaw = .ok price ∧
      NativeSale e.native (nativeRequest request .sell) signed amount price usdc := by
  simp only [tradeDraft, bind_eq_ok, if_pos heth] at h
  obtain ⟨_, _, h⟩ := h
  obtain ⟨signed, hsigned, hdraft⟩ := drafted_of_native h
  obtain ⟨amount', price, reference, a, hfigures⟩ := figures_of_quote hsigned
  have hamount : amount' = amount := Except.ok.inj (hfigures.read.symm.trans hread)
  subst hamount
  obtain ⟨usdc, hsale⟩ := hfigures.sell rfl
  exact ⟨signed, price, usdc, reference, hdraft, hfigures.referenced, hfigures.priced, hsale⟩

theorem priceImpact_le {operation : LaunchMarket.Operation} {output impact : Nat}
    (h : priceImpact e request operation amount output = .ok impact) :
    impact ≤ 10000 := by
  simp only [priceImpact, bind_eq_ok, pure_eq_ok] at h
  obtain ⟨paid, _, reserveIn, _, reserveOut, _, _, _, bought, _, rfl⟩ := h
  generalize paid * reserveOut / reserveIn = spot
  split
  · omega
  · have hshort : (if bought < spot then spot - bought else 0) ≤ spot := by
      split <;> omega
    refine Nat.div_le_of_le_mul ?_
    rw [Nat.mul_comm]
    exact (Nat.mul_le_mul_left _ hshort).trans_eq (Nat.mul_comm _ _)

end Drafts

end QuoteService
end AlphaForge
