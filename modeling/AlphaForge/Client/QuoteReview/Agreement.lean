/-
The client accepts what the service quotes.

What the service itself validated stays valid when the allowance is dropped, the client's
other checks are met by how a quote is made, and from a sale for ETH it recovers what the
pool pays.
-/
import AlphaForge.Client.QuoteReview.Bounded
import AlphaForge.Market.QuoteService.Figures

namespace AlphaForge
namespace QuoteReview

open Evm
open LaunchMarket (ceilDiv lt_of_uint minOutput repr_of_uint)
open MarketTypes (NativeQuote)
open PaymentEstimate (Failure uint uint_eq_ok uint_of_lt)
open QuoteService (Answers Draft Drafted NativeSale Presentable PriceWithin ceilDiv_tdiv
  claim_presentable ethSaleOutput_eq_ok gross_recovered priceImpact_le trade_mint trade_presentable
  trade_sale trade_slips uint_zero)
open QuoteTransaction

/-! ## What the client finds -/

section Accepted

variable {ethers : Ethers} {e : Answers} {request : QuoteRequest} {held : Held}
  {amount impact : Nat} {d : Draft} {q : MarketQuote}

/-- A quote that the service made, before it is simulated. -/
structure Built (ethers : Ethers) (e : Answers) (request : QuoteRequest) (amount : Nat) (d : Draft)
    (impact : Nat) : Prop where
  read : LaunchMarket.uint request.amountRaw = .ok amount
  drafted : QuoteService.draft ethers e request amount = .ok (d, impact)
  validated : validateQuoteTransaction ethers (QuoteService.base e request amount d impact)
    e.manifest (some e.snapshot) none = .ok ()

theorem built_of_quote (h : QuoteService.quote ethers e request = .ok q)
    (htrade : QuoteService.forVault request.operation = false) :
    ∃ amount d impact, Built ethers e request amount d impact ∧
      QuoteService.simulated e (QuoteService.base e request amount d impact) = .ok q := by
  simp only [QuoteService.quote, bind_eq_ok, htrade, Bool.false_eq_true, if_false, ensure_eq_ok,
    pure_eq_ok] at h
  obtain ⟨amount, hamount, _, _, _, _, ⟨d, impact⟩, hdraft, _, hvalid, result, hresult, _, _, _, _,
    rfl⟩ := h
  exact ⟨amount, d, impact, ⟨hamount, hdraft, hvalid⟩, hresult⟩

/-- A simulation drops the allowance or keeps it. -/
theorem simulated_ok {b : MarketQuote} (h : QuoteService.simulated e b = .ok q) :
    (∃ gas n, q = { b with allowance := none, gasEstimateRaw := some gas } ∧
      LaunchMarket.uint gas = .ok n ∧ n ≠ 0) ∨
    (q = { b with simulation := .approvalRequired } ∧ b.allowance ≠ none) := by
  unfold QuoteService.simulated at h
  split at h
  · next gas hgas =>
    simp only [QuoteService.gasOf, bind_eq_ok, ensure_eq_ok, pure_eq_ok] at hgas
    obtain ⟨_, _, n, hn, _, hpos, rfl⟩ := hgas
    exact .inl ⟨_, n, (Except.ok.inj h).symm, hn, hpos⟩
  · split at h
    · next hwanted => exact .inr ⟨(Except.ok.inj h).symm, hwanted.2⟩
    · cases h

/-- Whoever quotes for a wallet of his own vaults quotes a trade or a claim for anyone. -/
theorem checkCall_wallet {b : MarketQuote} {manifest : Manifest} {snapshot : Option MarketSnapshot}
    {owner target : Address} (htrade : QuoteService.forVault b.operation = false)
    (wallet : Option WalletVaults) :
    checkCall ethers b manifest snapshot wallet owner target =
      checkCall ethers b manifest snapshot none owner target := by
  unfold checkCall
  cases hop : b.operation <;> simp_all [QuoteService.forVault]

/-- Amounts in native currency need no allowance, except those of a sale. -/
theorem nativeAmounts_allowance {b : MarketQuote} {passAmount : Nat} {v : NativeQuote}
    (hop : b.operation = .mint ∨ b.operation = .buy)
    (h : checkNativeAmounts b passAmount v = .ok ()) : b.allowance = none := by
  rcases hop with hop | hop
  · simp only [checkNativeAmounts, hop, bind_eq_ok, ensure_eq_ok] at h
    obtain ⟨_, _, _, _, _, _, _, _, _, _, _, _, _, _, _, _, hnone⟩ := h
    exact hnone
  · simp only [checkNativeAmounts, hop, bind_eq_ok, ensure_eq_ok] at h
    obtain ⟨_, _, _, _, _, _, _, _, hnone⟩ := h
    exact hnone

theorem native_allowance {b : MarketQuote} {manifest : Manifest} {owner target : Address}
    (hop : b.operation = .mint ∨ b.operation = .buy)
    (h : checkNative ethers b manifest owner target = .ok ()) : b.allowance = none := by
  simp only [checkNative, bind_eq_ok] at h
  obtain ⟨_, _, h⟩ := h
  split at h
  · simp only [bind_eq_ok] at h
    obtain ⟨_, _, hamounts⟩ := h
    exact nativeAmounts_allowance hop hamounts
  · cases h

/-- A valid call stays valid without its allowance. -/
theorem checkCall_dropped {b : MarketQuote} {manifest : Manifest} {snapshot : Option MarketSnapshot}
    {owner target : Address} {gas : Option String}
    (htrade : QuoteService.forVault b.operation = false)
    (h : checkCall ethers b manifest snapshot none owner target = .ok ()) :
    checkCall ethers { b with allowance := none, gasEstimateRaw := gas } manifest snapshot none
      owner target = .ok () := by
  by_cases hnone : b.allowance = none
  · rw [← hnone]
    exact h
  obtain ⟨_, _, _, operation, asset⟩ := b
  cases operation with
  | claim =>
      simp only [checkCall, checkClaim, bind_eq_ok, ensure_eq_ok] at h
      obtain ⟨_, _, _, _, _, _, _, hdropped, _⟩ := h
      exact absurd hdropped hnone
  | mint =>
      cases asset with
      | eth => exact absurd (native_allowance (.inl rfl) h) hnone
      | afUsdc => exact h
  | buy =>
      cases asset with
      | eth => exact absurd (native_allowance (.inr rfl) h) hnone
      | afUsdc => exact h
  | sell => exact h
  | createVault | deposit | withdraw | close => cases htrade

theorem validated_dropped {b : MarketQuote} {manifest : Manifest} {snapshot : Option MarketSnapshot}
    (htrade : QuoteService.forVault b.operation = false)
    (h : validateQuoteTransaction ethers b manifest snapshot none = .ok ()) (gas : Option String)
    (wallet : Option WalletVaults) :
    validateQuoteTransaction ethers { b with allowance := none, gasEstimateRaw := gas } manifest
      snapshot wallet = .ok () := by
  simp only [validateQuoteTransaction, bind_eq_ok] at h ⊢
  obtain ⟨owner, howner, target, htarget, u, hlocation, _, hcall, _⟩ := h
  refine ⟨owner, howner, target, htarget, u, hlocation, (), ?_, trivial⟩
  rw [checkCall_wallet (b := { b with allowance := none, gasEstimateRaw := gas }) htrade]
  exact checkCall_dropped htrade hcall

theorem validated_wallet {b : MarketQuote} {manifest : Manifest} {snapshot : Option MarketSnapshot}
    (htrade : QuoteService.forVault b.operation = false) (simulation : Simulation)
    (wallet : Option WalletVaults) :
    validateQuoteTransaction ethers { b with simulation } manifest snapshot wallet =
      validateQuoteTransaction ethers b manifest snapshot none := by
  simp only [validateQuoteTransaction]
  congr 1
  funext owner
  congr 1
  funext target
  rw [checkCall_wallet (b := { b with simulation }) htrade]
  rfl

theorem claim_amount {r : Draft} (h : QuoteService.claimDraft ethers e request amount = .ok r) :
    amount = 0 := by
  simp only [QuoteService.claimDraft, bind_eq_ok, ensure_eq_ok] at h
  obtain ⟨_, ⟨hzero, _⟩, _⟩ := h
  exact hzero

theorem Built.presentable (h : Built ethers e request amount d impact) (hunit : PriceWithin e) :
    Presentable d ∧ impact ≤ 10000 := by
  have hdrafted := h.drafted
  unfold QuoteService.draft at hdrafted
  split at hdrafted
  · simp only [bind_eq_ok, pure_eq_ok, Prod.mk.injEq] at hdrafted
    obtain ⟨_, hclaim, rfl, rfl⟩ := hdrafted
    exact ⟨claim_presentable hclaim, Nat.zero_le _⟩
  · simp only [bind_eq_ok] at hdrafted
    obtain ⟨r, hr, hdrafted⟩ := hdrafted
    split at hdrafted
    · simp only [pure_eq_ok, Prod.mk.injEq] at hdrafted
      obtain ⟨rfl, rfl⟩ := hdrafted
      exact ⟨trade_presentable hunit h.read hr, Nat.zero_le _⟩
    · simp only [bind_eq_ok, pure_eq_ok, Prod.mk.injEq] at hdrafted
      obtain ⟨impact', himpact, rfl, rfl⟩ := hdrafted
      exact ⟨trade_presentable hunit h.read hr, priceImpact_le himpact⟩

theorem Built.trade (h : Built ethers e request amount d impact) {operation : LaunchMarket.Operation}
    (hop : QuoteService.tradeOf request.operation = some operation) :
    QuoteService.tradeDraft ethers e request operation amount = .ok d := by
  have hdrafted := h.drafted
  simp only [QuoteService.draft, hop, bind_eq_ok] at hdrafted
  obtain ⟨r, hr, hdrafted⟩ := hdrafted
  split at hdrafted
  · simp only [pure_eq_ok, Prod.mk.injEq] at hdrafted
    rw [← hdrafted.1]
    exact hr
  · simp only [bind_eq_ok, pure_eq_ok, Prod.mk.injEq] at hdrafted
    obtain ⟨_, _, hd, _⟩ := hdrafted
    rw [← hd]
    exact hr

theorem Built.amountMatches (h : Built ethers e request amount d impact)
    (htrade : QuoteService.forVault request.operation = false) :
    amountMatches (QuoteService.base e request amount d impact) request := by
  have hamount := repr_of_uint h.read
  have hsame : (QuoteService.base e request amount d impact).operation = request.operation := rfl
  rw [QuoteReview.amountMatches, hsame]
  cases hop : request.operation with
  | mint =>
      have hout := trade_mint h.read (h.trade (by rw [hop]; rfl))
      show d.output.repr = request.amountRaw
      rw [hout, hamount]
  | claim =>
      have hdrafted := h.drafted
      simp only [QuoteService.draft, hop, QuoteService.tradeOf, bind_eq_ok] at hdrafted
      obtain ⟨_, hclaim, _⟩ := hdrafted
      show request.amountRaw = "0"
      rw [← hamount, claim_amount hclaim]
      rfl
  | buy | sell => exact hamount
  | createVault | deposit | withdraw | close =>
      rw [hop] at htrade
      cases htrade

theorem Built.checkRequest (h : Built ethers e request amount d impact) (hunit : PriceWithin e)
    (htrade : QuoteService.forVault request.operation = false) {now : Clock}
    (hbefore : now.seconds < d.expiresAt) (hlate : (d.expiresAt : Int) ≤ now.seconds + 300) :
    checkRequest (QuoteService.base e request amount d impact) request now = .ok () := by
  obtain ⟨_, himpact⟩ := h.presentable hunit
  have hdate := now.isDate
  have hmax : (Market.maxSafeInteger : Int) = 9007199254740991 := rfl
  rw [QuoteReview.checkRequest, ensure_eq_ok]
  refine ⟨rfl, rfl, rfl, rfl, h.amountMatches htrade, ⟨?_, ?_⟩, hbefore, ?_, ?_, ?_⟩
  · show -(Market.maxSafeInteger : Int) ≤ (d.expiresAt : Int)
    omega
  · show (d.expiresAt : Int) ≤ Market.maxSafeInteger
    omega
  · show (d.expiresAt : Int) - now.seconds ≤ 300
    omega
  · show (0 : Int) ≤ (impact : Int)
    omega
  · show (impact : Int) ≤ 10000
    omega

theorem Built.checkAmounts (h : Built ethers e request amount d impact) (hunit : PriceWithin e)
    (hfee : d.feeUsdc < 2 ^ 256) :
    checkAmounts (QuoteService.base e request amount d impact) = .ok () := by
  obtain ⟨⟨hout, hmin, hconversion, n, hvalue⟩, _⟩ := h.presentable hunit
  have hread : ∀ {n : Nat}, n < 2 ^ 256 → (do let _ ← uint n.repr : Except Failure Unit) = .ok () :=
    fun hn => by rw [uint_of_lt hn]; rfl
  rw [QuoteReview.checkAmounts, forM_eq_ok]
  simp only [List.forall_mem_cons]
  refine ⟨hread (lt_of_uint h.read), hread hout, hread (Nat.lt_of_le_of_lt hmin hout), hread hfee,
    hread hconversion, ?_, fun _ hmem => absurd hmem List.not_mem_nil⟩
  show (do let _ ← uint d.transaction.value : Except Failure Unit) = .ok ()
  rw [uint_eq_ok.mpr hvalue]
  rfl

/-- The client recovers the output of the pool that the service was answered. -/
def Recovers (e : Answers) (request : QuoteRequest) (q : MarketQuote) : Prop :=
  ∃ amount answer usdc, LaunchMarket.uint request.amountRaw = .ok amount ∧
    e.quoteAmm request.strategyId .sell amount = .ok answer ∧
    LaunchMarket.uint answer.outputRaw = .ok usdc ∧ grossUsdc q = .ok usdc

section Sale

variable {signed : LaunchMarket.Signed} {price usdc : Nat}
  {reference : LaunchMarket.EthReference}

theorem quotedPrice_base (hdraft : Drafted ethers e .sell amount d signed)
    (hreference : e.reference = some reference)
    (hprice : LaunchMarket.uint reference.ethUsdPriceRaw = .ok price) :
    quotedPrice (QuoteService.base e request amount d impact) = .ok price := by
  unfold quotedPrice
  rw [show (QuoteService.base e request amount d impact).reference = some reference from
    hdraft.reference.trans hreference]
  exact uint_eq_ok.mpr hprice

theorem grossUsdc_base (impact : Nat) (hdraft : Drafted ethers e .sell amount d signed)
    (hreference : e.reference = some reference)
    (hprice : LaunchMarket.uint reference.ethUsdPriceRaw = .ok price) (hunit : price ≤ 10 ^ 18)
    (hsale : NativeSale e.native (QuoteService.nativeRequest request .sell) signed amount price usdc) :
    grossUsdc (QuoteService.base e request amount d impact) = .ok usdc := by
  obtain ⟨⟨answer, _, husdc⟩, _, hout, _, hfee, hcovered⟩ := hsale
  obtain ⟨⟨_, _, hlow, hhigh⟩, _⟩ := ethSaleOutput_eq_ok.mp hout
  have hfeeLe := LaunchMarket.fee_le (by omega : e.native.conversion.feeBps.toNat ≤ 10000) usdc
  have houtput : uint (QuoteService.base e request amount d impact).estimatedOutRaw =
      .ok signed.output := by
    show uint d.output.repr = _
    rw [hdraft.output]
    exact uint_of_lt hcovered
  have hconversion : uint (QuoteService.base e request amount d impact).conversionFeeUsdcRaw =
      .ok (ceilDiv (usdc * e.native.conversion.feeBps.toNat) 10000) := by
    show uint d.conversionFee.repr = _
    rw [hdraft.conversionFee, hfee]
    exact uint_of_lt (Nat.lt_of_le_of_lt hfeeLe (lt_of_uint husdc))
  rw [grossUsdc, quotedPrice_base hdraft hreference hprice, ok_bind, houtput, ok_bind, hconversion,
    ok_bind, gross_recovered hunit hout]
  rfl

theorem checkNativeSale_base (hinverse : ethers.Inverse) (hsnapshot : held.snapshot = some e.snapshot)
    (hdraft : Drafted ethers e .sell amount d signed) (hreference : e.reference = some reference)
    (hprice : LaunchMarket.uint reference.ethUsdPriceRaw = .ok price) (hunit : price ≤ 10 ^ 18)
    (hsale : NativeSale e.native (QuoteService.nativeRequest request .sell) signed amount price usdc)
    (hpresentable : Presentable d) :
    checkNativeSale ethers held (QuoteService.base e request amount d impact) request = .ok () := by
  have hgross := grossUsdc_base impact hdraft hreference hprice hunit hsale
  obtain ⟨_, hminUsdc, hout, hmin, hfee, _⟩ := hsale
  obtain ⟨⟨_, hpriced, hlow, hhigh⟩, _⟩ := ethSaleOutput_eq_ok.mp hout
  obtain ⟨signature, hencoded⟩ := hdraft.encoded
  have hparsed : ethers.parseTransaction .router
      (QuoteService.base e request amount d impact).transaction.data =
        some (.sellNative signed.value signature) := hinverse _ _ hencoded
  have hdout := hpresentable.output
  have hdmin := Nat.lt_of_le_of_lt hpresentable.minOut hdout
  rw [checkNativeSale, quotedPrice_base hdraft hreference hprice, ok_bind, hgross, ok_bind, hsnapshot,
    hparsed]
  have hconversion : uint (QuoteService.base e request amount d impact).conversionFeeUsdcRaw =
      .ok d.conversionFee := uint_of_lt hpresentable.conversionFee
  have houtput : uint (QuoteService.base e request amount d impact).estimatedOutRaw = .ok d.output :=
    uint_of_lt hdout
  have hminimum : uint (QuoteService.base e request amount d impact).minOutRaw = .ok d.minOut :=
    uint_of_lt hdmin
  simp only [bind_eq_ok, ensure_eq_ok, market_eq_ok]
  refine ⟨_, hconversion, (), by omega, (), ?_, _, hout, _, houtput, (), hdraft.output.symm, _,
    hminUsdc, (), Nat.le_refl _, _, hminimum, _, hmin, hdraft.minOut⟩
  exact (congrArg Nat.cast (hdraft.conversionFee.trans hfee)).trans (ceilDiv_tdiv hlow).symm

end Sale

theorem checkOutput_base (hpresentable : Presentable d)
    (hslips : minOutput d.output request.slippageBps = .ok d.minOut) :
    checkOutput (QuoteService.base e request amount d impact) request = .ok () := by
  have hdout := hpresentable.output
  have hdmin := Nat.lt_of_le_of_lt hpresentable.minOut hdout
  have houtput : uint (QuoteService.base e request amount d impact).estimatedOutRaw = .ok d.output :=
    uint_of_lt hdout
  have hminimum : uint (QuoteService.base e request amount d impact).minOutRaw = .ok d.minOut :=
    uint_of_lt hdmin
  rw [checkOutput, houtput, ok_bind, hminimum, ok_bind, ensure_eq_ok]
  simp only [minOutput, bind_eq_ok, ensure_eq_ok, pure_eq_ok] at hslips
  obtain ⟨_, ⟨hlow, hhigh⟩, _, _, hminOut⟩ := hslips
  obtain ⟨factor, hfactor⟩ := Int.eq_ofNat_of_zero_le (a := 10000 - request.slippageBps) (by omega)
  rw [hfactor, Int.toNat_natCast] at hminOut
  rw [hfactor, ← hminOut, ← Int.natCast_mul]
  exact Int.le_of_eq (Int.ofNat_tdiv _ _).symm

theorem Built.checkSlippage (h : Built ethers e request amount d impact) (hunit : PriceWithin e)
    (hinverse : ethers.Inverse) (hsnapshot : held.snapshot = some e.snapshot) :
    checkSlippage ethers held (QuoteService.base e request amount d impact) request = .ok () := by
  obtain ⟨hpresentable, _⟩ := h.presentable hunit
  have hoperation : (QuoteService.base e request amount d impact).operation = request.operation :=
    rfl
  have hpayment : (QuoteService.base e request amount d impact).asset = request.asset := rfl
  rw [QuoteReview.checkSlippage, hoperation, hpayment]
  cases hop : request.operation with
  | buy =>
      have htrade := h.trade (by rw [hop]; rfl)
      exact checkOutput_base hpresentable (trade_slips (by decide) (by simp) hunit htrade)
  | sell =>
      have htrade := h.trade (by rw [hop]; rfl)
      cases hasset : request.asset with
      | eth =>
          obtain ⟨signed, price, usdc, reference, hdraft, hreference, hprice, hsale⟩ :=
            trade_sale hasset h.read htrade
          exact checkNativeSale_base hinverse hsnapshot hdraft hreference hprice
            (hunit reference hreference price hprice) hsale hpresentable
      | afUsdc =>
          exact checkOutput_base hpresentable
            (trade_slips (by decide) (by simp [hasset]) hunit htrade)
  | mint | claim | createVault | deposit | withdraw | close => rfl

theorem Built.recovers (h : Built ethers e request amount d impact) (hunit : PriceWithin e)
    (hop : request.operation = .sell) (hasset : request.asset = .eth) :
    Recovers e request (QuoteService.base e request amount d impact) := by
  have htrade := h.trade (by rw [hop]; rfl)
  obtain ⟨signed, price, usdc, reference, hdraft, hreference, hprice, hsale⟩ :=
    trade_sale hasset h.read htrade
  have hgross := grossUsdc_base impact hdraft hreference hprice
    (hunit reference hreference price hprice) hsale
  obtain ⟨answer, hanswer, husdc⟩ := hsale.answered
  exact ⟨amount, answer, usdc, h.read, hanswer, husdc, hgross⟩

/-- The client accepts a quote within 300 seconds of its expiry. -/
theorem Built.accepted (h : Built ethers e request amount d impact)
    (hresult : QuoteService.simulated e (QuoteService.base e request amount d impact) = .ok q)
    (hinverse : ethers.Inverse) (htrade : QuoteService.forVault request.operation = false)
    (hunit : PriceWithin e) (hfee : d.feeUsdc < 2 ^ 256)
    (hmanifest : held.manifest = some e.manifest) (hsnapshot : held.snapshot = some e.snapshot)
    {now : Clock} (hbefore : now.seconds < d.expiresAt)
    (hlate : (d.expiresAt : Int) ≤ now.seconds + 300) :
    validateQuote ethers held q request now = .ok () := by
  have hpresentable := (h.presentable hunit).1
  have hdout := hpresentable.output
  have hminimum : uint (QuoteService.base e request amount d impact).minOutRaw = .ok d.minOut :=
    uint_of_lt (Nat.lt_of_le_of_lt hpresentable.minOut hdout)
  have houtput : uint (QuoteService.base e request amount d impact).estimatedOutRaw = .ok d.output :=
    uint_of_lt hdout
  have hlocation : MarketClient.validLocation (QuoteService.base e request amount d impact).location =
      .ok () := held.located _ hsnapshot
  have hrequest := h.checkRequest hunit htrade hbefore hlate
  have hamounts := h.checkAmounts hunit hfee
  have hslippage := h.checkSlippage hunit hinverse hsnapshot
  simp only [validateQuote, hmanifest, hsnapshot, bind_eq_ok, ensure_eq_ok, mapError_eq_ok, market_eq_ok]
  rcases simulated_ok hresult with ⟨gas, n, rfl, hgas, hpos⟩ | ⟨rfl, hallowance⟩
  · refine ⟨(), hrequest, (), hlocation, (), hamounts, (), ?_, _, hminimum, _, houtput, (),
      hpresentable.minOut, (), hslippage, ?_⟩
    · simp only [checkSimulation, QuoteService.base, uint_eq_ok.mpr hgas, ok_bind, ensure_of hpos,
        ensure_of]
    · exact validated_dropped htrade h.validated _ _
  · refine ⟨(), hrequest, (), hlocation, (), hamounts, (), ?_, _, hminimum, _, houtput, (),
      hpresentable.minOut, (), hslippage, ?_⟩
    · simp only [checkSimulation, ensure_eq_ok]
      exact ⟨hallowance, rfl⟩
    · rw [validated_wallet htrade]
      exact h.validated

end Accepted

/-- The client accepts what the service quotes, if the fee it shows fits a word and its clock is
not more than 300 seconds behind the expiry; and whatever trade it accepts is bounded by the
slippage. -/
theorem quotes_accepted_within_slippage (ethers : Ethers) :
    (ethers.Inverse → ∀ e request q, QuoteService.quote ethers e request = .ok q →
      QuoteService.forVault request.operation = false → PriceWithin e →
      Text.ofDecimal q.feeUsdcRaw < 2 ^ 256 →
      ∀ held : Held, held.manifest = some e.manifest → held.snapshot = some e.snapshot →
      ∀ now : Clock, now.seconds < q.expiresAt → q.expiresAt ≤ now.seconds + 300 →
        validateQuote ethers held q request now = .ok () ∧
          (request.operation = .sell → request.asset = .eth → Recovers e request q)) ∧
    ∀ held q request now, validateQuote ethers held q request now = .ok () →
      q.operation = .buy ∨ q.operation = .sell → Bounded ethers q request.slippageBps := by
  refine ⟨?_, fun held q request now h htrade => accepted_bounded h htrade⟩
  intro hinverse e request q hquote htrade hunit hfee held hmanifest hsnapshot now hbefore hlate
  obtain ⟨amount, d, impact, hbuilt, hresult⟩ := built_of_quote hquote htrade
  have hshown : q.feeUsdcRaw = d.feeUsdc.repr ∧ q.expiresAt = d.expiresAt ∧
      (Recovers e request (QuoteService.base e request amount d impact) → Recovers e request q) := by
    rcases simulated_ok hresult with ⟨_, _, rfl, _⟩ | ⟨rfl, _⟩
    · exact ⟨rfl, rfl, id⟩
    · exact ⟨rfl, rfl, id⟩
  obtain ⟨hfeeText, hexpiry, hrecovers⟩ := hshown
  rw [hfeeText, Text.ofDecimal_repr] at hfee
  rw [hexpiry] at hbefore hlate
  exact ⟨hbuilt.accepted hresult hinverse htrade hunit hfee hmanifest hsnapshot hbefore hlate,
    fun hsell heth => hrecovers (hbuilt.recovers hunit hsell heth)⟩

/-! ## Two sales -/

/-- `ethers`, as far as one call and its bytes go. -/
def knowing (known : Call) (bytes : HexData) : Ethers where
  encodeFunctionData call := if call = known then .ok bytes else .error .invalidArgument
  parseTransaction interface data :=
    if interface = known.interface ∧ data = bytes then some known else none

theorem knowing_inverse (known : Call) (bytes : HexData) : (knowing known bytes).Inverse := by
  intro call data h
  simp only [knowing] at h ⊢
  split at h
  · next hcall =>
    subst hcall
    exact if_pos ⟨rfl, (Except.ok.inj h).symm⟩
  · cases h

/-- A word of the calldata. -/
def word (n : Nat) : HexData := (List.range 32).map fun i => UInt8.ofNat (n / 256 ^ (31 - i))

def exampleSignature : HexData := List.replicate 65 1

def nativeCalldata (q : NativeQuote) (signature : HexData) : HexData :=
  [0x1b, 0x77, 0x8f, 0xef] ++
    [q.router.toNat, q.payer.toNat, q.accountId.toNat, q.operation, q.pass.toNat, q.amountIn,
      q.usdcAmount, q.minOut, q.ethAmount, q.ethUsdPrice, q.nonce, q.issuedAt, q.deadline, q.epoch,
      480, 65].flatMap word ++ signature ++ List.replicate 31 0

def poolCalldata (amount minimum : Nat) (recipient : Address) (deadline : Nat) : HexData :=
  [0xe1, 0xde, 0xdc, 0x4d] ++ [amount, minimum, recipient.toNat, deadline].flatMap word

def exampleManifest : Manifest :=
  ⟨46630, 3, 4, 5, none, fun _ => ⟨7, none, some 8⟩⟩

/-- A market with its reserves. -/
def exampleSnapshot (reservePass reserveUsdc : String) : MarketSnapshot where
  location := ⟨46630, 100, 1, none, none, 0, 0⟩
  markets _ := ⟨.launched, "0", some 8, reservePass, reserveUsdc⟩
  conversion := ⟨"200000000000000000000", "1000000000000", true, true, none, 100⟩
  claimFunded := true
  remainingClaims := 50
  successfulClaims := 50

/-- What the service is answered in a market, at 2000 dollars. -/
def exampleAnswers (snapshot : MarketSnapshot) (available output fee : String) : Answers where
  manifest := exampleManifest
  snapshot
  accountKey := 1
  ethBalanceRaw := "0"
  usdcBalanceRaw := "0"
  availableRaw _ := available
  readAt := 999999
  now := 1000000
  doneAt := 1000001
  reference := some ⟨"2000000000", 999995⟩
  quoteSigner := some 6
  claimSigner := none
  policy := ⟨6, 6, 1, 1, true⟩
  quoteAmm _ _ _ := .ok ⟨output, fee⟩
  nonce := 77
  reserveClaim _ _ := .error .invalidArgument
  signQuote _ := .ok exampleSignature
  signClaim _ := .error .invalidArgument
  simulate _ := .ok "210000"
  vaultQuote := none
  saveQuote _ := .ok ()
  id := "quote"

def exampleHeld (reservePass reserveUsdc : String) : Held where
  manifest := some exampleManifest
  snapshot := some (exampleSnapshot reservePass reserveUsdc)
  wallet := none
  located := by
    rintro s ⟨⟩
    rfl

def exampleClock (seconds : Int) (h : 0 ≤ seconds ∧ seconds ≤ 1000000000) : Clock :=
  ⟨seconds, by omega⟩

/-- A sale of 100 PASS for ETH, with a percent of slippage and of fee. -/
def saleAnswers : Answers :=
  exampleAnswers (exampleSnapshot "500000000000000000000000" "250000000000")
    "1000000000000000000000" "49840000" "300000000000000000"

def saleRequest : QuoteRequest := ⟨9, .tsla, .sell, .eth, "100000000000000000000", 100⟩

def saleQuote : NativeQuote where
  router := 5
  payer := 9
  accountId := 1
  operation := 2
  pass := 7
  amountIn := 100000000000000000000
  usdcAmount := 49341600
  minOut := 24424092000000000
  ethAmount := 24670800000000000
  ethUsdPrice := 2000000000
  nonce := 77
  issuedAt := 1000000
  deadline := 1000055
  epoch := 1

def saleEthers : Ethers :=
  knowing (.sellNative saleQuote exampleSignature) (nativeCalldata saleQuote exampleSignature)

theorem sale_priced : PriceWithin saleAnswers := by
  rintro reference ⟨⟩ price hprice
  have hread : LaunchMarket.uint "2000000000" = .ok 2000000000 := rfl
  obtain rfl := Except.ok.inj (hread.symm.trans hprice)
  decide

def saleShown : MarketQuote where
  id := "quote"
  owner := 9
  strategyId := .tsla
  operation := .sell
  asset := .eth
  amountInRaw := "100000000000000000000"
  estimatedOutRaw := "24670800000000000"
  minOutRaw := "24424092000000000"
  feeUsdcRaw := "150000"
  conversionFeeUsdcRaw := "498400"
  priceImpactBps := 32
  expiresAt := 1000055
  reference := some ⟨"2000000000", 999995⟩
  transaction := ⟨5, nativeCalldata saleQuote exampleSignature, "0"⟩
  allowance := none
  gasEstimateRaw := some "210000"
  simulation := .ready
  location := ⟨46630, 100, 1, none, none, 0, 0⟩

/-- A sale for USDC into reserves so uneven that its fee in USDC is beyond a word. -/
def unevenAnswers : Answers :=
  exampleAnswers (exampleSnapshot "1" "10000000000")
    "10000000000000000000000000000000000000000000000000000000000000000000000000000"
    "9999999999"
    "30000000000000000000000000000000000000000000000000000000000000000000000000"

def unevenRequest : QuoteRequest :=
  ⟨9, .tsla, .sell, .afUsdc,
    "10000000000000000000000000000000000000000000000000000000000000000000000000000", 100⟩

def unevenEthers : Ethers :=
  knowing (.sell (10 ^ 76) 9899999999 9 1000059) (poolCalldata (10 ^ 76) 9899999999 9 1000059)

def unevenShown : MarketQuote where
  id := "quote"
  owner := 9
  strategyId := .tsla
  operation := .sell
  asset := .afUsdc
  amountInRaw := "10000000000000000000000000000000000000000000000000000000000000000000000000000"
  estimatedOutRaw := "9999999999"
  minOutRaw := "9899999999"
  feeUsdcRaw :=
    "300000000000000000000000000000000000000000000000000000000000000000000000000000000000"
  conversionFeeUsdcRaw := "0"
  priceImpactBps := 9999
  expiresAt := 1000059
  reference := none
  transaction := ⟨8, poolCalldata (10 ^ 76) 9899999999 9 1000059, "0"⟩
  allowance := none
  gasEstimateRaw := some "210000"
  simulation := .ready
  location := ⟨46630, 100, 1, none, none, 0, 0⟩

/-- What is evaluated of the two sales: both are quoted, and refused by some client. -/
theorem sales_evaluated :
    QuoteService.quote saleEthers saleAnswers saleRequest = .ok saleShown ∧
    validateQuote saleEthers (exampleHeld "500000000000000000000000" "250000000000") saleShown
      saleRequest (exampleClock 999754 (by decide)) ≠ .ok () ∧
    QuoteService.quote unevenEthers unevenAnswers unevenRequest = .ok unevenShown ∧
    validateQuote unevenEthers (exampleHeld "1" "10000000000") unevenShown unevenRequest
      (exampleClock 1000010 (by decide)) ≠ .ok () := by
  decide +kernel

theorem sale_accepted :
    validateQuote saleEthers (exampleHeld "500000000000000000000000" "250000000000") saleShown
      saleRequest (exampleClock 1000010 (by decide)) = .ok () ∧
    Recovers saleAnswers saleRequest saleShown ∧ Bounded saleEthers saleShown 100 := by
  obtain ⟨haccepts, hbounds⟩ := quotes_accepted_within_slippage saleEthers
  obtain ⟨haccepted, hrecovers⟩ := haccepts (knowing_inverse _ _) saleAnswers saleRequest saleShown
    sales_evaluated.1 rfl sale_priced (by decide) (exampleHeld "500000000000000000000000" "250000000000")
    rfl rfl (exampleClock 1000010 (by decide)) (by decide) (by decide)
  exact ⟨haccepted, hrecovers rfl rfl, hbounds _ _ _ _ haccepted (.inr rfl)⟩

/-- The client refuses a quote whose fee it cannot read, and any quote when its clock is more than
300 seconds behind the expiry. -/
theorem uneven_or_slow_refused :
    (QuoteService.quote unevenEthers unevenAnswers unevenRequest = .ok unevenShown ∧
      unevenEthers.Inverse ∧ PriceWithin unevenAnswers ∧ Text.ofDecimal unevenShown.minOutRaw ≠ 0 ∧
      (exampleClock 1000010 (by decide)).seconds < unevenShown.expiresAt ∧
      validateQuote unevenEthers (exampleHeld "1" "10000000000") unevenShown unevenRequest
        (exampleClock 1000010 (by decide)) ≠ .ok ()) ∧
    (QuoteService.quote saleEthers saleAnswers saleRequest = .ok saleShown ∧
      saleEthers.Inverse ∧ PriceWithin saleAnswers ∧ Text.ofDecimal saleShown.minOutRaw ≠ 0 ∧
      (exampleClock 999754 (by decide)).seconds < saleShown.expiresAt ∧
      validateQuote saleEthers (exampleHeld "500000000000000000000000" "250000000000") saleShown
        saleRequest (exampleClock 999754 (by decide)) ≠ .ok ()) := by
  obtain ⟨hquoted, hrefused, huneven, hoverflow⟩ := sales_evaluated
  exact ⟨⟨huneven, knowing_inverse _ _, sale_priced, by decide, by decide, hoverflow⟩,
    ⟨hquoted, knowing_inverse _ _, sale_priced, by decide, by decide, hrefused⟩⟩

end QuoteReview
end AlphaForge
