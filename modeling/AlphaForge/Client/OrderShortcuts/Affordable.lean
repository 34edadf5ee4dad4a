/-
Max is affordable, and nothing above it is.

Max goes from a balance to what it gets, the estimate from what is wanted to its
payment.  Each rounding of one is adjoint to the rounding of the other across it, so
that a payment stays within the balance exactly for what is at most Max.
-/
import AlphaForge.Client.OrderShortcuts

namespace AlphaForge
namespace OrderShortcuts

open Evm
open MarketStore (QuoteOperation)
open MarketClient (PaymentAsset)
open LaunchMarket (StrategyId Conversion passUnit ceilDiv ammQuote)
open PaymentEstimate (Failure uint uint_eq_ok uint_of_lt buyPayment leastPayment Reaches)

/-! ## Text of the form -/

section ShortcutInput

variable {raw decimals : Nat}

/-- The digits behind the point, before the zeros at their end go. -/
def fractionOf (raw decimals : Nat) : List Char :=
  Text.padStart decimals (Nat.toDigits 10 (raw % 10 ^ decimals))

theorem length_fractionOf (hpos : 0 < decimals) : (fractionOf raw decimals).length = decimals :=
  Text.length_padStart ((Nat.length_toDigits_le_iff (by decide) hpos).mpr
    (Nat.mod_lt _ (Nat.pow_pos (by decide))))

theorem beforePoint_shortcutInput :
    Text.beforePoint (shortcutInput raw decimals) = Nat.toDigits 10 (raw / 10 ^ decimals) :=
  Text.beforePoint_pointed (Text.all_isDigit_toDigits _)

theorem afterPoint_shortcutInput :
    (Text.afterPoint (shortcutInput raw decimals)).getD [] =
      Text.stripZeros (fractionOf raw decimals) := by
  rw [shortcutInput, Text.afterPoint_pointed (Text.all_isDigit_toDigits _), ← fractionOf]
  split
  · next hnone => rw [hnone]; rfl
  · rfl

theorem isPlainDecimal_shortcutInput :
    Text.isPlainDecimal (shortcutInput raw decimals) = true :=
  Text.isPlainDecimal_pointed (Text.all_isDigit_toDigits _) (Text.isWhole_toDigits _)
    (Text.all_isDigit_stripZeros (Text.all_isDigit_padStart (Text.all_isDigit_toDigits _)))

theorem length_shortcutInput_le (hraw : raw < 2 ^ 256) (hpos : 0 < decimals) :
    (shortcutInput raw decimals).length ≤ 79 + decimals := by
  have hwhole : (Nat.toDigits 10 (raw / 10 ^ decimals)).length ≤ 78 :=
    (Nat.length_toDigits_le_iff (by decide) (by decide)).mpr
      ((Nat.div_le_self _ _).trans_lt (hraw.trans (by decide)))
  have hfraction := Text.length_stripZeros_le (fractionOf raw decimals)
  rw [length_fractionOf hpos] at hfraction
  rw [shortcutInput, ← fractionOf, Text.pointed, String.length_ofList]
  split
  · omega
  · rw [List.length_append, List.length_cons]
    omega

theorem scaled_shortcutInput (hpos : 0 < decimals) :
    Text.scaled decimals (Nat.toDigits 10 (raw / 10 ^ decimals))
      (Text.stripZeros (fractionOf raw decimals)) = raw := by
  rw [Text.scaled, Text.padEnd_stripZeros (length_fractionOf hpos), fractionOf,
    Text.ofDigitChars_padStart, Nat.ofDigitChars_ten_toDigits, Nat.ofDigitChars_ten_toDigits,
    Nat.mul_comm, Nat.div_add_mod]

/-- An amount with up to 21 decimals fits the form and is read back from it. -/
theorem decimalRaw_shortcutInput (hraw : raw < 2 ^ 256) (hpos : 0 < decimals)
    (hfew : decimals ≤ 21) : decimalRaw (shortcutInput raw decimals) decimals = .ok raw.repr := by
  have hlength : (shortcutInput raw decimals).length ≤ 100 :=
    (length_shortcutInput_le hraw hpos).trans (by omega)
  have hfraction : (Text.stripZeros (fractionOf raw decimals)).length ≤ decimals :=
    (Text.length_stripZeros_le _).trans (length_fractionOf hpos).le
  simp only [decimalRaw, afterPoint_shortcutInput, beforePoint_shortcutInput,
    scaled_shortcutInput hpos, ensure_of hfraction, ensure_of hraw, ok_bind]
  rw [ensure_of ⟨isPlainDecimal_shortcutInput, hlength⟩]
  rfl

end ShortcutInput

theorem bigInt_eq_ok {v : String} {n : Int} : bigInt v = .ok n ↔ Text.bigInt v = some n := by
  unfold bigInt
  split
  · next m hm => rw [hm, Except.ok.injEq, Option.some.injEq]
  · next hnone => simp [hnone]

theorem bigInt_of_uint {v : String} {n : Nat} (h : uint v = .ok n) : bigInt v = .ok (n : Int) := by
  rw [uint_eq_ok] at h
  simp only [LaunchMarket.uint, bind_eq_ok, ensure_eq_ok, pure_eq_ok] at h
  obtain ⟨_, hdecimal, _, _, rfl⟩ := h
  rw [bigInt, Text.bigInt_of_isDecimal hdecimal]

theorem amount_of_uint {v : String} {n : Nat} (h : uint v = .ok n) : amount v = .ok n := by
  rw [amount, bigInt_of_uint h, ok_bind]
  rfl

theorem ofDecimal_of_uint {v : String} {n : Nat} (h : uint v = .ok n) : Text.ofDecimal v = n :=
  (LaunchMarket.uint_eq_ok (uint_eq_ok.mp h)).1.symm

theorem inputRaw_shortcutInput {raw : Nat} (hraw : raw < 2 ^ 256) (hpos : 0 < raw) :
    inputRaw .sell .eth (shortcutInput raw 18) = .ok raw.repr := by
  have hread : decimalRaw (shortcutInput raw 18) 18 = .ok raw.repr :=
    decimalRaw_shortcutInput hraw (by decide) (by decide)
  simp only [inputRaw, reduceCtorEq, or_self, false_and, if_false, hread, ok_bind,
    bigInt_of_uint (uint_of_lt hraw)]
  rw [ensure_of (by omega)]
  rfl

/-! ## What was checked is read -/

/-- The amounts of a market that an order reads. -/
structure Reads (market : StrategyMarketSnapshot) (price remaining reservePass reserveUsdc : Nat) :
    Prop where
  price : uint market.mintPriceUsdcRaw = .ok price
  remaining : uint market.remainingRaw = .ok remaining
  reservePass : uint market.reservePassRaw = .ok reservePass
  reserveUsdc : uint market.reserveUsdcRaw = .ok reserveUsdc

theorem reads_of_checked {snapshot : MarketSnapshot} (h : validateSnapshot snapshot = .ok ())
    (strategy : StrategyId) : ∃ price remaining reservePass reserveUsdc,
      Reads (snapshot.markets strategy) price remaining reservePass reserveUsdc := by
  simp only [validateSnapshot, bind_eq_ok, forM_eq_ok] at h
  obtain ⟨_, _, _, hmarkets, _⟩ := h
  have hmarket := hmarkets strategy (by cases strategy <;> simp)
  simp only [validateMarket, bind_eq_ok, forM_eq_ok] at hmarket
  obtain ⟨_, hread, _⟩ := hmarket
  obtain ⟨price, hprice, _⟩ := hread (snapshot.markets strategy).mintPriceUsdcRaw (by simp)
  obtain ⟨remaining, hremaining, _⟩ := hread (snapshot.markets strategy).remainingRaw (by simp)
  obtain ⟨reservePass, hpass, _⟩ := hread (snapshot.markets strategy).reservePassRaw (by simp)
  obtain ⟨reserveUsdc, husdc, _⟩ := hread (snapshot.markets strategy).reserveUsdcRaw (by simp)
  exact ⟨price, remaining, reservePass, reserveUsdc, hprice, hremaining, hpass, husdc⟩

theorem conversion_of_checked {snapshot : MarketSnapshot} (h : validateSnapshot snapshot = .ok ()) :
    ∃ usdc, uint snapshot.conversion.usdcReserveRaw = .ok usdc := by
  simp only [validateSnapshot, bind_eq_ok] at h
  obtain ⟨_, _, _, _, _, _, _, _, _, _, usdc, husdc, _⟩ := h
  exact ⟨usdc, husdc⟩

theorem wallet_of_checked {wallet : MarketWalletSnapshot} {owner : Address}
    (h : validateWallet wallet owner = .ok ()) :
    ∃ eth usdc, uint wallet.ethBalanceRaw = .ok eth ∧ uint wallet.usdcBalanceRaw = .ok usdc := by
  simp only [validateWallet, bind_eq_ok] at h
  obtain ⟨_, _, _, _, eth, heth, usdc, husdc, _⟩ := h
  exact ⟨eth, usdc, heth, husdc⟩

/-- What Max spends on an order for PASS. -/
theorem maxShortcutAmount_ok {state : LaunchClientState} {strategy : StrategyId} {form : OrderForm}
    {native : Option NativeMax} {text : String} (hsell : form.operation ≠ .sell)
    (h : maxShortcutAmount state strategy form native true = .ok text) :
    ∃ wallet snapshot spend, state.wallet = some wallet ∧ state.snapshot = some snapshot ∧
      maxPass (snapshot.markets strategy) form.operation spend = .ok text ∧
      (form.asset = .eth → ∃ eth, nativeSpend wallet native = .ok eth ∧
        nativeUsdc snapshot.conversion form.operation native eth = .ok spend) ∧
      (form.asset ≠ .eth → amount wallet.usdcBalanceRaw = .ok spend) := by
  unfold maxShortcutAmount at h
  split at h
  · next wallet owner snapshot hwallet _ hsnapshot =>
    simp only [bind_eq_ok, if_neg hsell, Bool.true_eq_false, and_false, if_false] at h
    obtain ⟨_, _, balance, hbalance, h⟩ := h
    split at h
    · next heth =>
      simp only [bind_eq_ok] at h
      obtain ⟨eth, hspend, spend, husdc, hmax⟩ := h
      exact ⟨wallet, snapshot, spend, hwallet, hsnapshot, hmax, fun _ => ⟨eth, hspend, husdc⟩,
        fun hother => absurd heth hother⟩
    · next hother =>
      simp only [bind_eq_ok] at h
      obtain ⟨_, _, hmax⟩ := h
      exact ⟨wallet, snapshot, balance, hwallet, hsnapshot, hmax, fun heth => absurd heth hother,
        fun _ => hbalance⟩
  · cases h

/-! ## The pool and the launch -/

section Pool

variable {spend pass payment reservePass reserveUsdc : Nat} {feeBps : Int}

theorem buyPayment_ok (h : buyPayment pass reservePass reserveUsdc feeBps = .ok payment) :
    (0 < pass ∧ pass < reservePass ∧ 0 < reserveUsdc ∧ 0 ≤ feeBps ∧ feeBps ≤ 1000) ∧
      payment = leastPayment pass reservePass reserveUsdc feeBps := by
  have hopen : 0 < pass ∧ pass < reservePass ∧ 0 < reserveUsdc ∧ 0 ≤ feeBps ∧ feeBps ≤ 1000 := by
    simp only [buyPayment, bind_eq_ok, ensure_eq_ok] at h
    exact h.choose_spec.1
  obtain ⟨hpass, hless, husdc, hfee⟩ := hopen
  rw [PaymentEstimate.buyPayment_eq husdc hpass hless hfee] at h
  split at h
  · exact ⟨⟨hpass, hless, husdc, hfee⟩, (Except.ok.inj h).symm⟩
  · cases h

variable {q : LaunchMarket.AmmQuote}
  (hquote : ammQuote spend reserveUsdc reservePass feeBps = .ok q)

include hquote

theorem quote_open : 0 < spend ∧ 0 < reserveUsdc ∧ (0 ≤ feeBps ∧ feeBps ≤ 1000) ∧
    0 < q.output ∧ q.output < reservePass := by
  simp only [ammQuote, bind_eq_ok, ensure_eq_ok, pure_eq_ok] at hquote
  obtain ⟨_, ⟨hspend, husdc, _⟩, _, hfee, _, ⟨hzero, hless⟩, rfl⟩ := hquote
  exact ⟨hspend, husdc, hfee, Nat.pos_of_ne_zero hzero, hless⟩

/-- A payment is in the budget exactly for what the budget gets. -/
theorem payment_le_iff (h : buyPayment pass reservePass reserveUsdc feeBps = .ok payment) :
    payment ≤ spend ↔ pass ≤ q.output := by
  obtain ⟨⟨hpass, hless, husdc, hfee⟩, rfl⟩ := buyPayment_ok h
  rw [← PaymentEstimate.reaches_iff_least (quote_open hquote).1 husdc hpass hless hfee]
  constructor
  · rintro ⟨q', hq', hle⟩
    rwa [Except.ok.inj (hquote.symm.trans hq')]
  · exact fun hle => ⟨q, hquote, hle⟩

theorem buyPayment_of_quote (hword : spend < 2 ^ 256) :
    ∃ payment, buyPayment q.output reservePass reserveUsdc feeBps = .ok payment := by
  obtain ⟨hspend, husdc, hfee, hpass, hless⟩ := quote_open hquote
  have hleast := (PaymentEstimate.reaches_iff_least hspend husdc hpass hless hfee).mp
    ⟨q, hquote, Nat.le_refl _⟩
  refine ⟨leastPayment q.output reservePass reserveUsdc feeBps, ?_⟩
  rw [PaymentEstimate.buyPayment_eq husdc hpass hless hfee, if_pos (hleast.trans_lt hword)]

end Pool

section Launch

variable {price quantum pass usdc : Nat}

/-- An amount of PASS that costs whole units of USDC is that many quanta. -/
theorem pass_eq_quanta (hprice : 0 < price) (hquantum : price * quantum = 10 ^ 18)
    (hproduct : pass * price % 10 ^ 18 = 0) (husdc : usdc = pass * price / 10 ^ 18) :
    pass = usdc * quantum := by
  have hwhole : pass * price = usdc * 10 ^ 18 := by
    rw [husdc, Nat.div_mul_cancel (Nat.dvd_of_mod_eq_zero hproduct)]
  rw [← hquantum, ← Nat.mul_assoc, Nat.mul_right_comm] at hwhole
  exact Nat.eq_of_mul_eq_mul_right hprice hwhole

theorem quanta_le_iff {spend remaining : Nat} (hpos : 0 < quantum) (hpass : pass = usdc * quantum) :
    usdc ≤ spend ∧ pass ≤ remaining ↔
      pass ≤ min (spend * quantum) remaining / quantum * quantum := by
  subst hpass
  rw [Nat.mul_le_mul_right_iff hpos, Nat.le_div_iff_mul_le hpos, le_min_iff,
    Nat.mul_le_mul_right_iff hpos]

end Launch

/-- The market takes the order: a mint while it is minting, a trade once it is launched. -/
def Takes (market : StrategyMarketSnapshot) (operation : QuoteOperation) : Prop :=
  market.state = if operation = .mint then .minting else .launched

/-- The most PASS that a budget in USDC gets. -/
structure Most (market : StrategyMarketSnapshot) (operation : QuoteOperation)
    (remaining reservePass reserveUsdc spend most : Nat) : Prop where
  pos : 0 < most
  word : most < 2 ^ 256
  paid : ∃ usdc, passUsdc market operation most reservePass reserveUsdc = .ok usdc
  le_iff : ∀ pass usdc, passUsdc market operation pass reservePass reserveUsdc = .ok usdc →
    (usdc ≤ spend ∧ (operation = .mint → pass ≤ remaining) ↔ pass ≤ most)

section Most

variable {market : StrategyMarketSnapshot} {price remaining reservePass reserveUsdc spend : Nat}
  {text : String}

theorem passUsdc_mint (hreads : Reads market price remaining reservePass reserveUsdc)
    {pass usdc : Nat} : passUsdc market .mint pass reservePass reserveUsdc = .ok usdc ↔
      market.state = .minting ∧ pass ≤ remaining ∧ (price ≠ 0 ∧ pass * price % 10 ^ 18 = 0) ∧
        pass * price / 10 ^ 18 = usdc := by
  simp only [passUsdc, if_true, hreads.price, hreads.remaining, ok_bind, bind_eq_ok, ensure_eq_ok,
    pure_eq_ok, exists_const]

theorem passUsdc_buy {pass usdc : Nat} :
    passUsdc market .buy pass reservePass reserveUsdc = .ok usdc ↔
      market.state = .launched ∧ buyPayment pass reservePass reserveUsdc market.ammFeeBps = .ok usdc := by
  simp only [passUsdc, reduceCtorEq, if_false, if_true, bind_eq_ok, ensure_eq_ok, exists_const]

theorem bought_pos {operation : QuoteOperation} {pass usdc : Nat}
    (h : passUsdc market operation pass reservePass reserveUsdc = .ok usdc)
    (hbuy : operation = .buy) : 0 < usdc := by
  subst hbuy
  obtain ⟨⟨hpass, hless, hpool, _, hfee⟩, rfl⟩ := buyPayment_ok (passUsdc_buy.mp h).2
  exact PaymentEstimate.leastPayment_pos hpool hpass hless hfee

theorem most_of_mint (hreads : Reads market price remaining reservePass reserveUsdc)
    (htakes : Takes market .mint) (h : maxPass market .mint spend = .ok text) :
    ∃ most, text = shortcutInput most 18 ∧
      Most market .mint remaining reservePass reserveUsdc spend most := by
  simp only [maxPass, reduceCtorEq, if_false, bind_eq_ok, amount_of_uint hreads.price,
    amount_of_uint hreads.remaining, ok_bind, ensure_eq_ok, pure_eq_ok, exists_const] at h
  obtain ⟨⟨hprice, hdivides⟩, hmost, rfl⟩ := h
  have hquantum : price * (passUnit / price) = 10 ^ 18 :=
    Nat.mul_div_cancel' (Nat.dvd_of_mod_eq_zero hdivides)
  have hpos : 0 < passUnit / price := Nat.pos_of_ne_zero fun hzero => by
    rw [hzero] at hquantum
    cases hquantum
  generalize passUnit / price = quantum at *
  have hle : min (spend * quantum) remaining / quantum ≤ spend ∧
      min (spend * quantum) remaining / quantum * quantum ≤ remaining :=
    (quanta_le_iff hpos rfl).mpr (Nat.le_refl _)
  have hword := (uint_eq_ok.mp hreads.remaining)
  refine ⟨_, rfl, Nat.pos_of_ne_zero hmost, hle.2.trans_lt (LaunchMarket.lt_of_uint hword),
    ⟨min (spend * quantum) remaining / quantum * quantum * price / 10 ^ 18, ?_⟩, ?_⟩
  · rw [passUsdc_mint hreads]
    refine ⟨htakes, hle.2, ⟨hprice.ne', ?_⟩, rfl⟩
    rw [Nat.mul_assoc, Nat.mul_comm quantum, hquantum, Nat.mul_mod_left]
  · intro pass usdc husdc
    obtain ⟨_, hremaining, ⟨_, hproduct⟩, hdiv⟩ := (passUsdc_mint hreads).mp husdc
    rw [← quanta_le_iff hpos (pass_eq_quanta hprice hquantum hproduct hdiv.symm)]
    simp only [forall_const]

theorem most_of_buy (hreads : Reads market price remaining reservePass reserveUsdc)
    (htakes : Takes market .buy) (hword : spend < 2 ^ 256)
    (h : maxPass market .buy spend = .ok text) :
    ∃ most, text = shortcutInput most 18 ∧
      Most market .buy remaining reservePass reserveUsdc spend most := by
  simp only [maxPass, if_true, bind_eq_ok, amount_of_uint hreads.reservePass,
    amount_of_uint hreads.reserveUsdc, ok_bind, mapError_eq_ok, pure_eq_ok] at h
  obtain ⟨q, hquote, rfl⟩ := h
  obtain ⟨_, _, _, hpos, hless⟩ := quote_open hquote
  have hreserve := LaunchMarket.lt_of_uint (uint_eq_ok.mp hreads.reservePass)
  obtain ⟨payment, hpayment⟩ := buyPayment_of_quote hquote hword
  refine ⟨q.output, rfl, hpos, hless.trans hreserve, ⟨payment, ?_⟩, ?_⟩
  · exact passUsdc_buy.mpr ⟨htakes, hpayment⟩
  · intro pass usdc husdc
    rw [← payment_le_iff hquote (passUsdc_buy.mp husdc).2]
    simp only [reduceCtorEq, false_implies, and_true]

end Most

/-! ## Native currency -/

/-- The price that Max used is that of a reference which is fresh now. -/
def SamePrice (native : Option NativeMax) (reference : Option PaymentReference) (now : Int)
    (price : Nat) : Prop :=
  ∃ r, reference = some r ∧ validPaymentReference r now = .ok r ∧
    uint r.ethUsdPriceRaw = .ok price ∧
    bigInt ((native.bind (·.ethUsdPriceRaw)).getD "0") = .ok (price : Int)

/-- What native currency pays in USDC, and what that costs in native currency. -/
theorem native_le_iff {conversion : Conversion} {operation : QuoteOperation}
    {native : Option NativeMax} {eth price liquidity spend usdc : Nat}
    (hop : operation = .mint ∨ operation = .buy)
    (hliquidity : uint conversion.usdcReserveRaw = .ok liquidity)
    (hprice : bigInt ((native.bind (·.ethUsdPriceRaw)).getD "0") = .ok (price : Int))
    (h : nativeUsdc conversion operation native eth = .ok spend)
    (husdc : operation = .buy → 0 < usdc) :
    ∃ cost, passEth operation usdc price conversion.feeBps = .ok cost ∧
      (cost ≤ eth ∧ (operation = .buy → usdc ≤ liquidity) ↔ usdc ≤ spend) := by
  simp only [nativeUsdc, hprice, ok_bind, bind_eq_ok, ensure_eq_ok, exists_const,
    Int.toNat_natCast, Int.natCast_pos] at h
  obtain ⟨hpos, h⟩ := h
  rcases hop with rfl | rfl
  · simp only [reduceCtorEq, if_false, pure_eq_ok] at h
    refine ⟨ceilDiv (usdc * 10 ^ 18) price, rfl, ?_⟩
    rw [← h, ← LaunchMarket.le_gross_iff hpos]
    simp only [reduceCtorEq, false_implies, and_true]
    rfl
  · simp only [if_true, bind_eq_ok, mapError_eq_ok, amount_of_uint hliquidity, ok_bind,
      pure_eq_ok] at h
    obtain ⟨bought, hbought, rfl⟩ := h
    have hopen : 0 < eth ∧ 0 < price ∧ 0 ≤ conversion.feeBps ∧ conversion.feeBps ≤ 1000 := by
      simp only [LaunchMarket.usdcForEth, bind_eq_ok, ensure_eq_ok] at hbought
      exact hbought.choose_spec.1
    obtain ⟨bought', cost, hbought', hcost, hiff⟩ :=
      LaunchMarket.le_usdcForEth_iff hpos hopen.2.2 hopen.1 (husdc rfl)
    obtain rfl := Except.ok.inj (hbought.symm.trans hbought')
    refine ⟨cost, ?_, ?_⟩
    · simp only [passEth, reduceCtorEq, if_false, if_true, mapError_eq_ok]
      exact hcost
    · rw [← hiff, le_min_iff]
      simp only [forall_const]

/-! ## The estimate of an amount -/

/-- The form asks for so much PASS. -/
def Asks (amount : String) (pass : Nat) : Prop :=
  ∃ raw, inputRaw .sell .eth amount = .ok raw ∧ uint raw = .ok pass ∧ pass ≠ 0

section Estimate

variable {state : LaunchClientState} {strategy : StrategyId} (form : OrderForm)
  {reference : Option PaymentReference} {now : Int} {snapshot : MarketSnapshot}
  {price remaining reservePass reserveUsdc : Nat} {payment : PassPayment}

theorem estimate_usdc (hsnapshot : state.snapshot = some snapshot)
    (hreads : Reads (snapshot.markets strategy) price remaining reservePass reserveUsdc)
    (hasset : form.asset = .afUsdc) :
    estimatePassPayment state strategy form reference now = .ok payment ↔
      state.config.any (·.configured) = true ∧ ∃ pass usdc, Asks form.amount pass ∧
        passUsdc (snapshot.markets strategy) form.operation pass reservePass reserveUsdc =
          .ok usdc ∧
        ⟨pass.repr, usdc.repr, none, (if form.operation = .buy then usdc else pass).repr⟩ =
          payment := by
  simp only [estimatePassPayment, hsnapshot, hasset, bind_eq_ok, ensure_eq_ok, pure_eq_ok,
    hreads.reservePass, hreads.reserveUsdc, ok_bind, exists_const, Asks]
  grind

theorem estimate_eth (hsnapshot : state.snapshot = some snapshot)
    (hreads : Reads (snapshot.markets strategy) price remaining reservePass reserveUsdc)
    (hasset : form.asset = .eth) {native : Option NativeMax} {ethUsdPrice : Nat}
    (hprice : SamePrice native reference now ethUsdPrice) :
    estimatePassPayment state strategy form reference now = .ok payment ↔
      state.config.any (·.configured) = true ∧ ∃ pass usdc eth, Asks form.amount pass ∧
        passUsdc (snapshot.markets strategy) form.operation pass reservePass reserveUsdc =
          .ok usdc ∧
        passEth form.operation usdc ethUsdPrice snapshot.conversion.feeBps = .ok eth ∧
        ⟨pass.repr, (if form.operation = .mint then usdc else eth * ethUsdPrice / 10 ^ 18).repr,
          some eth.repr, (if form.operation = .buy then eth else pass).repr⟩ = payment := by
  obtain ⟨r, hreference, hvalid, hread, _⟩ := hprice
  simp only [estimatePassPayment, hsnapshot, hasset, hreference, hvalid, hread, bind_eq_ok,
    ensure_eq_ok, pure_eq_ok, hreads.reservePass, hreads.reserveUsdc, ok_bind, exists_const, Asks]
  grind

end Estimate

/-! ## Max -/

/-- The payment is in the balance, less the gas reserve in native currency. -/
def Spends (wallet : MarketWalletSnapshot) (native : Option NativeMax) (asset : PaymentAsset)
    (payment : PassPayment) : Prop :=
  match asset with
  | .afUsdc => Text.ofDecimal payment.usdcRaw ≤ Text.ofDecimal wallet.usdcBalanceRaw
  | .eth => ∃ eth n reserve, payment.ethRaw = some eth ∧ native = some n ∧
      Text.bigInt n.gasReserveRaw = some reserve ∧
      (Text.ofDecimal eth : Int) ≤ Text.ofDecimal wallet.ethBalanceRaw - reserve

/-- The bounds on what an order pays: the balance, what is left of the launch, and the USDC
that the conversion reserve has for the pool. -/
structure Within (wallet : MarketWalletSnapshot) (snapshot : MarketSnapshot)
    (strategy : StrategyId) (operation : QuoteOperation) (asset : PaymentAsset)
    (native : Option NativeMax) (payment : PassPayment) : Prop where
  spends : Spends wallet native asset payment
  inventory : operation = .mint → Text.ofDecimal payment.passRaw ≤
    Text.ofDecimal (snapshot.markets strategy).remainingRaw
  liquidity : operation = .buy → asset = .eth →
    ∃ usdc, passUsdc (snapshot.markets strategy) .buy (Text.ofDecimal payment.passRaw)
      (Text.ofDecimal (snapshot.markets strategy).reservePassRaw)
      (Text.ofDecimal (snapshot.markets strategy).reserveUsdcRaw) = .ok usdc ∧
    usdc ≤ Text.ofDecimal snapshot.conversion.usdcReserveRaw

/-- The text asks for an amount that is within the bounds, and no text for a larger one. -/
def IsMax (state : LaunchClientState) (strategy : StrategyId) (form : OrderForm)
    (native : Option NativeMax) (reference : Option PaymentReference) (now : Int)
    (wallet : MarketWalletSnapshot) (snapshot : MarketSnapshot) (text : String) : Prop :=
  ∃ payment,
    estimatePassPayment state strategy { form with amount := text } reference now = .ok payment ∧
    inputRaw .sell .eth text = .ok payment.passRaw ∧
    Within wallet snapshot strategy form.operation form.asset native payment ∧
    ∀ other payment', estimatePassPayment state strategy { form with amount := other } reference
        now = .ok payment' →
      Within wallet snapshot strategy form.operation form.asset native payment' →
      Text.ofDecimal payment'.passRaw ≤ Text.ofDecimal payment.passRaw

section Max

variable {state : LaunchClientState} {strategy : StrategyId} {form : OrderForm}
  {native : Option NativeMax} {reference : Option PaymentReference} {now : Int}
  {wallet : MarketWalletSnapshot} {snapshot : MarketSnapshot}
  {price remaining reservePass reserveUsdc spend most : Nat}

theorem asks_shortcutInput (hpos : 0 < most) (hword : most < 2 ^ 256) :
    Asks (shortcutInput most 18) most :=
  ⟨most.repr, inputRaw_shortcutInput hword hpos, uint_of_lt hword, hpos.ne'⟩

/-- What a fresh balance leaves after gas. -/
theorem nativeSpend_ok {balance eth : Nat} (hbalance : uint wallet.ethBalanceRaw = .ok balance)
    (h : nativeSpend wallet native = .ok eth) :
    ∃ n reserve, native = some n ∧ Text.bigInt n.gasReserveRaw = some reserve ∧
      (eth : Int) = balance - reserve := by
  unfold nativeSpend at h
  split at h
  · cases h
  · next n =>
    simp only [amount_of_uint hbalance, ok_bind, bind_eq_ok, ensure_eq_ok, pure_eq_ok] at h
    obtain ⟨reserve, hreserve, _, ⟨hpos, hless⟩, rfl⟩ := h
    exact ⟨n, reserve, rfl, bigInt_eq_ok.mp hreserve, by omega⟩

section Within

variable {payment : PassPayment}
  (hsnapshot : state.snapshot = some snapshot)
  (hreads : Reads (snapshot.markets strategy) price remaining reservePass reserveUsdc)
  (h : estimatePassPayment state strategy form reference now = .ok payment)
  (hmost : Most (snapshot.markets strategy) form.operation remaining reservePass reserveUsdc spend
    most)

include hsnapshot hreads h hmost

theorem within_usdc_iff (hasset : form.asset = .afUsdc)
    (hbalance : uint wallet.usdcBalanceRaw = .ok spend) :
    Within wallet snapshot strategy form.operation form.asset native payment ↔
      Text.ofDecimal payment.passRaw ≤ most := by
  obtain ⟨_, pass, usdc, _, hpaid, rfl⟩ := (estimate_usdc form hsnapshot hreads hasset).mp h
  rw [Text.ofDecimal_repr, ← hmost.le_iff pass usdc hpaid]
  constructor
  · rintro ⟨hspends, hinventory, _⟩
    rw [hasset, Spends, Text.ofDecimal_repr, ofDecimal_of_uint hbalance] at hspends
    rw [Text.ofDecimal_repr, ofDecimal_of_uint hreads.remaining] at hinventory
    exact ⟨hspends, hinventory⟩
  · rintro ⟨hspends, hinventory⟩
    refine ⟨?_, ?_, fun _ heth => ?_⟩
    · rw [hasset, Spends, Text.ofDecimal_repr, ofDecimal_of_uint hbalance]
      exact hspends
    · rw [Text.ofDecimal_repr, ofDecimal_of_uint hreads.remaining]
      exact hinventory
    · rw [hasset] at heth
      cases heth

theorem within_eth_iff (hop : form.operation = .mint ∨ form.operation = .buy)
    (hasset : form.asset = .eth) {ethUsdPrice liquidity balance eth : Nat}
    (hprice : SamePrice native reference now ethUsdPrice)
    (hliquidity : uint snapshot.conversion.usdcReserveRaw = .ok liquidity)
    (hbalance : uint wallet.ethBalanceRaw = .ok balance)
    (hspend : nativeSpend wallet native = .ok eth)
    (husdc : nativeUsdc snapshot.conversion form.operation native eth = .ok spend) :
    Within wallet snapshot strategy form.operation form.asset native payment ↔
      Text.ofDecimal payment.passRaw ≤ most := by
  obtain ⟨_, pass, usdc, cost, _, hpaid, hcost, rfl⟩ :=
    (estimate_eth form hsnapshot hreads hasset hprice).mp h
  obtain ⟨n, reserve, hnative, hreserve, heth⟩ := nativeSpend_ok hbalance hspend
  have hmaxPrice := hprice
  obtain ⟨_, _, _, _, hmaxPrice⟩ := hmaxPrice
  obtain ⟨cost', hcost', hiff⟩ := native_le_iff hop hliquidity hmaxPrice husdc (bought_pos hpaid)
  obtain rfl := Except.ok.inj (hcost.symm.trans hcost')
  rw [Text.ofDecimal_repr, ← hmost.le_iff pass usdc hpaid, ← hiff]
  constructor
  · rintro ⟨hspends, hinventory, hreserves⟩
    rw [hasset, Spends] at hspends
    obtain ⟨_, _, reserve', hcostText, hnative', hreserve', hle⟩ := hspends
    obtain rfl := Option.some.inj hcostText
    obtain rfl := Option.some.inj (hnative.symm.trans hnative')
    obtain rfl := Option.some.inj (hreserve.symm.trans hreserve')
    rw [Text.ofDecimal_repr, ofDecimal_of_uint hbalance, ← heth, Int.ofNat_le] at hle
    rw [Text.ofDecimal_repr, ofDecimal_of_uint hreads.remaining] at hinventory
    refine ⟨⟨hle, fun hbuy => ?_⟩, hinventory⟩
    obtain ⟨usdc', husdc', hcovered⟩ := hreserves hbuy hasset
    rw [Text.ofDecimal_repr, ofDecimal_of_uint hreads.reservePass,
      ofDecimal_of_uint hreads.reserveUsdc, ← hbuy] at husdc'
    rw [ofDecimal_of_uint hliquidity] at hcovered
    obtain rfl := Except.ok.inj (hpaid.symm.trans husdc')
    exact hcovered
  · rintro ⟨⟨hle, hcovered⟩, hinventory⟩
    refine ⟨?_, ?_, fun hbuy _ => ⟨usdc, ?_, ?_⟩⟩
    · rw [hasset, Spends]
      refine ⟨_, n, reserve, rfl, hnative, hreserve, ?_⟩
      rw [Text.ofDecimal_repr, ofDecimal_of_uint hbalance, ← heth, Int.ofNat_le]
      exact hle
    · rw [Text.ofDecimal_repr, ofDecimal_of_uint hreads.remaining]
      exact hinventory
    · rw [Text.ofDecimal_repr, ofDecimal_of_uint hreads.reservePass,
        ofDecimal_of_uint hreads.reserveUsdc, ← hbuy]
      exact hpaid
    · rw [ofDecimal_of_uint hliquidity]
      exact hcovered hbuy

end Within

theorem most_of_max (hreads : Reads (snapshot.markets strategy) price remaining reservePass reserveUsdc)
    (hop : form.operation = .mint ∨ form.operation = .buy)
    (htakes : Takes (snapshot.markets strategy) form.operation)
    (hword : form.operation = .buy → spend < 2 ^ 256) {text : String}
    (h : maxPass (snapshot.markets strategy) form.operation spend = .ok text) :
    ∃ most, text = shortcutInput most 18 ∧
      Most (snapshot.markets strategy) form.operation remaining reservePass reserveUsdc spend most := by
  rcases hop with hop | hop
  · rw [hop] at h htakes ⊢
    exact most_of_mint hreads htakes h
  · have hfits := hword hop
    rw [hop] at h htakes ⊢
    exact most_of_buy hreads htakes hfits h

theorem nativeUsdc_lt {conversion : Conversion} {liquidity eth : Nat}
    (hliquidity : uint conversion.usdcReserveRaw = .ok liquidity)
    (h : nativeUsdc conversion .buy native eth = .ok spend) : spend < 2 ^ 256 := by
  simp only [nativeUsdc, if_true, bind_eq_ok, amount_of_uint hliquidity, ok_bind, pure_eq_ok] at h
  obtain ⟨_, _, _, _, usdc, _, rfl⟩ := h
  exact (min_le_right usdc liquidity).trans_lt (LaunchMarket.lt_of_uint (uint_eq_ok.mp hliquidity))

section Conclusion

variable {text : String} (hop : form.operation = .mint ∨ form.operation = .buy)
  (hsnapshot : state.snapshot = some snapshot)
  (hreads : Reads (snapshot.markets strategy) price remaining reservePass reserveUsdc)
  (htakes : Takes (snapshot.markets strategy) form.operation)
  (hconfigured : state.config.any (·.configured) = true)
  (hpass : maxPass (snapshot.markets strategy) form.operation spend = .ok text)

include hop hsnapshot hreads htakes hconfigured hpass

theorem isMax_usdc (hasset : form.asset = .afUsdc)
    (hbalance : uint wallet.usdcBalanceRaw = .ok spend) :
    IsMax state strategy form native reference now wallet snapshot text := by
  obtain ⟨most, rfl, hmost⟩ := most_of_max hreads hop htakes
    (fun _ => LaunchMarket.lt_of_uint (uint_eq_ok.mp hbalance)) hpass
  obtain ⟨usdc, hpaid⟩ := hmost.paid
  obtain ⟨payment, hestimate, hraw⟩ : ∃ payment,
      estimatePassPayment state strategy { form with amount := shortcutInput most 18 } reference
        now = .ok payment ∧ payment.passRaw = most.repr :=
    ⟨_, (estimate_usdc { form with amount := shortcutInput most 18 } hsnapshot hreads hasset).mpr
      ⟨hconfigured, most, usdc, asks_shortcutInput hmost.pos hmost.word, hpaid, rfl⟩, rfl⟩
  refine ⟨payment, hestimate, ?_, ?_, ?_⟩
  · rw [hraw]
    exact inputRaw_shortcutInput hmost.word hmost.pos
  · refine (within_usdc_iff hsnapshot hreads hestimate hmost hasset hbalance).mpr ?_
    rw [hraw, Text.ofDecimal_repr]
  · intro other payment' h hwithin
    rw [hraw, Text.ofDecimal_repr]
    exact (within_usdc_iff hsnapshot hreads h hmost hasset hbalance).mp hwithin

theorem isMax_eth (hasset : form.asset = .eth) {ethUsdPrice liquidity balance eth : Nat}
    (hprice : SamePrice native reference now ethUsdPrice)
    (hliquidity : uint snapshot.conversion.usdcReserveRaw = .ok liquidity)
    (hbalance : uint wallet.ethBalanceRaw = .ok balance)
    (hspend : nativeSpend wallet native = .ok eth)
    (husdc : nativeUsdc snapshot.conversion form.operation native eth = .ok spend) :
    IsMax state strategy form native reference now wallet snapshot text := by
  obtain ⟨most, rfl, hmost⟩ := most_of_max hreads hop htakes
    (fun hbuy => nativeUsdc_lt hliquidity (by rw [← hbuy]; exact husdc)) hpass
  obtain ⟨usdc, hpaid⟩ := hmost.paid
  have hmaxPrice := hprice
  obtain ⟨_, _, _, _, hmaxPrice⟩ := hmaxPrice
  obtain ⟨cost, hcost, _⟩ := native_le_iff hop hliquidity hmaxPrice husdc (bought_pos hpaid)
  obtain ⟨payment, hestimate, hraw⟩ : ∃ payment,
      estimatePassPayment state strategy { form with amount := shortcutInput most 18 } reference
        now = .ok payment ∧ payment.passRaw = most.repr :=
    ⟨_, (estimate_eth { form with amount := shortcutInput most 18 } hsnapshot hreads hasset
      hprice).mpr ⟨hconfigured, most, usdc, cost, asks_shortcutInput hmost.pos hmost.word, hpaid,
      hcost, rfl⟩, rfl⟩
  refine ⟨payment, hestimate, ?_, ?_, ?_⟩
  · rw [hraw]
    exact inputRaw_shortcutInput hmost.word hmost.pos
  · refine (within_eth_iff hsnapshot hreads hestimate hmost hop hasset hprice hliquidity hbalance
      hspend husdc).mpr ?_
    rw [hraw, Text.ofDecimal_repr]
  · intro other payment' h hwithin
    rw [hraw, Text.ofDecimal_repr]
    exact (within_eth_iff hsnapshot hreads h hmost hop hasset hprice hliquidity hbalance hspend
      husdc).mp hwithin

end Conclusion

/-- Where the market takes the order, Max is read back as the most that is within the bounds. -/
theorem max_affordable_and_maximal {text : String}
    (hop : form.operation = .mint ∨ form.operation = .buy)
    (hmax : maxShortcutAmount state strategy form native true = .ok text)
    (hconfigured : state.config.any (·.configured) = true)
    (htakes : ∀ s ∈ state.snapshot, Takes (s.markets strategy) form.operation)
    (hprice : form.asset = .eth → ∃ ethUsdPrice, SamePrice native reference now ethUsdPrice) :
    ∃ wallet snapshot, state.wallet = some wallet ∧ state.snapshot = some snapshot ∧
      IsMax state strategy form native reference now wallet snapshot text := by
  have hsell : form.operation ≠ .sell := by rcases hop with hop | hop <;> simp [hop]
  obtain ⟨wallet, snapshot, spend, hwallet, hsnapshot, hpass, heth, husdc⟩ :=
    maxShortcutAmount_ok hsell hmax
  have hchecked := state.snapshot_checked snapshot hsnapshot
  obtain ⟨price, remaining, reservePass, reserveUsdc, hreads⟩ := reads_of_checked hchecked strategy
  obtain ⟨liquidity, hliquidity⟩ := conversion_of_checked hchecked
  obtain ⟨_, howner⟩ := state.wallet_checked wallet hwallet
  obtain ⟨ethBalance, usdcBalance, hethBalance, husdcBalance⟩ := wallet_of_checked howner
  have hopen := htakes snapshot hsnapshot
  refine ⟨wallet, snapshot, hwallet, hsnapshot, ?_⟩
  by_cases hasset : form.asset = .eth
  · obtain ⟨ethUsdPrice, hsame⟩ := hprice hasset
    obtain ⟨eth, hspend, hnative⟩ := heth hasset
    exact isMax_eth hop hsnapshot hreads hopen hconfigured hpass hasset hsame hliquidity hethBalance
      hspend hnative
  · have hspend := husdc hasset
    rw [amount_of_uint husdcBalance, Except.ok.injEq] at hspend
    subst hspend
    have hother : form.asset = .afUsdc := by
      cases hcase : form.asset with
      | afUsdc => rfl
      | eth => exact absurd hcase hasset
    exact isMax_usdc hop hsnapshot hreads hopen hconfigured hpass hother husdcBalance

end Max

/-! ## Orders of a wallet -/

def exampleLocation : Market.ChainLocation := ⟨46630, 100, 1, none, none, 0, 0⟩

/-- A launch of PASS at half a USDC, and a pool of 4000 PASS and 2000 USDC. -/
def exampleMarket (state : LaunchMarket.LaunchState) : StrategyMarketSnapshot where
  state
  remainingRaw := "1000000000000000000"
  pool := some 8
  reservePassRaw := "4000000000000000000000"
  reserveUsdcRaw := "2000000000"
  totalSupplyRaw := "10000000000000000000000"
  publicSupplyRaw := "5000000000000000000000"
  soldRaw := "4999000000000000000000"
  mintPriceUsdcRaw := "500000"
  lpPassRaw := "4000000000000000000000"
  lpUsdcRaw := "2000000000"
  ammFeeBps := 30

def exampleSnapshot (state : LaunchMarket.LaunchState) : MarketSnapshot where
  location := exampleLocation
  markets _ := exampleMarket state
  claim := ⟨"1000000000", 50, 100, 50⟩
  conversion := ⟨"200000000000000000000", "10000000", true, true, none, 100⟩

def exampleWallet : MarketWalletSnapshot where
  owner := 9
  location := exampleLocation
  ethBalanceRaw := "10000000000000000000"
  usdcBalanceRaw := "1000000000"
  passes _ := ⟨"0", "0", "0"⟩

theorem exampleSnapshot_checked (state : LaunchMarket.LaunchState) :
    validateSnapshot (exampleSnapshot state) = .ok () := by
  cases state <;> decide +kernel

def exampleState (state : LaunchMarket.LaunchState) : LaunchClientState where
  config := some ⟨true, none, none⟩
  snapshot := some (exampleSnapshot state)
  wallet := some exampleWallet
  owner := some 9
  snapshot_checked := by
    rintro s ⟨⟩
    exact exampleSnapshot_checked state
  wallet_checked := by
    rintro w ⟨⟩
    exact ⟨9, by decide +kernel⟩

def exampleNative : NativeMax := ⟨"1000000000000000", some "2000000000"⟩

def exampleReference : PaymentReference := ⟨"2000000000", 1000, 1030⟩

/-- The conversion reserve, and not the balance, bounds this order. -/
theorem max_affordable_and_maximal_buy :
    ∃ wallet snapshot, (exampleState .launched).wallet = some wallet ∧
      (exampleState .launched).snapshot = some snapshot ∧
      IsMax (exampleState .launched) .amzn ⟨.buy, .eth, ""⟩ (some exampleNative)
        (some exampleReference) 1001 wallet snapshot "19.841092155604312502" :=
  max_affordable_and_maximal (.inr rfl) (by decide +kernel) (by decide)
    (by rintro s ⟨⟩; rfl) (fun _ => ⟨2000000000, exampleReference, rfl, by rfl, by rfl, by rfl⟩)

/-- Max does not ask whether the market takes the order, and the estimate does; and what is shown
of a purchase has the conversion fee in it, which the conversion reserve does not pay out. -/
theorem preparing_or_shown_beyond :
    (maxShortcutAmount (exampleState .preparing) .amzn ⟨.mint, .afUsdc, ""⟩ none true = .ok "1" ∧
      ∀ reference now payment, estimatePassPayment (exampleState .preparing) .amzn
        ⟨.mint, .afUsdc, "1"⟩ reference now ≠ .ok payment) ∧
    maxShortcutAmount (exampleState .launched) .amzn ⟨.buy, .eth, ""⟩ (some exampleNative) true =
      .ok "19.841092155604312502" ∧
    ∃ payment, estimatePassPayment (exampleState .launched) .amzn
        ⟨.buy, .eth, "19.841092155604312502"⟩ (some exampleReference) 1001 = .ok payment ∧
      Text.ofDecimal (exampleSnapshot .launched).conversion.usdcReserveRaw <
        Text.ofDecimal payment.usdcRaw := by
  refine ⟨⟨by decide +kernel, ?_⟩, by decide +kernel, ?_⟩
  · intro reference now payment h
    obtain ⟨_, _, _, _, hreads⟩ := reads_of_checked (exampleSnapshot_checked .preparing) .amzn
    obtain ⟨_, _, _, _, hpaid, _⟩ := (estimate_usdc _ rfl hreads rfl).mp h
    cases ((passUsdc_mint hreads).mp hpaid).1
  · exact ⟨⟨"19841092155604312502", "10101011", some "5050505500000000", "5050505500000000"⟩,
      by decide +kernel, by decide +kernel⟩

end OrderShortcuts
end AlphaForge
