/-
The shortcuts of the order form, `order-shortcuts.ts`, and what the page estimates for
the amount in the form, `estimatePassPayment` of `payment-estimate.ts`.

`maxShortcutAmount` writes into the form the most that can be had, and the estimate
reads it back from there.  The page only keeps snapshots and wallets whose amounts it
has read once, so that those are decimal and fit a word.
-/
import AlphaForge.Client.MarketClient
import AlphaForge.Client.PaymentEstimate
import AlphaForge.Text.Decimal

namespace AlphaForge
namespace OrderShortcuts

open Evm
open Market (ChainLocation maxSafeInteger)
open MarketStore (QuoteOperation)
open MarketClient (PaymentAsset LaunchConfig)
open LaunchMarket (StrategyId StrategyMarket Conversion passUnit ceilDiv ammQuote)
open PaymentEstimate (Failure uint buyPayment)

/-! ## Text of the form -/

/-- `BigInt` of a text, with the message of the engine. -/
def bigInt (value : String) : Except Failure Int :=
  match Text.bigInt value with
  | some n => .ok n
  | none => .error (.error ("Cannot convert " ++ value ++ " to a BigInt"))

/-- `BigInt` of an amount that the page keeps, which is not negative. -/
def amount (value : String) : Except Failure Nat := do return (← bigInt value).toNat

def shortcutInput (raw decimals : Nat) : String :=
  Text.pointed (Nat.toDigits 10 (raw / 10 ^ decimals))
    (Text.stripZeros (Text.padStart decimals (Nat.toDigits 10 (raw % 10 ^ decimals))))

/-- `decimalRaw` of `testnet-action-form.ts`. -/
def decimalRaw (value : String) (decimals : Nat) : Except Failure String := do
  ensure (Text.isPlainDecimal value = true ∧ value.length ≤ 100) (.error "AMOUNT_INVALID")
  let fraction := (Text.afterPoint value).getD []
  ensure (fraction.length ≤ decimals) (.error "AMOUNT_PRECISION")
  let raw := Text.scaled decimals (Text.beforePoint value) fraction
  ensure (raw < 2 ^ 256) (.error "AMOUNT_INVALID")
  return raw.repr

/-- `inputRaw` of `presentation.ts`. -/
def inputRaw (operation : QuoteOperation) (asset : PaymentAsset) (amount : String) :
    Except Failure String :=
  if operation = .claim ∨ operation = .close ∨ operation = .createVault then .ok "0"
  else do
    let decimals :=
      if operation = .deposit ∨ operation = .withdraw ∨ (operation = .buy ∧ asset = .afUsdc) then 6
      else 18
    let raw ← decimalRaw amount decimals
    ensure ((← bigInt raw) ≠ 0) (.error "Enter an amount greater than zero.")
    return raw

/-! ## What the page keeps -/

structure StrategyMarketSnapshot extends StrategyMarket where
  totalSupplyRaw : String
  publicSupplyRaw : String
  soldRaw : String
  mintPriceUsdcRaw : String
  lpPassRaw : String
  lpUsdcRaw : String
  ammFeeBps : Int

structure ClaimInventory where
  amountUsdcRaw : String
  successfulClaims : Int
  maxClaims : Int
  remainingClaims : Int

structure MarketSnapshot where
  location : ChainLocation
  markets : StrategyId → StrategyMarketSnapshot
  claim : ClaimInventory
  conversion : Conversion

structure PassBalance where
  balanceRaw : String
  lockedRaw : String
  availableRaw : String

/-- `MarketWalletSnapshot`, as far as amounts go. -/
structure MarketWalletSnapshot where
  owner : Address
  location : ChainLocation
  ethBalanceRaw : String
  usdcBalanceRaw : String
  passes : StrategyId → PassBalance

def validateMarket (market : StrategyMarketSnapshot) : Except Failure Unit := do
  forM [market.totalSupplyRaw, market.publicSupplyRaw, market.soldRaw, market.remainingRaw,
    market.mintPriceUsdcRaw, market.lpPassRaw, market.lpUsdcRaw, market.reservePassRaw,
    market.reserveUsdcRaw] fun raw => do
      let _ ← uint raw
  ensure ((← uint market.soldRaw) + (← uint market.remainingRaw) =
    (← uint market.publicSupplyRaw)) (.error "INVALID_MINT_INVENTORY")
  ensure (market.state = .launched → market.pool ≠ none ∧ uint market.reservePassRaw ≠ .ok 0 ∧
    uint market.reserveUsdcRaw ≠ .ok 0) (.error "INVALID_LAUNCH_EVIDENCE")

def isCount (n : Int) : Prop := 0 ≤ n ∧ n ≤ maxSafeInteger

instance (n : Int) : Decidable (isCount n) := inferInstanceAs (Decidable (_ ∧ _))

def validateSnapshot (snapshot : MarketSnapshot) : Except Failure Unit := do
  (MarketClient.validLocation snapshot.location).mapError Failure.error
  forM [StrategyId.tsla, .amzn] fun id => validateMarket (snapshot.markets id)
  let claim := snapshot.claim
  ensure (claim.maxClaims = 100 ∧ isCount claim.successfulClaims ∧ isCount claim.remainingClaims ∧
    claim.remainingClaims + claim.successfulClaims = 100) (.error "INVALID_CLAIM_INVENTORY")
  let _ ← uint claim.amountUsdcRaw
  let _ ← uint snapshot.conversion.ethReserveRaw
  let _ ← uint snapshot.conversion.usdcReserveRaw

def validateWallet (wallet : MarketWalletSnapshot) (owner : Address) : Except Failure Unit := do
  (MarketClient.validLocation wallet.location).mapError Failure.error
  ensure (wallet.owner = owner) (.error "WALLET_IDENTITY_CHANGED")
  let _ ← uint wallet.ethBalanceRaw
  let _ ← uint wallet.usdcBalanceRaw
  forM [StrategyId.tsla, .amzn] fun id => do
    let pass := wallet.passes id
    ensure ((← uint pass.availableRaw) + (← uint pass.lockedRaw) = (← uint pass.balanceRaw))
      (.error "INVALID_PASS_BALANCE")

/-- `LaunchClientState`, as far as the order form reads it.  What is kept was checked
when it came. -/
structure LaunchClientState where
  config : Option LaunchConfig
  snapshot : Option MarketSnapshot
  wallet : Option MarketWalletSnapshot
  owner : Option Address
  snapshot_checked : ∀ s ∈ snapshot, validateSnapshot s = .ok ()
  wallet_checked : ∀ w ∈ wallet, ∃ owner, validateWallet w owner = .ok ()

/-- `OrderForm`, without the slippage. -/
structure OrderForm where
  operation : QuoteOperation
  asset : PaymentAsset
  amount : String

/-! ## Max -/

/-- What `previewNativeMax` finds. -/
structure NativeMax where
  gasReserveRaw : String
  ethUsdPriceRaw : Option String

/-- What is left of the native balance after gas. -/
def nativeSpend (wallet : MarketWalletSnapshot) (native : Option NativeMax) :
    Except Failure Nat :=
  match native with
  | none => .error (.error "A fresh gas estimate is required for ETH Max.")
  | some native => do
      let balance ← amount wallet.ethBalanceRaw
      let reserve ← bigInt native.gasReserveRaw
      ensure (0 < reserve ∧ reserve < balance)
        (.error "Insufficient ETH after leaving a gas buffer. Enter a smaller amount or get test ETH.")
      return balance - reserve.toNat

/-- What that pays in USDC. -/
def nativeUsdc (conversion : Conversion) (operation : QuoteOperation) (native : Option NativeMax)
    (spend : Nat) : Except Failure Nat := do
  let price ← bigInt ((native.bind (·.ethUsdPriceRaw)).getD "0")
  ensure (0 < price) (.error "A fresh ETH/USD quote is required for Mint Max.")
  if operation = .buy then
    let usdc ← (LaunchMarket.usdcForEth spend price.toNat conversion.feeBps).mapError .market
    return min usdc (← amount conversion.usdcReserveRaw)
  else
    return spend * price.toNat / passUnit

def maxPass (market : StrategyMarketSnapshot) (operation : QuoteOperation) (spend : Nat) :
    Except Failure String := do
  if operation = .buy then
    let quote ← (ammQuote spend (← amount market.reserveUsdcRaw) (← amount market.reservePassRaw)
      market.ammFeeBps).mapError .market
    return shortcutInput quote.output 18
  else
    let price ← amount market.mintPriceUsdcRaw
    let remaining ← amount market.remainingRaw
    ensure (0 < price ∧ passUnit % price = 0) (.error "Mint price is unavailable.")
    let quantum := passUnit / price
    let affordable := spend * quantum
    let most := min affordable remaining / quantum * quantum
    ensure (most ≠ 0) (.error "No affordable Mint inventory is available.")
    return shortcutInput most 18

def connectFirst : Failure :=
  .error "Connect your wallet and refresh its balances before using Max."

def maxShortcutAmount (state : LaunchClientState) (strategy : StrategyId) (form : OrderForm)
    (native : Option NativeMax) (passQuantity : Bool) : Except Failure String :=
  match state.wallet, state.owner, state.snapshot with
  | some wallet, some owner, some snapshot => do
      ensure (wallet.owner = owner) connectFirst
      if form.operation = .sell then
        let available ← amount (wallet.passes strategy).availableRaw
        ensure (available ≠ 0) (.error "No unlocked PASS is available to sell.")
        return shortcutInput available 18
      let balance ← amount wallet.usdcBalanceRaw
      if form.asset = .eth then
        let spend ← nativeSpend wallet native
        if form.operation = .buy ∧ passQuantity = false then
          return shortcutInput spend 18
        maxPass (snapshot.markets strategy) form.operation
          (← nativeUsdc snapshot.conversion form.operation native spend)
      else
        ensure (form.operation = .buy → balance ≠ 0) (.error "No AF-USDC is available to spend.")
        if form.operation = .buy ∧ passQuantity = false then
          return shortcutInput balance 6
        maxPass (snapshot.markets strategy) form.operation balance
  | _, _, _ => .error connectFirst

/-! ## The estimate -/

structure PaymentReference where
  ethUsdPriceRaw : String
  observedAt : Int
  validUntil : Int

def validPaymentReference (value : PaymentReference) (now : Int) :
    Except Failure PaymentReference := do
  ensure ((← uint value.ethUsdPriceRaw) ≠ 0 ∧ isCount value.observedAt ∧ value.observedAt ≤ now ∧
    value.validUntil ≤ maxSafeInteger ∧ value.validUntil = value.observedAt + 30 ∧
    now < value.validUntil) (.error "Fresh ETH/USD reference unavailable.")
  return value

structure PassPayment where
  passRaw : String
  usdcRaw : String
  ethRaw : Option String
  assetInputRaw : String
  deriving DecidableEq

/-- The USDC that the launch or the pool takes or pays. -/
def passUsdc (market : StrategyMarketSnapshot) (operation : QuoteOperation)
    (pass poolPass poolUsdc : Nat) : Except Failure Nat := do
  if operation = .mint then
    let price ← uint market.mintPriceUsdcRaw
    let product := pass * price
    let exceeds := .error "Requested PASS exceeds remaining Mint inventory."
    ensure (market.state = .minting) exceeds
    ensure (pass ≤ (← uint market.remainingRaw)) exceeds
    ensure (price ≠ 0 ∧ product % 10 ^ 18 = 0)
      (.error "Mint quantity must use exact AF-USDC precision.")
    return product / 10 ^ 18
  else
    ensure (market.state = .launched) (.error "The PASS market is not live.")
    if operation = .buy then
      buyPayment pass poolPass poolUsdc market.ammFeeBps
    else
      return (← (ammQuote pass poolPass poolUsdc market.ammFeeBps).mapError .market).output

/-- What is paid or received in native currency for it. -/
def passEth (operation : QuoteOperation) (usdc price : Nat) (feeBps : Int) : Except Failure Nat :=
  if operation = .mint then .ok (ceilDiv (usdc * 10 ^ 18) price)
  else if operation = .buy then (LaunchMarket.ethForUsdc usdc price feeBps).mapError .market
  else (LaunchMarket.ethSaleOutput usdc price feeBps).mapError .market

def estimatePassPayment (state : LaunchClientState) (strategy : StrategyId) (form : OrderForm)
    (reference : Option PaymentReference) (now : Int) : Except Failure PassPayment :=
  match state.snapshot with
  | none => .error (.error "Market unavailable.")
  | some snapshot => do
      let market := snapshot.markets strategy
      ensure (state.config.any (·.configured) = true) (.error "Market unavailable.")
      let pass ← uint (← inputRaw .sell .eth form.amount)
      ensure (pass ≠ 0) (.error "Enter a positive PASS amount.")
      let usdc ← passUsdc market form.operation pass (← uint market.reservePassRaw)
        (← uint market.reserveUsdcRaw)
      let feeBps := snapshot.conversion.feeBps
      let assetInput := if form.operation = .buy then usdc else pass
      match form.asset, reference with
      | .afUsdc, _ =>
          return ⟨pass.repr, usdc.repr, none, assetInput.repr⟩
      | .eth, none =>
          if form.operation = .mint then
            return ⟨pass.repr, usdc.repr, none, assetInput.repr⟩
          ensure (0 ≤ feeBps ∧ feeBps ≤ 1000) (.error "Invalid conversion fee.")
          let shown :=
            if form.operation = .buy then ceilDiv (usdc * 10000) (10000 - feeBps).toNat
            else usdc - ceilDiv (usdc * feeBps.toNat) 10000
          return ⟨pass.repr, shown.repr, none, assetInput.repr⟩
      | .eth, some reference =>
          let price ← uint (← validPaymentReference reference now).ethUsdPriceRaw
          let eth ← passEth form.operation usdc price feeBps
          -- shown with the conversion fee, except that a mint has none
          let shown := if form.operation = .mint then usdc else eth * price / 10 ^ 18
          let assetInput := if form.operation = .buy then eth else pass
          return ⟨pass.repr, shown.repr, some eth.repr, assetInput.repr⟩

end OrderShortcuts
end AlphaForge
