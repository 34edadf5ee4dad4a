/-
The check of a quote before it is shown, `#validateQuote` of `client.ts`.

The client holds the quote to its own request, to its own clock and to the snapshot
that it has.  A sale for ETH is bounded in USDC: the client recovers what the pool
pays from the figures that are shown.
-/
import AlphaForge.Client.MarketClient
import AlphaForge.Client.PaymentEstimate
import AlphaForge.Market.QuoteTransaction

namespace AlphaForge
namespace QuoteReview

open Evm
open Market (maxSafeInteger)
open LaunchMarket (ceilDiv)
open PaymentEstimate (Failure uint)
open QuoteTransaction

/-- What the client has when a quote arrives.  It keeps no snapshot whose location it
has not checked. -/
structure Held where
  manifest : Option Manifest
  snapshot : Option MarketSnapshot
  wallet : Option WalletVaults
  located : ∀ s ∈ snapshot, MarketClient.validLocation s.location = .ok ()

/-- The second of a date. -/
structure Clock where
  seconds : Int
  isDate : -8640000000000 ≤ seconds ∧ seconds ≤ 8640000000000

/-- `math.ts` throws its own errors. -/
def market {α : Type} (x : Except LaunchMarket.Thrown α) : Except Failure α := x.mapError .market

section Validate

variable (ethers : Ethers) (held : Held) (quote : MarketQuote) (request : QuoteRequest)

/-- The amount that was asked for, where the operation has it. -/
def amountMatches : Prop :=
  match quote.operation with
  | .mint => quote.estimatedOutRaw = request.amountRaw
  | .claim | .close => request.amountRaw = "0"
  | _ => quote.amountInRaw = request.amountRaw

instance : Decidable (amountMatches quote request) := by
  unfold amountMatches
  split <;> infer_instance

def checkRequest (now : Clock) : Except Failure Unit :=
  ensure (quote.owner = request.owner ∧ quote.operation = request.operation ∧
    quote.asset = request.asset ∧ quote.strategyId = request.strategyId ∧
    amountMatches quote request ∧
    (-(maxSafeInteger : Int) ≤ quote.expiresAt ∧ quote.expiresAt ≤ maxSafeInteger) ∧
    now.seconds < quote.expiresAt ∧ quote.expiresAt - now.seconds ≤ 300 ∧
    0 ≤ quote.priceImpactBps ∧ quote.priceImpactBps ≤ 10000) (.error "QUOTE_REQUEST_MISMATCH")

def checkAmounts : Except Failure Unit :=
  forM [quote.amountInRaw, quote.estimatedOutRaw, quote.minOutRaw, quote.feeUsdcRaw,
    quote.conversionFeeUsdcRaw, quote.transaction.value] fun value => do
      let _ ← uint value

def checkSimulation : Except Failure Unit :=
  match quote.simulation with
  | .ready =>
      match quote.gasEstimateRaw with
      | none => .error (.error "INVALID_SIMULATION_EVIDENCE")
      | some gas => do
          ensure ((← uint gas) ≠ 0) (.error "INVALID_SIMULATION_EVIDENCE")
          ensure (quote.allowance = none) (.error "INVALID_SIMULATION_EVIDENCE")
  | .approvalRequired =>
      ensure (quote.allowance ≠ none ∧ quote.gasEstimateRaw = none)
        (.error "INVALID_SIMULATION_EVIDENCE")

/-- The price that the quote names, `0` without one. -/
def quotedPrice : Except Failure Nat := uint ((quote.reference.map (·.ethUsdPriceRaw)).getD "0")

/-- What the pool pays for a sale, recovered from what is shown of it. -/
def grossUsdc : Except Failure Nat := do
  let price ← quotedPrice quote
  let output ← uint quote.estimatedOutRaw
  let conversionFee ← uint quote.conversionFeeUsdcRaw
  return ceilDiv (output * price) (10 ^ 18) + conversionFee

def slippageMismatch : Failure := .error "QUOTE_SLIPPAGE_MISMATCH"

def checkNativeSale : Except Failure Unit := do
  let price ← quotedPrice quote
  let gross ← grossUsdc quote
  match held.snapshot, ethers.parseTransaction .router quote.transaction.data with
  | some snapshot, some (.sellNative q _) => do
      let feeBps := snapshot.conversion.feeBps
      let conversionFee ← uint quote.conversionFeeUsdcRaw
      ensure (price ≠ 0) slippageMismatch
      -- BigInt division rounds toward zero
      ensure ((conversionFee : Int) = (gross * feeBps + 10000 - 1).tdiv 10000) slippageMismatch
      ensure ((← market (LaunchMarket.ethSaleOutput gross price feeBps)) =
        (← uint quote.estimatedOutRaw)) slippageMismatch
      ensure ((← market (LaunchMarket.minOutput gross request.slippageBps)) ≤ q.usdcAmount)
        slippageMismatch
      ensure ((← uint quote.minOutRaw) =
        (← market (LaunchMarket.ethSaleOutput q.usdcAmount price feeBps))) slippageMismatch
  | _, _ => .error slippageMismatch

def checkOutput : Except Failure Unit := do
  let bound := (((← uint quote.estimatedOutRaw) : Int) * (10000 - request.slippageBps)).tdiv 10000
  ensure (bound ≤ (← uint quote.minOutRaw)) slippageMismatch

def checkSlippage : Except Failure Unit :=
  match quote.operation, quote.asset with
  | .sell, .eth => checkNativeSale ethers held quote request
  | .buy, _ | .sell, _ => checkOutput quote request
  | _, _ => .ok ()

def validateQuote (now : Clock) : Except Failure Unit :=
  match held.manifest with
  | none => .error (.error "QUOTE_REQUEST_MISMATCH")
  | some manifest => do
      checkRequest quote request now
      (MarketClient.validLocation quote.location).mapError Failure.error
      checkAmounts quote
      checkSimulation quote
      ensure ((← uint quote.minOutRaw) ≤ (← uint quote.estimatedOutRaw))
        (.error "INVALID_MINIMUM_OUTPUT")
      checkSlippage ethers held quote request
      market (validateQuoteTransaction ethers quote manifest held.snapshot held.wallet)

end Validate

end QuoteReview
end AlphaForge
