/-
Quotes of the launch market, `math.ts` and the ETH branch of
`LaunchMarketService.quote`.

The service computes with integers of any size what the contracts compute with
words, and signs the quotes that the contracts then hold to their own arithmetic.
What it awaits from the chain, the price provider and the signer is one record.
-/
import AlphaForge.Market.NativeReserve
import AlphaForge.Text.Digits

namespace AlphaForge
namespace LaunchMarket

open Evm
open MarketTypes (NativeQuote)

/-- A `LaunchMarketError`, or what the language or the typed-data encoder throws. -/
inductive Thrown where
  | launchMarket (code : String) (status : Nat)
  | rangeError
  | invalidArgument
  deriving DecidableEq, Repr

/-- `new LaunchMarketError(code)`. -/
def conflict (code : String) : Thrown := .launchMarket code 409

/-! ## `math.ts` -/

def passUnit : Nat := 10 ^ 18

def mintPriceUsdc : Nat := 500000

def ceilDiv (a b : Nat) : Nat := (a + b - 1) / b

def mintCost (passAmount : Nat) : Except Thrown Nat := do
  ensure (0 < passAmount) (.launchMarket "INVALID_AMOUNT" 400)
  ensure (passAmount % (passUnit / mintPriceUsdc) = 0) (.launchMarket "MINT_PRECISION" 400)
  return passAmount * mintPriceUsdc / passUnit

def minOutput (output : Nat) (slippageBps : Int) : Except Thrown Nat := do
  ensure (0 ≤ slippageBps ∧ slippageBps ≤ 500) (.launchMarket "SLIPPAGE_LIMIT" 400)
  let result := output * (10000 - slippageBps).toNat / 10000
  ensure (result ≠ 0) (conflict "ZERO_OUTPUT")
  return result

structure AmmQuote where
  output : Nat
  fee : Nat
  priceImpactBps : Int
  deriving DecidableEq, Repr

def ammQuote (amountIn reserveIn reserveOut : Nat) (feeBps : Int) : Except Thrown AmmQuote := do
  ensure (0 < amountIn ∧ 0 < reserveIn ∧ 0 < reserveOut) (conflict "INSUFFICIENT_LIQUIDITY")
  ensure (0 ≤ feeBps ∧ feeBps ≤ 1000) (conflict "INVALID_AMM_FEE")
  let fee := ceilDiv (amountIn * feeBps.toNat) 10000
  let effective := amountIn - fee
  let output := effective * reserveOut / (reserveIn + effective)
  ensure (output ≠ 0 ∧ output < reserveOut) (conflict "ZERO_OUTPUT")
  let spot := amountIn * reserveOut / reserveIn
  return { output, fee, priceImpactBps :=
    if spot = 0 then 0 else (((spot : Int) - output) * 10000).tdiv spot }

def ethForUsdc (usdc ethUsdPrice : Nat) (feeBps : Int) : Except Thrown Nat := do
  ensure (0 < usdc ∧ 0 < ethUsdPrice ∧ 0 ≤ feeBps ∧ feeBps ≤ 1000) (conflict "INVALID_CONVERSION")
  let gross := ceilDiv (usdc * 10000) (10000 - feeBps).toNat
  return ceilDiv (gross * 10 ^ 18) ethUsdPrice

def usdcForEth (eth ethUsdPrice : Nat) (feeBps : Int) : Except Thrown Nat := do
  ensure (0 < eth ∧ 0 < ethUsdPrice ∧ 0 ≤ feeBps ∧ feeBps ≤ 1000) (conflict "INVALID_CONVERSION")
  let gross := eth * ethUsdPrice / 10 ^ 18
  return gross - ceilDiv (gross * feeBps.toNat) 10000

def ethSaleOutput (usdc ethUsdPrice : Nat) (feeBps : Int) : Except Thrown Nat := do
  ensure (0 < usdc ∧ 0 < ethUsdPrice ∧ 0 ≤ feeBps ∧ feeBps ≤ 1000) (conflict "INVALID_CONVERSION")
  let fee := ceilDiv (usdc * feeBps.toNat) 10000
  return (usdc - fee) * 10 ^ 18 / ethUsdPrice

/-! ## The service -/

inductive StrategyId where
  | tsla
  | amzn
  deriving DecidableEq

/-- The operations that are quoted against ETH. -/
inductive Operation where
  | mint
  | buy
  | sell
  deriving DecidableEq

def Operation.index : Operation → Nat
  | .mint => MarketTypes.mint
  | .buy => MarketTypes.buy
  | .sell => MarketTypes.sell

inductive LaunchState where
  | preparing
  | minting
  | soldOut
  | launched
  deriving DecidableEq

structure QuoteRequest where
  owner : Address
  strategyId : StrategyId
  operation : Operation
  amountRaw : String
  slippageBps : Int

structure StrategyMarket where
  state : LaunchState
  remainingRaw : String
  pool : Option Address
  reservePassRaw : String
  reserveUsdcRaw : String

structure Conversion where
  ethReserveRaw : String
  usdcReserveRaw : String
  ethBuyAvailable : Bool
  ethSellAvailable : Bool
  ethMintAvailable : Option Bool
  feeBps : Int

structure Strategy where
  pass : Address
  launch : Option Address

structure EthReference where
  ethUsdPriceRaw : String
  observedAt : Int

structure AmmAnswer where
  outputRaw : String
  feeRaw : String

/-- What `quote` finds and is answered. -/
structure Answers where
  router : Address
  strategy : StrategyId → Strategy
  market : StrategyId → StrategyMarket
  conversion : Conversion
  accountKey : Bytes32
  ethBalanceRaw : String
  availableRaw : StrategyId → String
  /-- The provider, and the quote signer's address, if they are configured. -/
  reference : Option EthReference
  signer : Option Address
  /-- The clock once the reference is there. -/
  now : Nat
  policySigner : Address
  policyEpoch : Nat
  quoteAmm : StrategyId → Operation → Nat → Except Thrown AmmAnswer
  nonce : Nat

/-- What is signed, with the figures the answer to the user is made of. -/
structure Signed where
  value : NativeQuote
  output : Nat
  feeUsdc : Nat
  conversionFee : Nat
  /-- Token, spender and amount. -/
  allowance : Option (Address × Address × Nat)

def uint (value : String) : Except Thrown Nat := do
  ensure (Text.isDecimal 77 value = true) (.launchMarket "INVALID_AMOUNT" 400)
  ensure (Text.ofDecimal value < 2 ^ 256) (.launchMarket "INVALID_AMOUNT" 400)
  return Text.ofDecimal value

/-- The amounts of a quote, before it is signed. -/
structure Amounts where
  usdcAmount : Nat
  ethAmount : Nat
  minUsdc : Nat
  minOut : Nat
  output : Nat
  feeUsdc : Nat
  conversionFee : Nat
  allowance : Option (Address × Address × Nat)

section Quote

variable (e : Answers) (request : QuoteRequest)

/-- What is checked of the operation for either asset. -/
def checkOpen (amount : Nat) : Except Thrown Unit := do
  let market := e.market request.strategyId
  ensure (amount ≠ 0) (.launchMarket "INVALID_AMOUNT" 400)
  match request.operation with
  | .mint => do
      ensure (request.strategyId = .tsla ∧ market.state = .minting ∧
        (e.strategy request.strategyId).launch ≠ none) (conflict "MINT_NOT_OPEN")
      ensure (amount ≤ (← uint market.remainingRaw)) (conflict "OVERSELL")
      let _ ← mintCost amount
  | .buy => ensure (market.state = .launched ∧ market.pool ≠ none) (conflict "TRADING_NOT_OPEN")
  | .sell => do
      ensure (market.state = .launched ∧ market.pool ≠ none) (conflict "TRADING_NOT_OPEN")
      ensure (amount ≤ (← uint (e.availableRaw request.strategyId)))
        (conflict "INSUFFICIENT_AVAILABLE_PASS")

def available : Bool :=
  match request.operation with
  | .sell => e.conversion.ethSellAvailable
  | .mint => e.conversion.ethMintAvailable.getD e.conversion.ethBuyAvailable
  | .buy => e.conversion.ethBuyAvailable

/-- The price, and when a quote at it runs out. -/
def readPrice (reference : EthReference) : Except Thrown (Nat × Int) := do
  let price ← uint reference.ethUsdPriceRaw
  ensure (price ≠ 0 ∧ -(2 ^ 53) < reference.observedAt ∧ reference.observedAt < 2 ^ 53 ∧
    reference.observedAt ≤ e.now ∧ e.now - reference.observedAt ≤ 30)
    (.launchMarket "ETH_REFERENCE_STALE" 503)
  let expiresAt := min ((e.now : Int) + 60) (reference.observedAt + 60)
  ensure (e.now < expiresAt) (.launchMarket "ETH_REFERENCE_STALE" 503)
  return (price, expiresAt)

def mintAmounts (amount price : Nat) : Except Thrown Amounts := do
  let usdcAmount ← mintCost amount
  return { usdcAmount, ethAmount := ceilDiv (usdcAmount * 10 ^ 18) price, minUsdc := 0
           minOut := amount, output := amount, feeUsdc := 0, conversionFee := 0, allowance := none }

def buyAmounts (amount price : Nat) : Except Thrown Amounts := do
  let usdcAmount ← usdcForEth amount price e.conversion.feeBps
  ensure (usdcAmount ≤ (← uint e.conversion.usdcReserveRaw)) (conflict "USDC_CONVERSION_LIQUIDITY")
  let quoted ← e.quoteAmm request.strategyId .buy usdcAmount
  let output ← uint quoted.outputRaw
  let feeUsdc ← uint quoted.feeRaw
  let minOut ← minOutput output request.slippageBps
  return { usdcAmount, ethAmount := amount, minUsdc := 0, minOut, output, feeUsdc
           conversionFee := amount * price / 10 ^ 18 - usdcAmount, allowance := none }

def sellAmounts (amount price : Nat) : Except Thrown Amounts := do
  let market := e.market request.strategyId
  let quoted ← e.quoteAmm request.strategyId .sell amount
  let usdcAmount ← uint quoted.outputRaw
  let minUsdc ← minOutput usdcAmount request.slippageBps
  let ethAmount ← ethSaleOutput usdcAmount price e.conversion.feeBps
  let minOut ← ethSaleOutput minUsdc price e.conversion.feeBps
  let conversionFee := ceilDiv (usdcAmount * e.conversion.feeBps.toNat) 10000
  ensure (ethAmount ≤ (← uint e.conversion.ethReserveRaw)) (conflict "ETH_CONVERSION_LIQUIDITY")
  let fee ← uint quoted.feeRaw
  let reserveUsdc ← uint market.reserveUsdcRaw
  let reservePass ← uint market.reservePassRaw
  ensure (reservePass ≠ 0) .rangeError
  return { usdcAmount, ethAmount, minUsdc, minOut, output := ethAmount
           feeUsdc := fee * reserveUsdc / reservePass, conversionFee
           allowance := some ((e.strategy request.strategyId).pass, e.router, amount) }

def amounts (amount price : Nat) : Except Thrown Amounts :=
  match request.operation with
  | .mint => mintAmounts amount price
  | .buy => buyAmounts e request amount price
  | .sell => sellAmounts e request amount price

/-- Whoever pays in ETH has it. -/
def checkBalance (ethAmount : Nat) : Except Thrown Unit :=
  if request.operation = .sell then .ok ()
  else do ensure (ethAmount ≤ (← uint e.ethBalanceRaw)) (conflict "INSUFFICIENT_ETH")

/-- The widths of the signed fields; the encoder throws on what does not fit. -/
def Fits (v : NativeQuote) : Prop :=
  v.operation < 2 ^ 8 ∧ v.amountIn < 2 ^ 256 ∧ v.usdcAmount < 2 ^ 256 ∧ v.minOut < 2 ^ 256 ∧
    v.ethAmount < 2 ^ 256 ∧ v.ethUsdPrice < 2 ^ 256 ∧ v.nonce < 2 ^ 256 ∧ v.issuedAt < 2 ^ 64 ∧
    v.deadline < 2 ^ 64 ∧ v.epoch < 2 ^ 64

instance (v : NativeQuote) : Decidable (Fits v) := by
  unfold Fits
  infer_instance

/-- `quote` with ETH, up to and with the signing. -/
def quote : Except Thrown Signed := do
  let amount ← uint request.amountRaw
  ensure (0 ≤ request.slippageBps ∧ request.slippageBps ≤ 500) (.launchMarket "SLIPPAGE_LIMIT" 400)
  checkOpen e request amount
  match e.reference, e.signer with
  | some reference, some signer =>
      ensure (available e request = true) (conflict "ETH_PATH_UNAVAILABLE")
      let (price, expiresAt) ← readPrice e reference
      ensure (signer = e.policySigner) (.launchMarket "QUOTE_SIGNER_MISMATCH" 503)
      let a ← amounts e request amount price
      checkBalance e request a.ethAmount
      let value : NativeQuote :=
        { router := match request.operation, (e.strategy request.strategyId).launch with
            | .mint, some launch => launch
            | _, _ => e.router
          payer := request.owner, accountId := e.accountKey, operation := request.operation.index
          pass := (e.strategy request.strategyId).pass
          amountIn := if request.operation = .sell then amount else a.ethAmount
          usdcAmount := if request.operation = .sell then a.minUsdc else a.usdcAmount
          minOut := a.minOut, ethAmount := a.ethAmount, ethUsdPrice := price, nonce := e.nonce
          issuedAt := e.now, deadline := expiresAt.toNat, epoch := e.policyEpoch }
      ensure (Fits value) .invalidArgument
      return { value, output := a.output, feeUsdc := a.feeUsdc, conversionFee := a.conversionFee
               allowance := a.allowance }
  | _, _ => .error (.launchMarket "NATIVE_QUOTES_NOT_CONFIGURED" 503)

end Quote

end LaunchMarket
end AlphaForge
