/-
Quotes of the launch market for either asset, `LaunchMarketService.quote`.

The part that is paid in ETH is computed and signed in `LaunchMarket`.  What the
service awaits from the chain, the store and the signers is one record, and the
quotes of vaults are an adapter's.
-/
import AlphaForge.Market.QuoteTransaction

namespace AlphaForge
namespace QuoteService

open Evm
open MarketStore (QuoteOperation)
open MarketTypes (NativeQuote)
open LaunchMarket (Thrown conflict EthReference AmmAnswer uint mintCost minOutput usdcForEth)
open QuoteTransaction

/-- `CLAIM_USDC`. -/
def claimUsdc : Nat := 1000 * 10 ^ 6

structure SigningPolicy where
  quoteSigner : Address
  claimSigner : Address
  quoteEpoch : Nat
  claimEpoch : Nat
  claimsOpened : Bool

/-- What `quote` finds and is answered. -/
structure Answers where
  manifest : Manifest
  snapshot : MarketSnapshot
  accountKey : Bytes32
  ethBalanceRaw : String
  usdcBalanceRaw : String
  availableRaw : LaunchMarket.StrategyId → String
  /-- The clock once the wallet is there, once the reference is there, and at the end. -/
  readAt : Nat
  now : Nat
  doneAt : Nat
  reference : Option EthReference
  quoteSigner : Option Address
  claimSigner : Option Address
  policy : SigningPolicy
  quoteAmm : LaunchMarket.StrategyId → LaunchMarket.Operation → Nat → Except Thrown AmmAnswer
  nonce : Nat
  reserveClaim : (now deadline : Nat) → Except Thrown ClaimVoucher
  signQuote : NativeQuote → Except Thrown HexData
  signClaim : ClaimVoucher → Except Thrown HexData
  /-- The gas of a transaction. -/
  simulate : MarketTransaction → Except Thrown String
  vaultQuote : Option (QuoteRequest → Except Thrown MarketQuote)
  saveQuote : MarketQuote → Except Thrown Unit
  id : String

section Quote

variable (ethers : Ethers) (e : Answers) (request : QuoteRequest)

/-- What the ETH branch is answered. -/
def Answers.native : LaunchMarket.Answers where
  router := e.manifest.router
  strategy id := ⟨(e.manifest.strategies id).pass, (e.manifest.strategies id).launch⟩
  market := e.snapshot.markets
  conversion := e.snapshot.conversion
  accountKey := e.accountKey
  ethBalanceRaw := e.ethBalanceRaw
  availableRaw := e.availableRaw
  reference := e.reference
  signer := e.quoteSigner
  now := e.now
  policySigner := e.policy.quoteSigner
  policyEpoch := e.policy.quoteEpoch
  quoteAmm := e.quoteAmm
  nonce := e.nonce

def nativeRequest (operation : LaunchMarket.Operation) : LaunchMarket.QuoteRequest :=
  ⟨request.owner, request.strategyId, operation, request.amountRaw, request.slippageBps⟩

/-- What the branches decide. -/
structure Draft where
  output : Nat
  minOut : Nat
  feeUsdc : Nat
  conversionFee : Nat
  expiresAt : Nat
  reference : Option EthReference
  transaction : MarketTransaction
  allowance : Option Allowance

def claimDraft (amount : Nat) : Except Thrown Draft := do
  ensure (amount = 0 ∧ e.snapshot.claimFunded = true ∧ e.snapshot.remainingClaims ≠ 0)
    (conflict "CLAIM_UNAVAILABLE")
  match e.claimSigner with
  | none => .error (.launchMarket "CLAIM_SIGNER_NOT_CONFIGURED" 503)
  | some signer => do
      ensure (e.policy.claimsOpened = true) (conflict "CLAIM_NOT_OPEN")
      ensure ((← address signer) = (← address e.policy.claimSigner))
        (.launchMarket "CLAIM_SIGNER_MISMATCH" 503)
      let voucher ← e.reserveClaim e.readAt (e.readAt + 60)
      let value := { voucher with wallet := request.owner, epoch := e.policy.claimEpoch }
      let signature ← e.signClaim value
      let data ← ethers.encodeFunctionData (.claim value signature)
      return { output := claimUsdc, minOut := claimUsdc, feeUsdc := 0, conversionFee := 0
               expiresAt := voucher.deadline, reference := none
               transaction := ⟨e.manifest.claim, data, "0"⟩, allowance := none }

/-- The call of a quote that was signed. -/
def signedCall (operation : LaunchMarket.Operation) (amount : Nat) (q : NativeQuote)
    (signature : HexData) : Call :=
  match operation with
  | .mint => .subscribeEth amount q signature
  | .buy => .buyNative q signature
  | .sell => .sellNative q signature

def nativeDraft (operation : LaunchMarket.Operation) (amount : Nat) : Except Thrown Draft := do
  let signed ← LaunchMarket.quote e.native (nativeRequest request operation)
  let signature ← e.signQuote signed.value
  let data ← ethers.encodeFunctionData (signedCall operation amount signed.value signature)
  let value := if operation = .sell then "0" else signed.value.ethAmount.repr
  return { output := signed.output, minOut := signed.value.minOut, feeUsdc := signed.feeUsdc
           conversionFee := signed.conversionFee, expiresAt := signed.value.deadline
           reference := e.reference, transaction := ⟨signed.value.router, data, value⟩
           allowance := signed.allowance.map fun (token, spender, amount) =>
             ⟨token, spender, amount.repr⟩ }

def subscriptionDraft (amount : Nat) : Except Thrown Draft := do
  let cost ← mintCost amount
  ensure (cost ≤ (← uint e.usdcBalanceRaw)) (conflict "INSUFFICIENT_AF_USDC")
  match (e.manifest.strategies request.strategyId).launch with
  | none => .error (conflict "MINT_NOT_OPEN")
  | some launch => do
      let data ← ethers.encodeFunctionData (.subscribeUsdc amount (e.readAt + 60))
      return { output := amount, minOut := amount, feeUsdc := 0, conversionFee := 0
               expiresAt := e.readAt + 60, reference := none
               transaction := ⟨launch, data, "0"⟩
               allowance := some ⟨e.manifest.usdc, launch, cost.repr⟩ }

/-- The fee of the pool in USDC: a sale pays it in PASS. -/
def poolFee (operation : LaunchMarket.Operation) (fee : Nat) : Except Thrown Nat :=
  if operation = .buy then .ok fee
  else do
    let market := e.snapshot.markets request.strategyId
    let reserveUsdc ← uint market.reserveUsdcRaw
    let reservePass ← uint market.reservePassRaw
    ensure (reservePass ≠ 0) .rangeError
    return fee * reserveUsdc / reservePass

/-- Whoever pays in USDC has it. -/
def checkBalance (operation : LaunchMarket.Operation) (amount : Nat) : Except Thrown Unit :=
  if operation = .buy then do
    ensure (amount ≤ (← uint e.usdcBalanceRaw)) (conflict "INSUFFICIENT_AF_USDC")
  else .ok ()

def poolDraft (operation : LaunchMarket.Operation) (amount : Nat) : Except Thrown Draft := do
  checkBalance e operation amount
  let quoted ← e.quoteAmm request.strategyId operation amount
  let output ← uint quoted.outputRaw
  let minOut ← minOutput output request.slippageBps
  let feeUsdc ← poolFee e request operation (← uint quoted.feeRaw)
  match (e.snapshot.markets request.strategyId).pool with
  | none => .error (conflict "TRADING_NOT_OPEN")
  | some pool => do
      let expiresAt := e.readAt + 60
      let data ← ethers.encodeFunctionData
        (if operation = .buy then .buy amount minOut request.owner expiresAt
          else .sell amount minOut request.owner expiresAt)
      let token := if operation = .buy then e.manifest.usdc
        else (e.manifest.strategies request.strategyId).pass
      return { output, minOut, feeUsdc, conversionFee := 0, expiresAt, reference := none
               transaction := ⟨pool, data, "0"⟩
               allowance := some ⟨token, pool, amount.repr⟩ }

def tradeDraft (operation : LaunchMarket.Operation) (amount : Nat) : Except Thrown Draft := do
  LaunchMarket.checkOpen e.native (nativeRequest request operation) amount
  if request.asset = .eth then nativeDraft ethers e request operation amount
  else if operation = .mint then subscriptionDraft ethers e request amount
  else poolDraft ethers e request operation amount

/-- What the pool is paid. -/
def ammIn (operation : LaunchMarket.Operation) (amount : Nat) : Except Thrown Nat :=
  match operation, request.asset, e.reference with
  | .buy, .eth, some reference => do
      usdcForEth amount (← uint reference.ethUsdPriceRaw) e.snapshot.conversion.feeBps
  | _, _, _ => .ok amount

/-- What the pool pays, which a sale for ETH asks it again. -/
def ammOut (operation : LaunchMarket.Operation) (amount output : Nat) : Except Thrown Nat :=
  if operation = .sell ∧ request.asset = .eth then do
    let quoted ← e.quoteAmm request.strategyId .sell amount
    uint quoted.outputRaw
  else .ok output

/-- How far below the reserves' price a trade is, in basis points. -/
def priceImpact (operation : LaunchMarket.Operation) (amount output : Nat) : Except Thrown Nat := do
  let market := e.snapshot.markets request.strategyId
  let paid ← ammIn e request operation amount
  let reserveIn ← uint (if operation = .buy then market.reserveUsdcRaw else market.reservePassRaw)
  let reserveOut ← uint (if operation = .buy then market.reservePassRaw else market.reserveUsdcRaw)
  ensure (reserveIn ≠ 0) .rangeError
  let spot := paid * reserveOut / reserveIn
  let bought ← ammOut e request operation amount output
  return if spot = 0 then 0 else (if bought < spot then spot - bought else 0) * 10000 / spot

/-- The operations that are quoted here. -/
def tradeOf : QuoteOperation → Option LaunchMarket.Operation
  | .mint => some .mint
  | .buy => some .buy
  | .sell => some .sell
  | _ => none

def draft (amount : Nat) : Except Thrown (Draft × Nat) :=
  match tradeOf request.operation with
  | none => do return (← claimDraft ethers e request amount, 0)
  | some operation => do
      let d ← tradeDraft ethers e request operation amount
      if operation = .mint then return (d, 0)
      else return (d, ← priceImpact e request operation amount d.output)

def base (amount : Nat) (d : Draft) (impact : Nat) : MarketQuote where
  id := e.id
  owner := request.owner
  strategyId := request.strategyId
  operation := request.operation
  asset := request.asset
  amountInRaw := amount.repr
  estimatedOutRaw := d.output.repr
  minOutRaw := d.minOut.repr
  feeUsdcRaw := d.feeUsdc.repr
  conversionFeeUsdcRaw := d.conversionFee.repr
  priceImpactBps := impact
  expiresAt := d.expiresAt
  reference := d.reference
  transaction := d.transaction
  allowance := d.allowance
  gasEstimateRaw := none
  simulation := .ready
  location := e.snapshot.location

def gasOf (transaction : MarketTransaction) : Except Thrown String := do
  let gas ← e.simulate transaction
  ensure ((← uint gas) ≠ 0) (.launchMarket "INVALID_GAS_ESTIMATE" 503)
  return gas

def approvalWanted : Thrown → Bool
  | .launchMarket code _ => code = "ALLOWANCE_REQUIRED"
  | _ => false

/-- The gas, or the approval that is wanted first. -/
def simulated (quote : MarketQuote) : Except Thrown MarketQuote :=
  match gasOf e quote.transaction with
  | .ok gas => .ok { quote with allowance := none, gasEstimateRaw := some gas }
  | .error thrown =>
      if approvalWanted thrown = true ∧ quote.allowance ≠ none then
        .ok { quote with simulation := .approvalRequired }
      else .error thrown

/-- The quotes of vaults. -/
def forVault : QuoteOperation → Bool
  | .createVault | .deposit | .withdraw | .close => true
  | _ => false

def quote : Except Thrown MarketQuote := do
  let amount ← uint request.amountRaw
  let _ ← address request.owner
  ensure (0 ≤ request.slippageBps ∧ request.slippageBps ≤ 500) (.launchMarket "SLIPPAGE_LIMIT" 400)
  if forVault request.operation = true then
    match e.vaultQuote with
    | none => .error (.launchMarket "VAULT_NOT_CONFIGURED" 503)
    | some vaultQuote => do
        let result ← vaultQuote request
        e.saveQuote result
        return result
  else do
    let (d, impact) ← draft ethers e request amount
    let built := base e request amount d impact
    validateQuoteTransaction ethers built e.manifest (some e.snapshot) none
    let result ← simulated e built
    ensure ((e.doneAt : Int) < result.expiresAt) (conflict "QUOTE_EXPIRED")
    e.saveQuote result
    return result

end Quote

end QuoteService
end AlphaForge
