/-
The calls that quotes of the launch market are carried out by, `abi.ts`.

`validateQuoteTransaction` holds the calldata of a quote to what the quote shows.
The service runs it on what it builds, the client on what it is sent.  An owner is an
address, whatever the case of its text, and `ethers` encodes and parses calls.
-/
import AlphaForge.Market.LaunchMarket
import AlphaForge.Market.MarketStore

namespace AlphaForge
namespace QuoteTransaction

open Evm
open Market (ChainLocation)
open MarketStore (QuoteOperation)
open MarketTypes (NativeQuote)
open LaunchMarket (Thrown StrategyId StrategyMarket Conversion EthReference uint mintCost)

deriving instance DecidableEq for NativeQuote, EthReference

inductive SettlementAsset where
  | eth
  | afUsdc
  deriving DecidableEq

structure QuoteRequest where
  owner : Address
  strategyId : StrategyId
  operation : QuoteOperation
  asset : SettlementAsset
  amountRaw : String
  slippageBps : Int

structure ManifestStrategy where
  pass : Address
  launch : Option Address
  pool : Option Address

/-- `LaunchMarketManifest`, as far as quotes read it. -/
structure Manifest where
  chainId : Nat
  usdc : Address
  claim : Address
  router : Address
  vaultFactory : Option Address
  strategies : StrategyId → ManifestStrategy

/-- `MarketSnapshot`, as far as quotes read it. -/
structure MarketSnapshot where
  location : ChainLocation
  markets : StrategyId → StrategyMarket
  conversion : Conversion
  claimFunded : Bool
  remainingClaims : Nat
  successfulClaims : Nat

/-- The vaults of `MarketWalletSnapshot`. -/
structure WalletVaults where
  owner : Address
  vaults : List (StrategyId × Address)

abbrev HexData := List UInt8

structure MarketTransaction where
  to' : Address
  data : HexData
  value : String
  deriving DecidableEq

structure Allowance where
  token : Address
  spender : Address
  amountRaw : String
  deriving DecidableEq

inductive Simulation where
  | ready
  | approvalRequired
  deriving DecidableEq

structure MarketQuote where
  id : String
  owner : Address
  strategyId : StrategyId
  operation : QuoteOperation
  asset : SettlementAsset
  amountInRaw : String
  estimatedOutRaw : String
  minOutRaw : String
  feeUsdcRaw : String
  conversionFeeUsdcRaw : String
  priceImpactBps : Int
  expiresAt : Int
  reference : Option EthReference
  transaction : MarketTransaction
  allowance : Option Allowance
  gasEstimateRaw : Option String
  simulation : Simulation
  location : ChainLocation
  deriving DecidableEq

/-! ## Calls -/

structure ClaimVoucher where
  accountId : Bytes32
  wallet : Address
  nonce : Nat
  issuedAt : Nat
  deadline : Nat
  epoch : Nat
  deriving DecidableEq

inductive Call where
  | subscribeUsdc (passAmount deadline : Nat)
  | subscribeEth (passAmount : Nat) (q : NativeQuote) (signature : HexData)
  | buyNative (q : NativeQuote) (signature : HexData)
  | sellNative (q : NativeQuote) (signature : HexData)
  | buy (usdcIn minPass : Nat) (recipient : Address) (deadline : Nat)
  | sell (passIn minUsdc : Nat) (recipient : Address) (deadline : Nat)
  | claim (voucher : ClaimVoucher) (signature : HexData)
  | createVault (strategyIndex : Nat)
  | deposit (usdcAmount : Nat)
  | withdraw (usdcAmount : Nat)
  | close
  deriving DecidableEq

/-- The interfaces of `marketInterfaces`. -/
inductive Interface where
  | launch
  | router
  | pool
  | claim
  | vaultFactory
  | vault
  deriving DecidableEq

def Call.interface : Call → Interface
  | .subscribeUsdc .. | .subscribeEth .. => .launch
  | .buyNative .. | .sellNative .. => .router
  | .buy .. | .sell .. => .pool
  | .claim .. => .claim
  | .createVault .. => .vaultFactory
  | .deposit .. | .withdraw .. | .close => .vault

/-- `encodeFunctionData` and `parseTransaction` of the interfaces. -/
structure Ethers where
  encodeFunctionData : Call → Except Thrown HexData
  parseTransaction : Interface → HexData → Option Call

/-- Calls are parsed as what they were encoded from. -/
def Ethers.Inverse (ethers : Ethers) : Prop :=
  ∀ call data, ethers.encodeFunctionData call = .ok data →
    ethers.parseTransaction call.interface data = some call

/-! ## Validation -/

def address (value : Address) : Except Thrown Address := do
  ensure (value ≠ 0) (.launchMarket "INVALID_ADDRESS" 400)
  return value

/-- `reject`. -/
def mismatch : Thrown := .launchMarket "QUOTE_TRANSACTION_MISMATCH" 400

def same (a b : Address) : Except Thrown Unit := do
  ensure ((← address a) = (← address b)) mismatch

def eq (a : Nat) (b : String) : Except Thrown Unit := do
  ensure (a = (← uint b)) mismatch

/-- `indexOf` in the operations that are signed. -/
def operationIndex : QuoteOperation → Option Nat
  | .mint => some MarketTypes.mint
  | .buy => some MarketTypes.buy
  | .sell => some MarketTypes.sell
  | _ => none

def strategyIndex : StrategyId → Nat
  | .tsla => 0
  | .amzn => 1

section Validate

variable (ethers : Ethers) (quote : MarketQuote) (manifest : Manifest)

/-- The target, if there is one, and the address it must be. -/
def checkTarget (expected : Option Address) (target : Address) : Except Thrown Unit :=
  match expected with
  | some expected => do ensure (target = (← address expected)) mismatch
  | none => .error mismatch

def checkCreateVault (target : Address) : Except Thrown Unit := do
  checkTarget manifest.vaultFactory target
  ensure (quote.asset = .afUsdc) mismatch
  eq 0 quote.amountInRaw
  eq 0 quote.transaction.value
  ensure (quote.allowance = none) mismatch
  match ethers.parseTransaction .vaultFactory quote.transaction.data with
  | some (.createVault index) => ensure (index = strategyIndex quote.strategyId) mismatch
  | _ => .error mismatch

/-- Whether the wallet has the vault. -/
def findVault (target : Address) : List (StrategyId × Address) → Except Thrown Bool
  | [] => .ok false
  | (id, vault) :: rest =>
      if id = quote.strategyId then do
        if (← address vault) = target then return true else findVault target rest
      else findVault target rest

def checkVault (wallet : Option WalletVaults) (owner target : Address) : Except Thrown Unit :=
  match wallet with
  | none => .error mismatch
  | some wallet => do
      ensure ((← findVault quote target wallet.vaults) = true) mismatch
      ensure (wallet.owner = owner ∧ quote.asset = .afUsdc) mismatch
      eq 0 quote.transaction.value
      match quote.operation, ethers.parseTransaction .vault quote.transaction.data with
      | .deposit, some (.deposit amount) => eq amount quote.amountInRaw
      | .withdraw, some (.withdraw amount) => do
          eq amount quote.amountInRaw
          ensure (quote.allowance = none) mismatch
      | .close, some .close => do
          eq 0 quote.amountInRaw
          ensure (quote.allowance = none) mismatch
      | _, _ => .error mismatch

def checkClaim (owner target : Address) : Except Thrown Unit := do
  ensure (target = (← address manifest.claim)) mismatch
  eq 0 quote.transaction.value
  ensure (quote.allowance = none) mismatch
  match ethers.parseTransaction .claim quote.transaction.data with
  | some (.claim v _) => do
      same v.wallet owner
      ensure (v.accountId ≠ 0 ∧ (v.deadline : Int) = quote.expiresAt ∧
        (v.deadline : Int) - v.issuedAt ≤ 60) mismatch
  | _ => .error mismatch

/-- The quote that a call of the operation carries, with the amount of a subscription. -/
def nativeCall (operation : QuoteOperation) (call : Option Call) : Option (Nat × NativeQuote) :=
  match operation, call with
  | .mint, some (.subscribeEth passAmount q _) => some (passAmount, q)
  | .buy, some (.buyNative q _) => some (0, q)
  | .sell, some (.sellNative q _) => some (0, q)
  | _, _ => none

/-- What is checked of a signed quote, whatever the operation. -/
def checkSigned (q : NativeQuote) (expectedTarget owner : Address) : Except Thrown Unit := do
  same q.payer owner
  same q.pass (manifest.strategies quote.strategyId).pass
  same q.router expectedTarget
  ensure (q.accountId ≠ 0 ∧ some q.operation = operationIndex quote.operation ∧
    (q.deadline : Int) = quote.expiresAt) mismatch
  match quote.reference with
  | none => .error mismatch
  | some reference => do
      eq q.ethUsdPrice reference.ethUsdPriceRaw
      ensure (q.issuedAt ≤ q.deadline ∧ q.deadline - q.issuedAt ≤ 60 ∧ 0 < q.epoch) mismatch

def checkNativeAmounts (passAmount : Nat) (q : NativeQuote) : Except Thrown Unit :=
  match quote.operation with
  | .mint => do
      eq passAmount quote.amountInRaw
      eq q.minOut quote.minOutRaw
      ensure (quote.minOutRaw = quote.estimatedOutRaw ∧ quote.estimatedOutRaw = quote.amountInRaw)
        mismatch
      ensure (q.usdcAmount = (← mintCost (← uint quote.amountInRaw))) mismatch
      eq q.ethAmount quote.transaction.value
      eq q.amountIn quote.transaction.value
      ensure (quote.allowance = none) mismatch
  | .buy => do
      eq q.minOut quote.minOutRaw
      eq q.amountIn quote.amountInRaw
      eq q.ethAmount quote.amountInRaw
      eq q.ethAmount quote.transaction.value
      ensure (quote.allowance = none) mismatch
  | _ => do
      eq q.minOut quote.minOutRaw
      eq q.amountIn quote.amountInRaw
      eq q.ethAmount quote.estimatedOutRaw
      eq 0 quote.transaction.value

def checkNative (owner target : Address) : Except Thrown Unit := do
  let expectedTarget := if quote.operation = .mint then (manifest.strategies quote.strategyId).launch
    else some manifest.router
  checkTarget expectedTarget target
  let interface := if quote.operation = .mint then Interface.launch else .router
  match nativeCall quote.operation (ethers.parseTransaction interface quote.transaction.data) with
  | some (passAmount, q) => do
      checkSigned quote manifest q target owner
      checkNativeAmounts quote passAmount q
  | none => .error mismatch

def checkSubscription (target : Address) : Except Thrown Unit := do
  checkTarget (manifest.strategies quote.strategyId).launch target
  eq 0 quote.transaction.value
  match ethers.parseTransaction .launch quote.transaction.data with
  | some (.subscribeUsdc passAmount deadline) => do
      eq passAmount quote.amountInRaw
      ensure ((deadline : Int) = quote.expiresAt ∧ quote.estimatedOutRaw = quote.amountInRaw ∧
        quote.minOutRaw = quote.amountInRaw) mismatch
  | _ => .error mismatch

/-- Amount, minimum, recipient and deadline of a call of the pool. -/
def poolCall (operation : QuoteOperation) (call : Option Call) : Option (Nat × Nat × Address × Nat) :=
  match operation, call with
  | .buy, some (.buy usdcIn minPass recipient deadline) => some (usdcIn, minPass, recipient, deadline)
  | .sell, some (.sell passIn minUsdc recipient deadline) => some (passIn, minUsdc, recipient, deadline)
  | _, _ => none

def checkPool (snapshot : Option MarketSnapshot) (owner target : Address) : Except Thrown Unit := do
  let pool := (snapshot.bind fun s => (s.markets quote.strategyId).pool).or
    (manifest.strategies quote.strategyId).pool
  checkTarget pool target
  eq 0 quote.transaction.value
  match poolCall quote.operation (ethers.parseTransaction .pool quote.transaction.data) with
  | some (amount, minimum, recipient, deadline) => do
      eq amount quote.amountInRaw
      eq minimum quote.minOutRaw
      same recipient owner
      ensure ((deadline : Int) = quote.expiresAt) mismatch
  | none => .error mismatch

def checkAllowance (allowance : Allowance) (target : Address) : Except Thrown Unit := do
  let pass := (manifest.strategies quote.strategyId).pass
  let amountIn ← uint quote.amountInRaw
  let required ← if quote.operation = .mint then mintCost amountIn else .ok amountIn
  if quote.operation = .deposit then do
    let isPass := (← address allowance.token) = (← address pass)
    if isPass then eq (required * 10 ^ 12) allowance.amountRaw
    else do
      same allowance.token manifest.usdc
      eq required allowance.amountRaw
  else do
    same allowance.token (if quote.operation = .sell then pass else manifest.usdc)
    eq required allowance.amountRaw
  ensure ((← address allowance.spender) = target) mismatch
  ensure ((← uint allowance.amountRaw) ≠ 0) mismatch

/-- The check of the call, by the operation. -/
def checkCall (snapshot : Option MarketSnapshot) (wallet : Option WalletVaults)
    (owner target : Address) : Except Thrown Unit :=
  match quote.operation with
  | .createVault => checkCreateVault ethers quote manifest target
  | .deposit | .withdraw | .close => checkVault ethers quote wallet owner target
  | .claim => checkClaim ethers quote manifest owner target
  | .mint =>
      if quote.asset = .eth then checkNative ethers quote manifest owner target
      else checkSubscription ethers quote manifest target
  | .buy | .sell =>
      if quote.asset = .eth then checkNative ethers quote manifest owner target
      else checkPool ethers quote manifest snapshot owner target

def validateQuoteTransaction (snapshot : Option MarketSnapshot) (wallet : Option WalletVaults) :
    Except Thrown Unit := do
  let owner ← address quote.owner
  let target ← address quote.transaction.to'
  ensure (quote.location.chainId = manifest.chainId ∧ 0 < quote.expiresAt) mismatch
  checkCall ethers quote manifest snapshot wallet owner target
  match quote.allowance with
  | some allowance => checkAllowance quote manifest allowance target
  | none => .ok ()

end Validate

end QuoteTransaction
end AlphaForge
