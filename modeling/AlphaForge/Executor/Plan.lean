/-
The executor's planner, `executor-plan.ts`.

From a snapshot of the vault, a request and a quote of the pool the planner makes
an order, or pauses, or throws.  Numbers arrive as decimal text and are checked
when they are read, so a check that is skipped also skips the reading.
-/
import AlphaForge.Indexer.Reconcile

namespace AlphaForge
namespace Executor

open Evm Indexer
open ChainStore (HexData)

inductive Side where
  | buy
  | sell
  deriving DecidableEq

structure TradeRequest where
  stockIndex : Int
  side : Side
  amountIn : String
  deadline : String
  sourceDigest : String
  createdAt : Int
  executor : String

structure OrderBasis where
  chainId : Nat
  owner : Address
  executor : Address
  vault : Address
  manifestDigest : Bytes32
  sourceDigest : String
  grantVersion : String
  stateVersion : String
  snapshotHash : String
  calldata : HexData
  createdAt : Int

structure OrderIntent extends OrderBasis where
  id : String

inductive Plan where
  | ready (intent : OrderIntent) (quotedOut minAmountOut : String)
  | pausedPoolPriceDeviation (quotedOut minAmountOut : String)

/-- `evidenceHash` of the two records it is used on. -/
structure EvidenceHash where
  snapshot : TradingSnapshot → String
  basis : OrderBasis → String

def uint (v : String) : Except String Nat :=
  if Text.isDecimal 77 v = true ∧ Text.ofDecimal v < 2 ^ 256 then .ok (Text.ofDecimal v)
  else .error "EXECUTOR_INPUT"

/-- `&&` and `||`, which leave out their right side when the left decides. -/
def both (left right : Except String Bool) : Except String Bool := do
  if ← left then right else .ok false

def either (left right : Except String Bool) : Except String Bool := do
  if ← left then .ok true else right

def some_ (tests : List (Except String Bool)) : Except String Bool :=
  tests.foldr either (.ok false)

def reached (value : Nat) (low high : String) : Except String Bool :=
  either
    (both (do return (← uint low) ≠ 0) (do return value ≤ (← uint low)))
    (both (do return (← uint high) ≠ 0) (do return (← uint high) ≤ value))

def riskNeedsLiquidation (s : TradingSnapshot) : Except String Bool :=
  either (.ok s.liquidating) <|
  either (both (.ok (s.grant.executor ≠ 0))
    (do return (← uint s.grant.expiresAt) ≤ (← uint s.blockTimestamp))) <|
  either (match s.unitNav with
    | none => .ok false
    | some nav => both (do return 0 < (← uint s.runtimeUnits))
        (do reached (← uint nav) s.lowerUnitNav s.upperUnitNav)) <|
  some_ ((List.finRange 3).map fun i =>
    let stock := s.stocks i
    both (do return 0 < (← uint stock.position)) <|
    both (.ok stock.priceValid)
      (do reached (← uint stock.priceUsdc) stock.lowerPrice stock.upperPrice))

section Plan

/- `getAddress`: the address a text spells, if it spells one. -/
variable (getAddress : String → Option Address) (codec : Codec) (evidenceHash : EvidenceHash)

def walletAddress (value : String) : Except String Address :=
  match getAddress value with
  | none => .error "AUTH_ADDRESS"
  | some a => do
      ensure (a ≠ 0) "AUTH_ADDRESS"
      return a

/-- The request and whom it is for. -/
def checkAuthority (s : TradingSnapshot) (inventory : TradingInventory) (r : TradeRequest) :
    Except String Unit := do
  ensure (0 ≤ r.stockIndex ∧ r.stockIndex ≤ 2 ∧ Text.isHexText 64 r.sourceDigest = true ∧
    r.sourceDigest ≠ digestText 0 ∧ 0 ≤ r.createdAt ∧ r.createdAt ≤ Json.maxSafeInteger ∧
    s.chainId = testnetChainId ∧ s.closed = false ∧
    s.manifestDigest = inventory.deploymentManifestDigest ∧ s.owner = inventory.owner)
    "EXECUTOR_AUTHORITY"
  ensure ((← walletAddress getAddress r.executor) = s.grant.executor ∧
    r.executor ≠ addressText s.owner) "EXECUTOR_AUTHORITY"

/-- When the order may still be made, and the last moment it may be filled. -/
def checkWindow (s : TradingSnapshot) (buy : Bool) (now deadline : Nat) : Except String Unit := do
  let expiry : Bool := (← uint s.grant.expiresAt) ≤ now
  let last ← (if s.liquidating then uint s.liquidationUntil
    else do
      return (← uint s.grant.expiresAt) +
        (← (if expiry then uint s.grant.liquidationWindow else .ok 0)))
  ensure (now ≤ last ∧ deadline ≤ last) "EXECUTOR_LIQUIDATION"
  ensure ((← both (.ok buy) (riskNeedsLiquidation s)) = false) "EXECUTOR_LIQUIDATION"

/-- The least output the grant accepts. -/
def minimumOutput (s : TradingSnapshot) (buy : Bool) (amount price : Nat) : Except String Nat := do
  let notional := if buy then amount else amount * price / 10 ^ 18
  let slip ← uint s.grant.maxSlippageBps
  ensure (slip < 10000) "EXECUTOR_LIMIT"
  ensure ((← uint s.grant.maxOrderUsdc) ≠ 0) "EXECUTOR_LIMIT"
  ensure (notional ≤ (← uint s.grant.maxOrderUsdc)) "EXECUTOR_LIMIT"
  ensure (buy = true → price ≠ 0) "Division by zero"
  let referenceOut := if buy then amount * 10 ^ 18 / price else notional
  let minOut := referenceOut * (10000 - slip) / 10000
  ensure (minOut ≠ 0) "EXECUTOR_SUBPRECISION"
  return minOut

/-- The cash, the grant's total and a third of the equity. -/
def checkBuyCapacity (s : TradingSnapshot) (amount price position : Nat) : Except String Unit :=
  match s.runtimeEquity with
  | none => .error "EXECUTOR_CAPACITY"
  | some equity => do
      ensure (amount ≤ (← uint s.runtimeCash)) "EXECUTOR_CAPACITY"
      ensure (amount + (← uint s.totalBuyUsdc) ≤ (← uint s.grant.maxTotalBuyUsdc))
        "EXECUTOR_CAPACITY"
      ensure ((position * price / 10 ^ 18 + amount) * 3 ≤ (← uint equity)) "EXECUTOR_CAPACITY"

/-- A third of the equity again, with the quoted output bought. -/
def checkPostFill (s : TradingSnapshot) (amount price position quote : Nat) :
    Except String Unit :=
  match s.runtimeEquity with
  | none => .error "EXECUTOR_INPUT"
  | some before => do
      let value : Int := ((position + quote) * price / 10 ^ 18 : Nat)
      let equity : Int := (← uint before) - amount - (position * price / 10 ^ 18 : Nat) + value
      ensure (value * 3 ≤ equity) "EXECUTOR_POST_FILL_CAPACITY"

def planExecutorTrade (s : TradingSnapshot) (inventory : TradingInventory) (r : TradeRequest)
    (quotedOut : String) : Except String Plan := do
  checkAuthority getAddress s inventory r
  let i : Fin 3 := Fin.ofNat 3 r.stockIndex.toNat
  let stock := s.stocks i
  let mapping := inventory.stocks i
  ensure (stock.token = mapping.token ∧ stock.pool = mapping.pool ∧ stock.priceValid = true)
    "EXECUTOR_REFERENCE"
  let now ← uint s.blockTimestamp
  let deadline ← uint r.deadline
  let amount ← uint r.amountIn
  let quote ← uint quotedOut
  ensure ((now : Int) ≤ r.createdAt / 1000 ∧ r.createdAt / 1000 - now ≤ 30 ∧ now ≤ deadline ∧
    deadline < 2 ^ 64 ∧ amount ≠ 0 ∧ quote ≠ 0) "EXECUTOR_TIME_AMOUNT"
  let buy : Bool := r.side = .buy
  checkWindow s buy now deadline
  let price ← uint stock.priceUsdc
  let position ← uint stock.position
  let minOut ← minimumOutput s buy amount price
  if buy then checkBuyCapacity s amount price position
  else ensure (amount ≤ position) "EXECUTOR_POSITION"
  if quote < minOut then return .pausedPoolPriceDeviation quotedOut minOut.repr
  else
    if buy then checkPostFill s amount price position quote
    let calldata := codec.encodeFunctionData (.execute {
      tokenIn := if buy then inventory.usdc else stock.token
      tokenOut := if buy then stock.token else inventory.usdc
      amountIn := amount, minAmountOut := minOut, deadline
      expectedVersion := ← uint s.stateVersion })
    let basis : OrderBasis := {
      chainId := testnetChainId, owner := s.owner, executor := s.grant.executor, vault := s.vault
      manifestDigest := s.manifestDigest, sourceDigest := r.sourceDigest
      grantVersion := s.grantVersion, stateVersion := s.stateVersion
      snapshotHash := evidenceHash.snapshot s, calldata, createdAt := r.createdAt }
    return .ready { basis with id := ((evidenceHash.basis basis).drop 2).toString } quotedOut
      minOut.repr

end Plan

end Executor
end AlphaForge
