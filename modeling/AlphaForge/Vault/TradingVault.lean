/-
The three-stock trading vault, `AlphaForgeTradingVault.sol`.

Its cash lies in two buckets, idle and at work, beside three tracked stocks and
the internal units that value what is at work.  The router and the price feeds
are other people's contracts: a call carries what the feeds answer and what the
router did, which is any list of token calls by accounts other than the vault and
its escrow.
-/
import AlphaForge.Machine.Run
import AlphaForge.Network
import AlphaForge.Vault.PassLocker

namespace AlphaForge
namespace TradingVault

open Evm

inductive Error where
  | invalidConfiguration
  | unauthorized
  | invalidState
  | invalidAmount
  | stalePrice
  | unsupportedRoute
  | riskLimit
  | transferMismatch
  | locker (error : PassLocker.Error)
  deriving DecidableEq, Repr

/-- There is a first stock. -/
instance stocks_neZero : NeZero 3 := ⟨by decide⟩

theorem stock_cases (i : Fin 3) : i = 0 ∨ i = 1 ∨ i = 2 := by
  omega

structure Config where
  self : Address
  owner : Address
  strategyCreator : Address
  strategyId : Bytes32
  strategyRef : Bytes32
  pass : Address
  afUsdc : Address
  router : Address
  locker : PassLocker.Config
  maxPriceAge : Nat
  stocks : Fin 3 → Address
  feeds : Fin 3 → Address

structure Grant where
  executor : Address
  expiresAt : Nat
  liquidationWindow : Nat
  maxOrderUsdc : Nat
  maxTotalBuyUsdc : Nat
  maxSlippageBps : Nat
  deriving DecidableEq

structure Swap where
  tokenIn : Address
  tokenOut : Address
  amountIn : Nat
  minAmountOut : Nat
  deadline : Nat
  expectedVersion : Nat

inductive Event where
  | deposited (amountUsdc principalBasis lockedPass : Nat)
  | capitalChanged (allocated : Bool) (amountUsdc units stateVersion : Nat)
  | withdrawn (amountUsdc principalExited principalBasis : Nat)
  | grantAuthorized (grantVersion : Nat) (executor : Address) (expiresAt : Nat)
  | liquidationStarted (until_ stateVersion : Nat)
  | riskOrderCancelled (stateVersion : Nat)
  | swapExecuted (stateVersion grantVersion : Nat) (stock : Address) (buy : Bool)
      (input output : Nat)
  | boundsChanged (stateVersion : Nat)
  | closed (returnedUsdc unlockedPass : Nat)
  | dustRescued (token : Address) (amount : Nat)
  deriving DecidableEq

structure State where
  tokens : Tokens
  locker : PassLocker.State
  /-- `address(this).balance`. -/
  balance : Nat
  grant : Grant
  grantVersion : Nat
  stateVersion : Nat
  principalBasis : Nat
  idleCash : Nat
  runtimeCash : Nat
  runtimeUnits : Nat
  totalBuyUsdc : Nat
  trackedPosition : Address → Nat
  openTrackedPositionCount : Nat
  closed : Bool
  liquidating : Bool
  liquidationUntil : Nat
  lowerUnitNav : Nat
  upperUnitNav : Nat
  lowerPrice : Fin 3 → Nat
  upperPrice : Fin 3 → Nat
  log : List Event

def State.emit (s : State) (e : Event) : State := { s with log := s.log ++ [e] }

/-- What `price()` of a feed answers. -/
structure Quote where
  price : Nat
  observedAt : Nat
  digest : Bytes32

abbrev Feeds := Address → Quote

/-- What the router did in one `exactInputSingle`: its token calls and everybody's
it ran, native currency it sent along, the feeds as it left them, and the output
it returned, if it returned. -/
structure RouterCall where
  calls : List TokenCall
  value : Nat
  feeds : Feeds
  amountOut : Option Nat

/-- Construction over the ledgers and the native balance found at the new
address; `lockerSelf` is the address the new escrow gets. -/
def constructor (m : Msg) (x : View) (self lockerSelf owner strategyCreator : Address)
    (strategyId strategyRef : Bytes32) (pass usdc router : Address) (stocks feeds : Fin 3 → Address)
    (maxPriceAge : Nat) (tokens : Tokens) (balance : Nat) : Result Error (Config × State) := do
  require (m.chainId = testnetChainId ∧ owner ≠ 0 ∧ strategyCreator ≠ 0 ∧ strategyId ≠ 0 ∧
    strategyRef ≠ 0 ∧ maxPriceAge ≠ 0 ∧ x.hasCode router) (.custom .invalidConfiguration)
  require (pass ≠ usdc ∧ x.decimals pass = 18 ∧ x.decimals usdc = 6 ∧
    x.strategyId pass = some strategyId) (.custom .invalidConfiguration)
  require (∀ i, stocks i ≠ pass ∧ stocks i ≠ usdc ∧ x.hasCode (stocks i) ∧ x.hasCode (feeds i) ∧
    x.decimals (stocks i) = 18) (.custom .invalidConfiguration)
  require (∀ i j, j < i → stocks j ≠ stocks i ∧ feeds j ≠ feeds i) (.custom .invalidConfiguration)
  let (locker, lockerState) ← nested .locker (PassLocker.constructor lockerSelf self owner pass)
  return ({ self, owner, strategyCreator, strategyId, strategyRef, pass, afUsdc := usdc, router,
            locker, maxPriceAge, stocks, feeds },
    { tokens, locker := lockerState, balance, grant := ⟨0, 0, 0, 0, 0, 0⟩, grantVersion := 0,
      stateVersion := 0, principalBasis := 0, idleCash := 0, runtimeCash := 0, runtimeUnits := 0,
      totalBuyUsdc := 0, trackedPosition := fun _ => 0, openTrackedPositionCount := 0,
      closed := false, liquidating := false, liquidationUntil := 0, lowerUnitNav := 0,
      upperUnitNav := 0, lowerPrice := fun _ => 0, upperPrice := fun _ => 0, log := [] })

section Calls

variable (c : Config)

def onlyOwner (m : Msg) : Result Error Unit :=
  require (m.sender = c.owner) (.custom .unauthorized)

def active (m : Msg) (s : State) : Result Error Unit :=
  require (s.closed = false ∧ m.chainId = testnetChainId) (.custom .invalidState)

def usdcToPassRaw (raw : Nat) : Result Error Nat := checkedMul raw (10 ^ 12)

/-- `_pull`. -/
def pull (m : Msg) (token recipient : Address) (amount : Nat) (k : Tokens) : Result Error Tokens :=
  k.pullExact token c.self m.sender recipient amount (.custom .transferMismatch)

/-- `_send`. -/
def send (token : Address) (amount : Nat) (k : Tokens) : Result Error Tokens :=
  k.sendExact token c.self c.owner amount (.custom .transferMismatch)

/-- `_price`. -/
def price (m : Msg) (feeds : Feeds) (i : Fin 3) : Result Error Nat := do
  let q := feeds (c.feeds i)
  require (q.price ≠ 0 ∧ q.digest ≠ 0 ∧ q.observedAt ≤ m.timestamp ∧
    m.timestamp - q.observedAt ≤ c.maxPriceAge) (.custom .stalePrice)
  return q.price

/-- `_positionValue`. -/
def positionValue (m : Msg) (feeds : Feeds) (i : Fin 3) (s : State) : Result Error Nat :=
  let amount := s.trackedPosition (c.stocks i)
  if amount = 0 then .ok 0 else do
    let quote ← price c m feeds i
    mulDiv amount quote (10 ^ 18)

def runtimeEquity (m : Msg) (feeds : Feeds) (s : State) : Result Error Nat := do
  let equity ← checkedAdd s.runtimeCash (← positionValue c m feeds 0 s)
  let equity ← checkedAdd equity (← positionValue c m feeds 1 s)
  checkedAdd equity (← positionValue c m feeds 2 s)

def unitNav (m : Msg) (feeds : Feeds) (s : State) : Result Error Nat :=
  if s.runtimeUnits = 0 then .ok 0 else do
    let equity ← runtimeEquity c m feeds s
    mulDiv equity (10 ^ 18) s.runtimeUnits

/-- `_assetBoundHit`. -/
def assetBoundHit (m : Msg) (feeds : Feeds) (i : Fin 3) (s : State) : Result Error Bool :=
  if s.trackedPosition (c.stocks i) = 0 ∨ (s.lowerPrice i = 0 ∧ s.upperPrice i = 0) then .ok false
  else do
    let quote ← price c m feeds i
    return (s.lowerPrice i ≠ 0 ∧ quote ≤ s.lowerPrice i) ∨
      (s.upperPrice i ≠ 0 ∧ s.upperPrice i ≤ quote)

/-- `||`, which evaluates its right side only when the left is false. -/
def orElse (left right : Result Error Bool) : Result Error Bool := do
  if ← left then .ok true else right

/-- `_riskReached`. -/
def riskReached (m : Msg) (feeds : Feeds) (s : State) : Result Error Bool :=
  if s.runtimeUnits = 0 then .ok false else do
    let nav ← unitNav c m feeds s
    let navHit : Bool := (s.lowerUnitNav ≠ 0 ∧ nav ≤ s.lowerUnitNav) ∨
      (s.upperUnitNav ≠ 0 ∧ s.upperUnitNav ≤ nav)
    orElse (.ok navHit) (orElse (orElse (assetBoundHit c m feeds 0 s) (assetBoundHit c m feeds 1 s))
      (assetBoundHit c m feeds 2 s))

/-- `_beginLiquidation`.  The end of the window is cut down to `uint64`. -/
def beginLiquidation (m : Msg) (s : State) : Result Error State :=
  if s.liquidating then .ok s
  else do
    let until_ ← checkedAdd m.timestamp s.grant.liquidationWindow
    let expiryUntil ← checkedAdd s.grant.expiresAt s.grant.liquidationWindow
    let liquidationUntil := (if expiryUntil < until_ then expiryUntil else until_) % 2 ^ 64
    let stateVersion ← checkedAdd s.stateVersion 1
    return { s with liquidating := true, liquidationUntil, stateVersion }.emit
      (.liquidationStarted liquidationUntil stateVersion)

def deposit (m : Msg) (amount : Nat) (s : State) : Result Error State := do
  onlyOwner c m
  active m s
  require (amount ≠ 0) (.custom .invalidAmount)
  let passAmount ← usdcToPassRaw amount
  let principalBasis ← checkedAdd s.principalBasis amount
  let idleCash ← checkedAdd s.idleCash amount
  let stateVersion ← checkedAdd s.stateVersion 1
  let tokens ← pull c m c.afUsdc c.self amount s.tokens
  let tokens ← pull c m c.pass c.locker.self passAmount tokens
  let locker ← nested .locker (PassLocker.lock c.locker c.self tokens s.locker passAmount)
  return { s with tokens, locker, principalBasis, idleCash, stateVersion }.emit
    (.deposited amount principalBasis locker.lockedBalance)

def allocate (m : Msg) (feeds : Feeds) (amount : Nat) (s : State) : Result Error State := do
  onlyOwner c m
  active m s
  require (amount ≠ 0 ∧ amount ≤ s.idleCash ∧ s.liquidating = false) (.custom .invalidAmount)
  let equity ← runtimeEquity c m feeds s
  let units ← (if s.runtimeUnits = 0 then checkedMul amount (10 ^ 12)
    else mulDiv amount s.runtimeUnits equity)
  require (units ≠ 0) (.custom .invalidAmount)
  let idleCash ← checkedSub s.idleCash amount
  let runtimeCash ← checkedAdd s.runtimeCash amount
  let runtimeUnits ← checkedAdd s.runtimeUnits units
  let stateVersion ← checkedAdd s.stateVersion 1
  return { s with idleCash, runtimeCash, runtimeUnits, stateVersion }.emit
    (.capitalChanged true amount units stateVersion)

def deallocate (m : Msg) (feeds : Feeds) (amount : Nat) (s : State) : Result Error State := do
  onlyOwner c m
  active m s
  require (amount ≠ 0 ∧ amount ≤ s.runtimeCash) (.custom .invalidAmount)
  let equity ← runtimeEquity c m feeds s
  let units ← mulDivCeil amount s.runtimeUnits equity
  require (¬ (units = 0 ∨ (units = s.runtimeUnits ∧
    (s.openTrackedPositionCount ≠ 0 ∨ amount ≠ s.runtimeCash)))) (.custom .invalidAmount)
  let runtimeCash ← checkedSub s.runtimeCash amount
  let idleCash ← checkedAdd s.idleCash amount
  let runtimeUnits ← checkedSub s.runtimeUnits units
  let stateVersion ← checkedAdd s.stateVersion 1
  return { s with idleCash, runtimeCash, runtimeUnits, stateVersion }.emit
    (.capitalChanged false amount units stateVersion)

def realizedProfit (s : State) : Result Error Nat := do
  let cash ← checkedAdd s.idleCash s.runtimeCash
  return if s.principalBasis < cash then cash - s.principalBasis else 0

def withdraw (m : Msg) (amount : Nat) (s : State) : Result Error State := do
  onlyOwner c m
  active m s
  require (amount ≠ 0 ∧ amount ≤ s.idleCash) (.custom .invalidAmount)
  let profit ← realizedProfit s
  let exited := if profit < amount then amount - profit else 0
  require (exited = 0 ∨ s.openTrackedPositionCount = 0) (.custom .invalidState)
  let idleCash ← checkedSub s.idleCash amount
  let principalBasis ← checkedSub s.principalBasis exited
  let stateVersion ← checkedAdd s.stateVersion 1
  let tokens ← send c c.afUsdc amount s.tokens
  let (tokens, locker) ←
    (if exited ≠ 0 then do
      let raw ← usdcToPassRaw exited
      nested .locker (PassLocker.unlock c.locker c.self tokens s.locker raw)
    else .ok (tokens, s.locker))
  return { s with tokens, locker, idleCash, principalBasis, stateVersion }.emit
    (.withdrawn amount exited principalBasis)

def authorizeExecutor (m : Msg) (next : Grant) (s : State) : Result Error State := do
  onlyOwner c m
  active m s
  require (next.executor ≠ 0 ∧ next.executor ≠ c.owner ∧ m.timestamp < next.expiresAt ∧
    next.liquidationWindow ≠ 0 ∧ next.maxOrderUsdc ≠ 0 ∧ next.maxTotalBuyUsdc ≠ 0 ∧
    next.maxSlippageBps < 10000 ∧ s.runtimeUnits ≠ 0 ∧
    (s.liquidating = false ∨ s.openTrackedPositionCount = 0)) (.custom .invalidConfiguration)
  let grantVersion ← checkedAdd s.grantVersion 1
  let stateVersion ← checkedAdd s.stateVersion 1
  return { s with
    grant := next, totalBuyUsdc := 0, liquidating := false, liquidationUntil := 0, grantVersion,
    stateVersion }.emit (.grantAuthorized grantVersion next.executor next.expiresAt)

def revokeExecutor (m : Msg) (s : State) : Result Error State := do
  onlyOwner c m
  active m s
  let stateVersion ← checkedAdd s.stateVersion 1
  beginLiquidation m { s with grant := { s.grant with executor := 0 }, stateVersion }

def stop (m : Msg) (s : State) : Result Error State := do
  onlyOwner c m
  active m s
  beginLiquidation m s

def setBounds (m : Msg) (feeds : Feeds) (lower upper : Nat) (priceLower priceUpper : Fin 3 → Nat)
    (s : State) : Result Error State := do
  onlyOwner c m
  active m s
  require (¬ (lower ≠ 0 ∧ upper ≠ 0 ∧ upper ≤ lower)) (.custom .invalidConfiguration)
  require (∀ i, ¬ (priceLower i ≠ 0 ∧ priceUpper i ≠ 0 ∧ priceUpper i ≤ priceLower i))
    (.custom .invalidConfiguration)
  let stateVersion ← checkedAdd s.stateVersion 1
  let s := { s with
    lowerUnitNav := lower, upperUnitNav := upper, lowerPrice := priceLower,
    upperPrice := priceUpper, stateVersion }.emit (.boundsChanged stateVersion)
  let reached ← riskReached c m feeds s
  (if reached then beginLiquidation m s else .ok s)

def checkRisk (m : Msg) (feeds : Feeds) (s : State) : Result Error State := do
  active m s
  let due ← (if s.liquidating then .ok false
    else orElse (.ok (s.grant.executor ≠ 0 ∧ s.grant.expiresAt ≤ m.timestamp))
      (riskReached c m feeds s))
  (if due then beginLiquidation m s else .ok s)

/-- `_stockIndex`. -/
def stockIndex (token : Address) : Result Error (Fin 3) :=
  if c.stocks 0 = token then .ok 0
  else if c.stocks 1 = token then .ok 1
  else if c.stocks 2 = token then .ok 2
  else .error (.custom .unsupportedRoute)

/-- `_validateAuthority`. -/
def validateAuthority (m : Msg) (action : Swap) (buy : Bool) (s : State) : Result Error Unit := do
  let expiry : Bool := s.grant.expiresAt ≤ m.timestamp
  require (¬ (buy ∧ (s.liquidating ∨ expiry ∨ s.grant.executor = 0))) (.custom .invalidState)
  if m.sender = c.owner then .ok ()
  else do
    let last ←
      (if s.liquidating then .ok s.liquidationUntil
      else if expiry then checkedAdd s.grant.expiresAt s.grant.liquidationWindow
      else .ok s.grant.expiresAt)
    require (m.timestamp ≤ last ∧ action.deadline ≤ last) (.custom .unauthorized)

/-- `_validateOrder`. -/
def validateOrder (m : Msg) (feeds : Feeds) (action : Swap) (buy : Bool) (i : Fin 3) (quote : Nat)
    (s : State) : Result Error Unit := do
  let notional ← (if buy then .ok action.amountIn else mulDiv action.amountIn quote (10 ^ 18))
  require (s.grant.maxOrderUsdc ≠ 0 ∧ notional ≤ s.grant.maxOrderUsdc) (.custom .riskLimit)
  let referenceOutput ←
    (if buy then mulDiv action.amountIn (10 ^ 18) quote else .ok notional)
  let floor ← (do mulDiv referenceOutput (← checkedSub 10000 s.grant.maxSlippageBps) 10000)
  require (floor ≤ action.minAmountOut ∧ ¬ (buy ∧ action.minAmountOut = 0)) (.custom .riskLimit)
  if buy then do
    require (action.amountIn ≤ s.runtimeCash) (.custom .riskLimit)
    let bought ← checkedAdd s.totalBuyUsdc action.amountIn
    require (bought ≤ s.grant.maxTotalBuyUsdc) (.custom .riskLimit)
    let held ← mulDiv (s.trackedPosition (c.stocks i)) quote (10 ^ 18)
    let exposure ← checkedMul (← checkedAdd held action.amountIn) 3
    let equity ← runtimeEquity c m feeds s
    require (exposure ≤ equity) (.custom .riskLimit)
  else require (action.amountIn ≤ s.trackedPosition (c.stocks i)) (.custom .invalidAmount)

/-- `_swap`. -/
def swap (r : RouterCall) (action : Swap) (s : State) : Result Error (Tokens × Nat) := do
  let beforeInput := s.tokens.balanceOf action.tokenIn c.self
  let beforeOutput := s.tokens.balanceOf action.tokenOut c.self
  let reserved ← (if action.tokenIn = c.afUsdc then checkedAdd s.idleCash s.runtimeCash
    else .ok (s.trackedPosition action.tokenIn))
  require (reserved ≤ beforeInput) (.custom .transferMismatch)
  let k ← s.tokens.approve action.tokenIn c.self c.router action.amountIn
  let k := k.outside [c.self, c.locker.self] r.calls
  match r.amountOut with
  | none => .error (.reason "")
  | some output =>
    let k ← k.approve action.tokenIn c.self c.router 0
    let afterInput := k.balanceOf action.tokenIn c.self
    let afterOutput := k.balanceOf action.tokenOut c.self
    require (afterInput ≤ beforeInput ∧ beforeInput - afterInput = action.amountIn ∧
      beforeOutput ≤ afterOutput ∧ afterOutput - beforeOutput = output ∧
      action.minAmountOut ≤ output ∧ ¬ (action.tokenIn = c.afUsdc ∧ output = 0))
      (.custom .transferMismatch)
    return (k, output)

/-- The books after a buy, with the exposure checked at the feeds the router left. -/
def bookBuy (m : Msg) (feeds : Feeds) (amountIn output : Nat) (i : Fin 3) (quote : Nat) (s : State) :
    Result Error State := do
  let previous := s.trackedPosition (c.stocks i)
  let runtimeCash ← checkedSub s.runtimeCash amountIn
  let totalBuyUsdc ← checkedAdd s.totalBuyUsdc amountIn
  let position ← checkedAdd previous output
  let openTrackedPositionCount ←
    (if previous = 0 then checkedAdd s.openTrackedPositionCount 1
    else .ok s.openTrackedPositionCount)
  let s := { s with
    runtimeCash, totalBuyUsdc, openTrackedPositionCount,
    trackedPosition := Function.update s.trackedPosition (c.stocks i) position }
  let held ← mulDiv position quote (10 ^ 18)
  let exposure ← checkedMul held 3
  let equity ← runtimeEquity c m feeds s
  require (exposure ≤ equity) (.custom .riskLimit)
  return s

/-- The books after a sell. -/
def bookSell (amountIn output : Nat) (i : Fin 3) (s : State) : Result Error State := do
  let previous := s.trackedPosition (c.stocks i)
  let runtimeCash ← checkedAdd s.runtimeCash output
  let position ← checkedSub previous amountIn
  let openTrackedPositionCount ←
    (if previous = amountIn then checkedSub s.openTrackedPositionCount 1
    else .ok s.openTrackedPositionCount)
  return { s with
    runtimeCash, openTrackedPositionCount,
    trackedPosition := Function.update s.trackedPosition (c.stocks i) position }

/-- A buy that meets a risk bound starts the liquidation and trades nothing. -/
def cancel (m : Msg) (s : State) : Result Error State := do
  let s ← beginLiquidation m s
  return s.emit (.riskOrderCancelled s.stateVersion)

/-- The part of `execute` that trades. -/
def trade (m : Msg) (feeds : Feeds) (r : RouterCall) (action : Swap) (buy : Bool) (i : Fin 3)
    (quote : Nat) (s : State) : Result Error State := do
  validateOrder c m feeds action buy i quote s
  let (tokens, output) ← swap c r action s
  let s := { s with tokens, balance := s.balance + r.value }
  let s ← (if buy then bookBuy c m r.feeds action.amountIn output i quote s
    else bookSell c action.amountIn output i s)
  let stateVersion ← checkedAdd s.stateVersion 1
  return { s with stateVersion }.emit
    (.swapExecuted stateVersion s.grantVersion (c.stocks i) buy action.amountIn output)

def execute (m : Msg) (feeds : Feeds) (r : RouterCall) (action : Swap) (s : State) :
    Result Error State := do
  active m s
  require (m.sender = c.owner ∨ m.sender = s.grant.executor) (.custom .unauthorized)
  require (action.expectedVersion = s.stateVersion ∧ action.amountIn ≠ 0 ∧
    m.timestamp ≤ action.deadline) (.custom .invalidState)
  let buy : Bool := action.tokenIn = c.afUsdc
  let i ← stockIndex c (if buy then action.tokenOut else action.tokenIn)
  require (¬ ((¬ buy ∧ action.tokenOut ≠ c.afUsdc) ∨ action.tokenIn = action.tokenOut))
    (.custom .unsupportedRoute)
  validateAuthority c m action buy s
  let quote ← price c m feeds i
  let halted ← (if buy then riskReached c m feeds s else .ok false)
  (if halted then cancel m s else trade c m feeds r action buy i quote s)

def close (m : Msg) (s : State) : Result Error State := do
  onlyOwner c m
  active m s
  require (s.openTrackedPositionCount = 0) (.custom .invalidState)
  let returned ← checkedAdd s.idleCash s.runtimeCash
  let unlocked := s.locker.lockedBalance
  let stateVersion ← checkedAdd s.stateVersion 1
  let tokens ← (if returned ≠ 0 then send c c.afUsdc returned s.tokens else .ok s.tokens)
  let (tokens, locker, unlocked) ←
    (if unlocked ≠ 0 then nested .locker (PassLocker.releaseAll c.locker c.self tokens s.locker)
    else .ok (tokens, s.locker, unlocked))
  return { s with
    tokens, locker, idleCash := 0, runtimeCash := 0, runtimeUnits := 0, principalBasis := 0,
    closed := true, grant := { s.grant with executor := 0 }, stateVersion }.emit
    (.closed returned unlocked)

def rescueUntrackedToken (m : Msg) (token : Address) (s : State) : Result Error State := do
  onlyOwner c m
  require (s.closed = true ∧ token ≠ 0) (.custom .invalidState)
  let (tokens, locker, rescuedPass) ←
    (if token = c.pass then
      nested .locker (PassLocker.rescueUntrackedPass c.locker c.self s.tokens s.locker)
    else .ok (s.tokens, s.locker, 0))
  let amount := tokens.balanceOf token c.self
  let tokens ← (if amount ≠ 0 then send c token amount tokens else .ok tokens)
  let rescued ← checkedAdd amount rescuedPass
  return { s with tokens, locker }.emit (.dustRescued token rescued)

/-- The payment is the last thing the call does but for its event, so what the
owner's code does on receiving it is the same as doing that next. -/
def rescueNative (m : Msg) (x : View) (s : State) : Result Error State := do
  onlyOwner c m
  require (s.closed = true) (.custom .invalidState)
  require (x.acceptsValue c.owner) .sendValueFailed
  return { s with balance := 0 }.emit (.dustRescued 0 s.balance)

/-- Everything that can happen to the vault. -/
inductive Action where
  | deposit (m : Msg) (amount : Nat)
  | allocate (m : Msg) (feeds : Feeds) (amount : Nat)
  | deallocate (m : Msg) (feeds : Feeds) (amount : Nat)
  | withdraw (m : Msg) (amount : Nat)
  | authorizeExecutor (m : Msg) (next : Grant)
  | revokeExecutor (m : Msg)
  | stop (m : Msg)
  | setBounds (m : Msg) (feeds : Feeds) (lower upper : Nat) (priceLower priceUpper : Fin 3 → Nat)
  | checkRisk (m : Msg) (feeds : Feeds)
  | execute (m : Msg) (feeds : Feeds) (r : RouterCall) (action : Swap)
  | close (m : Msg)
  | rescueUntrackedToken (m : Msg) (token : Address)
  | rescueNative (m : Msg) (x : View)
  | receive (m : Msg)
  | outside (calls : List TokenCall)

/-- The contracts that act only through their own code. -/
def own : List Address := [c.self, c.locker.self]

def step : Action → State → Result Error State
  | .deposit m amount, s => callFrom (own c) m (deposit c m amount s)
  | .allocate m feeds amount, s => callFrom (own c) m (allocate c m feeds amount s)
  | .deallocate m feeds amount, s => callFrom (own c) m (deallocate c m feeds amount s)
  | .withdraw m amount, s => callFrom (own c) m (withdraw c m amount s)
  | .authorizeExecutor m next, s => callFrom (own c) m (authorizeExecutor c m next s)
  | .revokeExecutor m, s => callFrom (own c) m (revokeExecutor c m s)
  | .stop m, s => callFrom (own c) m (stop c m s)
  | .setBounds m feeds lower upper priceLower priceUpper, s =>
      callFrom (own c) m (setBounds c m feeds lower upper priceLower priceUpper s)
  | .checkRisk m feeds, s => callFrom (own c) m (checkRisk c m feeds s)
  | .execute m feeds r action, s => callFrom (own c) m (execute c m feeds r action s)
  | .close m, s => callFrom (own c) m (close c m s)
  | .rescueUntrackedToken m token, s => callFrom (own c) m (rescueUntrackedToken c m token s)
  | .rescueNative m x, s => callFrom (own c) m (rescueNative c m x s)
  | .receive m, s => payFrom (own c) m (.ok { s with balance := s.balance + m.value })
  | .outside calls, s => .ok { s with tokens := s.tokens.outside (own c) calls }

end Calls

/-! ## What an accepted call did -/

section Accepted

variable {c : Config} {m : Msg} {feeds : Feeds} {r : RouterCall} {action : Swap} {buy : Bool}
  {i : Fin 3} {quote amountIn output : Nat} {s s' : State}

/-- Events of a call that traded nothing. -/
def Event.isSwap : Event → Bool
  | .swapExecuted _ _ _ _ _ _ => true
  | _ => false

/-- The latch after a call by `m`: as it was, or set for a window that ends within
the grant's. -/
def Latch (m : Msg) (s : State) (liquidating : Bool) (liquidationUntil : Nat) : Prop :=
  (liquidating = s.liquidating ∧ liquidationUntil = s.liquidationUntil) ∨
    (s.liquidating = false ∧ liquidating = true ∧
      liquidationUntil ≤ m.timestamp + s.grant.liquidationWindow ∧
      liquidationUntil ≤ s.grant.expiresAt + s.grant.liquidationWindow)

theorem beginLiquidation_ok (h : beginLiquidation m s = .ok s') :
    ∃ liquidating liquidationUntil stateVersion es, Latch m s liquidating liquidationUntil ∧
      (∀ e ∈ es, e.isSwap = false) ∧
      s' = { s with liquidating, liquidationUntil, stateVersion, log := s.log ++ es } := by
  unfold beginLiquidation at h
  split at h
  · simp only [Except.ok.injEq] at h
    subst h
    exact ⟨s.liquidating, s.liquidationUntil, s.stateVersion, [], Or.inl ⟨rfl, rfl⟩, by simp,
      by simp⟩
  · next hopen =>
    simp only [bind_eq_ok, checkedAdd_eq_ok, pure_eq_ok] at h
    obtain ⟨_, ⟨_, rfl⟩, _, ⟨_, rfl⟩, _, ⟨_, rfl⟩, rfl⟩ := h
    refine ⟨true, _, _, [_], Or.inr ⟨by simpa using hopen, rfl, ?_, ?_⟩, ?_, rfl⟩
    · refine Nat.le_trans (Nat.mod_le _ _) ?_
      split <;> omega
    · refine Nat.le_trans (Nat.mod_le _ _) ?_
      split <;> omega
    · simp [Event.isSwap]

/-- The same when the liquidation only starts on a condition. -/
theorem beginLiquidation_if_ok {due : Bool}
    (h : (if due then beginLiquidation m s else .ok s) = .ok s') :
    ∃ liquidating liquidationUntil stateVersion es, Latch m s liquidating liquidationUntil ∧
      (∀ e ∈ es, e.isSwap = false) ∧
      s' = { s with liquidating, liquidationUntil, stateVersion, log := s.log ++ es } := by
  split at h
  · exact beginLiquidation_ok h
  · rw [← Except.ok.inj h]
    exact ⟨s.liquidating, s.liquidationUntil, s.stateVersion, [], Or.inl ⟨rfl, rfl⟩, by simp,
      by simp⟩

/-- Who may trade when. -/
structure Authorized (c : Config) (m : Msg) (buy : Bool) (s : State) : Prop where
  buying : buy = true → s.liquidating = false
  window : m.sender ≠ c.owner → if s.liquidating then m.timestamp ≤ s.liquidationUntil
    else m.timestamp ≤ s.grant.expiresAt + s.grant.liquidationWindow

theorem validateAuthority_ok {u : Unit} (h : validateAuthority c m action buy s = .ok u) :
    Authorized c m buy s := by
  simp only [validateAuthority, bind_eq_ok, require_eq_ok] at h
  obtain ⟨_, hbuy, h⟩ := h
  refine ⟨fun hb => ?_, fun hne => ?_⟩
  · by_contra hl
    exact hbuy ⟨hb, Or.inl (by simpa using hl)⟩
  · rw [if_neg hne] at h
    simp only [bind_eq_ok, require_eq_ok] at h
    obtain ⟨last, hlast, hle, _⟩ := h
    split at hlast
    · next hl =>
      rw [if_pos hl, Except.ok.inj hlast]
      exact hle
    · next hl =>
      rw [if_neg hl]
      split at hlast
      · rw [(checkedAdd_eq_ok.mp hlast).2]
        exact hle
      · have hlastIs := Except.ok.inj hlast
        omega

theorem stockIndex_ok {token : Address} (h : stockIndex c token = .ok i) : c.stocks i = token := by
  unfold stockIndex at h
  split at h
  · next h0 => rw [← Except.ok.inj h]; exact h0
  · split at h
    · next h1 => rw [← Except.ok.inj h]; exact h1
    · split at h
      · next h2 => rw [← Except.ok.inj h]; exact h2
      · cases h

theorem validateOrder_ok {u : Unit} (h : validateOrder c m feeds action buy i quote s = .ok u) :
    if buy then s.totalBuyUsdc + action.amountIn ≤ s.grant.maxTotalBuyUsdc
    else action.amountIn ≤ s.trackedPosition (c.stocks i) := by
  simp only [validateOrder, bind_eq_ok, require_eq_ok] at h
  obtain ⟨_, _, _, _, _, _, _, _, _, _, h⟩ := h
  cases buy with
  | true =>
      simp only [if_true, bind_eq_ok, require_eq_ok, checkedAdd_eq_ok] at h ⊢
      obtain ⟨_, _, _, ⟨_, rfl⟩, _, hle, _⟩ := h
      exact hle
  | false =>
      simpa using h

/-- The vault's and the escrow's balances after a swap.  Whatever the router did,
the vault paid exactly the input and got exactly the output. -/
structure Swapped (c : Config) (tokenIn tokenOut : Address) (amountIn output : Nat)
    (k k' : Tokens) : Prop where
  spent : k'.balanceOf tokenIn c.self + amountIn = k.balanceOf tokenIn c.self
  received : k'.balanceOf tokenOut c.self = k.balanceOf tokenOut c.self + output
  others : k.Quiet (own c) → ∀ t, t ≠ tokenIn → ∀ a ∈ own c, k.balanceOf t a ≤ k'.balanceOf t a
  quiet : k.Quiet (own c) → k'.Quiet (own c)

theorem swap_ok {k : Tokens} (h : swap c r action s = .ok (k, output)) :
    Swapped c action.tokenIn action.tokenOut action.amountIn output s.tokens k ∧
      r.amountOut = some output ∧ (action.tokenIn = c.afUsdc → output ≠ 0) := by
  simp only [swap, Tokens.approve_eq_ok, bind_eq_ok, require_eq_ok] at h
  obtain ⟨_, _, _, _, _, ⟨_, _, rfl⟩, h⟩ := h
  split at h
  · cases h
  · next made hmade =>
    simp only [Tokens.approve_eq_ok, bind_eq_ok, require_eq_ok, pure_eq_ok, Prod.mk.injEq] at h
    obtain ⟨_, ⟨_, _, rfl⟩, _, ⟨hle, hspent, hge, hreceived, _, hfilled⟩, rfl, rfl⟩ := h
    have hstep : Tokens.OutsideStep (own c)
        (s.tokens.setAllowance action.tokenIn c.self c.router action.amountIn)
        ((s.tokens.setAllowance action.tokenIn c.self c.router action.amountIn).outside (own c)
          r.calls) := Tokens.outside_step _ r.calls
    refine ⟨⟨by omega, by omega, fun hq t ht a ha => ?_, fun hq t a ha p => ?_⟩, hmade,
      fun hb hz => hfilled ⟨hb, hz⟩⟩
    · refine hstep.balance_le t a ha (fun p => ?_)
      simp only [Tokens.allowance_setAllowance, ht, false_and, if_false]
      exact hq t a ha p
    · have hzero := hq t a ha p
      have hle := hstep.allowance_le t a ha p
      rw [Tokens.allowance_setAllowance] at hle ⊢
      -- the only allowance that was granted is the one taken back at the end
      by_cases hcell : t = action.tokenIn ∧ a = c.self ∧ p = c.router
      · rw [if_pos hcell]
      · rw [if_neg hcell] at hle ⊢
        show ((s.tokens.setAllowance action.tokenIn c.self c.router action.amountIn).outside
          (own c) r.calls).allowance t a p = 0
        omega

def inToken (c : Config) (buy : Bool) (i : Fin 3) : Address := if buy then c.afUsdc else c.stocks i

def outToken (c : Config) (buy : Bool) (i : Fin 3) : Address := if buy then c.stocks i else c.afUsdc

structure Bought (c : Config) (i : Fin 3) (amountIn output : Nat) (s s' : State) : Prop where
  fits : s.trackedPosition (c.stocks i) + output ≤ maxUint256
  cash : s'.runtimeCash + amountIn = s.runtimeCash
  total : s'.totalBuyUsdc = s.totalBuyUsdc + amountIn
  position : s'.trackedPosition (c.stocks i) = s.trackedPosition (c.stocks i) + output

structure Sold (c : Config) (i : Fin 3) (amountIn output : Nat) (s s' : State) : Prop where
  fits : s.runtimeCash + output ≤ maxUint256
  cash : s'.runtimeCash = s.runtimeCash + output
  total : s'.totalBuyUsdc = s.totalBuyUsdc
  position : s'.trackedPosition (c.stocks i) + amountIn = s.trackedPosition (c.stocks i)

/-- What both kinds of trade do to the rest of the books. -/
structure Booked (c : Config) (i : Fin 3) (s s' : State) : Prop where
  positions : s'.trackedPosition =
    Function.update s.trackedPosition (c.stocks i) (s'.trackedPosition (c.stocks i))
  count : s'.openTrackedPositionCount + (if s.trackedPosition (c.stocks i) = 0 then 0 else 1) =
    s.openTrackedPositionCount + (if s'.trackedPosition (c.stocks i) = 0 then 0 else 1)
  locker : s'.locker = s.locker
  principal : s'.principalBasis = s.principalBasis
  idle : s'.idleCash = s.idleCash
  units : s'.runtimeUnits = s.runtimeUnits
  closed : s'.closed = s.closed
  grant : s'.grant = s.grant ∧ s'.grantVersion = s.grantVersion
  latch : s'.liquidating = s.liquidating ∧ s'.liquidationUntil = s.liquidationUntil

theorem bookBuy_ok (houtput : output ≠ 0)
    (h : bookBuy c m feeds amountIn output i quote s = .ok s') :
    Booked c i s s' ∧ Bought c i amountIn output s s' ∧ s'.tokens = s.tokens ∧ s'.log = s.log := by
  simp only [bookBuy, bind_eq_ok, checkedSub_eq_ok, checkedAdd_eq_ok, require_eq_ok, pure_eq_ok] at h
  obtain ⟨_, ⟨hle, rfl⟩, _, ⟨_, rfl⟩, _, ⟨hfits, rfl⟩, count, hcount, _, _, _, _, _, _, _, _, rfl⟩ := h
  have hat : Function.update s.trackedPosition (c.stocks i)
      (s.trackedPosition (c.stocks i) + output) (c.stocks i) =
      s.trackedPosition (c.stocks i) + output := Function.update_self _ _ _
  refine ⟨⟨?_, ?_, rfl, rfl, rfl, rfl, rfl, ⟨rfl, rfl⟩, ⟨rfl, rfl⟩⟩,
    ⟨hfits, Nat.sub_add_cancel hle, rfl, hat⟩, rfl, rfl⟩
  · exact congrArg (Function.update s.trackedPosition (c.stocks i)) hat.symm
  · show count + _ = s.openTrackedPositionCount +
      (if Function.update s.trackedPosition (c.stocks i) _ (c.stocks i) = 0 then 0 else 1)
    rw [hat, if_neg (by omega : ¬ s.trackedPosition (c.stocks i) + output = 0)]
    split at hcount
    · next hzero =>
      rw [checkedAdd_eq_ok] at hcount
      rw [if_pos hzero]
      omega
    · next hopen =>
      rw [if_neg hopen, ← Except.ok.inj hcount]

theorem bookSell_ok (hamount : amountIn ≠ 0) (h : bookSell c amountIn output i s = .ok s') :
    Booked c i s s' ∧ Sold c i amountIn output s s' ∧ s'.tokens = s.tokens ∧ s'.log = s.log := by
  simp only [bookSell, bind_eq_ok, checkedSub_eq_ok, checkedAdd_eq_ok, pure_eq_ok] at h
  obtain ⟨_, ⟨hfits, rfl⟩, _, ⟨hle, rfl⟩, count, hcount, rfl⟩ := h
  have hat : Function.update s.trackedPosition (c.stocks i)
      (s.trackedPosition (c.stocks i) - amountIn) (c.stocks i) =
      s.trackedPosition (c.stocks i) - amountIn := Function.update_self _ _ _
  refine ⟨⟨?_, ?_, rfl, rfl, rfl, rfl, rfl, ⟨rfl, rfl⟩, ⟨rfl, rfl⟩⟩, ⟨hfits, rfl, rfl, ?_⟩, rfl, rfl⟩
  · exact congrArg (Function.update s.trackedPosition (c.stocks i)) hat.symm
  · show count + _ = s.openTrackedPositionCount +
      (if Function.update s.trackedPosition (c.stocks i) _ (c.stocks i) = 0 then 0 else 1)
    rw [hat, if_neg (by omega : ¬ s.trackedPosition (c.stocks i) = 0)]
    split at hcount
    · next hall =>
      rw [checkedSub_eq_ok] at hcount
      rw [if_pos (by omega)]
      omega
    · next hpart =>
      rw [if_neg (by omega), ← Except.ok.inj hcount]
  · show Function.update s.trackedPosition (c.stocks i) _ (c.stocks i) + amountIn = _
    rw [hat]
    exact Nat.sub_add_cancel hle

/-- An accepted `execute` that traded. -/
structure Traded (c : Config) (m : Msg) (r : RouterCall) (buy : Bool) (i : Fin 3)
    (amountIn output : Nat) (s s' : State) : Prop where
  amount : amountIn ≠ 0
  active : s.closed = false
  returned : r.amountOut = some output
  filled : buy = true → output ≠ 0
  budget : buy = true → s.totalBuyUsdc + amountIn ≤ s.grant.maxTotalBuyUsdc
  swapped : Swapped c (inToken c buy i) (outToken c buy i) amountIn output s.tokens s'.tokens
  booked : Booked c i s s'
  side : if buy then Bought c i amountIn output s s' else Sold c i amountIn output s s'
  log : ∃ v g, s'.log = s.log ++ [.swapExecuted v g (c.stocks i) buy amountIn output]

theorem trade_ok (hbuy : buy = decide (action.tokenIn = c.afUsdc)) (hamount : action.amountIn ≠ 0)
    (hactive : s.closed = false)
    (htokens : action.tokenIn = inToken c buy i ∧ action.tokenOut = outToken c buy i)
    (h : trade c m feeds r action buy i quote s = .ok s') :
    ∃ output, Traded c m r buy i action.amountIn output s s' := by
  simp only [trade, bind_eq_ok, checkedAdd_eq_ok, pure_eq_ok] at h
  obtain ⟨_, hvalid, ⟨k, made⟩, hswap, t, hbook, _, ⟨_, rfl⟩, rfl⟩ := h
  obtain ⟨hswapped, hreturned, hfilled⟩ := swap_ok hswap
  rw [htokens.1, htokens.2] at hswapped
  have horder := validateOrder_ok hvalid
  cases buy with
  | true =>
      have hmade : made ≠ 0 := hfilled (by simpa using hbuy.symm)
      simp only [if_true] at hbook horder
      obtain ⟨hbooked, hbought, htok, hlog⟩ := bookBuy_ok hmade hbook
      refine ⟨made, hamount, hactive, hreturned, fun _ => hmade, fun _ => horder, ?_,
        ⟨hbooked.positions, hbooked.count, hbooked.locker, hbooked.principal, hbooked.idle,
          hbooked.units, hbooked.closed, hbooked.grant, hbooked.latch⟩,
        ⟨hbought.fits, hbought.cash, hbought.total, hbought.position⟩,
        ⟨t.stateVersion + 1, t.grantVersion, ?_⟩⟩
      · show Swapped c _ _ _ _ s.tokens t.tokens
        rw [htok]
        exact hswapped
      · show t.log ++ _ = _
        rw [hlog]
  | false =>
      simp only [Bool.false_eq_true, if_false] at hbook horder
      obtain ⟨hbooked, hsold, htok, hlog⟩ := bookSell_ok hamount hbook
      refine ⟨made, hamount, hactive, hreturned, fun hb => (by cases hb),
        fun hb => (by cases hb), ?_,
        ⟨hbooked.positions, hbooked.count, hbooked.locker, hbooked.principal, hbooked.idle,
          hbooked.units, hbooked.closed, hbooked.grant, hbooked.latch⟩,
        ⟨hsold.fits, hsold.cash, hsold.total, hsold.position⟩,
        ⟨t.stateVersion + 1, t.grantVersion, ?_⟩⟩
      · show Swapped c _ _ _ _ s.tokens t.tokens
        rw [htok]
        exact hswapped
      · show t.log ++ _ = _
        rw [hlog]

/-- An accepted `execute` either trades, or cancels a buy and sets the latch. -/
theorem execute_ok (h : execute c m feeds r action s = .ok s') :
    ∃ buy i, buy = decide (action.tokenIn = c.afUsdc) ∧ Authorized c m buy s ∧
      ((∃ output, Traded c m r buy i action.amountIn output s s') ∨
        (buy = true ∧ s.closed = false ∧ cancel m s = .ok s')) := by
  simp only [execute, active, bind_eq_ok, require_eq_ok] at h
  obtain ⟨_, ⟨hactive, _⟩, _, _, _, ⟨_, hamount, _⟩, i, hi, _, hroute, _, hauth, quote, _, halted,
    hhalted, h⟩ := h
  have hindex := stockIndex_ok hi
  refine ⟨_, i, rfl, validateAuthority_ok hauth, ?_⟩
  have htokens : action.tokenIn = inToken c (decide (action.tokenIn = c.afUsdc)) i ∧
      action.tokenOut = outToken c (decide (action.tokenIn = c.afUsdc)) i := by
    by_cases hb : action.tokenIn = c.afUsdc
    · rw [decide_eq_true hb, if_pos rfl] at hindex
      rw [decide_eq_true hb]
      exact ⟨hb, hindex.symm⟩
    · rw [decide_eq_false hb, if_neg (by decide)] at hindex
      rw [decide_eq_false hb]
      refine ⟨hindex.symm, ?_⟩
      by_contra hout
      exact hroute (Or.inl ⟨by simpa using hb, hout⟩)
  split at h
  · next hstop =>
    refine Or.inr ⟨?_, hactive, h⟩
    by_contra hb
    rw [if_neg hb] at hhalted
    rw [← Except.ok.inj hhalted] at hstop
    cases hstop
  · exact Or.inl (trade_ok rfl hamount hactive htokens h)

/-- A send that is skipped when there is nothing to send. -/
theorem send_unless_zero {token : Address} {amount : Nat} {k k' : Tokens}
    (h : (if amount ≠ 0 then send c token amount k else .ok k) = .ok k') :
    k.Moved k' token c.self c.owner amount := by
  split at h
  · exact Tokens.sendExact_ok h
  · next hzero =>
    rw [not_not] at hzero
    rw [hzero, ← Except.ok.inj h]
    exact Tokens.Moved.zero k

/-- What is at work is worth at least its cash. -/
theorem runtimeCash_le_equity {equity : Nat} (h : runtimeEquity c m feeds s = .ok equity) :
    s.runtimeCash ≤ equity := by
  simp only [runtimeEquity, bind_eq_ok, checkedAdd_eq_ok] at h
  obtain ⟨_, _, _, ⟨_, rfl⟩, _, _, _, ⟨_, rfl⟩, _, _, _, rfl⟩ := h
  omega

/-- Units rounded up for cash that is at work never exceed the units there are. -/
theorem units_le {amount equity units : Nat} (hamount : amount ≤ s.runtimeCash)
    (hequity : runtimeEquity c m feeds s = .ok equity)
    (hunits : (mulDivCeil amount s.runtimeUnits equity : Result Error Nat) = .ok units) :
    units ≤ s.runtimeUnits := by
  obtain ⟨hne, _, _, hlt⟩ := mulDivCeil_eq_ok hunits
  have hcash := runtimeCash_le_equity hequity
  have hpos : 0 < equity := Nat.pos_of_ne_zero hne
  have hle : amount * s.runtimeUnits ≤ s.runtimeUnits * equity := by
    rw [Nat.mul_comm]
    exact Nat.mul_le_mul_left _ (Nat.le_trans hamount hcash)
  have hlt' : units * equity < (s.runtimeUnits + 1) * equity := by
    rw [Nat.add_mul, Nat.one_mul]
    omega
  exact Nat.le_of_lt_succ (Nat.lt_of_mul_lt_mul_right hlt')

/-- The principal a withdrawal takes out is principal there is. -/
theorem exited_le {amount profit : Nat} (hamount : amount ≤ s.idleCash)
    (hprofit : realizedProfit s = .ok profit) : amount - profit ≤ s.principalBasis := by
  simp only [realizedProfit, bind_eq_ok, checkedAdd_eq_ok, pure_eq_ok] at hprofit
  obtain ⟨_, ⟨_, rfl⟩, rfl⟩ := hprofit
  split <;> omega

structure Deposited (c : Config) (m : Msg) (amount : Nat) (s s' : State) : Prop where
  active : s.closed = false
  locked : s'.locker.lockedBalance = s.locker.lockedBalance + amount * 10 ^ 12
  escrow : s'.locker.lockedBalance ≤ s'.tokens.balanceOf c.locker.pass c.locker.self
  moved : ∃ k, s.tokens.Moved k c.afUsdc m.sender c.self amount ∧
    k.Moved s'.tokens c.pass m.sender c.locker.self (amount * 10 ^ 12)
  state : ∃ e, e.isSwap = false ∧ s' = { s with
    tokens := s'.tokens, locker := s'.locker, principalBasis := s.principalBasis + amount,
    idleCash := s.idleCash + amount, stateVersion := s.stateVersion + 1, log := s.log ++ [e] }

theorem deposit_ok {amount : Nat} (h : deposit c m amount s = .ok s') :
    Deposited c m amount s s' := by
  simp only [deposit, onlyOwner, active, usdcToPassRaw, pull, bind_eq_ok, require_eq_ok,
    checkedAdd_eq_ok, checkedMul_eq_ok, nested_eq_ok, pure_eq_ok] at h
  obtain ⟨_, _, _, ⟨hopen, _⟩, _, _, _, ⟨_, rfl⟩, _, ⟨_, rfl⟩, _, ⟨_, rfl⟩, _, ⟨_, rfl⟩, k, hk, k',
    hk', l, hl, rfl⟩ := h
  obtain ⟨hlocked, hescrow⟩ := PassLocker.lock_ok hl
  exact ⟨hopen, hlocked, hescrow, ⟨k, Tokens.pullExact_ok hk, Tokens.pullExact_ok hk'⟩,
    ⟨_, rfl, rfl⟩⟩

structure Withdrawn (c : Config) (amount exited : Nat) (s s' : State) : Prop where
  active : s.closed = false
  available : amount ≤ s.idleCash
  covered : exited ≤ s.principalBasis
  unlocked : exited * 10 ^ 12 ≤ s.locker.lockedBalance
  locked : s'.locker.lockedBalance = s.locker.lockedBalance - exited * 10 ^ 12
  moved : ∃ k, s.tokens.Moved k c.afUsdc c.self c.owner amount ∧
    k.Moved s'.tokens c.locker.pass c.locker.self c.locker.owner (exited * 10 ^ 12)
  state : ∃ e, e.isSwap = false ∧ s' = { s with
    tokens := s'.tokens, locker := s'.locker, principalBasis := s.principalBasis - exited,
    idleCash := s.idleCash - amount, stateVersion := s.stateVersion + 1, log := s.log ++ [e] }

theorem withdraw_ok {amount : Nat} (h : withdraw c m amount s = .ok s') :
    ∃ exited, Withdrawn c amount exited s s' := by
  simp only [withdraw, onlyOwner, active, usdcToPassRaw, send, bind_eq_ok, require_eq_ok,
    checkedAdd_eq_ok, checkedSub_eq_ok, pure_eq_ok] at h
  obtain ⟨_, _, _, ⟨hopen, _⟩, _, ⟨_, havailable⟩, profit, _, _, _, _, ⟨_, rfl⟩, _, ⟨hcovered, rfl⟩,
    _, ⟨_, rfl⟩, k, hk, ⟨k', l⟩, hl, rfl⟩ := h
  refine ⟨if profit < amount then amount - profit else 0, ?_⟩
  generalize (if profit < amount then amount - profit else 0) = exited at hcovered hl ⊢
  have hmoved := Tokens.sendExact_ok hk
  split at hl
  · simp only [bind_eq_ok, checkedMul_eq_ok, nested_eq_ok] at hl
    obtain ⟨_, ⟨_, rfl⟩, hl⟩ := hl
    obtain ⟨hle, hlocked, hpass⟩ := PassLocker.unlock_ok hl
    exact ⟨hopen, havailable, hcovered, hle, hlocked, ⟨k, hmoved, hpass⟩, ⟨_, rfl, rfl⟩⟩
  · next hzero =>
    rw [not_not] at hzero
    simp only [Except.ok.injEq, Prod.mk.injEq] at hl
    obtain ⟨rfl, rfl⟩ := hl
    subst hzero
    refine ⟨hopen, havailable, hcovered, ?_, ?_, ⟨k, hmoved, ?_⟩, ⟨_, rfl, rfl⟩⟩
    · rw [Nat.zero_mul]; exact Nat.zero_le _
    · rw [Nat.zero_mul]; rfl
    · rw [Nat.zero_mul]; exact Tokens.Moved.zero k

structure Closing (c : Config) (s s' : State) : Prop where
  active : s.closed = false
  count : s.openTrackedPositionCount = 0
  locked : s'.locker.lockedBalance = 0
  moved : ∃ k, s.tokens.Moved k c.afUsdc c.self c.owner (s.idleCash + s.runtimeCash) ∧
    k.Moved s'.tokens c.locker.pass c.locker.self c.locker.owner s.locker.lockedBalance
  state : ∃ e, e.isSwap = false ∧ s' = { s with
    tokens := s'.tokens, locker := s'.locker, idleCash := 0, runtimeCash := 0, runtimeUnits := 0,
    principalBasis := 0, closed := true, grant := { s.grant with executor := 0 },
    stateVersion := s.stateVersion + 1, log := s.log ++ [e] }

theorem close_ok (h : close c m s = .ok s') : Closing c s s' := by
  simp only [close, onlyOwner, active, bind_eq_ok, require_eq_ok, checkedAdd_eq_ok,
    pure_eq_ok] at h
  obtain ⟨_, _, _, ⟨hopen, _⟩, _, hcount, _, ⟨_, rfl⟩, _, ⟨_, rfl⟩, k, hk, ⟨k', l, unlocked⟩, hl,
    rfl⟩ := h
  have hmoved := send_unless_zero hk
  have hrelease : l.lockedBalance = 0 ∧
      k.Moved k' c.locker.pass c.locker.self c.locker.owner s.locker.lockedBalance := by
    split at hl
    · rw [nested_eq_ok] at hl
      obtain ⟨rfl, hlocked, hpass⟩ := PassLocker.releaseAll_ok hl
      exact ⟨hlocked, hpass⟩
    · next hzero =>
      rw [not_not] at hzero
      simp only [Except.ok.injEq, Prod.mk.injEq] at hl
      obtain ⟨rfl, rfl, _⟩ := hl
      rw [hzero]
      exact ⟨rfl, Tokens.Moved.zero k⟩
  exact ⟨hopen, hcount, hrelease.1, ⟨k, hmoved, hrelease.2⟩, ⟨_, rfl, rfl⟩⟩

structure Rescued (c : Config) (token : Address) (s s' : State) : Prop where
  closed : s.closed = true
  locked : s'.locker.lockedBalance = s.locker.lockedBalance
  moved : ∃ k lockerAmount vaultAmount,
    s.tokens.Moved k c.locker.pass c.locker.self c.locker.owner lockerAmount ∧
    k.Moved s'.tokens token c.self c.owner vaultAmount
  state : ∃ e, e.isSwap = false ∧ s' = { s with
    tokens := s'.tokens, locker := s'.locker, log := s.log ++ [e] }

theorem rescueUntrackedToken_ok {token : Address}
    (h : rescueUntrackedToken c m token s = .ok s') : Rescued c token s s' := by
  simp only [rescueUntrackedToken, onlyOwner, bind_eq_ok, require_eq_ok, checkedAdd_eq_ok,
    pure_eq_ok] at h
  obtain ⟨_, _, _, ⟨hclosed, _⟩, ⟨k, l, rescued⟩, hl, k', hk', _, _, rfl⟩ := h
  have hmoved := send_unless_zero hk'
  split at hl
  · rw [nested_eq_ok] at hl
    obtain ⟨_, hlocked, hpass⟩ := PassLocker.rescueUntrackedPass_ok hl
    exact ⟨hclosed, hlocked, ⟨k, _, _, hpass, hmoved⟩, ⟨_, rfl, rfl⟩⟩
  · simp only [Except.ok.injEq, Prod.mk.injEq] at hl
    obtain ⟨rfl, rfl, rfl⟩ := hl
    exact ⟨hclosed, rfl, ⟨s.tokens, 0, _, Tokens.Moved.zero s.tokens, hmoved⟩, ⟨_, rfl, rfl⟩⟩

theorem cancel_ok (h : cancel m s = .ok s') :
    ∃ liquidating liquidationUntil stateVersion es, Latch m s liquidating liquidationUntil ∧
      (∀ e ∈ es, e.isSwap = false) ∧
      s' = { s with liquidating, liquidationUntil, stateVersion, log := s.log ++ es } := by
  simp only [cancel, bind_eq_ok, pure_eq_ok] at h
  obtain ⟨t, ht, rfl⟩ := h
  obtain ⟨liq, until_, version, es, hlatch, hes, rfl⟩ := beginLiquidation_ok ht
  refine ⟨liq, until_, version, es ++ [.riskOrderCancelled version], hlatch, ?_, ?_⟩
  · intro e he
    rcases List.mem_append.mp he with he | he
    · exact hes e he
    · rw [List.mem_singleton.mp he]
      rfl
  · simp [State.emit]

/-- The caller of an action that can only set bounds, drop the executor and set the
latch. -/
def Action.governor : Action → Option Msg
  | .revokeExecutor m | .stop m | .setBounds m _ _ _ _ _ | .checkRisk m _ => some m
  | _ => none

/-- Everything an accepted step can do, one case for each kind of effect. -/
inductive Accepted (c : Config) (s : State) : Action → State → Prop where
  | deposited {m : Msg} {amount : Nat} {s' : State} (hout : m.sender ∉ own c)
      (h : Deposited c m amount s s') : Accepted c s (.deposit m amount) s'
  | withdrawn {m : Msg} {amount exited : Nat} {s' : State} (h : Withdrawn c amount exited s s') :
      Accepted c s (.withdraw m amount) s'
  | allocated {m : Msg} {feeds : Feeds} {amount units version : Nat} {e : Event}
      (hactive : s.closed = false) (havailable : amount ≤ s.idleCash)
      (hfits : s.runtimeCash + amount ≤ maxUint256) (hlatch : s.liquidating = false)
      (hunits : units ≠ 0) (he : e.isSwap = false) :
      Accepted c s (.allocate m feeds amount) { s with
        idleCash := s.idleCash - amount, runtimeCash := s.runtimeCash + amount,
        runtimeUnits := s.runtimeUnits + units, stateVersion := version, log := s.log ++ [e] }
  | deallocated {m : Msg} {feeds : Feeds} {amount units version : Nat} {e : Event}
      (hactive : s.closed = false) (havailable : amount ≤ s.runtimeCash)
      (hunits : units ≤ s.runtimeUnits)
      (hall : units = s.runtimeUnits →
        s.openTrackedPositionCount = 0 ∧ amount = s.runtimeCash) (he : e.isSwap = false) :
      Accepted c s (.deallocate m feeds amount) { s with
        runtimeCash := s.runtimeCash - amount, idleCash := s.idleCash + amount,
        runtimeUnits := s.runtimeUnits - units, stateVersion := version, log := s.log ++ [e] }
  | authorized {m : Msg} {next : Grant} {version : Nat} {e : Event} (hactive : s.closed = false)
      (hflat : s.liquidating = true → s.openTrackedPositionCount = 0) (he : e.isSwap = false) :
      Accepted c s (.authorizeExecutor m next) { s with
        grant := next, totalBuyUsdc := 0, liquidating := false, liquidationUntil := 0,
        grantVersion := s.grantVersion + 1, stateVersion := version, log := s.log ++ [e] }
  | governed {a : Action} {m : Msg} {grant : Grant} {liquidating : Bool}
      {liquidationUntil version lower upper : Nat} {priceLower priceUpper : Fin 3 → Nat}
      {es : List Event} (ha : a.governor = some m) (hactive : s.closed = false)
      (hgrant : grant = { s.grant with executor := grant.executor })
      (hlatch : Latch m s liquidating liquidationUntil) (hes : ∀ e ∈ es, e.isSwap = false) :
      Accepted c s a { s with
        grant, liquidating, liquidationUntil, stateVersion := version,
        lowerUnitNav := lower, upperUnitNav := upper, lowerPrice := priceLower,
        upperPrice := priceUpper, log := s.log ++ es }
  | cancelled {m : Msg} {feeds : Feeds} {r : RouterCall} {action : Swap} {liquidating : Bool}
      {liquidationUntil version : Nat} {es : List Event} (hactive : s.closed = false)
      (hbuy : action.tokenIn = c.afUsdc) (hauth : Authorized c m true s)
      (hlatch : Latch m s liquidating liquidationUntil) (hes : ∀ e ∈ es, e.isSwap = false) :
      Accepted c s (.execute m feeds r action) { s with
        liquidating, liquidationUntil, stateVersion := version, log := s.log ++ es }
  | traded {m : Msg} {feeds : Feeds} {r : RouterCall} {action : Swap} {buy : Bool} {i : Fin 3}
      {output : Nat} {s' : State} (hbuy : buy = decide (action.tokenIn = c.afUsdc))
      (hauth : Authorized c m buy s) (h : Traded c m r buy i action.amountIn output s s') :
      Accepted c s (.execute m feeds r action) s'
  | closing {m : Msg} {s' : State} (h : Closing c s s') : Accepted c s (.close m) s'
  | rescued {m : Msg} {token : Address} {s' : State} (h : Rescued c token s s') :
      Accepted c s (.rescueUntrackedToken m token) s'
  | native {a : Action} {balance : Nat} {es : List Event}
      (ha : (∃ m x, a = .rescueNative m x) ∨ ∃ m, a = .receive m)
      (hes : ∀ e ∈ es, e.isSwap = false) :
      Accepted c s a { s with balance, log := s.log ++ es }
  | outside {calls : List TokenCall} {k : Tokens} (h : Tokens.OutsideStep (own c) s.tokens k) :
      Accepted c s (.outside calls) { s with tokens := k }

theorem step_accepted {a : Action} (h : step c a s = .ok s') : Accepted c s a s' := by
  cases a with
  | deposit m amount =>
      simp only [step, callFrom_eq_ok] at h
      exact .deposited h.1 (deposit_ok h.2.2)
  | allocate m feeds amount =>
      simp only [step, callFrom_eq_ok, allocate, onlyOwner, active, bind_eq_ok, require_eq_ok,
        checkedAdd_eq_ok, checkedSub_eq_ok, pure_eq_ok] at h
      obtain ⟨_, _, _, _, _, ⟨hopen, _⟩, _, ⟨_, havailable, hlatch⟩, _, _, units, _, _, hunits, _,
        ⟨_, rfl⟩, _, ⟨hfits, rfl⟩, _, ⟨_, rfl⟩, _, ⟨_, rfl⟩, rfl⟩ := h
      exact .allocated hopen havailable hfits hlatch hunits rfl
  | deallocate m feeds amount =>
      simp only [step, callFrom_eq_ok, deallocate, onlyOwner, active, bind_eq_ok, require_eq_ok,
        checkedAdd_eq_ok, checkedSub_eq_ok, pure_eq_ok] at h
      obtain ⟨_, _, _, _, _, ⟨hopen, _⟩, _, ⟨_, havailable⟩, equity, hequity, units, hunits, _, hkept,
        _, ⟨_, rfl⟩, _, ⟨_, rfl⟩, _, ⟨hle, rfl⟩, _, ⟨_, rfl⟩, rfl⟩ := h
      refine .deallocated hopen havailable hle (fun he => ?_) rfl
      by_contra hnot
      refine hkept (Or.inr ⟨he, ?_⟩)
      by_contra hneither
      rw [not_or, not_not, not_not] at hneither
      exact hnot hneither
  | withdraw m amount =>
      simp only [step, callFrom_eq_ok] at h
      obtain ⟨exited, hw⟩ := withdraw_ok h.2.2
      exact .withdrawn hw
  | authorizeExecutor m next =>
      simp only [step, callFrom_eq_ok, authorizeExecutor, onlyOwner, active, bind_eq_ok,
        require_eq_ok, checkedAdd_eq_ok, pure_eq_ok] at h
      obtain ⟨_, _, _, _, _, ⟨hopen, _⟩, _, ⟨_, _, _, _, _, _, _, _, hflat⟩, _, ⟨_, rfl⟩, _, ⟨_, rfl⟩,
        rfl⟩ := h
      refine .authorized hopen (fun hl => ?_) rfl
      rcases hflat with hfalse | hzero
      · rw [hl] at hfalse
        cases hfalse
      · exact hzero
  | revokeExecutor m =>
      simp only [step, callFrom_eq_ok, revokeExecutor, onlyOwner, active, bind_eq_ok, require_eq_ok,
        checkedAdd_eq_ok] at h
      obtain ⟨_, _, _, _, _, ⟨hopen, _⟩, _, ⟨_, rfl⟩, h⟩ := h
      obtain ⟨liq, until_, version, es, hlatch, hes, rfl⟩ := beginLiquidation_ok h
      exact .governed rfl hopen rfl hlatch hes
  | stop m =>
      simp only [step, callFrom_eq_ok, stop, onlyOwner, active, bind_eq_ok, require_eq_ok] at h
      obtain ⟨_, _, _, _, _, ⟨hopen, _⟩, h⟩ := h
      obtain ⟨liq, until_, version, es, hlatch, hes, rfl⟩ := beginLiquidation_ok h
      exact .governed rfl hopen rfl hlatch hes
  | setBounds m feeds lower upper priceLower priceUpper =>
      simp only [step, callFrom_eq_ok, setBounds, onlyOwner, active, bind_eq_ok, require_eq_ok,
        checkedAdd_eq_ok] at h
      obtain ⟨_, _, _, _, _, ⟨hopen, _⟩, _, _, _, _, _, ⟨_, rfl⟩, _, _, h⟩ := h
      obtain ⟨liq, until_, version, es, hlatch, hes, rfl⟩ := beginLiquidation_if_ok h
      have hlog : ∀ e ∈ Event.boundsChanged (s.stateVersion + 1) :: es, e.isSwap = false := by
        intro e he
        rcases List.mem_cons.mp he with rfl | he
        · rfl
        · exact hes e he
      simp only [State.emit, List.append_assoc, List.singleton_append]
      exact .governed rfl hopen rfl hlatch hlog
  | checkRisk m feeds =>
      simp only [step, callFrom_eq_ok, checkRisk, active, bind_eq_ok, require_eq_ok] at h
      obtain ⟨_, _, _, ⟨hopen, _⟩, _, _, h⟩ := h
      obtain ⟨liq, until_, version, es, hlatch, hes, rfl⟩ := beginLiquidation_if_ok h
      exact .governed rfl hopen rfl hlatch hes
  | execute m feeds r action =>
      simp only [step, callFrom_eq_ok] at h
      obtain ⟨buy, i, hbuy, hauth, ⟨output, htraded⟩ | ⟨hb, hopen, hcancel⟩⟩ := execute_ok h.2.2
      · exact .traded hbuy hauth htraded
      · obtain ⟨liq, until_, version, es, hlatch, hes, rfl⟩ := cancel_ok hcancel
        rw [hb] at hbuy hauth
        exact .cancelled hopen (by simpa using hbuy.symm) hauth hlatch hes
  | close m =>
      simp only [step, callFrom_eq_ok] at h
      exact .closing (close_ok h.2.2)
  | rescueUntrackedToken m token =>
      simp only [step, callFrom_eq_ok] at h
      exact .rescued (rescueUntrackedToken_ok h.2.2)
  | rescueNative m x =>
      simp only [step, callFrom_eq_ok, rescueNative, onlyOwner, bind_eq_ok, pure_eq_ok] at h
      obtain ⟨_, _, _, _, _, _, _, _, rfl⟩ := h
      exact .native (Or.inl ⟨m, x, rfl⟩) (by simp [Event.isSwap])
  | receive m =>
      simp only [step, payFrom_eq_ok, Except.ok.injEq] at h
      obtain ⟨_, rfl⟩ := h
      have hlog : s.log = s.log ++ [] := (List.append_nil _).symm
      rw [show ({ s with balance := s.balance + m.value } : State) =
        { s with balance := s.balance + m.value, log := s.log ++ [] } by rw [← hlog]]
      exact .native (Or.inr ⟨m, rfl⟩) (by simp)
  | outside calls =>
      simp only [step, Except.ok.injEq] at h
      subst h
      exact .outside (Tokens.outside_step s.tokens calls)

end Accepted

end TradingVault
end AlphaForge
