/-
The all-in strategy vault, `AlphaForgeStrategyVault` of `AlphaForgeStrategyVault.sol`.

It adds to the base vault one traded stock, a venue to trade it at, an executor
with a bounded grant, and the cost and profit of its trades.  The state joins the
vault with the feed and the pause switch of its venue.  The venue's other
business (funding, withdrawals, other traders) reaches the vault only through the
token ledgers, as calls from outside.
-/
import AlphaForge.Machine.Run
import AlphaForge.Vault.Base
import AlphaForge.Vault.StockReserve

namespace AlphaForge
namespace StrategyVault

open Evm
open Vault (Error)

structure ExecutorGrant where
  executor : Address
  expiresAt : Nat
  maxOrderUsdc : Nat
  maxTotalBuyUsdc : Nat
  maxSlippageBps : Nat
  deriving DecidableEq

/-- `delete grant`. -/
def ExecutorGrant.deleted : ExecutorGrant := ⟨0, 0, 0, 0, 0⟩

structure Config where
  base : Vault.Config
  targetStock : Address
  stockReserve : StockReserve.Config
  referenceFeed : ReferenceFeed.Config
  maxPriceAge : Nat

inductive Event where
  | executorConfigured (executor : Address) (expiresAt version : Nat)
  | strategyExecuted (buy : Bool) (input output version : Nat)

structure State where
  base : Vault.State
  grant : ExecutorGrant
  totalBuyUsdc : Nat
  executionVersion : Nat
  positionCostUsdc : Nat
  realizedTradingPnl : Int
  /-- `paused` of the stock reserve. -/
  paused : Bool
  feed : ReferenceFeed.State
  log : List Event

def State.emit (s : State) (e : Event) : State := { s with log := s.log ++ [e] }

/-- Construction on a venue that already stands. -/
def constructor (m : Msg) (x : View) (self lockerSelf owner creator pass usdc targetStock
    otherStock : Address) (stockReserve : StockReserve.Config) (referenceFeed : ReferenceFeed.Config)
    (strategyRef : Bytes32) (maxPriceAge : Nat) (tokens : Tokens) (balance : Nat) (paused : Bool)
    (feed : ReferenceFeed.State) : Result Error (Config × State) := do
  match x.strategyId pass with
  | none => .error (.reason "")
  | some strategyId =>
    let (base, baseState) ← Vault.constructor x self lockerSelf owner creator strategyId strategyRef
      pass usdc targetStock otherStock tokens balance
    require (m.chainId = testnetChainId ∧ maxPriceAge ≠ 0 ∧ maxPriceAge ≤ 60 ∧
      x.hasCode stockReserve.self ∧ x.hasCode referenceFeed.self ∧ x.decimals targetStock = 18)
      (.reason "STRATEGY_CONFIGURATION")
    require (stockReserve.usdc = usdc ∧ stockReserve.stock = targetStock ∧
      stockReserve.feed = referenceFeed.self) (.reason "STOCK_ROUTE")
    return ({ base, targetStock, stockReserve, referenceFeed, maxPriceAge },
      { base := baseState, grant := .deleted, totalBuyUsdc := 0, executionVersion := 0,
        positionCostUsdc := 0, realizedTradingPnl := 0, paused, feed, log := [] })

section Calls

variable (c : Config)

def configureExecutor (m : Msg) (next : ExecutorGrant) (s : State) : Result Error State := do
  Vault.onlyOwner c.base m
  Vault.whenActive s.base
  require (next.executor ≠ 0 ∧ next.executor ≠ c.base.owner ∧ m.timestamp < next.expiresAt ∧
    next.maxOrderUsdc ≠ 0 ∧ next.maxTotalBuyUsdc ≠ 0 ∧ next.maxSlippageBps ≤ 500)
    (.reason "GRANT")
  let executionVersion ← checkedAdd s.executionVersion 1
  return { s with grant := next, totalBuyUsdc := 0, executionVersion }.emit
    (.executorConfigured next.executor next.expiresAt executionVersion)

def revokeExecutor (m : Msg) (s : State) : Result Error State := do
  Vault.onlyOwner c.base m
  let executionVersion ← checkedAdd s.executionVersion 1
  return { s with grant := .deleted, executionVersion }.emit
    (.executorConfigured 0 0 executionVersion)

def stockPrice (m : Msg) (s : State) : Result Error Nat :=
  ReferenceFeed.fresh m c.maxPriceAge s.feed

/-- The limits an executor's order keeps to, and the owner's does not. -/
def executorLimit (directOwner buy : Bool) (input notional : Nat) (s : State) :
    Result Error Unit :=
  if directOwner then .ok ()
  else do
    require (notional ≤ s.grant.maxOrderUsdc) (.reason "EXECUTOR_LIMIT")
    let bought ← (if buy then checkedAdd s.totalBuyUsdc input else .ok 0)
    require (bought ≤ s.grant.maxTotalBuyUsdc) (.reason "EXECUTOR_LIMIT")

/-- `_validateExecution`. -/
def validateExecution (m : Msg) (buy : Bool) (input minOutput deadline expectedVersion : Nat)
    (s : State) : Result Error Unit := do
  require (m.chainId = testnetChainId ∧ input ≠ 0 ∧ m.timestamp ≤ deadline ∧
    expectedVersion = s.executionVersion) (.reason "EXECUTION_STATE")
  let permission := s.grant
  let directOwner : Bool := m.sender = c.base.owner
  require (directOwner ∨ (m.sender = permission.executor ∧ deadline ≤ permission.expiresAt ∧
    m.timestamp < permission.expiresAt)) (.reason "EXECUTOR_PERMISSION")
  let price ← stockPrice c m s
  let notional ← (if buy then .ok input else mulDiv input price (10 ^ 18))
  let expectedOutput ← (if buy then mulDiv input (10 ^ 18) price else .ok notional)
  let slippage := if directOwner then 500 else permission.maxSlippageBps
  let minimum ← (do mulDiv expectedOutput (← checkedSub 10000 slippage) 10000)
  require (minOutput ≠ 0 ∧ minimum ≤ minOutput) (.reason "RISK_MINIMUM")
  executorLimit directOwner buy input notional s
  require (if buy then input ≤ s.base.trackedUsdcBalance
    else input ≤ s.base.trackedPosition c.targetStock) (.reason "TRACKED_BALANCE")

/-- `_swap`. -/
def swap (m : Msg) (buy : Bool) (input minOutput deadline : Nat) (s : State) :
    Result Error (Tokens × Nat) := do
  let inToken := if buy then c.base.afUsdc else c.targetStock
  let outToken := if buy then c.targetStock else c.base.afUsdc
  let beforeIn := s.base.tokens.balanceOf inToken c.base.self
  let beforeOut := s.base.tokens.balanceOf outToken c.base.self
  let k ← s.base.tokens.approve inToken c.base.self c.stockReserve.self input
  let (k, output) ← StockReserve.swap c.stockReserve { m with sender := c.base.self, value := 0 }
    s.paused s.feed buy input minOutput deadline k
  let k ← k.approve inToken c.base.self c.stockReserve.self 0
  require (k.balanceOf inToken c.base.self ≤ beforeIn ∧
    beforeIn - k.balanceOf inToken c.base.self = input) (.reason "SWAP_MISMATCH")
  let received ← checkedSub (k.balanceOf outToken c.base.self) beforeOut
  require (received = output) (.reason "SWAP_MISMATCH")
  return (k, output)

/-- The books after a buy. -/
def bookBuy (input output : Nat) (s : State) : Result Error State := do
  let previous := s.base.trackedPosition c.targetStock
  let trackedUsdcBalance ← checkedSub s.base.trackedUsdcBalance input
  let totalBuyUsdc ← checkedAdd s.totalBuyUsdc input
  let positionCostUsdc ← checkedAdd s.positionCostUsdc input
  let position ← checkedAdd previous output
  let base ← Vault.setTrackedPosition c.base c.targetStock position
    { s.base with trackedUsdcBalance }
  return { s with base, totalBuyUsdc, positionCostUsdc }

/-- The books after a sell: a sell of everything releases the whole cost, any
other a share of it rounded down. -/
def bookSell (input output : Nat) (s : State) : Result Error State := do
  let previous := s.base.trackedPosition c.targetStock
  let exitedCost ← (if input = previous then .ok s.positionCostUsdc
    else mulDiv s.positionCostUsdc input previous)
  let positionCostUsdc ← checkedSub s.positionCostUsdc exitedCost
  let gain ← checkedInt (toInt256 output - toInt256 exitedCost)
  let realizedTradingPnl ← checkedInt (s.realizedTradingPnl + gain)
  let trackedUsdcBalance ← checkedAdd s.base.trackedUsdcBalance output
  let position ← checkedSub previous input
  let base ← Vault.setTrackedPosition c.base c.targetStock position
    { s.base with trackedUsdcBalance }
  return { s with base, positionCostUsdc, realizedTradingPnl }

def execute (m : Msg) (buy : Bool) (input minOutput deadline expectedVersion : Nat) (s : State) :
    Result Error (State × Nat) := do
  Vault.whenActive s.base
  validateExecution c m buy input minOutput deadline expectedVersion s
  let (tokens, output) ← swap c m buy input minOutput deadline s
  let s := { s with base := { s.base with tokens } }
  let s ← (if buy then bookBuy c input output s else bookSell c input output s)
  let executionVersion ← checkedAdd s.executionVersion 1
  return ({ s with executionVersion }.emit (.strategyExecuted buy input output executionVersion),
    output)

/-- Everything that can happen to the vault and its venue. -/
inductive Action where
  | deposit (m : Msg) (usdcAmount : Nat)
  | withdraw (m : Msg) (usdcAmount : Nat)
  | close (m : Msg)
  | rescueUntrackedToken (m : Msg) (token : Address)
  | rescueNative (m : Msg) (x : View)
  | receive (m : Msg)
  | configureExecutor (m : Msg) (next : ExecutorGrant)
  | revokeExecutor (m : Msg)
  | execute (m : Msg) (buy : Bool) (input minOutput deadline expectedVersion : Nat)
  | updateFeed (m : Msg) (price at_ : Nat) (source : Bytes32)
  | updateSession (m : Msg) (opens closes at_ : Nat) (source : Bytes32)
  | setPaused (m : Msg) (next : Bool)
  | outside (calls : List TokenCall)

def own : List Address := [c.base.self, c.base.locker.self]

/-- A call to an entry point inherited from the base vault. -/
def onBase (s : State) (body : Result Error Vault.State) : Result Error State := do
  let base ← body
  return { s with base }

def step : Action → State → Result Error State
  | .deposit m usdcAmount, s =>
      callFrom (own c) m (onBase s (Vault.deposit c.base m usdcAmount s.base))
  | .withdraw m usdcAmount, s =>
      callFrom (own c) m (onBase s (Vault.withdraw c.base m usdcAmount s.base))
  | .close m, s => callFrom (own c) m (onBase s (Vault.close c.base m s.base))
  | .rescueUntrackedToken m token, s =>
      callFrom (own c) m (onBase s (Prod.fst <$> Vault.rescueUntrackedToken c.base m token s.base))
  | .rescueNative m x, s =>
      callFrom (own c) m (onBase s (Prod.fst <$> Vault.rescueNative c.base m x s.base))
  | .receive m, s => payFrom (own c) m (onBase s (.ok (Vault.receive m s.base)))
  | .configureExecutor m next, s => callFrom (own c) m (configureExecutor c m next s)
  | .revokeExecutor m, s => callFrom (own c) m (revokeExecutor c m s)
  | .execute m buy input minOutput deadline expectedVersion, s =>
      callFrom (own c) m
        (Prod.fst <$> execute c m buy input minOutput deadline expectedVersion s)
  | .updateFeed m price at_ source, s =>
      callFrom (own c) m do
        let feed ← ReferenceFeed.update c.referenceFeed m price at_ source s.feed
        return { s with feed }
  | .updateSession m opens closes at_ source, s =>
      callFrom (own c) m do
        let feed ← ReferenceFeed.updateSession c.referenceFeed m opens closes at_ source s.feed
        return { s with feed }
  | .setPaused m next, s =>
      callFrom (own c) m do
        let paused ← StockReserve.setPaused c.stockReserve m next
        return { s with paused }
  | .outside calls, s =>
      .ok { s with base := { s.base with tokens := s.base.tokens.outside (own c) calls } }

end Calls

/-! ## What an accepted trade did -/

section Accepted

variable {c : Config} {m : Msg} {buy : Bool}
  {input output minOutput deadline expectedVersion : Nat} {s s' : State}

/-- What an order is worth at a price. -/
def notional (buy : Bool) (input price : Nat) : Nat :=
  if buy then input else input * price / 10 ^ 18

/-- What an order gets at a price. -/
def expectedOutput (buy : Bool) (input price : Nat) : Nat :=
  if buy then input * 10 ^ 18 / price else input * price / 10 ^ 18

/-- The slippage the sender of an order may accept. -/
def slippage (c : Config) (m : Msg) (s : State) : Nat :=
  if m.sender = c.base.owner then 500 else s.grant.maxSlippageBps

/-- An order the validation lets through. -/
structure Validated (c : Config) (m : Msg) (buy : Bool)
    (input minOutput deadline expectedVersion : Nat) (s : State) : Prop where
  amount : input ≠ 0
  version : expectedVersion = s.executionVersion
  authority : m.sender = c.base.owner ∨ (m.sender = s.grant.executor ∧
    deadline ≤ s.grant.expiresAt ∧ m.timestamp < s.grant.expiresAt)
  price : ∃ price, stockPrice c m s = .ok price ∧
    expectedOutput buy input price * (10000 - slippage c m s) / 10000 ≤ minOutput ∧
    (m.sender ≠ c.base.owner → notional buy input price ≤ s.grant.maxOrderUsdc)
  budget : m.sender ≠ c.base.owner → buy = true →
    s.totalBuyUsdc + input ≤ s.grant.maxTotalBuyUsdc
  tracked : if buy then input ≤ s.base.trackedUsdcBalance
    else input ≤ s.base.trackedPosition c.targetStock

theorem executorLimit_ok {directOwner : Bool} {value : Nat} {u : Unit}
    (h : executorLimit directOwner buy input value s = .ok u) (hd : directOwner = false) :
    value ≤ s.grant.maxOrderUsdc ∧
      (buy = true → s.totalBuyUsdc + input ≤ s.grant.maxTotalBuyUsdc) := by
  subst hd
  simp only [executorLimit, Bool.false_eq_true, if_false, bind_eq_ok, require_eq_ok] at h
  obtain ⟨_, hvalue, bought, hbought, hle⟩ := h
  refine ⟨hvalue, fun hb => ?_⟩
  rw [hb, if_pos rfl, checkedAdd_eq_ok] at hbought
  rw [hbought.2]
  exact hle

theorem validateExecution_ok {u : Unit}
    (h : validateExecution c m buy input minOutput deadline expectedVersion s = .ok u) :
    Validated c m buy input minOutput deadline expectedVersion s := by
  simp only [validateExecution, bind_eq_ok, require_eq_ok, checkedSub_eq_ok, mulDiv_eq_ok] at h
  obtain ⟨_, ⟨_, hinput, _, hversion⟩, _, hauth, price, hprice, value, hvalue, expected, hexpected,
    _, ⟨_, ⟨_, rfl⟩, _, _, rfl⟩, _, ⟨_, hmin⟩, _, hlimit, htracked⟩ := h
  have hvalueIs : value = notional buy input price := by
    unfold notional
    split at hvalue
    · next hb => rw [if_pos hb]; exact (Except.ok.inj hvalue).symm
    · next hb => rw [if_neg hb]; exact ((mulDiv_eq_ok.mp hvalue).2.2).symm
  have hexpectedIs : expected = expectedOutput buy input price := by
    unfold expectedOutput
    split at hexpected
    · next hb => rw [if_pos hb]; exact ((mulDiv_eq_ok.mp hexpected).2.2).symm
    · next hb =>
      rw [if_neg hb, ← Except.ok.inj hexpected, hvalueIs, notional, if_neg hb]
  have hslippage : (if decide (m.sender = c.base.owner) = true then 500
      else s.grant.maxSlippageBps) = slippage c m s := by
    simp [slippage]
  rw [hslippage, hexpectedIs] at hmin
  refine ⟨hinput, hversion, by simpa using hauth, ⟨price, hprice, hmin, fun hne => ?_⟩,
    fun hne hb => ?_, htracked⟩
  · rw [← hvalueIs]
    exact (executorLimit_ok hlimit (by simpa using hne)).1
  · exact (executorLimit_ok hlimit (by simpa using hne)).2 hb

def inToken (c : Config) (buy : Bool) : Address := if buy then c.base.afUsdc else c.targetStock

def outToken (c : Config) (buy : Bool) : Address := if buy then c.targetStock else c.base.afUsdc

/-- What the constructor checked of the venue. -/
structure Venue (c : Config) : Prop where
  usdc : c.stockReserve.usdc = c.base.afUsdc
  stock : c.stockReserve.stock = c.targetStock

/-- The ledgers after a swap: the vault paid exactly the input and got exactly the
output, no other token moved, and no allowance of the vault is left. -/
structure Swapped (c : Config) (buy : Bool) (input output : Nat) (k k' : Tokens) : Prop where
  spent : k'.balanceOf (inToken c buy) c.base.self + input =
    k.balanceOf (inToken c buy) c.base.self
  received : k'.balanceOf (outToken c buy) c.base.self =
    k.balanceOf (outToken c buy) c.base.self + output
  others : ∀ t, t ≠ inToken c buy → t ≠ outToken c buy → ∀ a, k'.balanceOf t a = k.balanceOf t a
  quiet : k.Quiet (own c) → k'.Quiet (own c)

theorem swap_ok {k : Tokens} (hv : Venue c)
    (h : swap c m buy input minOutput deadline s = .ok (k, output)) :
    output ≠ 0 ∧ minOutput ≤ output ∧ Swapped c buy input output s.base.tokens k := by
  simp only [swap, Tokens.approve_eq_ok, bind_eq_ok, require_eq_ok, checkedSub_eq_ok, pure_eq_ok,
    Prod.mk.injEq] at h
  obtain ⟨_, ⟨_, _, rfl⟩, ⟨k₁, made⟩, hswap, _, ⟨_, _, rfl⟩, _, ⟨hle, hspent⟩, _, ⟨hge, rfl⟩, _,
    hreceived, rfl, rfl⟩ := h
  obtain ⟨hne, hmin, k₂, hin, hout⟩ := StockReserve.swap_ok hswap
  rw [hv.usdc, hv.stock] at hin hout
  refine ⟨hne, hmin, ⟨?_, ?_, fun t hti hto a => ?_, fun hq t a ha p => ?_⟩⟩
  · unfold inToken
    omega
  · unfold outToken
    omega
  · show k₁.balanceOf t a = s.base.tokens.balanceOf t a
    rw [hout.balance_token hto, hin.balance_token hti]
    rfl
  · have hzero := hq t a ha p
    have hleOut := hout.allowance_le t a p
    have hleIn := hin.allowance_le t a p
    rw [Tokens.allowance_setAllowance] at hleIn ⊢
    -- the only allowance that was granted is the one taken back at the end
    by_cases hcell : t = (if buy then c.base.afUsdc else c.targetStock) ∧ a = c.base.self ∧
        p = c.stockReserve.self
    · rw [if_pos hcell]
    · rw [if_neg hcell] at hleIn ⊢
      show k₁.allowance t a p = 0
      omega

structure Bought (c : Config) (input output : Nat) (s s' : State) : Prop where
  tracked : s'.base.trackedUsdcBalance + input = s.base.trackedUsdcBalance
  total : s'.totalBuyUsdc = s.totalBuyUsdc + input
  cost : s'.positionCostUsdc = s.positionCostUsdc + input
  pnl : s'.realizedTradingPnl = s.realizedTradingPnl
  position : s'.base.trackedPosition c.targetStock =
    s.base.trackedPosition c.targetStock + output

/-- The cost a sell releases. -/
def exitedCost (c : Config) (input : Nat) (s : State) : Nat :=
  if input = s.base.trackedPosition c.targetStock then s.positionCostUsdc
  else s.positionCostUsdc * input / s.base.trackedPosition c.targetStock

structure Sold (c : Config) (input output : Nat) (s s' : State) : Prop where
  tracked : s'.base.trackedUsdcBalance = s.base.trackedUsdcBalance + output
  total : s'.totalBuyUsdc = s.totalBuyUsdc
  cost : s'.positionCostUsdc + exitedCost c input s = s.positionCostUsdc
  pnl : s'.realizedTradingPnl =
    s.realizedTradingPnl + (toInt256 output - toInt256 (exitedCost c input s))
  position : s'.base.trackedPosition c.targetStock + input =
    s.base.trackedPosition c.targetStock

/-- What both kinds of trade do to the rest of the books. -/
structure Booked (c : Config) (s s' : State) : Prop where
  positions : s'.base.trackedPosition =
    Function.update s.base.trackedPosition c.targetStock (s'.base.trackedPosition c.targetStock)
  count : s'.base.openTrackedPositionCount +
      (if s.base.trackedPosition c.targetStock = 0 then 0 else 1) =
    s.base.openTrackedPositionCount +
      (if s'.base.trackedPosition c.targetStock = 0 then 0 else 1)
  locker : s'.base.locker = s.base.locker
  principal : s'.base.principalBasis = s.base.principalBasis
  closed : s'.base.closed = s.base.closed
  grant : s'.grant = s.grant

theorem bookBuy_ok (h : bookBuy c input output s = .ok s') :
    Booked c s s' ∧ Bought c input output s s' ∧ s'.base.tokens = s.base.tokens ∧
      s'.executionVersion = s.executionVersion := by
  simp only [bookBuy, bind_eq_ok, checkedSub_eq_ok, checkedAdd_eq_ok, pure_eq_ok] at h
  obtain ⟨_, ⟨hle, rfl⟩, _, ⟨_, rfl⟩, _, ⟨_, rfl⟩, _, ⟨_, rfl⟩, base, hbase, rfl⟩ := h
  obtain ⟨_, hpos, hcount, htok, hlock, hprin, htracked, hclosed⟩ :=
    Vault.setTrackedPosition_ok hbase
  have hat : base.trackedPosition c.targetStock =
      s.base.trackedPosition c.targetStock + output := by rw [hpos, Function.update_self]
  refine ⟨⟨by rw [hat]; exact hpos, by rw [hat]; exact hcount, hlock, hprin, hclosed, rfl⟩,
    ⟨?_, rfl, rfl, rfl, hat⟩, htok, rfl⟩
  rw [htracked]
  exact Nat.sub_add_cancel hle

theorem bookSell_ok (h : bookSell c input output s = .ok s') :
    Booked c s s' ∧ Sold c input output s s' ∧ s'.base.tokens = s.base.tokens ∧
      s'.executionVersion = s.executionVersion := by
  simp only [bookSell, bind_eq_ok, checkedSub_eq_ok, checkedAdd_eq_ok, checkedInt_eq_ok,
    pure_eq_ok] at h
  obtain ⟨exited, hexited, _, ⟨hle, rfl⟩, _, ⟨_, rfl⟩, _, ⟨_, rfl⟩, _, ⟨_, rfl⟩, _, ⟨hsell, rfl⟩,
    base, hbase, rfl⟩ := h
  have hexitedIs : exited = exitedCost c input s := by
    unfold exitedCost
    split at hexited
    · next hall => rw [if_pos hall]; exact (Except.ok.inj hexited).symm
    · next hpart => rw [if_neg hpart]; exact ((mulDiv_eq_ok.mp hexited).2.2).symm
  subst hexitedIs
  obtain ⟨_, hpos, hcount, htok, hlock, hprin, htracked, hclosed⟩ :=
    Vault.setTrackedPosition_ok hbase
  have hat : base.trackedPosition c.targetStock =
      s.base.trackedPosition c.targetStock - input := by rw [hpos, Function.update_self]
  refine ⟨⟨by rw [hat]; exact hpos, by rw [hat]; exact hcount, hlock, hprin, hclosed, rfl⟩,
    ⟨htracked, rfl, Nat.sub_add_cancel hle, rfl, ?_⟩, htok, rfl⟩
  rw [hat]
  exact Nat.sub_add_cancel hsell

/-- An accepted `execute`. -/
structure Executed (c : Config) (m : Msg) (buy : Bool)
    (input minOutput deadline expectedVersion output : Nat) (s s' : State) : Prop where
  active : s.base.closed = false
  validated : Validated c m buy input minOutput deadline expectedVersion s
  filled : output ≠ 0 ∧ minOutput ≤ output
  swapped : Swapped c buy input output s.base.tokens s'.base.tokens
  booked : Booked c s s'
  trade : if buy then Bought c input output s s' else Sold c input output s s'
  version : s'.executionVersion = s.executionVersion + 1

theorem execute_ok (hv : Venue c)
    (h : execute c m buy input minOutput deadline expectedVersion s = .ok (s', output)) :
    Executed c m buy input minOutput deadline expectedVersion output s s' := by
  simp only [execute, Vault.whenActive, bind_eq_ok, require_eq_ok, checkedAdd_eq_ok, pure_eq_ok,
    Prod.mk.injEq] at h
  obtain ⟨_, hactive, _, hvalid, ⟨k, made⟩, hswap, t, hbook, _, ⟨_, rfl⟩, rfl, rfl⟩ := h
  obtain ⟨hne, hmin, hswapped⟩ := swap_ok hv hswap
  cases buy with
  | true =>
      rw [if_pos rfl] at hbook
      obtain ⟨hbooked, hbought, htok, hver⟩ := bookBuy_ok hbook
      refine ⟨hactive, validateExecution_ok hvalid, ⟨hne, hmin⟩, ?_,
        ⟨hbooked.positions, hbooked.count, hbooked.locker, hbooked.principal, hbooked.closed,
          hbooked.grant⟩, ?_, ?_⟩
      · show Swapped c true input made s.base.tokens t.base.tokens
        rw [htok]
        exact hswapped
      · exact ⟨hbought.tracked, hbought.total, hbought.cost, hbought.pnl, hbought.position⟩
      · show t.executionVersion + 1 = s.executionVersion + 1
        rw [hver]
  | false =>
      rw [if_neg (by decide)] at hbook
      obtain ⟨hbooked, hsold, htok, hver⟩ := bookSell_ok hbook
      refine ⟨hactive, validateExecution_ok hvalid, ⟨hne, hmin⟩, ?_,
        ⟨hbooked.positions, hbooked.count, hbooked.locker, hbooked.principal, hbooked.closed,
          hbooked.grant⟩, ?_, ?_⟩
      · show Swapped c false input made s.base.tokens t.base.tokens
        rw [htok]
        exact hswapped
      · exact ⟨hsold.tracked, hsold.total, hsold.cost, hsold.pnl, hsold.position⟩
      · show t.executionVersion + 1 = s.executionVersion + 1
        rw [hver]

/-- Everything an accepted step can do, one case for each kind of effect. -/
inductive Accepted (c : Config) (s : State) : Action → State → Prop where
  | deposited {m : Msg} {amount : Nat} {base : Vault.State} (hout : m.sender ∉ own c)
      (h : Vault.Deposited c.base m amount s.base base) :
      Accepted c s (.deposit m amount) { s with base }
  | withdrawn {m : Msg} {amount : Nat} {base : Vault.State} (hout : m.sender ∉ own c)
      (h : Vault.Withdrawn c.base m amount s.base base) :
      Accepted c s (.withdraw m amount) { s with base }
  | closing {m : Msg} {base : Vault.State} (hout : m.sender ∉ own c)
      (h : Vault.Closing c.base m s.base base) : Accepted c s (.close m) { s with base }
  | rescued {m : Msg} {token : Address} {base : Vault.State}
      (h : Vault.Rescued c.base m token s.base base) :
      Accepted c s (.rescueUntrackedToken m token) { s with base }
  | configured {m : Msg} {next : ExecutorGrant} {log : List Event} (howner : m.sender = c.base.owner)
      (hactive : s.base.closed = false) :
      Accepted c s (.configureExecutor m next)
        { s with
          grant := next, totalBuyUsdc := 0, executionVersion := s.executionVersion + 1, log }
  | revoked {m : Msg} {log : List Event} (howner : m.sender = c.base.owner) :
      Accepted c s (.revokeExecutor m)
        { s with grant := .deleted, executionVersion := s.executionVersion + 1, log }
  | executed {m : Msg} {buy : Bool} {input minOutput deadline expectedVersion output : Nat}
      {s' : State} (h : Executed c m buy input minOutput deadline expectedVersion output s s') :
      Accepted c s (.execute m buy input minOutput deadline expectedVersion) s'
  | outside {calls : List TokenCall} {k : Tokens} (h : Tokens.OutsideStep (own c) s.base.tokens k) :
      Accepted c s (.outside calls) { s with base := { s.base with tokens := k } }
  | native {a : Action} {balance : Nat} {log : List Vault.Event}
      (ha : (∃ m x, a = .rescueNative m x) ∨ ∃ m, a = .receive m) :
      Accepted c s a { s with base := { s.base with balance, log } }
  | venue {a : Action} {feed : ReferenceFeed.State} {paused : Bool}
      (ha : (∃ m price at_ source, a = .updateFeed m price at_ source) ∨
        (∃ m opens closes at_ source, a = .updateSession m opens closes at_ source) ∨
        ∃ m next, a = .setPaused m next) :
      Accepted c s a { s with feed, paused }

theorem step_accepted (hv : Venue c) {a : Action} (h : step c a s = .ok s') :
    Accepted c s a s' := by
  cases a with
  | deposit m usdcAmount =>
      simp only [step, callFrom_eq_ok, onBase, bind_eq_ok, pure_eq_ok] at h
      obtain ⟨hout, _, base, hbase, rfl⟩ := h
      exact .deposited hout (Vault.deposit_ok hbase)
  | withdraw m usdcAmount =>
      simp only [step, callFrom_eq_ok, onBase, bind_eq_ok, pure_eq_ok] at h
      obtain ⟨hout, _, base, hbase, rfl⟩ := h
      exact .withdrawn hout (Vault.withdraw_ok hbase)
  | close m =>
      simp only [step, callFrom_eq_ok, onBase, bind_eq_ok, pure_eq_ok] at h
      obtain ⟨hout, _, base, hbase, rfl⟩ := h
      exact .closing hout (Vault.close_ok hbase)
  | rescueUntrackedToken m token =>
      simp only [step, callFrom_eq_ok, onBase, bind_eq_ok, map_eq_ok, pure_eq_ok] at h
      obtain ⟨_, _, base, ⟨⟨r, amount⟩, hbase, rfl⟩, rfl⟩ := h
      exact .rescued (Vault.rescueUntrackedToken_ok hbase)
  | rescueNative m x =>
      simp only [step, callFrom_eq_ok, onBase, Vault.rescueNative, bind_eq_ok, map_eq_ok,
        pure_eq_ok] at h
      obtain ⟨_, _, base, ⟨r, ⟨_, _, _, _, _, _, _, _, rfl⟩, rfl⟩, rfl⟩ := h
      exact .native (Or.inl ⟨m, x, rfl⟩)
  | receive m =>
      simp only [step, payFrom_eq_ok, onBase, Vault.receive, ok_bind, pure_eq_ok] at h
      obtain ⟨_, rfl⟩ := h
      exact .native (Or.inr ⟨m, rfl⟩)
  | configureExecutor m next =>
      simp only [step, callFrom_eq_ok, configureExecutor, Vault.onlyOwner, Vault.whenActive,
        bind_eq_ok, require_eq_ok, checkedAdd_eq_ok, pure_eq_ok] at h
      obtain ⟨_, _, _, howner, _, hactive, _, _, _, ⟨_, rfl⟩, rfl⟩ := h
      exact .configured howner hactive
  | revokeExecutor m =>
      simp only [step, callFrom_eq_ok, revokeExecutor, Vault.onlyOwner, bind_eq_ok, require_eq_ok,
        checkedAdd_eq_ok, pure_eq_ok] at h
      obtain ⟨_, _, _, howner, _, ⟨_, rfl⟩, rfl⟩ := h
      exact .revoked howner
  | execute m buy input minOutput deadline expectedVersion =>
      simp only [step, callFrom_eq_ok, map_eq_ok] at h
      obtain ⟨_, _, ⟨r, output⟩, hexec, rfl⟩ := h
      exact .executed (execute_ok hv hexec)
  | updateFeed m price at_ source =>
      simp only [step, callFrom_eq_ok, bind_eq_ok, pure_eq_ok] at h
      obtain ⟨_, _, feed, _, rfl⟩ := h
      exact .venue (Or.inl ⟨m, price, at_, source, rfl⟩)
  | updateSession m opens closes at_ source =>
      simp only [step, callFrom_eq_ok, bind_eq_ok, pure_eq_ok] at h
      obtain ⟨_, _, feed, _, rfl⟩ := h
      exact .venue (Or.inr (Or.inl ⟨m, opens, closes, at_, source, rfl⟩))
  | setPaused m next =>
      simp only [step, callFrom_eq_ok, bind_eq_ok, pure_eq_ok] at h
      obtain ⟨_, _, paused, _, rfl⟩ := h
      exact .venue (Or.inr (Or.inr ⟨m, next, rfl⟩))
  | outside calls =>
      simp only [step, Except.ok.injEq] at h
      subst h
      exact .outside (Tokens.outside_step s.base.tokens calls)

end Accepted

end StrategyVault
end AlphaForge
