/-
Orders that are filled.

What `execute` checks, read the other way: an order in the window of the grant,
within its limits and at prices that stand, goes through whenever the router
delivers what it says.  Figures below `2 ^ 128` leave no room for an overflow.
-/
import AlphaForge.Vault.TradingVault.Backing

namespace AlphaForge
namespace TradingVault

open Evm

variable {c : Config} {m : Msg} {feeds : Feeds} {r : RouterCall} {action : Swap} {i : Fin 3}
  {s : State} {amountIn output : Nat}

/-! ## Valuation -/

/-- What `_price` asks of a feed. -/
def Fresh (c : Config) (m : Msg) (feeds : Feeds) (i : Fin 3) : Prop :=
  (feeds (c.feeds i)).price ≠ 0 ∧ (feeds (c.feeds i)).digest ≠ 0 ∧
    (feeds (c.feeds i)).observedAt ≤ m.timestamp ∧
    m.timestamp - (feeds (c.feeds i)).observedAt ≤ c.maxPriceAge

/-- Every stock that is held has a price. -/
def Priced (c : Config) (m : Msg) (feeds : Feeds) (s : State) : Prop :=
  ∀ i, s.trackedPosition (c.stocks i) ≠ 0 → Fresh c m feeds i

def worth (c : Config) (feeds : Feeds) (s : State) (i : Fin 3) : Nat :=
  s.trackedPosition (c.stocks i) * (feeds (c.feeds i)).price / 10 ^ 18

def equityAt (c : Config) (feeds : Feeds) (s : State) : Nat :=
  s.runtimeCash + worth c feeds s 0 + worth c feeds s 1 + worth c feeds s 2

/-- A value at or beyond a bound; zero is no bound. -/
def Beyond (low high value : Nat) : Prop :=
  (low ≠ 0 ∧ value ≤ low) ∨ (high ≠ 0 ∧ high ≤ value)

theorem price_of (h : Fresh c m feeds i) : price c m feeds i = .ok (feeds (c.feeds i)).price := by
  unfold Fresh at h
  rw [price, require_of h]
  rfl

theorem positionValue_of (hpriced : Priced c m feeds s) (hfits : worth c feeds s i ≤ maxUint256) :
    positionValue c m feeds i s = .ok (worth c feeds s i) := by
  unfold positionValue
  dsimp only
  split
  · next hnone => simp [worth, hnone]
  · next hheld =>
    rw [price_of (hpriced i hheld), ok_bind]
    exact mulDiv_of (by decide) hfits

theorem runtimeEquity_of (hpriced : Priced c m feeds s)
    (hfits : equityAt c feeds s ≤ maxUint256) :
    runtimeEquity c m feeds s = .ok (equityAt c feeds s) := by
  unfold equityAt at hfits
  rw [runtimeEquity, positionValue_of hpriced (by omega), ok_bind, checkedAdd_of (by omega), ok_bind,
    positionValue_of hpriced (by omega), ok_bind, checkedAdd_of (by omega), ok_bind,
    positionValue_of hpriced (by omega), ok_bind, checkedAdd_of (by omega)]
  rfl

theorem assetBoundHit_of (hpriced : Priced c m feeds s)
    (h : s.trackedPosition (c.stocks i) ≠ 0 →
      ¬ Beyond (s.lowerPrice i) (s.upperPrice i) (feeds (c.feeds i)).price) :
    assetBoundHit c m feeds i s = .ok false := by
  unfold assetBoundHit
  split
  · rfl
  · next hheld =>
    have hposition : s.trackedPosition (c.stocks i) ≠ 0 := fun hzero => hheld (Or.inl hzero)
    have hwithin := h hposition
    unfold Beyond at hwithin
    rw [price_of (hpriced i hposition), ok_bind, decide_eq_false hwithin]
    rfl

theorem riskReached_of (hpriced : Priced c m feeds s) (hfits : equityAt c feeds s ≤ maxUint256)
    (hnavFits : s.runtimeUnits ≠ 0 →
      equityAt c feeds s * 10 ^ 18 / s.runtimeUnits ≤ maxUint256)
    (hnav : s.runtimeUnits ≠ 0 →
      ¬ Beyond s.lowerUnitNav s.upperUnitNav (equityAt c feeds s * 10 ^ 18 / s.runtimeUnits))
    (hassets : ∀ i, s.trackedPosition (c.stocks i) ≠ 0 →
      ¬ Beyond (s.lowerPrice i) (s.upperPrice i) (feeds (c.feeds i)).price) :
    riskReached c m feeds s = .ok false := by
  unfold riskReached
  split
  · rfl
  · next hunits =>
    have hwithin := hnav hunits
    unfold Beyond at hwithin
    rw [unitNav, if_neg hunits, runtimeEquity_of hpriced hfits, ok_bind,
      mulDiv_of hunits (hnavFits hunits), ok_bind]
    simp only [decide_eq_false hwithin, assetBoundHit_of hpriced (hassets _)]
    rfl

/-! ## The checks of `execute` -/

theorem stockIndex_of (hstocks : Function.Injective c.stocks) (i : Fin 3) :
    stockIndex c (c.stocks i) = .ok i := by
  have hne : ∀ {j k : Fin 3}, j ≠ k → c.stocks j ≠ c.stocks k := fun h heq => h (hstocks heq)
  unfold stockIndex
  rcases stock_cases i with rfl | rfl | rfl
  · rw [if_pos rfl]
  · rw [if_neg (hne (by decide)), if_pos rfl]
  · rw [if_neg (hne (by decide)), if_neg (hne (by decide)), if_pos rfl]

/-- The last moment an executor may trade. -/
def lastMoment (now : Nat) (s : State) : Nat :=
  if s.liquidating then s.liquidationUntil
  else if s.grant.expiresAt ≤ now then s.grant.expiresAt + s.grant.liquidationWindow
  else s.grant.expiresAt

/-- A deadline within the window stays within it until it has passed. -/
theorem le_lastMoment {now later deadline : Nat} (h : deadline ≤ lastMoment now s)
    (hnow : now ≤ later) (hlater : later ≤ deadline) : deadline ≤ lastMoment later s := by
  unfold lastMoment at h ⊢
  by_cases hliquidating : s.liquidating = true
  · rw [if_pos hliquidating] at h ⊢
    exact h
  · rw [if_neg hliquidating] at h ⊢
    split at h <;> split <;> omega

theorem validateAuthority_of {buy : Bool}
    (hbuy : buy = true → s.liquidating = false ∧ m.timestamp < s.grant.expiresAt ∧
      s.grant.executor ≠ 0)
    (hfits : s.grant.expiresAt + s.grant.liquidationWindow ≤ maxUint256)
    (htime : m.timestamp ≤ lastMoment m.timestamp s) (hdeadline : action.deadline ≤ lastMoment m.timestamp s) :
    validateAuthority c m action buy s = .ok () := by
  have hallowed : ¬ (buy = true ∧ (s.liquidating = true ∨
      decide (s.grant.expiresAt ≤ m.timestamp) = true ∨ s.grant.executor = 0)) := by
    rintro ⟨hb, hl | he | hx⟩
    · rw [(hbuy hb).1] at hl
      cases hl
    · have hexpired := of_decide_eq_true he
      have hbefore := (hbuy hb).2.1
      omega
    · exact (hbuy hb).2.2 hx
  have hlast : (if s.liquidating then .ok s.liquidationUntil
      else if decide (s.grant.expiresAt ≤ m.timestamp) = true then
        checkedAdd s.grant.expiresAt s.grant.liquidationWindow
      else .ok s.grant.expiresAt : Result Error Nat) = .ok (lastMoment m.timestamp s) := by
    unfold lastMoment
    simp only [checkedAdd_of hfits, decide_eq_true_eq]
    split
    · rfl
    · split <;> rfl
  unfold validateAuthority
  dsimp only
  rw [require_of hallowed, ok_bind]
  split
  · rfl
  · rw [hlast, ok_bind, require_of ⟨htime, hdeadline⟩]

/-- What a buy is checked for before it is made, past its window. -/
structure BuyLimits (c : Config) (feeds : Feeds) (action : Swap) (i : Fin 3) (s : State) : Prop where
  order : s.grant.maxOrderUsdc ≠ 0 ∧ action.amountIn ≤ s.grant.maxOrderUsdc
  slippage : s.grant.maxSlippageBps < 10000
  floor : action.amountIn * 10 ^ 18 / (feeds (c.feeds i)).price *
    (10000 - s.grant.maxSlippageBps) / 10000 ≤ action.minAmountOut
  positive : action.minAmountOut ≠ 0
  cash : action.amountIn ≤ s.runtimeCash
  total : s.totalBuyUsdc + action.amountIn ≤ s.grant.maxTotalBuyUsdc
  exposure : (worth c feeds s i + action.amountIn) * 3 ≤ equityAt c feeds s

structure SellLimits (c : Config) (feeds : Feeds) (action : Swap) (i : Fin 3) (s : State) : Prop where
  order : s.grant.maxOrderUsdc ≠ 0 ∧
    action.amountIn * (feeds (c.feeds i)).price / 10 ^ 18 ≤ s.grant.maxOrderUsdc
  slippage : s.grant.maxSlippageBps < 10000
  floor : action.amountIn * (feeds (c.feeds i)).price / 10 ^ 18 *
    (10000 - s.grant.maxSlippageBps) / 10000 ≤ action.minAmountOut
  position : action.amountIn ≤ s.trackedPosition (c.stocks i)

theorem reduced_le (x bps : Nat) : x * (10000 - bps) / 10000 ≤ x := by
  refine Nat.div_le_of_le_mul ?_
  rw [Nat.mul_comm]
  exact Nat.mul_le_mul_right x (Nat.sub_le _ _)

theorem validateOrder_buy (h : BuyLimits c feeds action i s) (hpriced : Priced c m feeds s)
    (hfresh : Fresh c m feeds i) (hfits : equityAt c feeds s ≤ maxUint256)
    (hreference : action.amountIn * 10 ^ 18 / (feeds (c.feeds i)).price ≤ maxUint256)
    (htotal : s.totalBuyUsdc + action.amountIn ≤ maxUint256) :
    validateOrder c m feeds action true i (feeds (c.feeds i)).price s = .ok () := by
  have hexposure := h.exposure
  have hreduced := reduced_le (action.amountIn * 10 ^ 18 / (feeds (c.feeds i)).price)
    s.grant.maxSlippageBps
  have hworth : worth c feeds s i =
    s.trackedPosition (c.stocks i) * (feeds (c.feeds i)).price / 10 ^ 18 := rfl
  rw [hworth] at hexposure
  unfold validateOrder
  rw [if_pos rfl, ok_bind, require_of h.order, ok_bind, if_pos rfl, mulDiv_of hfresh.1 hreference,
    ok_bind, checkedSub_of (Nat.le_of_lt h.slippage), ok_bind,
    mulDiv_of (by decide) (Nat.le_trans hreduced hreference), ok_bind,
    require_of ⟨h.floor, fun hzero => h.positive hzero.2⟩, ok_bind, if_pos rfl, require_of h.cash,
    ok_bind, checkedAdd_of htotal, ok_bind, require_of h.total, ok_bind,
    mulDiv_of (by decide) (by omega), ok_bind, checkedAdd_of (by omega), ok_bind,
    checkedMul_of (by omega), ok_bind, runtimeEquity_of hpriced hfits, ok_bind,
    require_of hexposure]

theorem validateOrder_sell (h : SellLimits c feeds action i s)
    (hreference : action.amountIn * (feeds (c.feeds i)).price / 10 ^ 18 ≤ maxUint256) :
    validateOrder c m feeds action false i (feeds (c.feeds i)).price s = .ok () := by
  have hreduced := reduced_le (action.amountIn * (feeds (c.feeds i)).price / 10 ^ 18)
    s.grant.maxSlippageBps
  have hkept : ¬ ((false : Bool) = true ∧ action.minAmountOut = 0) := fun hb => by cases hb.1
  unfold validateOrder
  rw [if_neg (by decide), mulDiv_of (by decide) hreference, ok_bind, require_of h.order, ok_bind,
    if_neg (by decide), ok_bind, checkedSub_of (Nat.le_of_lt h.slippage), ok_bind,
    mulDiv_of (by decide) (Nat.le_trans hreduced hreference), ok_bind,
    require_of ⟨h.floor, hkept⟩, ok_bind, if_neg (by decide), require_of h.position]

/-! ## The trade and its books -/

/-- The router took what it was approved for, and delivered the output it returned. -/
structure Fills (c : Config) (r : RouterCall) (action : Swap) (output : Nat) (s : State) : Prop where
  amountOut : r.amountOut = some output
  paid : ((s.tokens.setAllowance action.tokenIn c.self c.router action.amountIn).outside
    [c.self, c.locker.self] r.calls).balanceOf action.tokenIn c.self + action.amountIn =
      s.tokens.balanceOf action.tokenIn c.self
  received : ((s.tokens.setAllowance action.tokenIn c.self c.router action.amountIn).outside
    [c.self, c.locker.self] r.calls).balanceOf action.tokenOut c.self =
      s.tokens.balanceOf action.tokenOut c.self + output

/-- What a swap may not touch is there. -/
def Reserved (c : Config) (action : Swap) (s : State) : Prop :=
  if action.tokenIn = c.afUsdc then
    s.idleCash + s.runtimeCash ≤ maxUint256 ∧
      s.idleCash + s.runtimeCash ≤ s.tokens.balanceOf action.tokenIn c.self
  else s.trackedPosition action.tokenIn ≤ s.tokens.balanceOf action.tokenIn c.self

theorem swap_of (hself : c.self ≠ 0) (hrouter : c.router ≠ 0) (hreserved : Reserved c action s)
    (hfills : Fills c r action output s) (hmin : action.minAmountOut ≤ output)
    (hpositive : output ≠ 0) : ∃ k, swap c r action s = .ok (k, output) := by
  have hpaid := hfills.paid
  have hreceived := hfills.received
  have hheld : ∃ reserved, (if action.tokenIn = c.afUsdc then checkedAdd s.idleCash s.runtimeCash
      else .ok (s.trackedPosition action.tokenIn) : Result Error Nat) = .ok reserved ∧
        reserved ≤ s.tokens.balanceOf action.tokenIn c.self := by
    unfold Reserved at hreserved
    split at hreserved
    · next husdc =>
      rw [if_pos husdc, checkedAdd_of hreserved.1]
      exact ⟨_, rfl, hreserved.2⟩
    · next hstock =>
      rw [if_neg hstock]
      exact ⟨_, rfl, hreserved⟩
  obtain ⟨reserved, heq, hle⟩ := hheld
  unfold swap
  dsimp only
  rw [heq, ok_bind, require_of hle, ok_bind, Tokens.approve_of hself hrouter, ok_bind,
    hfills.amountOut]
  dsimp only
  rw [Tokens.approve_of hself hrouter, ok_bind, Tokens.balanceOf_setAllowance, require_of]
  · exact ⟨_, rfl⟩
  · refine ⟨by omega, by omega, by omega, by omega, hmin, ?_⟩
    rintro ⟨_, hzero⟩
    exact hpositive hzero

/-- The books of a buy. -/
def bought (c : Config) (i : Fin 3) (amountIn output : Nat) (s : State) : State :=
  { s with
    runtimeCash := s.runtimeCash - amountIn
    totalBuyUsdc := s.totalBuyUsdc + amountIn
    openTrackedPositionCount :=
      if s.trackedPosition (c.stocks i) = 0 then s.openTrackedPositionCount + 1
      else s.openTrackedPositionCount
    trackedPosition := Function.update s.trackedPosition (c.stocks i)
      (s.trackedPosition (c.stocks i) + output) }

theorem position_bought (hstocks : Function.Injective c.stocks) (j : Fin 3) :
    (bought c i amountIn output s).trackedPosition (c.stocks j) =
      if j = i then s.trackedPosition (c.stocks i) + output
      else s.trackedPosition (c.stocks j) := by
  by_cases hij : j = i
  · rw [if_pos hij, hij]
    exact Function.update_self _ _ _
  · rw [if_neg hij]
    exact Function.update_of_ne (fun heq => hij (hstocks heq)) _ _

theorem worth_bought (hstocks : Function.Injective c.stocks) (j : Fin 3) :
    worth c feeds (bought c i amountIn output s) j =
      if j = i then (s.trackedPosition (c.stocks i) + output) * (feeds (c.feeds i)).price / 10 ^ 18
      else worth c feeds s j := by
  rw [worth, position_bought hstocks]
  split
  · next hij => rw [hij]
  · rfl

/-- The buy exchanges its cash and the old position for the new one. -/
theorem equityAt_bought (hstocks : Function.Injective c.stocks) (hcash : amountIn ≤ s.runtimeCash) :
    equityAt c feeds (bought c i amountIn output s) + amountIn + worth c feeds s i =
      equityAt c feeds s +
        (s.trackedPosition (c.stocks i) + output) * (feeds (c.feeds i)).price / 10 ^ 18 := by
  have hleft : (bought c i amountIn output s).runtimeCash = s.runtimeCash - amountIn := rfl
  simp only [equityAt, worth_bought hstocks, hleft]
  rcases stock_cases i with rfl | rfl | rfl
  all_goals
    simp only [if_true, reduceIte, Fin.reduceEq]
    omega

theorem Priced.bought (h : Priced c m feeds s) (hfresh : Fresh c m feeds i)
    (hstocks : Function.Injective c.stocks) :
    Priced c m feeds (bought c i amountIn output s) := by
  intro j hheld
  by_cases hij : j = i
  · rw [hij]
    exact hfresh
  · refine h j ?_
    rwa [position_bought hstocks, if_neg hij] at hheld

theorem bookBuy_of (hstocks : Function.Injective c.stocks) (hpriced : Priced c m feeds s)
    (hfresh : Fresh c m feeds i) (hcash : amountIn ≤ s.runtimeCash)
    (htotal : s.totalBuyUsdc + amountIn ≤ maxUint256)
    (hposition : s.trackedPosition (c.stocks i) + output ≤ maxUint256)
    (hcount : s.openTrackedPositionCount + 1 ≤ maxUint256)
    (hfits : equityAt c feeds (bought c i amountIn output s) ≤ maxUint256)
    (hexposure : (s.trackedPosition (c.stocks i) + output) * (feeds (c.feeds i)).price / 10 ^ 18 * 3 ≤
      equityAt c feeds (bought c i amountIn output s)) :
    bookBuy c m feeds amountIn output i (feeds (c.feeds i)).price s =
      .ok (bought c i amountIn output s) := by
  have hopened : (if s.trackedPosition (c.stocks i) = 0 then
      checkedAdd s.openTrackedPositionCount 1 else .ok s.openTrackedPositionCount :
        Result Error Nat) =
      .ok (if s.trackedPosition (c.stocks i) = 0 then s.openTrackedPositionCount + 1
        else s.openTrackedPositionCount) := by
    rw [checkedAdd_of hcount]
    split <;> rfl
  have hequity := runtimeEquity_of (hpriced.bought hfresh hstocks) hfits
  unfold bookBuy
  dsimp only
  rw [checkedSub_of hcash, ok_bind, checkedAdd_of htotal, ok_bind, checkedAdd_of hposition, ok_bind,
    hopened, ok_bind, mulDiv_of (by decide) (by omega), ok_bind, checkedMul_of (by omega), ok_bind]
  unfold bought at hequity hexposure
  rw [hequity, ok_bind, require_of hexposure]
  rfl

theorem bookSell_of (hcash : s.runtimeCash + output ≤ maxUint256)
    (hposition : amountIn ≤ s.trackedPosition (c.stocks i))
    (hcount : s.trackedPosition (c.stocks i) = amountIn → 1 ≤ s.openTrackedPositionCount) :
    ∃ s', bookSell c amountIn output i s = .ok s' ∧ s'.stateVersion = s.stateVersion ∧
      s'.grantVersion = s.grantVersion ∧ s'.log = s.log := by
  unfold bookSell
  dsimp only
  rw [checkedAdd_of hcash, ok_bind, checkedSub_of hposition, ok_bind]
  by_cases hall : s.trackedPosition (c.stocks i) = amountIn
  · rw [if_pos hall, checkedSub_of (hcount hall)]
    exact ⟨_, rfl, rfl, rfl, rfl⟩
  · rw [if_neg hall]
    exact ⟨_, rfl, rfl, rfl, rfl⟩

/-! ## Whole orders -/

/-- Figures a vault has in practice. -/
structure Bounded (c : Config) (feeds : Feeds) (s : State) : Prop where
  idleCash : s.idleCash < 2 ^ 128
  runtimeCash : s.runtimeCash < 2 ^ 128
  totalBuyUsdc : s.totalBuyUsdc < 2 ^ 128
  position : ∀ i, s.trackedPosition (c.stocks i) < 2 ^ 128
  price : ∀ i, (feeds (c.feeds i)).price < 2 ^ 128
  stateVersion : s.stateVersion < 2 ^ 128
  expiresAt : s.grant.expiresAt < 2 ^ 128
  liquidationWindow : s.grant.liquidationWindow < 2 ^ 128

theorem value_lt {amount quote : Nat} (hamount : amount < 2 ^ 129) (hquote : quote < 2 ^ 128) :
    amount * quote / 10 ^ 18 < 2 ^ 200 := by
  refine Nat.div_lt_of_lt_mul ?_
  calc amount * quote < 2 ^ 129 * 2 ^ 128 := Nat.mul_lt_mul'' hamount hquote
    _ ≤ 10 ^ 18 * 2 ^ 200 := by decide

theorem Bounded.worth_lt (h : Bounded c feeds s) (i : Fin 3) : worth c feeds s i < 2 ^ 200 :=
  value_lt (Nat.lt_trans (h.position i) (by decide)) (h.price i)

theorem Bounded.equityAt_lt (h : Bounded c feeds s) : equityAt c feeds s < 2 ^ 202 := by
  have h0 := h.worth_lt 0
  have h1 := h.worth_lt 1
  have h2 := h.worth_lt 2
  have hcash := h.runtimeCash
  unfold equityAt
  omega

/-- What is asked of an order on either side. -/
structure Ordered (c : Config) (m : Msg) (action : Swap) (s : State) : Prop where
  opened : s.closed = false
  chain : m.chainId = testnetChainId
  sender : m.sender = s.grant.executor
  version : action.expectedVersion = s.stateVersion
  amount : action.amountIn ≠ 0
  time : m.timestamp ≤ action.deadline
  last : action.deadline ≤ lastMoment m.timestamp s

/-- Past the checks an order is its trade. -/
theorem execute_eq_trade {buy : Bool} (hid : Identity c) (ho : Ordered c m action s)
    (hfits : s.grant.expiresAt + s.grant.liquidationWindow ≤ maxUint256)
    (hin : action.tokenIn = inToken c buy i) (hout : action.tokenOut = outToken c buy i)
    (hbuy : buy = true → (s.liquidating = false ∧ m.timestamp < s.grant.expiresAt ∧
      s.grant.executor ≠ 0) ∧ riskReached c m feeds s = .ok false)
    (hfresh : Fresh c m feeds i) :
    execute c m feeds r action s = trade c m feeds r action buy i (feeds (c.feeds i)).price s := by
  have hside : decide (action.tokenIn = c.afUsdc) = buy := by
    rw [hin]
    cases buy with
    | false => exact decide_eq_false (hid.stockUsdc i)
    | true => exact decide_eq_true rfl
  have htraded : (if buy = true then action.tokenOut else action.tokenIn) = c.stocks i := by
    rw [hin, hout]
    cases buy <;> rfl
  have hroute : ¬ ((¬ buy = true ∧ action.tokenOut ≠ c.afUsdc) ∨
      action.tokenIn = action.tokenOut) := by
    rw [hin, hout]
    cases buy with
    | false => exact fun h => h.elim (fun hne => hne.2 rfl) (hid.stockUsdc i)
    | true => exact fun h => h.elim (fun hne => hne.1 rfl) (fun heq => hid.stockUsdc i heq.symm)
  have hauthority : validateAuthority c m action buy s = .ok () :=
    validateAuthority_of (fun hb => (hbuy hb).1) hfits (Nat.le_trans ho.time ho.last) ho.last
  have hhalted : (if buy = true then riskReached c m feeds s else .ok false) = .ok false := by
    split
    · next hb => exact (hbuy hb).2
    · rfl
  unfold execute active
  simp only [hside]
  rw [require_of ⟨ho.opened, ho.chain⟩, ok_bind, require_of (Or.inr ho.sender), ok_bind,
    require_of ⟨ho.version, ho.amount, ho.time⟩, ok_bind, htraded, stockIndex_of hid.stocks, ok_bind,
    require_of hroute, ok_bind, hauthority, ok_bind, price_of hfresh, ok_bind, hhalted, ok_bind]
  rfl

/-- A trade whose parts go through emits its fill. -/
theorem trade_of {buy : Bool} {quote : Nat} {k : Tokens} {t : State}
    (horder : validateOrder c m feeds action buy i quote s = .ok ())
    (hswap : swap c r action s = .ok (k, output))
    (hbook : (if buy then bookBuy c m r.feeds action.amountIn output i quote
        { s with tokens := k, balance := s.balance + r.value }
      else bookSell c action.amountIn output i
        { s with tokens := k, balance := s.balance + r.value }) = .ok t)
    (hversion : t.stateVersion = s.stateVersion) (hgrant : t.grantVersion = s.grantVersion)
    (hlog : t.log = s.log) (hfits : s.stateVersion + 1 ≤ maxUint256) :
    ∃ s', trade c m feeds r action buy i quote s = .ok s' ∧
      s'.log = s.log ++ [.swapExecuted (s.stateVersion + 1) s.grantVersion (c.stocks i) buy
        action.amountIn output] := by
  rw [← hversion] at hfits
  unfold trade
  rw [horder, ok_bind, hswap, ok_bind]
  dsimp only
  rw [hbook, ok_bind, checkedAdd_of hfits, ok_bind]
  refine ⟨_, rfl, ?_⟩
  simp only [State.emit, hversion, hgrant, hlog]

/-- The vault and its router are accounts, if the zero address has no code. -/
theorem constructor_addresses {mc : Msg} {x : View}
    {self lockerSelf owner strategyCreator : Address} {strategyId strategyRef : Bytes32}
    {pass usdc router : Address} {stocks feedAddresses : Fin 3 → Address} {maxPriceAge : Nat}
    {tokens : Tokens} {balance : Nat} (hcode : ¬ x.hasCode 0)
    (h : constructor mc x self lockerSelf owner strategyCreator strategyId strategyRef pass usdc
      router stocks feedAddresses maxPriceAge tokens balance = .ok (c, s)) :
    c.self ≠ 0 ∧ c.router ≠ 0 := by
  simp only [constructor, PassLocker.constructor, bind_eq_ok, require_eq_ok, nested_eq_ok,
    pure_eq_ok, Prod.mk.injEq] at h
  obtain ⟨_, hrouter, _, _, _, _, _, _, ⟨l, ls⟩, ⟨_, hself, rfl, rfl⟩, rfl, rfl⟩ := h
  refine ⟨hself.1, fun hzero => hcode ?_⟩
  have hzero' : router = 0 := hzero
  rw [← hzero']
  exact hrouter.2.2.2.2.2.2

section Execute

variable (hid : Identity c) (hself : c.self ≠ 0) (hrouter : c.router ≠ 0)
  (ho : Ordered c m action s) (hb : Bounded c feeds s) (hfresh : Fresh c m feeds i)
  (hreserved : Reserved c action s) (hfills : Fills c r action output s)
  (hmin : action.minAmountOut ≤ output) (hpositive : output ≠ 0)
  (hamountIn : action.amountIn < 2 ^ 128) (houtput : output < 2 ^ 128)

include hid hself hrouter ho hb hfresh hreserved hfills hmin hpositive hamountIn houtput

theorem execute_buys (hin : action.tokenIn = c.afUsdc) (hout : action.tokenOut = c.stocks i)
    (hexecutor : s.grant.executor ≠ 0) (hliquidating : s.liquidating = false)
    (hbefore : m.timestamp < s.grant.expiresAt) (hpriced : Priced c m feeds s)
    (hrisk : riskReached c m feeds s = .ok false) (hlimits : BuyLimits c feeds action i s)
    (hcount : s.openTrackedPositionCount ≤ 3)
    (hexposure : (s.trackedPosition (c.stocks i) + output) * (feeds (c.feeds i)).price / 10 ^ 18 * 3 ≤
      equityAt c feeds (bought c i action.amountIn output s)) (hfeeds : r.feeds = feeds) :
    ∃ s', execute c m feeds r action s = .ok s' ∧
      s'.log = s.log ++ [.swapExecuted (s.stateVersion + 1) s.grantVersion (c.stocks i) true
        action.amountIn output] := by
  have hmax : maxUint256 = 2 ^ 256 - 1 := rfl
  have hversion := hb.stateVersion
  have hexpires := hb.expiresAt
  have hwindow := hb.liquidationWindow
  have htotal := hb.totalBuyUsdc
  have hposition := hb.position i
  have hequity := hb.equityAt_lt
  have hvalue : (s.trackedPosition (c.stocks i) + output) * (feeds (c.feeds i)).price / 10 ^ 18 <
      2 ^ 200 := value_lt (by omega) (hb.price i)
  have hafter : equityAt c feeds (bought c i action.amountIn output s) ≤ maxUint256 := by
    have hexchanged : equityAt c feeds (bought c i action.amountIn output s) + action.amountIn +
        worth c feeds s i = equityAt c feeds s + (s.trackedPosition (c.stocks i) + output) *
          (feeds (c.feeds i)).price / 10 ^ 18 := equityAt_bought hid.stocks hlimits.cash
    omega
  have hreference : action.amountIn * 10 ^ 18 / (feeds (c.feeds i)).price ≤ maxUint256 := by
    refine Nat.le_trans (Nat.div_le_self _ _) ?_
    omega
  have horder : validateOrder c m feeds action true i (feeds (c.feeds i)).price s = .ok () :=
    validateOrder_buy hlimits hpriced hfresh (by omega) hreference (by omega)
  obtain ⟨k, hswap⟩ := swap_of hself hrouter hreserved hfills hmin hpositive
  have hbook : bookBuy c m r.feeds action.amountIn output i (feeds (c.feeds i)).price
      { s with tokens := k, balance := s.balance + r.value } =
        .ok (bought c i action.amountIn output
          { s with tokens := k, balance := s.balance + r.value }) := by
    rw [hfeeds]
    refine bookBuy_of hid.stocks hpriced hfresh hlimits.cash ?_ ?_ ?_ hafter hexposure
    · dsimp only
      omega
    · dsimp only
      omega
    · dsimp only
      omega
  have htrade : execute c m feeds r action s =
      trade c m feeds r action true i (feeds (c.feeds i)).price s :=
    execute_eq_trade hid ho (by omega) hin hout
      (fun _ => ⟨⟨hliquidating, hbefore, hexecutor⟩, hrisk⟩) hfresh
  rw [htrade]
  exact trade_of horder hswap hbook rfl rfl rfl (by omega)

theorem execute_sells (hin : action.tokenIn = c.stocks i) (hout : action.tokenOut = c.afUsdc)
    (hlimits : SellLimits c feeds action i s)
    (hcount : s.trackedPosition (c.stocks i) ≠ 0 → 1 ≤ s.openTrackedPositionCount) :
    ∃ s', execute c m feeds r action s = .ok s' ∧
      s'.log = s.log ++ [.swapExecuted (s.stateVersion + 1) s.grantVersion (c.stocks i) false
        action.amountIn output] := by
  have hmax : maxUint256 = 2 ^ 256 - 1 := rfl
  have hversion := hb.stateVersion
  have hexpires := hb.expiresAt
  have hwindow := hb.liquidationWindow
  have hcash := hb.runtimeCash
  have hvalue : action.amountIn * (feeds (c.feeds i)).price / 10 ^ 18 < 2 ^ 200 :=
    value_lt (by omega) (hb.price i)
  have horder : validateOrder c m feeds action false i (feeds (c.feeds i)).price s = .ok () :=
    validateOrder_sell hlimits (by omega)
  obtain ⟨k, hswap⟩ := swap_of hself hrouter hreserved hfills hmin hpositive
  have hopen : s.trackedPosition (c.stocks i) = action.amountIn → 1 ≤ s.openTrackedPositionCount :=
    fun hall => hcount (fun hzero => ho.amount (hall.symm.trans hzero))
  have hcashFits : s.runtimeCash + output ≤ maxUint256 := by omega
  obtain ⟨t, hbook, hsame, hgrant, hlog⟩ := bookSell_of (c := c) (i := i)
    (s := { s with tokens := k, balance := s.balance + r.value }) hcashFits hlimits.position hopen
  have htrade : execute c m feeds r action s =
      trade c m feeds r action false i (feeds (c.feeds i)).price s :=
    execute_eq_trade hid ho (by omega) hin hout (fun hb => nomatch hb) hfresh
  rw [htrade]
  exact trade_of horder hswap hbook hsame hgrant hlog (by omega)

end Execute

end TradingVault
end AlphaForge
