/-
Trades of the owner that go through.

`execute` fails for many reasons, on two contracts.  The lemmas here go the other
way from those in `StrategyVault`: each states what a part of the call needs and
concludes that this part succeeds, and `execute_fills` puts them together.
-/
import AlphaForge.Vault.StrategyVault.Backing

namespace AlphaForge

open Evm

namespace Vault

variable {c : Config} {s : State}

theorem setTrackedPosition_of {token : Address} {amount : Nat} (hactive : s.closed = false)
    (htoken : token = c.afEth ∨ token = c.afBtc)
    (hheld : amount ≤ s.tokens.balanceOf token c.self)
    (hopens : s.openTrackedPositionCount + 1 ≤ maxUint256)
    (hcloses : s.trackedPosition token ≠ 0 → 1 ≤ s.openTrackedPositionCount) :
    ∃ s', setTrackedPosition c token amount s = .ok s' := by
  unfold setTrackedPosition whenActive
  rw [require_of hactive, ok_bind, require_of htoken, ok_bind]
  dsimp only
  by_cases hsame : s.trackedPosition token = amount
  · rw [if_pos hsame]
    exact ⟨s, rfl⟩
  · rw [if_neg hsame, require_of (Or.inr hheld), ok_bind]
    by_cases hnew : s.trackedPosition token = 0
    · rw [if_pos hnew, checkedAdd_of hopens]
      exact ⟨_, rfl⟩
    · rw [if_neg hnew]
      by_cases hgone : amount = 0
      · rw [if_pos hgone, checkedSub_of (hcloses hnew)]
        exact ⟨_, rfl⟩
      · rw [if_neg hgone]
        exact ⟨_, rfl⟩

/-- The counter is at most two, and counts a position that is open. -/
theorem Backed.count_le (h : Backed c s) : s.openTrackedPositionCount ≤ 2 := by
  rw [h.count, openPositions]
  split <;> split <;> omega

theorem Backed.one_le_count (h : Backed c s) (hopen : s.trackedPosition c.afEth ≠ 0) :
    1 ≤ s.openTrackedPositionCount := by
  rw [h.count, openPositions, if_neg hopen]
  omega

end Vault

namespace StrategyVault

open Vault (Error)

variable {c : Config} {m : Msg} {buy : Bool} {s : State}
  {input output minOutput deadline expectedVersion : Nat}

/-- The accounts a trade runs between. -/
structure Accounts (c : Config) : Prop where
  vault : c.base.self ≠ 0
  reserve : c.stockReserve.self ≠ 0
  apart : c.base.self ≠ c.stockReserve.self

/-- A new vault stands at an address that had no code, unlike its venue. -/
theorem constructor_accounts {x : View} {self lockerSelf owner creator pass usdc targetStock
    otherStock : Address} {stockReserve : StockReserve.Config} {referenceFeed : ReferenceFeed.Config}
    {strategyRef : Bytes32} {maxPriceAge : Nat} {tokens : Tokens} {balance : Nat} {paused : Bool}
    {feed : ReferenceFeed.State} (hzero : x.hasCode 0 = false) (hself : x.hasCode self = false)
    (h : constructor m x self lockerSelf owner creator pass usdc targetStock otherStock stockReserve
      referenceFeed strategyRef maxPriceAge tokens balance paused feed = .ok (c, s)) :
    Accounts c := by
  unfold constructor at h
  split at h
  · cases h
  · simp only [bind_eq_ok, require_eq_ok, pure_eq_ok, Prod.mk.injEq, Vault.constructor,
      PassLocker.constructor, nested_eq_ok] at h
    obtain ⟨⟨base, baseState⟩, ⟨_, _, _, _, _, _, _, _, _, _, _, _, ⟨l, ls⟩, ⟨_, hvault, rfl, rfl⟩,
      rfl, rfl⟩, _, ⟨_, _, _, hreserve, _, _⟩, _, _, rfl, rfl⟩ := h
    refine ⟨hvault.1, fun e => ?_, fun e => ?_⟩
    · have hcode : stockReserve.self = 0 := e
      rw [hcode, hzero] at hreserve
      cases hreserve
    · have hcode : self = stockReserve.self := e
      rw [← hcode, hself] at hreserve
      cases hreserve

/-- Books far from the end of the range of the types that hold them. -/
structure SmallBooks (c : Config) (s : State) : Prop where
  cash : s.base.trackedUsdcBalance < 2 ^ 128
  position : s.base.trackedPosition c.targetStock < 2 ^ 128
  total : s.totalBuyUsdc < 2 ^ 128
  cost : s.positionCostUsdc < 2 ^ 128
  pnl : s.realizedTradingPnl.natAbs < 2 ^ 128
  version : s.executionVersion < 2 ^ 128

/-- The same of the reserve's holdings, which bound what a trade can get. -/
structure Bounded (c : Config) (s : State) : Prop where
  books : SmallBooks c s
  reserveUsdc : s.base.tokens.balanceOf c.base.afUsdc c.stockReserve.self < 2 ^ 128
  reserveStock : s.base.tokens.balanceOf c.targetStock c.stockReserve.self < 2 ^ 128

theorem Bounded.reserve (h : Bounded c s) (buy : Bool) :
    s.base.tokens.balanceOf (outToken c buy) c.stockReserve.self < 2 ^ 128 := by
  cases buy with
  | true => exact h.reserveStock
  | false => exact h.reserveUsdc

/-- What the owner's order needs of the vault and the venue at the time of its
block. -/
structure Fills (c : Config) (m : Msg) (buy : Bool)
    (input minOutput deadline expectedVersion output : Nat) (s : State) : Prop where
  active : s.base.closed = false
  owner : m.sender = c.base.owner
  chain : m.chainId = testnetChainId
  inTime : m.timestamp ≤ deadline
  version : expectedVersion = s.executionVersion
  running : s.paused = false
  session : ReferenceFeed.executionAllowed m s.feed = true
  fresh : ReferenceFeed.Fresh m c.maxPriceAge s.feed
  age : c.stockReserve.maxPriceAge = c.maxPriceAge
  amount : input ≠ 0
  tracked : input ≤ if buy then s.base.trackedUsdcBalance else s.base.trackedPosition c.targetStock
  result : output = expectedOutput buy input s.feed.quote
  least : minOutput ≠ 0
  floor : output * 9500 / 10000 ≤ minOutput
  within : minOutput ≤ output
  reserve : output ≤ s.base.tokens.balanceOf (outToken c buy) c.stockReserve.self

theorem Fills.quote_ne (h : Fills c m buy input minOutput deadline expectedVersion output s) :
    s.feed.quote ≠ 0 := h.fresh.quoted

/-- Both contracts compute the same output. -/
theorem Fills.mulDiv {ε : Type}
    (h : Fills c m buy input minOutput deadline expectedVersion output s) (hb : Bounded c s) :
    (if buy then Evm.mulDiv input (10 ^ 18) s.feed.quote
      else Evm.mulDiv input s.feed.quote (10 ^ 18) : Result ε Nat) = .ok output := by
  have hmax : maxUint256 = 2 ^ 256 - 1 := rfl
  have hreserve := h.reserve
  have hlt := hb.reserve buy
  have hresult := h.result
  unfold expectedOutput at hresult
  cases buy with
  | true =>
      rw [if_pos rfl] at hresult ⊢
      rw [mulDiv_of h.quote_ne (by omega), hresult]
  | false =>
      rw [if_neg (by decide)] at hresult ⊢
      rw [mulDiv_of (by decide) (by omega), hresult]

theorem validateExecution_of
    (h : Fills c m buy input minOutput deadline expectedVersion output s) (hb : Bounded c s) :
    validateExecution c m buy input minOutput deadline expectedVersion s = .ok () := by
  have hmax : maxUint256 = 2 ^ 256 - 1 := rfl
  have hreserve := h.reserve
  have hlt := hb.reserve buy
  have hdirect : (decide (m.sender = c.base.owner)) = true := decide_eq_true h.owner
  have hfloor : Evm.mulDiv output (10000 - 500) 10000 = (.ok (output * 9500 / 10000) :
      Result Error Nat) :=
    mulDiv_of (by decide) (by omega)
  have houtput := h.mulDiv (ε := Vault.Error) hb
  unfold validateExecution stockPrice
  rw [require_of ⟨h.chain, h.amount, h.inTime, h.version⟩, ok_bind]
  dsimp only
  rw [hdirect, require_of (Or.inl rfl), ok_bind, ReferenceFeed.fresh_of h.fresh, ok_bind]
  have htracked := h.tracked
  cases buy with
  | true =>
      rw [if_pos rfl] at houtput htracked
      simp only [if_true, ok_bind, houtput, checkedSub_of (show 500 ≤ 10000 by decide), hfloor,
        require_of (And.intro h.least h.floor), executorLimit, require_of htracked]
  | false =>
      rw [if_neg (by decide)] at houtput htracked
      simp only [Bool.false_eq_true, if_false, if_true, ok_bind, houtput,
        checkedSub_of (show 500 ≤ 10000 by decide), hfloor,
        require_of (And.intro h.least h.floor), executorLimit, require_of htracked]

/-- The vault's own view of the venue: it approves the input, and gets the output
for exactly that. -/
theorem swap_through (hid : Identity c) (haccounts : Accounts c)
    (hcall : m.chainId = testnetChainId ∧ input ≠ 0 ∧ m.timestamp ≤ deadline)
    (hopen : s.paused = false ∧ ReferenceFeed.executionAllowed m s.feed = true)
    (hfresh : ReferenceFeed.Fresh m c.stockReserve.maxPriceAge s.feed)
    (houtput : (if buy then mulDiv input (10 ^ 18) s.feed.quote
      else mulDiv input s.feed.quote (10 ^ 18) : Result Error Nat) = .ok output)
    (hmin : output ≠ 0 ∧ minOutput ≤ output)
    (hreserve : output ≤ s.base.tokens.balanceOf (outToken c buy) c.stockReserve.self)
    (hfunded : input ≤ s.base.tokens.balanceOf (inToken c buy) c.base.self) :
    ∃ k, swap c m buy input minOutput deadline s = .ok (k, output) := by
  have hstock : c.targetStock ≠ c.base.afUsdc := by
    rw [hid.target]
    exact hid.base.usdcEth.symm
  let approved := s.base.tokens.setAllowance (inToken c buy) c.base.self c.stockReserve.self input
  obtain ⟨k, hswap⟩ : ∃ k, (StockReserve.swap c.stockReserve
      { m with sender := c.base.self, value := 0 } s.paused s.feed buy input minOutput deadline
      approved : Result Error (Tokens × Nat)) = .ok (k, output) := by
    refine StockReserve.swap_of haccounts.reserve haccounts.vault haccounts.apart ?_
      hcall hopen ?_ houtput hmin ?_ ?_ ?_
    · rw [hid.venue.usdc, hid.venue.stock]
      exact hstock.symm
    · exact ReferenceFeed.fresh_of ⟨hfresh.quoted, hfresh.sourced, hfresh.seen, hfresh.young⟩
    · rw [hid.venue.usdc, hid.venue.stock]
      exact hreserve
    · rw [hid.venue.usdc, hid.venue.stock, Tokens.allowance_setAllowance]
      exact (if_pos ⟨rfl, rfl, rfl⟩ : _ = input).ge
    · rw [hid.venue.usdc, hid.venue.stock]
      exact hfunded
  obtain ⟨_, _, k₁, hin, hout⟩ := StockReserve.swap_ok hswap
  have hapart : inToken c buy ≠ outToken c buy := by
    cases buy with
    | true => exact hstock.symm
    | false => exact hstock
  rw [hid.venue.usdc, hid.venue.stock] at hin hout
  change approved.Moved k₁ (inToken c buy) c.base.self c.stockReserve.self input at hin
  change k₁.Moved k (outToken c buy) c.stockReserve.self c.base.self output at hout
  have hspent : k.balanceOf (inToken c buy) c.base.self =
      s.base.tokens.balanceOf (inToken c buy) c.base.self - input := by
    rw [hout.balance_token hapart, hin.balances]
    exact Tokens.balanceOf_move_src haccounts.apart
  have hreceived : k.balanceOf (outToken c buy) c.base.self =
      s.base.tokens.balanceOf (outToken c buy) c.base.self + output := by
    rw [hout.balances]
    refine (Tokens.balanceOf_move_dst haccounts.apart.symm).trans ?_
    rw [hin.balance_token hapart.symm]
    rfl
  unfold swap
  dsimp only
  rw [Tokens.approve_of haccounts.vault haccounts.reserve, ok_bind]
  refine ⟨k.setAllowance (inToken c buy) c.base.self c.stockReserve.self 0, ?_⟩
  show ((StockReserve.swap c.stockReserve _ s.paused s.feed buy input minOutput deadline approved :
    Result Error (Tokens × Nat)) >>= _) = _
  rw [hswap, ok_bind]
  dsimp only
  rw [Tokens.approve_of haccounts.vault haccounts.reserve, ok_bind, Tokens.balanceOf_setAllowance,
    require_of, ok_bind, checkedSub_of, ok_bind, require_of]
  · rfl
  · show k.balanceOf (outToken c buy) c.base.self -
      s.base.tokens.balanceOf (outToken c buy) c.base.self = output
    omega
  · show s.base.tokens.balanceOf (outToken c buy) c.base.self ≤
      k.balanceOf (outToken c buy) c.base.self
    omega
  · show k.balanceOf (inToken c buy) c.base.self ≤
        s.base.tokens.balanceOf (inToken c buy) c.base.self ∧
      s.base.tokens.balanceOf (inToken c buy) c.base.self -
        k.balanceOf (inToken c buy) c.base.self = input
    omega

theorem swap_of (hid : Identity c) (haccounts : Accounts c)
    (h : Fills c m buy input minOutput deadline expectedVersion output s) (hb : Bounded c s)
    (hbacked : Vault.Backed c.base s.base) (hpositive : output ≠ 0) :
    ∃ k, swap c m buy input minOutput deadline s = .ok (k, output) := by
  have hfunded : input ≤ s.base.tokens.balanceOf (inToken c buy) c.base.self := by
    have htracked := h.tracked
    have husdc := hbacked.usdc
    have heth := hbacked.eth
    rw [← hid.target] at heth
    cases buy with
    | true =>
        rw [if_pos rfl] at htracked
        exact htracked.trans husdc
    | false =>
        rw [if_neg (by decide)] at htracked
        exact htracked.trans heth
  have hfresh : ReferenceFeed.Fresh m c.stockReserve.maxPriceAge s.feed := by
    rw [h.age]
    exact h.fresh
  exact swap_through hid haccounts ⟨h.chain, h.amount, h.inTime⟩ ⟨h.running, h.session⟩ hfresh
    (h.mulDiv hb) ⟨hpositive, h.within⟩ h.reserve hfunded

theorem bookBuy_of (hid : Identity c) (hb : SmallBooks c s) (hactive : s.base.closed = false)
    (hinput : input ≤ s.base.trackedUsdcBalance) (houtput : output < 2 ^ 128)
    (hheld : s.base.trackedPosition c.targetStock + output ≤
      s.base.tokens.balanceOf c.targetStock c.base.self)
    (hcount : s.base.openTrackedPositionCount ≤ 2)
    (hopen : s.base.trackedPosition c.base.afEth ≠ 0 → 1 ≤ s.base.openTrackedPositionCount) :
    ∃ s', bookBuy c input output s = .ok s' := by
  have hmax : maxUint256 = 2 ^ 256 - 1 := rfl
  have hcash := hb.cash
  have htotal := hb.total
  have hcost := hb.cost
  have hposition := hb.position
  obtain ⟨base, hbase⟩ : ∃ base, Vault.setTrackedPosition c.base c.targetStock
      (s.base.trackedPosition c.targetStock + output)
      { s.base with trackedUsdcBalance := s.base.trackedUsdcBalance - input } = .ok base :=
    Vault.setTrackedPosition_of hactive (Or.inl hid.target) hheld (by dsimp only; omega)
      (by rw [hid.target]; exact hopen)
  unfold bookBuy
  dsimp only
  rw [checkedSub_of hinput, ok_bind, checkedAdd_of (by omega), ok_bind, checkedAdd_of (by omega),
    ok_bind, checkedAdd_of (by omega), ok_bind, hbase]
  exact ⟨_, rfl⟩

theorem natAbs_sub_le_add (a b : Nat) : ((a : Int) - b).natAbs ≤ a + b := by
  omega

/-- A sell releases at most the whole cost. -/
theorem exitedCost_of (hinput : input ≤ s.base.trackedPosition c.targetStock)
    (hcost : s.positionCostUsdc ≤ maxUint256) :
    (if input = s.base.trackedPosition c.targetStock then .ok s.positionCostUsdc
      else mulDiv s.positionCostUsdc input (s.base.trackedPosition c.targetStock) :
        Result Error Nat) = .ok (exitedCost c input s) ∧ exitedCost c input s ≤ s.positionCostUsdc := by
  unfold exitedCost
  split
  · exact ⟨rfl, Nat.le_refl _⟩
  · have hle : s.positionCostUsdc * input / s.base.trackedPosition c.targetStock ≤
        s.positionCostUsdc :=
      Nat.div_le_of_le_mul (by rw [Nat.mul_comm]; exact Nat.mul_le_mul_right _ hinput)
    exact ⟨mulDiv_of (by omega) (by omega), hle⟩

theorem bookSell_of (hid : Identity c) (hb : SmallBooks c s) (hactive : s.base.closed = false)
    (hinput : input ≤ s.base.trackedPosition c.targetStock)
    (houtput : output < 2 ^ 128)
    (hheld : s.base.trackedPosition c.targetStock - input ≤
      s.base.tokens.balanceOf c.targetStock c.base.self)
    (hcount : s.base.openTrackedPositionCount ≤ 2)
    (hopen : s.base.trackedPosition c.base.afEth ≠ 0 → 1 ≤ s.base.openTrackedPositionCount) :
    ∃ s', bookSell c input output s = .ok s' := by
  have hmax : maxUint256 = 2 ^ 256 - 1 := rfl
  have hcash := hb.cash
  have hcost := hb.cost
  have hcashFits : s.base.trackedUsdcBalance + output ≤ maxUint256 := by omega
  obtain ⟨hexited, hle⟩ := exitedCost_of hinput (by omega)
  have hgain : toInt256 output - toInt256 (exitedCost c input s) =
      (output : Int) - exitedCost c input s := by
    rw [toInt256_of_lt (by omega), toInt256_of_lt (by omega)]
  obtain ⟨base, hbase⟩ : ∃ base, Vault.setTrackedPosition c.base c.targetStock
      (s.base.trackedPosition c.targetStock - input)
      { s.base with trackedUsdcBalance := s.base.trackedUsdcBalance + output } = .ok base :=
    Vault.setTrackedPosition_of hactive (Or.inl hid.target) hheld (by dsimp only; omega)
      (by rw [hid.target]; exact hopen)
  have hsize : ((output : Int) - exitedCost c input s).natAbs < 2 ^ 128 + 2 ^ 128 :=
    (natAbs_sub_le_add output (exitedCost c input s)).trans_lt
      (Nat.add_lt_add houtput (hle.trans_lt hcost))
  have hsum : (s.realizedTradingPnl + ((output : Int) - exitedCost c input s)).natAbs <
      2 ^ 128 + (2 ^ 128 + 2 ^ 128) :=
    (Int.natAbs_add_le _ _).trans_lt (Nat.add_lt_add hb.pnl hsize)
  unfold bookSell
  dsimp only
  rw [hexited, ok_bind, checkedSub_of hle, ok_bind, hgain,
    checkedInt_of (hsize.trans (by decide)), ok_bind, checkedInt_of (hsum.trans (by decide)),
    ok_bind, checkedAdd_of hcashFits, ok_bind, checkedSub_of hinput, ok_bind, hbase]
  exact ⟨_, rfl⟩

/-- The owner's order goes through and gets the output. -/
theorem execute_fills (hid : Identity c) (haccounts : Accounts c)
    (h : Fills c m buy input minOutput deadline expectedVersion output s) (hb : Bounded c s)
    (hbacked : Vault.Backed c.base s.base) :
    ∃ s', execute c m buy input minOutput deadline expectedVersion s = .ok (s', output) := by
  have hmax : maxUint256 = 2 ^ 256 - 1 := rfl
  have hpositive : output ≠ 0 := by
    have hleast := h.least
    have hwithin := h.within
    omega
  obtain ⟨k, hswap⟩ := swap_of hid haccounts h hb hbacked hpositive
  obtain ⟨_, _, hswapped⟩ := swap_ok hid.venue hswap
  have houtput : output < 2 ^ 128 := h.reserve.trans_lt (hb.reserve _)
  have hcount := hbacked.count_le
  have hopen := hbacked.one_le_count
  have heth := hbacked.eth
  rw [← hid.target] at heth
  have htracked := h.tracked
  have hbook : ∃ t, (if buy then bookBuy c input output { s with base := { s.base with tokens := k } }
      else bookSell c input output { s with base := { s.base with tokens := k } }) = .ok t ∧
      t.executionVersion = s.executionVersion := by
    have hspent := hswapped.spent
    have hreceived := hswapped.received
    have hsmall : SmallBooks c { s with base := { s.base with tokens := k } } :=
      ⟨hb.books.cash, hb.books.position, hb.books.total, hb.books.cost, hb.books.pnl,
        hb.books.version⟩
    cases buy with
    | true =>
        simp only [inToken, outToken, if_true] at hspent hreceived htracked ⊢
        obtain ⟨t, ht⟩ : ∃ t, bookBuy c input output { s with base := { s.base with tokens := k } } =
            .ok t :=
          bookBuy_of hid hsmall h.active htracked houtput (by dsimp only; omega) hcount hopen
        exact ⟨t, ht, (bookBuy_ok ht).2.2.2⟩
    | false =>
        simp only [inToken, outToken, Bool.false_eq_true, if_false] at hspent hreceived htracked ⊢
        obtain ⟨t, ht⟩ : ∃ t, bookSell c input output { s with base := { s.base with tokens := k } } =
            .ok t :=
          bookSell_of hid hsmall h.active htracked houtput (by dsimp only; omega) hcount hopen
        exact ⟨t, ht, (bookSell_ok ht).2.2.2⟩
  obtain ⟨t, ht, hversion⟩ := hbook
  have hfits := hb.books.version
  unfold execute Vault.whenActive
  rw [require_of h.active, ok_bind, validateExecution_of h hb, ok_bind, hswap, ok_bind]
  dsimp only
  rw [ht, ok_bind, checkedAdd_of (by omega), ok_bind]
  exact ⟨_, rfl⟩

end StrategyVault
end AlphaForge
