/-
Backing of the strategy vault over whole runs.
-/
import AlphaForge.Vault.Backing
import AlphaForge.Vault.StrategyVault

namespace AlphaForge
namespace StrategyVault

open Evm Machine

variable {c : Config} {s s' : State}

/-- What the constructor checked or set of the immutables. -/
structure Identity (c : Config) : Prop where
  base : Vault.Identity c.base
  venue : Venue c
  target : c.targetStock = c.base.afEth

theorem constructor_ok {m : Msg} {x : View} {self lockerSelf owner creator pass usdc targetStock
    otherStock : Address} {stockReserve : StockReserve.Config} {referenceFeed : ReferenceFeed.Config}
    {strategyRef : Bytes32} {maxPriceAge : Nat} {tokens : Tokens} {balance : Nat} {paused : Bool}
    {feed : ReferenceFeed.State}
    (h : constructor m x self lockerSelf owner creator pass usdc targetStock otherStock stockReserve
      referenceFeed strategyRef maxPriceAge tokens balance paused feed = .ok (c, s)) :
    Identity c ∧ (s.base.tokens.Quiet (own c) → Vault.Backed c.base s.base) ∧
      s.base.trackedUsdcBalance = 0 ∧ s.positionCostUsdc = 0 ∧ s.realizedTradingPnl = 0 := by
  unfold constructor at h
  split at h
  · cases h
  · simp only [bind_eq_ok, require_eq_ok, pure_eq_ok, Prod.mk.injEq] at h
    obtain ⟨⟨base, baseState⟩, hbase, _, _, _, ⟨husdc, hstock, _⟩, rfl, rfl⟩ := h
    obtain ⟨hid, hbacked, husdcIs, hethIs, htracked⟩ := Vault.constructor_ok hbase
    exact ⟨⟨hid, ⟨husdc.trans husdcIs.symm, hstock⟩, hethIs.symm⟩, hbacked, htracked, rfl, rfl⟩

/-- A trade keeps the books backed: it changes one position, the cash and the two
balances by the same amounts, and nothing of the escrow. -/
theorem Executed.backed {m : Msg} {buy : Bool}
    {input minOutput deadline expectedVersion output : Nat} (hid : Identity c)
    (h : Executed c m buy input minOutput deadline expectedVersion output s s')
    (hb : Vault.Backed c.base s.base) : Vault.Backed c.base s'.base := by
  have htarget := hid.target
  have hbooked := h.booked
  have hswap := h.swapped
  have hstock : c.targetStock ≠ c.base.afBtc := by rw [htarget]; exact hid.base.ethBtc
  have hcash : c.targetStock ≠ c.base.afUsdc := by rw [htarget]; exact hid.base.usdcEth.symm
  have hpass : c.base.pass ≠ inToken c buy ∧ c.base.pass ≠ outToken c buy := by
    have hstockPass : c.base.pass ≠ c.targetStock := by rw [htarget]; exact hid.base.passEth
    cases buy with
    | true => exact ⟨hid.base.passUsdc, hstockPass⟩
    | false => exact ⟨hstockPass, hid.base.passUsdc⟩
  have hother : c.base.afBtc ≠ inToken c buy ∧ c.base.afBtc ≠ outToken c buy := by
    cases buy with
    | true => exact ⟨hid.base.usdcBtc.symm, hstock.symm⟩
    | false => exact ⟨hstock.symm, hid.base.usdcBtc.symm⟩
  have hbtc : s'.base.trackedPosition c.base.afBtc = s.base.trackedPosition c.base.afBtc := by
    rw [hbooked.positions, Function.update_of_ne hstock.symm]
  have hbacked : s'.base.trackedUsdcBalance ≤ s'.base.tokens.balanceOf c.base.afUsdc c.base.self ∧
      s'.base.trackedPosition c.targetStock ≤
        s'.base.tokens.balanceOf c.targetStock c.base.self := by
    have hspent := hswap.spent
    have hreceived := hswap.received
    have husdc := hb.usdc
    have heth := hb.eth
    rw [← htarget] at heth
    have htrade := h.trade
    cases buy with
    | true =>
        simp only [inToken, outToken, if_true] at hspent hreceived htrade
        have htracked := htrade.tracked
        have hposition := htrade.position
        omega
    | false =>
        simp only [inToken, outToken, Bool.false_eq_true, if_false] at hspent hreceived htrade
        have htracked := htrade.tracked
        have hposition := htrade.position
        omega
  refine ⟨?_, ?_, hbacked.1, ?_, ?_, ?_, hswap.quiet hb.quiet, fun hc => ?_⟩
  · rw [hbooked.locker, hbooked.principal]
    exact hb.locked
  · rw [hbooked.locker, hswap.others _ hpass.1 hpass.2]
    exact hb.escrow
  · rw [← htarget]
    exact hbacked.2
  · rw [hbtc, hswap.others _ hother.1 hother.2]
    exact hb.btc
  · have hcount := hbooked.count
    have hbefore := hb.count
    rw [Vault.openPositions, ← htarget] at hbefore ⊢
    rw [hbtc]
    omega
  · rw [hbooked.closed, h.active] at hc
    cases hc

/-! ## One step and a whole run -/

theorem step_backed (hid : Identity c) (a : Action) (hb : Vault.Backed c.base s.base)
    (h : step c a s = .ok s') : Vault.Backed c.base s'.base := by
  cases step_accepted hid.venue h with
  | deposited hout hdep => exact hdep.backed hid.base hout hb
  | withdrawn _ hwith => exact hwith.backed hid.base hb
  | closing _ hclose => exact hclose.backed hb
  | rescued hrescue => exact hrescue.backed hb
  | configured _ _ => exact hb
  | revoked _ => exact hb
  | executed hexec => exact hexec.backed hid hb
  | outside hcalls => exact hb.outside hcalls
  | native _ =>
      exact ⟨hb.locked, hb.escrow, hb.usdc, hb.eth, hb.btc, hb.count, hb.quiet, hb.settled⟩
  | venue _ => exact hb

/-- In every reachable state the escrow holds exactly the principal's PASS, the
vault holds the cash and the stock it tracks, and the count is that of the open
positions. -/
theorem vault_backed_in_every_run {m : Msg} {x : View} {self lockerSelf owner creator pass usdc
    targetStock otherStock : Address} {stockReserve : StockReserve.Config}
    {referenceFeed : ReferenceFeed.Config} {strategyRef : Bytes32} {maxPriceAge : Nat}
    {tokens : Tokens} {balance : Nat} {paused : Bool} {feed : ReferenceFeed.State}
    (hnew : constructor m x self lockerSelf owner creator pass usdc targetStock otherStock
      stockReserve referenceFeed strategyRef maxPriceAge tokens balance paused feed = .ok (c, s))
    (hquiet : s.base.tokens.Quiet (own c)) (as : List Action) :
    (exec (step c) s as).base.locker.lockedBalance =
        (exec (step c) s as).base.principalBasis * 10 ^ 12 ∧
      (exec (step c) s as).base.locker.lockedBalance ≤
        (exec (step c) s as).base.tokens.balanceOf c.base.pass c.base.locker.self ∧
      (exec (step c) s as).base.trackedUsdcBalance ≤
        (exec (step c) s as).base.tokens.balanceOf c.base.afUsdc c.base.self ∧
      (exec (step c) s as).base.trackedPosition c.targetStock ≤
        (exec (step c) s as).base.tokens.balanceOf c.targetStock c.base.self ∧
      (exec (step c) s as).base.openTrackedPositionCount =
        ([c.base.afEth, c.base.afBtc].filter
          (fun token => (exec (step c) s as).base.trackedPosition token ≠ 0)).length := by
  obtain ⟨hid, hstart, _⟩ := constructor_ok hnew
  have hb : Vault.Backed c.base (exec (step c) s as).base :=
    exec_invariant (P := fun t => Vault.Backed c.base t.base)
      (fun a _ _ hb h => step_backed hid a hb h) (hstart hquiet) as
  refine ⟨hb.locked, hb.escrow, hb.usdc, ?_, ?_⟩
  · rw [hid.target]
    exact hb.eth
  · rw [hb.count, Vault.openPositions]
    by_cases heth : (exec (step c) s as).base.trackedPosition c.base.afEth = 0 <;>
      by_cases hbtc : (exec (step c) s as).base.trackedPosition c.base.afBtc = 0 <;>
        simp [heth, hbtc]

def exampleView : View :=
  { hasCode := fun a => a = 9 ∨ a = 10, router := fun _ => ⟨0, 0, 0⟩,
    decimals := fun a => if a = 6 then 6 else 18, strategyId := fun a => if a = 5 then some 1 else none,
    acceptsValue := fun _ => true }

/-- The owner at 3 has cash and PASS and has approved the vault at 1; the reserve
at 9 has cash and stock. -/
def exampleTokens : Tokens :=
  { balanceOf := fun token holder =>
      if (token = 5 ∧ holder = 3) ∨ ((token = 6 ∨ token = 7) ∧ (holder = 3 ∨ holder = 9))
      then 10 ^ 24 else 0
    allowance := fun token owner spender =>
      if (token = 5 ∨ token = 6) ∧ owner = 3 ∧ spender = 1 then 10 ^ 24 else 0
    totalSupply := fun _ => 10 ^ 25 }

/-- A quote of two dollars, seen in an open session. -/
def exampleFeed : ReferenceFeed.State := ⟨2 * 10 ^ 6, 100, 1, 50, 200, 100, 1⟩

def exampleMsg (sender : Address) (timestamp : Nat) : Msg := ⟨sender, 0, timestamp, testnetChainId⟩

/-- A deposit, a grant to the executor at 12, its buy, a donation and the owner's
sell of half the position. -/
def exampleRun : List Action :=
  [.deposit (exampleMsg 3 100) 1000,
    .configureExecutor (exampleMsg 3 101) ⟨12, 150, 500, 600, 100⟩,
    .execute (exampleMsg 12 102) true 400 (2 * 10 ^ 14) 120 1,
    .outside [.transfer 6 9 1 77],
    .execute (exampleMsg 3 103) false (10 ^ 14) 200 120 2]

theorem vault_backed_after_trades :
    ∃ c s, constructor (exampleMsg 3 99) exampleView 1 2 3 4 5 6 7 8 ⟨9, 13, 6, 7, 10, 60⟩ ⟨10, 11⟩ 1
        60 exampleTokens 0 false exampleFeed = .ok (c, s) ∧
      (history (step c) s exampleRun).length = 5 ∧
      (exec (step c) s exampleRun).base.trackedPosition 7 ≠ 0 ∧
      (exec (step c) s exampleRun).base.trackedUsdcBalance ≤
        (exec (step c) s exampleRun).base.tokens.balanceOf 6 1 := by
  have h : constructor (exampleMsg 3 99) exampleView 1 2 3 4 5 6 7 8 ⟨9, 13, 6, 7, 10, 60⟩ ⟨10, 11⟩ 1
      60 exampleTokens 0 false exampleFeed = .ok (_, _) := rfl
  refine ⟨_, _, h, by decide, by decide, (vault_backed_in_every_run h ?_ exampleRun).2.2.1⟩
  intro token account hown spender
  simp only [own, List.mem_cons, List.not_mem_nil, or_false] at hown
  rcases hown with rfl | rfl <;> simp [exampleTokens]

end StrategyVault
end AlphaForge
