/-
Conservation of the strategy vault's AF-USDC over whole runs.

Cash on the books plus the cost of the open position is what came in, less what
went out, plus what the trades realized.  A partial sell releases its share of
the cost rounded down; the residue stays with the position and leaves with the
last unit of it.
-/
import AlphaForge.Vault.StrategyVault.Backing

namespace AlphaForge
namespace StrategyVault

open Evm Machine

variable {c : Config} {s s' : State}

/-- The AF-USDC the vault holds. -/
def usdcHeld (c : Config) (s : State) : Int :=
  s.base.tokens.balanceOf c.base.afUsdc c.base.self

/-- The AF-USDC an accepted `deposit` brought in. -/
def depositedUsdc (c : Config) (t : Transition State Action) : Int :=
  match t.action with
  | .deposit _ _ => usdcHeld c t.post - usdcHeld c t.pre
  | _ => 0

/-- The AF-USDC an accepted `withdraw` or `close` paid out. -/
def paidUsdc (c : Config) (t : Transition State Action) : Int :=
  match t.action with
  | .withdraw _ _ | .close _ => usdcHeld c t.pre - usdcHeld c t.post
  | _ => 0

/-- Amounts that `int256` holds without wrapping. -/
structure Small (s : State) : Prop where
  tracked : s.base.trackedUsdcBalance < 2 ^ 255
  cost : s.positionCostUsdc < 2 ^ 255

instance (s : State) : Decidable (Small s) :=
  decidable_of_iff (s.base.trackedUsdcBalance < 2 ^ 255 ∧ s.positionCostUsdc < 2 ^ 255)
    ⟨fun h => ⟨h.1, h.2⟩, fun h => ⟨h.tracked, h.cost⟩⟩

/-- A position that is gone has no cost left. -/
def CostAttached (c : Config) (s : State) : Prop :=
  s.base.trackedPosition c.targetStock = 0 → s.positionCostUsdc = 0

/-- What is on the books without the realized result. -/
def bookedCapital (s : State) : Int :=
  s.base.trackedUsdcBalance + s.positionCostUsdc - s.realizedTradingPnl

theorem Executed.costAttached {m : Msg} {buy : Bool}
    {input minOutput deadline expectedVersion output : Nat}
    (h : Executed c m buy input minOutput deadline expectedVersion output s s') :
    CostAttached c s' := by
  intro hzero
  have htrade := h.trade
  cases buy with
  | true =>
      simp only [if_true] at htrade
      have hposition := htrade.position
      have hfilled := h.filled.1
      omega
  | false =>
      simp only [Bool.false_eq_true, if_false] at htrade
      have hposition := htrade.position
      have hcost := htrade.cost
      have hall : input = s.base.trackedPosition c.targetStock := by omega
      rw [exitedCost, if_pos hall] at hcost
      omega

/-- A trade moves capital between cash, cost and result and creates none. -/
theorem Executed.bookedCapital {m : Msg} {buy : Bool}
    {input minOutput deadline expectedVersion output : Nat}
    (h : Executed c m buy input minOutput deadline expectedVersion output s s')
    (hpre : Small s) (hpost : Small s') : bookedCapital s' = bookedCapital s := by
  have htrade := h.trade
  unfold StrategyVault.bookedCapital
  cases buy with
  | true =>
      simp only [if_true] at htrade
      have htracked := htrade.tracked
      have hcost := htrade.cost
      have hpnl := htrade.pnl
      omega
  | false =>
      simp only [Bool.false_eq_true, if_false] at htrade
      have htracked := htrade.tracked
      have hcost := htrade.cost
      have hpnl := htrade.pnl
      have hsmallCost := hpre.cost
      have hsmallTracked := hpost.tracked
      rw [toInt256_of_lt (by omega), toInt256_of_lt (by omega)] at hpnl
      omega

/-! ## One step and a whole run -/

theorem step_capital (hid : Identity c) {a : Action} (hpre : Small s) (hpost : Small s')
    (hc : CostAttached c s) (h : step c a s = .ok s') :
    CostAttached c s' ∧
      bookedCapital s' = bookedCapital s + (depositedUsdc c ⟨s, a, s'⟩ - paidUsdc c ⟨s, a, s'⟩) := by
  cases step_accepted hid.venue h with
  | deposited hout hdep =>
      obtain ⟨k, hk, hk'⟩ := hdep.moved
      have htracked := hdep.tracked
      have hheld := hk'.balance_token hid.base.passUsdc.symm c.base.self
      have hgain := hk.balance_dst
      refine ⟨fun hzero => hc (by rw [← hdep.same.positions]; exact hzero), ?_⟩
      simp only [depositedUsdc, paidUsdc, bookedCapital, usdcHeld]
      omega
  | withdrawn hout hwith =>
      obtain ⟨k, hk, hk'⟩ := hwith.moved
      rw [hid.base.lockerPass] at hk'
      have htracked := hwith.tracked
      have havailable := hwith.available
      have hheld := hk'.balance_token hid.base.passUsdc.symm c.base.self
      have hloss := hk.balance_src
      have hfunded := hk.funded
      refine ⟨fun hzero => hc (by rw [← hwith.same.positions]; exact hzero), ?_⟩
      simp only [depositedUsdc, paidUsdc, bookedCapital, usdcHeld]
      omega
  | closing hout hclose =>
      obtain ⟨k, hk, hk'⟩ := hclose.moved
      rw [hid.base.lockerPass] at hk'
      have htracked := hclose.tracked
      have hheld := hk'.balance_token hid.base.passUsdc.symm c.base.self
      have hloss := hk.balance_src
      have hfunded := hk.funded
      refine ⟨fun hzero => hc (by rw [← hclose.same.positions]; exact hzero), ?_⟩
      simp only [depositedUsdc, paidUsdc, bookedCapital, usdcHeld]
      omega
  | rescued hrescue =>
      have htracked := hrescue.tracked
      refine ⟨fun hzero => hc (by rw [← hrescue.same.positions]; exact hzero), ?_⟩
      simp only [depositedUsdc, paidUsdc, bookedCapital]
      omega
  | configured _ _ => exact ⟨hc, by simp [depositedUsdc, paidUsdc, bookedCapital]⟩
  | revoked _ => exact ⟨hc, by simp [depositedUsdc, paidUsdc, bookedCapital]⟩
  | executed hexec =>
      refine ⟨hexec.costAttached, ?_⟩
      rw [hexec.bookedCapital hpre hpost]
      simp [depositedUsdc, paidUsdc]
  | outside hcalls => exact ⟨hc, by simp [depositedUsdc, paidUsdc, bookedCapital]⟩
  | native ha =>
      refine ⟨hc, ?_⟩
      rcases ha with ⟨m, x, rfl⟩ | ⟨m, rfl⟩ <;> simp [depositedUsdc, paidUsdc, bookedCapital]
  | venue ha =>
      refine ⟨hc, ?_⟩
      rcases ha with ⟨m, _, _, _, rfl⟩ | ⟨m, _, _, _, _, rfl⟩ | ⟨m, _, rfl⟩ <;>
        simp [depositedUsdc, paidUsdc, bookedCapital]

/-- In every run whose amounts fit `int256`, the books account for every AF-USDC
deposited and paid out, and cost never outlives the position. -/
theorem usdc_conserved_in_every_run {m : Msg} {x : View} {self lockerSelf owner creator pass usdc
    targetStock otherStock : Address} {stockReserve : StockReserve.Config}
    {referenceFeed : ReferenceFeed.Config} {strategyRef : Bytes32} {maxPriceAge : Nat}
    {tokens : Tokens} {balance : Nat} {paused : Bool} {feed : ReferenceFeed.State}
    (hnew : constructor m x self lockerSelf owner creator pass usdc targetStock otherStock
      stockReserve referenceFeed strategyRef maxPriceAge tokens balance paused feed = .ok (c, s))
    (as : List Action) (hsmall : ∀ t ∈ history (step c) s as, Small t.pre ∧ Small t.post) :
    ((exec (step c) s as).base.trackedUsdcBalance : Int) + (exec (step c) s as).positionCostUsdc =
        ((history (step c) s as).map (depositedUsdc c)).sum -
          ((history (step c) s as).map (paidUsdc c)).sum +
          (exec (step c) s as).realizedTradingPnl ∧
      ((exec (step c) s as).base.trackedPosition c.targetStock = 0 →
        (exec (step c) s as).positionCostUsdc = 0) := by
  obtain ⟨hid, _, htracked, hcost, hpnl⟩ := constructor_ok hnew
  have hcapital : bookedCapital s = 0 := by
    rw [bookedCapital, htracked, hcost, hpnl]
    rfl
  have hrun := exec_sum (P := CostAttached c) (m := bookedCapital)
    (f := fun t => depositedUsdc c t - paidUsdc c t) (s := s)
    (fun t (ht : t ∈ history (step c) s as) hc =>
      step_capital hid (hsmall t ht).1 (hsmall t ht).2 hc (history_step ht)) (fun _ => hcost)
  refine ⟨?_, hrun.1⟩
  have hsum := hrun.2
  have hsplit : ((history (step c) s as).map (fun t => depositedUsdc c t - paidUsdc c t)).sum +
      ((history (step c) s as).map (paidUsdc c)).sum =
      ((history (step c) s as).map (depositedUsdc c)).sum := by
    rw [← List.sum_map_add]
    simp
  rw [hcapital] at hsum
  unfold bookedCapital at hsum
  omega

theorem usdc_conserved_after_trades :
    ∃ c s, constructor (exampleMsg 3 99) exampleView 1 2 3 4 5 6 7 8 ⟨9, 13, 6, 7, 10, 60⟩ ⟨10, 11⟩ 1
        60 exampleTokens 0 false exampleFeed = .ok (c, s) ∧
      (exec (step c) s exampleRun).positionCostUsdc = 200 ∧
      ((exec (step c) s exampleRun).base.trackedUsdcBalance : Int) +
          (exec (step c) s exampleRun).positionCostUsdc =
        ((history (step c) s exampleRun).map (depositedUsdc c)).sum -
          ((history (step c) s exampleRun).map (paidUsdc c)).sum +
          (exec (step c) s exampleRun).realizedTradingPnl := by
  have h : constructor (exampleMsg 3 99) exampleView 1 2 3 4 5 6 7 8 ⟨9, 13, 6, 7, 10, 60⟩ ⟨10, 11⟩ 1
      60 exampleTokens 0 false exampleFeed = .ok (_, _) := rfl
  refine ⟨_, _, h, by decide, (usdc_conserved_in_every_run h exampleRun ?_).1⟩
  decide

end StrategyVault
end AlphaForge
