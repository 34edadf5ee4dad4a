/-
Whether the runtime can be funded again.

Allocating divides by the equity of the runtime.  The guards of `deallocate` keep
units while a position is open, yet the cash may all go and a position may then be
worth less than one raw unit, so units can be left over an equity of zero.
-/
import AlphaForge.Vault.TradingVault.Capital

namespace AlphaForge
namespace TradingVault

open Evm Machine

variable {c : Config} {m : Msg} {feeds : Feeds} {s s' : State} {amount : Nat}

/-- Cash at work, or a position worth at least one raw unit. -/
def Solvent (c : Config) (feeds : Feeds) (s : State) : Prop :=
  s.runtimeCash ≠ 0 ∨ ∃ i, 10 ^ 18 ≤ s.trackedPosition (c.stocks i) * (feeds (c.feeds i)).price

theorem worth_pos_iff {i : Fin 3} : 0 < worth c feeds s i ↔
    10 ^ 18 ≤ s.trackedPosition (c.stocks i) * (feeds (c.feeds i)).price :=
  Nat.div_pos_iff.trans (and_iff_right (by decide))

theorem equityAt_pos_iff : 0 < equityAt c feeds s ↔ Solvent c feeds s := by
  unfold Solvent
  constructor
  · intro hpos
    by_contra hnone
    rw [not_or, not_not, not_exists] at hnone
    have hworth : ∀ i, worth c feeds s i = 0 := fun i =>
      Nat.eq_zero_of_not_pos fun h => hnone.2 i (worth_pos_iff.mp h)
    rw [equityAt, hnone.1, hworth 0, hworth 1, hworth 2] at hpos
    exact Nat.lt_irrefl 0 hpos
  · unfold equityAt
    rintro (hcash | ⟨i, hi⟩)
    · omega
    · have hworth := worth_pos_iff.mpr hi
      rcases stock_cases i with rfl | rfl | rfl <;> omega

/-- The equity can be computed, it is positive while units are outstanding, and every
amount in the idle bucket is converted into units without a failure. -/
def Fundable (c : Config) (m : Msg) (feeds : Feeds) (s : State) : Prop :=
  ∃ e, runtimeEquity c m feeds s = .ok e ∧ (0 < s.runtimeUnits → 0 < e ∧
    ∀ amount, 0 < amount → amount ≤ s.idleCash →
      ∃ units, (mulDiv amount s.runtimeUnits e : Result Error Nat) = .ok units)

/-- Nothing outstanding, or units over a runtime that is solvent, in figures that fit a
word. -/
def Backed (c : Config) (feeds : Feeds) (s : State) : Prop :=
  s.runtimeUnits = 0 ∨ (Solvent c feeds s ∧ equityAt c feeds s ≤ maxUint256 ∧
    s.idleCash * s.runtimeUnits / equityAt c feeds s ≤ maxUint256)

theorem Working.equityAt_empty (hw : Working c s) (hunits : s.runtimeUnits = 0) :
    equityAt c feeds s = 0 := by
  obtain ⟨hcash, hflat⟩ := hw.empty hunits
  simp only [equityAt, worth, hcash, hflat, Nat.zero_mul, Nat.zero_div]

theorem fundable_iff (hw : Working c s) (hpriced : Priced c m feeds s) :
    Fundable c m feeds s ↔ Backed c feeds s := by
  unfold Fundable Backed
  constructor
  · rintro ⟨e, he, hfund⟩
    obtain ⟨rfl, hfits⟩ := runtimeEquity_ok he
    rcases Nat.eq_zero_or_pos s.runtimeUnits with hnone | hunits
    · exact Or.inl hnone
    obtain ⟨hpos, hall⟩ := hfund hunits
    refine Or.inr ⟨equityAt_pos_iff.mp hpos, hfits, ?_⟩
    rcases Nat.eq_zero_or_pos s.idleCash with hidle | hidle
    · rw [hidle, Nat.zero_mul, Nat.zero_div]
      exact Nat.zero_le _
    · obtain ⟨units, hmade⟩ := hall _ hidle (Nat.le_refl _)
      exact (mulDiv_eq_ok.mp hmade).2.1
  · rintro (hnone | ⟨hsolvent, hfits, hidle⟩)
    · have hequity : equityAt c feeds s = 0 := hw.equityAt_empty hnone
      refine ⟨0, ?_, fun hunits => by omega⟩
      exact (runtimeEquity_eq_ok hpriced).mpr ⟨by rw [hequity]; exact Nat.zero_le _, hequity.symm⟩
    · have hpos := equityAt_pos_iff.mpr hsolvent
      refine ⟨_, runtimeEquity_of hpriced hfits, fun _ => ⟨hpos, fun amount _ hle => ?_⟩⟩
      have hquotient : amount * s.runtimeUnits / equityAt c feeds s ≤
          s.idleCash * s.runtimeUnits / equityAt c feeds s :=
        Nat.div_le_div_right (Nat.mul_le_mul_right _ hle)
      exact ⟨_, mulDiv_of (by omega) (Nat.le_trans hquotient hidle)⟩

/-- A call of the owner to a vault that takes allocations. -/
structure Allocating (c : Config) (m : Msg) (amount : Nat) (s : State) : Prop where
  owner : m.sender = c.owner
  active : s.closed = false ∧ m.chainId = testnetChainId
  amount : amount ≠ 0 ∧ amount ≤ s.idleCash ∧ s.liquidating = false

/-- With units over no equity, every allocation is a division by zero. -/
theorem allocate_insolvent (hpriced : Priced c m feeds s) (hunits : 0 < s.runtimeUnits)
    (hinsolvent : ¬ Solvent c feeds s) (ha : Allocating c m amount s) :
    allocate c m feeds amount s = .error divisionPanic := by
  have hequity : equityAt c feeds s = 0 :=
    Nat.eq_zero_of_not_pos (mt equityAt_pos_iff.mp hinsolvent)
  have hread : runtimeEquity c m feeds s = .ok 0 :=
    (runtimeEquity_eq_ok hpriced).mpr ⟨by rw [hequity]; exact Nat.zero_le _, hequity.symm⟩
  rw [allocate, onlyOwner, active, require_of ha.owner, ok_bind, require_of ha.active, ok_bind,
    require_of ha.amount, ok_bind, hread, ok_bind, if_neg (Nat.pos_iff_ne_zero.mp hunits), mulDiv,
    if_pos rfl]
  rfl

/-- With units over a positive equity, an amount that buys a unit is allocated. -/
theorem allocate_backed (hpriced : Priced c m feeds s) (hunits : 0 < s.runtimeUnits)
    (hbacked : Backed c feeds s) (ha : Allocating c m amount s)
    (hbuys : equityAt c feeds s ≤ amount * s.runtimeUnits)
    (hcash : s.runtimeCash + amount ≤ maxUint256)
    (hsupply : s.runtimeUnits + amount * s.runtimeUnits / equityAt c feeds s ≤ maxUint256)
    (hversion : s.stateVersion + 1 ≤ maxUint256) : ∃ s', allocate c m feeds amount s = .ok s' := by
  rcases hbacked with hnone | ⟨hsolvent, hfits, _⟩
  · omega
  have hpos := equityAt_pos_iff.mpr hsolvent
  have hmade : amount * s.runtimeUnits / equityAt c feeds s ≠ 0 :=
    Nat.pos_iff_ne_zero.mp (Nat.div_pos hbuys hpos)
  rw [allocate, onlyOwner, active, require_of ha.owner, ok_bind, require_of ha.active, ok_bind,
    require_of ha.amount, ok_bind, runtimeEquity_of hpriced hfits, ok_bind,
    if_neg (Nat.pos_iff_ne_zero.mp hunits),
    mulDiv_of (Nat.pos_iff_ne_zero.mp hpos) (Nat.le_trans (Nat.le_add_left _ _) hsupply), ok_bind,
    require_of hmade, ok_bind, checkedSub_of ha.amount.2.1, ok_bind, checkedAdd_of hcash, ok_bind,
    checkedAdd_of hsupply, ok_bind, checkedAdd_of hversion, ok_bind]
  exact ⟨_, rfl⟩

/-! ## Runs that leave cash at work -/

/-- Neither a deallocation with a position open nor a buy takes all the cash. -/
def Action.leavesCash (c : Config) (s : State) : Action → Prop
  | .deallocate _ _ amount => amount < s.runtimeCash ∨ s.openTrackedPositionCount = 0
  | .execute _ _ _ action => action.tokenIn = c.afUsdc → action.amountIn < s.runtimeCash
  | _ => True

/-- Taking all the cash of a runtime without positions burns every unit. -/
theorem Deallocated.empties {units : Nat} (h : Deallocated c m feeds amount units s s')
    (hflat : ∀ token, s.trackedPosition token = 0) (hall : amount = s.runtimeCash)
    (hcash : s.runtimeCash ≠ 0) : s'.runtimeUnits = 0 := by
  have hequity : equityAt c feeds s = amount := by
    simp only [equityAt, worth, hflat, Nat.zero_mul, Nat.zero_div, Nat.add_zero, hall]
  have hburned := h.burned
  rw [hequity, Nat.mul_comm units] at hburned
  have hle := Nat.le_of_mul_le_mul_left hburned (by omega)
  rw [h.supply]
  omega

theorem step_leavesCash (hw : Working c s) {a : Action}
    (ha : a.leavesCash c s) (hcash : s.runtimeUnits ≠ 0 → s.runtimeCash ≠ 0)
    (h : step c a s = .ok s') : s'.runtimeUnits ≠ 0 → s'.runtimeCash ≠ 0 := by
  have haccepted := step_accepted h
  cases haccepted with
  | deposited _ hdep =>
      obtain ⟨_, _, hs⟩ := hdep.state
      rw [hs]
      exact hcash
  | withdrawn hwith =>
      obtain ⟨_, _, hs⟩ := hwith.state
      rw [hs]
      exact hcash
  | allocated _ _ _ _ _ _ =>
      simp only [step, callFrom_eq_ok] at h
      obtain ⟨_, hmove⟩ := allocate_ok h.2.2
      have hadded := hmove.cash
      have hpositive := hmove.positive
      intro _
      omega
  | deallocated _ _ _ _ _ =>
      simp only [step, callFrom_eq_ok] at h
      obtain ⟨_, hmove⟩ := deallocate_ok h.2.2
      have hpositive := hmove.positive
      have havailable := hmove.available
      have htaken := hmove.cash
      intro hunits
      rcases ha with hless | hcount
      · omega
      · by_contra hnone
        exact hunits (hmove.empties (hw.flat hcount) (by omega) (by omega))
  | authorized _ _ _ => exact hcash
  | governed _ _ _ _ _ => exact hcash
  | cancelled _ _ _ _ _ => exact hcash
  | @traded _ _ _ action buy _ _ _ hbuy _ htrade =>
      have hside := htrade.side
      rw [htrade.booked.units]
      intro hunits
      have hbefore := hcash hunits
      cases buy with
      | true =>
          have hleft := ha (of_decide_eq_true hbuy.symm)
          rw [if_pos rfl] at hside
          have hspent := hside.cash
          omega
      | false =>
          rw [if_neg (by decide)] at hside
          have hgained := hside.cash
          omega
  | closing hclose =>
      obtain ⟨_, _, hs⟩ := hclose.state
      rw [hs]
      exact fun hunits => absurd rfl hunits
  | rescued hrescue =>
      obtain ⟨_, _, hs⟩ := hrescue.state
      rw [hs]
      exact hcash
  | native _ _ => exact hcash
  | outside _ => exact hcash

section Run

variable {mc : Msg} {x : View} {self lockerSelf owner strategyCreator : Address}
  {strategyId strategyRef : Bytes32} {pass usdc router : Address}
  {stocks feedAddresses : Fin 3 → Address} {maxPriceAge : Nat} {tokens : Tokens} {balance : Nat}

end Run

/-- One raw unit is bought for the smallest part of three, and the other two are taken
back. -/
def stripRun : List Action :=
  [.deposit (exampleMsg 3 100) 1000,
    .allocate (exampleMsg 3 100) exampleFeeds 3,
    .authorizeExecutor (exampleMsg 3 101) ⟨12, 150, 20, 500, 600, 100⟩,
    .execute (exampleMsg 12 102) exampleFeeds (exampleSwap 6 7 1 (5 * 10 ^ 11))
      ⟨6, 7, 1, 5 * 10 ^ 11, 120, 3⟩,
    .deallocate (exampleMsg 3 103) exampleFeeds 2]

/-- A dollar and ninety cents, seen at 110. -/
def lowFeeds : Feeds := fun _ => ⟨19 * 10 ^ 5, 110, 1⟩

end TradingVault
end AlphaForge
