/-
The trading vault's books over whole runs.

`Working` is what the figures say of one another, and no balance enters it.
`Funded` is what stands behind them.  The router is free to do what it likes with
the tokens in between, so a trade keeps `Funded` only through the differences the
vault measures.
-/
import AlphaForge.Vault.TradingVault
import Mathlib.Algebra.BigOperators.Fin
import Mathlib.Data.Set.Card

namespace AlphaForge
namespace TradingVault

open Evm Machine

variable {c : Config} {s s' : State}

/-- What the constructor checked or set of the immutables. -/
structure Identity (c : Config) : Prop where
  passUsdc : c.pass ≠ c.afUsdc
  stockPass : ∀ i, c.stocks i ≠ c.pass
  stockUsdc : ∀ i, c.stocks i ≠ c.afUsdc
  stocks : Function.Injective c.stocks
  lockerPass : c.locker.pass = c.pass

/-- The number of stocks held. -/
def openPositions (c : Config) (s : State) : Nat :=
  ∑ i : Fin 3, if s.trackedPosition (c.stocks i) = 0 then 0 else 1

structure Working (c : Config) (s : State) : Prop where
  listed : ∀ token, (∀ i, token ≠ c.stocks i) → s.trackedPosition token = 0
  count : s.openTrackedPositionCount = openPositions c s
  empty : s.runtimeUnits = 0 → s.runtimeCash = 0 ∧ ∀ token, s.trackedPosition token = 0

structure Funded (c : Config) (s : State) : Prop where
  locked : s.locker.lockedBalance = s.principalBasis * 10 ^ 12
  escrow : s.locker.lockedBalance ≤ s.tokens.balanceOf c.pass c.locker.self
  cash : s.idleCash + s.runtimeCash ≤ s.tokens.balanceOf c.afUsdc c.self
  positions : ∀ token, s.trackedPosition token ≤ s.tokens.balanceOf token c.self
  quiet : s.tokens.Quiet (own c)
  settled : s.closed = true → s.principalBasis = 0 ∧ s.idleCash = 0 ∧ s.runtimeUnits = 0

/-! ## Counting positions -/

/-- The count names exactly the tokens with a position. -/
theorem openPositions_eq_ncard (hid : Identity c)
    (hlisted : ∀ token, (∀ i, token ≠ c.stocks i) → s.trackedPosition token = 0) :
    openPositions c s = Set.ncard {token | s.trackedPosition token ≠ 0} := by
  have himage : {token | s.trackedPosition token ≠ 0} =
      ((Finset.univ.filter (fun i => s.trackedPosition (c.stocks i) ≠ 0)).image c.stocks :
        Set Address) := by
    ext token
    simp only [Set.mem_ofPred_eq, Finset.coe_image, Finset.coe_filter, Finset.mem_univ, true_and,
      Set.mem_image]
    constructor
    · intro hne
      by_contra hnone
      refine hne (hlisted token fun i hi => hnone ⟨i, ?_, hi.symm⟩)
      rw [← hi]
      exact hne
    · rintro ⟨i, hne, rfl⟩
      exact hne
  rw [himage, Set.ncard_coe_finset, Finset.card_image_of_injective _ hid.stocks, Finset.card_filter,
    openPositions]
  refine Finset.sum_congr rfl fun i _ => ?_
  by_cases hzero : s.trackedPosition (c.stocks i) = 0
  · rw [if_pos hzero, if_neg (not_not.mpr hzero)]
  · rw [if_neg hzero, if_pos hzero]

theorem Working.flat (hw : Working c s) (hcount : s.openTrackedPositionCount = 0)
    (token : Address) : s.trackedPosition token = 0 := by
  by_cases hstock : ∃ i, token = c.stocks i
  · obtain ⟨i, rfl⟩ := hstock
    have hsum := hw.count
    rw [hcount, openPositions] at hsum
    have hterm := Finset.sum_eq_zero_iff.mp hsum.symm i (Finset.mem_univ i)
    by_contra hne
    rw [if_neg hne] at hterm
    cases hterm
  · exact hw.listed token fun i hi => hstock ⟨i, hi⟩

/-- One position changes: the count moves with whether it is open. -/
theorem Booked.openPositions {i : Fin 3} (hid : Identity c) (h : Booked c i s s') :
    openPositions c s' + (if s.trackedPosition (c.stocks i) = 0 then 0 else 1) =
      openPositions c s + (if s'.trackedPosition (c.stocks i) = 0 then 0 else 1) := by
  have hrest : ∑ j ∈ Finset.univ.erase i, (if s'.trackedPosition (c.stocks j) = 0 then 0 else 1) =
      ∑ j ∈ Finset.univ.erase i, (if s.trackedPosition (c.stocks j) = 0 then 0 else 1) := by
    refine Finset.sum_congr rfl fun j hj => ?_
    have hne : c.stocks j ≠ c.stocks i := fun e => (Finset.mem_erase.mp hj).1 (hid.stocks e)
    rw [h.positions, Function.update_of_ne hne]
  rw [TradingVault.openPositions, TradingVault.openPositions,
    ← Finset.add_sum_erase _ _ (Finset.mem_univ i),
    ← Finset.add_sum_erase _ _ (Finset.mem_univ i), hrest]
  omega

theorem Traded.working {m : Msg} {r : RouterCall} {buy : Bool} {i : Fin 3} {amountIn output : Nat}
    (h : Traded c m r buy i amountIn output s s') (hid : Identity c) (hw : Working c s) :
    Working c s' := by
  have hbooked := h.booked
  refine ⟨fun token hother => ?_, ?_, fun hunits => ?_⟩
  · rw [hbooked.positions, Function.update_of_ne (hother i)]
    exact hw.listed token hother
  · have hcount := hbooked.count
    have hopen := hbooked.openPositions hid
    have hbefore := hw.count
    omega
  · -- with nothing at work there is neither cash to buy with nor stock to sell
    rw [hbooked.units] at hunits
    obtain ⟨hcash, hflat⟩ := hw.empty hunits
    have hamount := h.amount
    have hstock := hflat (c.stocks i)
    have hside := h.side
    cases buy with
    | true =>
        rw [if_pos rfl] at hside
        have hspent := hside.cash
        omega
    | false =>
        rw [if_neg (by decide)] at hside
        have hsold := hside.position
        omega

/-- The figures agree after every accepted step. -/
theorem step_working (hid : Identity c) (a : Action) (hw : Working c s)
    (h : step c a s = .ok s') : Working c s' := by
  cases step_accepted h with
  | deposited _ hdep =>
      obtain ⟨_, _, hs⟩ := hdep.state
      rw [hs]
      exact ⟨hw.listed, hw.count, hw.empty⟩
  | withdrawn hwith =>
      obtain ⟨_, _, hs⟩ := hwith.state
      rw [hs]
      exact ⟨hw.listed, hw.count, hw.empty⟩
  | allocated _ _ _ _ hunits _ =>
      refine ⟨hw.listed, hw.count, fun hzero => ?_⟩
      exact absurd (Nat.eq_zero_of_add_eq_zero_left hzero) hunits
  | deallocated _ _ hle hall _ =>
      refine ⟨hw.listed, hw.count, fun hzero => ?_⟩
      obtain ⟨hcount, hamount⟩ := hall (Nat.le_antisymm hle (Nat.sub_eq_zero_iff_le.mp hzero))
      refine ⟨?_, hw.flat hcount⟩
      show s.runtimeCash - _ = 0
      rw [hamount]
      exact Nat.sub_self _
  | authorized _ _ _ => exact ⟨hw.listed, hw.count, hw.empty⟩
  | governed _ _ _ _ _ => exact ⟨hw.listed, hw.count, hw.empty⟩
  | cancelled _ _ _ _ _ => exact ⟨hw.listed, hw.count, hw.empty⟩
  | traded _ _ htrade => exact htrade.working hid hw
  | closing hclose =>
      obtain ⟨_, _, hs⟩ := hclose.state
      rw [hs]
      exact ⟨hw.listed, hw.count, fun _ => ⟨rfl, hw.flat hclose.count⟩⟩
  | rescued hrescue =>
      obtain ⟨_, _, hs⟩ := hrescue.state
      rw [hs]
      exact ⟨hw.listed, hw.count, hw.empty⟩
  | native _ _ => exact ⟨hw.listed, hw.count, hw.empty⟩
  | outside _ => exact ⟨hw.listed, hw.count, hw.empty⟩

/-- Figures that fit a machine word. -/
structure Sized (s : State) : Prop where
  cash : s.runtimeCash ≤ maxUint256
  positions : ∀ token, s.trackedPosition token ≤ maxUint256

theorem Traded.sized {m : Msg} {r : RouterCall} {buy : Bool} {i : Fin 3}
    {amountIn output : Nat} (h : Traded c m r buy i amountIn output s s')
    (hs : Sized s) : Sized s' := by
  have hside := h.side
  have hcash := hs.cash
  have hposition := hs.positions (c.stocks i)
  have hmoved : s'.runtimeCash ≤ maxUint256 ∧ s'.trackedPosition (c.stocks i) ≤ maxUint256 := by
    cases buy with
    | true =>
        rw [if_pos rfl] at hside
        have hfits := hside.fits
        have hspent := hside.cash
        have hbought := hside.position
        omega
    | false =>
        rw [if_neg (by decide)] at hside
        have hfits := hside.fits
        have hgot := hside.cash
        have hsold := hside.position
        omega
  refine ⟨hmoved.1, fun token => ?_⟩
  rw [h.booked.positions]
  by_cases htoken : token = c.stocks i
  · rw [htoken, Function.update_self]
    exact hmoved.2
  · rw [Function.update_of_ne htoken]
    exact hs.positions token

theorem step_sized {a : Action} (hs : Sized s) (h : step c a s = .ok s') : Sized s' := by
  cases step_accepted h with
  | deposited _ hdep =>
      obtain ⟨_, _, hstate⟩ := hdep.state
      rw [hstate]
      exact ⟨hs.cash, hs.positions⟩
  | withdrawn hwith =>
      obtain ⟨_, _, hstate⟩ := hwith.state
      rw [hstate]
      exact ⟨hs.cash, hs.positions⟩
  | allocated _ _ hfits _ _ _ => exact ⟨hfits, hs.positions⟩
  | deallocated _ _ _ _ _ => exact ⟨Nat.le_trans (Nat.sub_le _ _) hs.cash, hs.positions⟩
  | traded _ _ htrade => exact htrade.sized hs
  | closing hclose =>
      obtain ⟨_, _, hstate⟩ := hclose.state
      rw [hstate]
      exact ⟨Nat.zero_le _, hs.positions⟩
  | rescued hrescue =>
      obtain ⟨_, _, hstate⟩ := hrescue.state
      rw [hstate]
      exact ⟨hs.cash, hs.positions⟩
  | _ => exact ⟨hs.cash, hs.positions⟩

/-! ## What stands behind the books -/

theorem Funded.outside (hf : Funded c s) {k : Tokens} (hk : Tokens.OutsideStep (own c) s.tokens k) :
    Funded c { s with tokens := k } := by
  have hself : c.self ∈ own c := by simp [own]
  have hlocker : c.locker.self ∈ own c := by simp [own]
  have hgrow : ∀ t, s.tokens.balanceOf t c.self ≤ k.balanceOf t c.self :=
    fun t => hk.balance_le t c.self hself (hf.quiet t c.self hself)
  have hescrow := hk.balance_le c.pass c.locker.self hlocker (hf.quiet c.pass _ hlocker)
  exact ⟨hf.locked, Nat.le_trans hf.escrow hescrow, Nat.le_trans hf.cash (hgrow _),
    fun t => Nat.le_trans (hf.positions t) (hgrow t), hk.quiet hf.quiet, hf.settled⟩

theorem Deposited.funded {m : Msg} {amount : Nat} (h : Deposited c m amount s s') (hid : Identity c)
    (hout : m.sender ∉ own c) (hf : Funded c s) : Funded c s' := by
  obtain ⟨k, hk, hk'⟩ := h.moved
  obtain ⟨_, _, hs⟩ := h.state
  have hself : c.self ≠ m.sender := fun e => hout (by simp [own, ← e])
  have hgrow : ∀ t, s.tokens.balanceOf t c.self ≤ s'.tokens.balanceOf t c.self :=
    fun t => Nat.le_trans (hk.balance_le hself t) (hk'.balance_le hself t)
  have husdc : s'.tokens.balanceOf c.afUsdc c.self =
      s.tokens.balanceOf c.afUsdc c.self + amount := by
    rw [hk'.balance_token hid.passUsdc.symm, hk.balance_dst]
  have hescrow := h.escrow
  rw [hid.lockerPass] at hescrow
  have hlocked := h.locked
  have hbefore := hf.locked
  have hcash := hf.cash
  rw [hs]
  refine ⟨?_, hescrow, ?_, ?_, hk'.quiet (hk.quiet hf.quiet), fun hc => ?_⟩
  · show s'.locker.lockedBalance = (s.principalBasis + amount) * 10 ^ 12
    omega
  · show s.idleCash + amount + s.runtimeCash ≤ s'.tokens.balanceOf c.afUsdc c.self
    omega
  · intro token
    exact Nat.le_trans (hf.positions token) (hgrow token)
  · exact absurd (h.active.symm.trans hc) (by decide)

/-- A payment of cash to the owner and of PASS from the escrow leaves the stocks. -/
theorem stock_balance {k k' k'' : Tokens} {amount unlocked : Nat} (hid : Identity c)
    (hk : k.Moved k' c.afUsdc c.self c.owner amount)
    (hk' : k'.Moved k'' c.locker.pass c.locker.self c.locker.owner unlocked) (i : Fin 3) :
    k''.balanceOf (c.stocks i) c.self = k.balanceOf (c.stocks i) c.self := by
  rw [hid.lockerPass] at hk'
  rw [hk'.balance_token (hid.stockPass i), hk.balance_token (hid.stockUsdc i)]

theorem Withdrawn.funded {amount exited : Nat} (h : Withdrawn c amount exited s s')
    (hid : Identity c) (hw : Working c s) (hf : Funded c s) : Funded c s' := by
  obtain ⟨k, hk, hk'⟩ := h.moved
  obtain ⟨_, _, hs⟩ := h.state
  have hstock := stock_balance hid hk hk'
  rw [hid.lockerPass] at hk'
  have hpass : s'.tokens.balanceOf c.pass c.locker.self =
      s.tokens.balanceOf c.pass c.locker.self - exited * 10 ^ 12 := by
    rw [hk'.balance_src, hk.balance_token hid.passUsdc]
  have husdc : s'.tokens.balanceOf c.afUsdc c.self =
      s.tokens.balanceOf c.afUsdc c.self - amount := by
    rw [hk'.balance_token hid.passUsdc.symm, hk.balance_src]
  have hlocked := h.locked
  have hbefore := hf.locked
  have hescrow := hf.escrow
  have hcash := hf.cash
  have havailable := h.available
  have hcovered := h.covered
  rw [hs]
  refine ⟨?_, ?_, ?_, ?_, hk'.quiet (hk.quiet hf.quiet), fun hc => ?_⟩
  · show s'.locker.lockedBalance = (s.principalBasis - exited) * 10 ^ 12
    omega
  · show s'.locker.lockedBalance ≤ s'.tokens.balanceOf c.pass c.locker.self
    omega
  · show s.idleCash - amount + s.runtimeCash ≤ s'.tokens.balanceOf c.afUsdc c.self
    omega
  · intro token
    show s.trackedPosition token ≤ s'.tokens.balanceOf token c.self
    by_cases hlisted : ∃ i, token = c.stocks i
    · obtain ⟨i, rfl⟩ := hlisted
      rw [hstock i]
      exact hf.positions _
    · rw [hw.listed token fun i hi => hlisted ⟨i, hi⟩]
      exact Nat.zero_le _
  · exact absurd (h.active.symm.trans hc) (by decide)

/-- A vault with nothing on its books is backed by any balances. -/
theorem funded_of_settled (hlocked : s.locker.lockedBalance = 0) (hprincipal : s.principalBasis = 0)
    (hidle : s.idleCash = 0) (hunits : s.runtimeUnits = 0) (hw : Working c s)
    (hquiet : s.tokens.Quiet (own c)) : Funded c s := by
  obtain ⟨hcash, hflat⟩ := hw.empty hunits
  refine ⟨by omega, by omega, by omega, fun token => ?_, hquiet,
    fun _ => ⟨hprincipal, hidle, hunits⟩⟩
  rw [hflat token]
  exact Nat.zero_le _

theorem Traded.funded {m : Msg} {r : RouterCall} {buy : Bool} {i : Fin 3} {amountIn output : Nat}
    (h : Traded c m r buy i amountIn output s s') (hid : Identity c) (hw : Working c s)
    (hf : Funded c s) : Funded c s' := by
  have hbooked := h.booked
  have hswap := h.swapped
  have hothers := hswap.others hf.quiet
  have hpass : c.pass ≠ inToken c buy i := by
    cases buy with
    | true => exact hid.passUsdc
    | false => exact (hid.stockPass i).symm
  have hescrow := hothers c.pass hpass c.locker.self (by simp [own])
  have hmoved : s'.idleCash + s'.runtimeCash ≤ s'.tokens.balanceOf c.afUsdc c.self ∧
      s'.trackedPosition (c.stocks i) ≤ s'.tokens.balanceOf (c.stocks i) c.self := by
    have hspent := hswap.spent
    have hreceived := hswap.received
    have hcash := hf.cash
    have hstock := hf.positions (c.stocks i)
    have hidle := hbooked.idle
    have hside := h.side
    cases buy with
    | true =>
        simp only [inToken, outToken, if_true] at hspent hreceived hside
        have hpaid := hside.cash
        have hposition := hside.position
        omega
    | false =>
        simp only [inToken, outToken, Bool.false_eq_true, if_false] at hspent hreceived hside
        have hgot := hside.cash
        have hposition := hside.position
        omega
  refine ⟨?_, ?_, hmoved.1, fun token => ?_, hswap.quiet hf.quiet, fun hc => ?_⟩
  · rw [hbooked.locker, hbooked.principal]
    exact hf.locked
  · rw [hbooked.locker]
    exact Nat.le_trans hf.escrow hescrow
  · by_cases htraded : token = c.stocks i
    · rw [htraded]
      exact hmoved.2
    · rw [hbooked.positions, Function.update_of_ne htraded]
      by_cases hin : token = inToken c buy i
      · -- the other token a trade takes from the vault is the cash
        have husdc : token = c.afUsdc := by
          cases buy with
          | true => exact hin
          | false => exact absurd hin htraded
        rw [hw.listed token fun j hj => hid.stockUsdc j (hj.symm.trans husdc)]
        exact Nat.zero_le _
      · exact Nat.le_trans (hf.positions token) (hothers token hin c.self (by simp [own]))
  · rw [hbooked.closed, h.active] at hc
    cases hc

theorem step_funded (hid : Identity c) (a : Action) (hw : Working c s) (hf : Funded c s)
    (h : step c a s = .ok s') : Funded c s' := by
  have hw' := step_working hid a hw h
  cases step_accepted h with
  | deposited hout hdep => exact hdep.funded hid hout hf
  | withdrawn hwith => exact hwith.funded hid hw hf
  | allocated hactive havailable _ _ _ _ =>
      refine ⟨hf.locked, hf.escrow, ?_, hf.positions, hf.quiet, fun hc => ?_⟩
      · have hcash := hf.cash
        show s.idleCash - _ + (s.runtimeCash + _) ≤ s.tokens.balanceOf c.afUsdc c.self
        omega
      · exact absurd (hactive.symm.trans hc) (by decide)
  | deallocated hactive havailable _ _ _ =>
      refine ⟨hf.locked, hf.escrow, ?_, hf.positions, hf.quiet, fun hc => ?_⟩
      · have hcash := hf.cash
        show s.idleCash + _ + (s.runtimeCash - _) ≤ s.tokens.balanceOf c.afUsdc c.self
        omega
      · exact absurd (hactive.symm.trans hc) (by decide)
  | authorized _ _ _ =>
      exact ⟨hf.locked, hf.escrow, hf.cash, hf.positions, hf.quiet, hf.settled⟩
  | governed _ _ _ _ _ =>
      exact ⟨hf.locked, hf.escrow, hf.cash, hf.positions, hf.quiet, hf.settled⟩
  | cancelled _ _ _ _ _ =>
      exact ⟨hf.locked, hf.escrow, hf.cash, hf.positions, hf.quiet, hf.settled⟩
  | traded _ _ htrade => exact htrade.funded hid hw hf
  | closing hclose =>
      obtain ⟨k, hk, hk'⟩ := hclose.moved
      obtain ⟨_, _, hs⟩ := hclose.state
      refine funded_of_settled hclose.locked ?_ ?_ ?_ hw' (hk'.quiet (hk.quiet hf.quiet))
      · rw [hs]
      · rw [hs]
      · rw [hs]
  | rescued hrescue =>
      obtain ⟨k, _, _, hk, hk'⟩ := hrescue.moved
      obtain ⟨_, _, hs⟩ := hrescue.state
      obtain ⟨hprincipal, hidle, hunits⟩ := hf.settled hrescue.closed
      have hlocked : s'.locker.lockedBalance = 0 := by
        rw [hrescue.locked, hf.locked, hprincipal, Nat.zero_mul]
      refine funded_of_settled hlocked ?_ ?_ ?_ hw' (hk'.quiet (hk.quiet hf.quiet))
      · rw [hs]
        exact hprincipal
      · rw [hs]
        exact hidle
      · rw [hs]
        exact hunits
  | native _ _ => exact ⟨hf.locked, hf.escrow, hf.cash, hf.positions, hf.quiet, hf.settled⟩
  | outside hcalls => exact hf.outside hcalls

/-! ## Whole runs -/

section Run

variable {m : Msg} {x : View} {self lockerSelf owner strategyCreator : Address}
  {strategyId strategyRef : Bytes32} {pass usdc router : Address} {stocks feeds : Fin 3 → Address}
  {maxPriceAge : Nat} {tokens : Tokens} {balance : Nat}

theorem constructor_ok
    (h : constructor m x self lockerSelf owner strategyCreator strategyId strategyRef pass usdc
      router stocks feeds maxPriceAge tokens balance = .ok (c, s)) :
    Identity c ∧ Working c s ∧ (s.tokens.Quiet (own c) → Funded c s) ∧ s.liquidating = false ∧
      Sized s ∧ s.log = [] ∧ ∀ token, s.trackedPosition token = 0 := by
  simp only [constructor, PassLocker.constructor, bind_eq_ok, require_eq_ok, nested_eq_ok,
    pure_eq_ok, Prod.mk.injEq] at h
  obtain ⟨_, _, _, ⟨hpu, _⟩, _, hstocks, _, hdistinct, ⟨l, ls⟩, ⟨_, _, rfl, rfl⟩, rfl, rfl⟩ := h
  have hinjective : Function.Injective stocks := by
    intro i j hij
    rcases Nat.lt_trichotomy i.val j.val with hlt | heq | hgt
    · exact absurd hij (hdistinct j i hlt).1
    · exact Fin.ext heq
    · exact absurd hij.symm (hdistinct i j hgt).1
  refine ⟨⟨hpu, fun i => (hstocks i).1, fun i => (hstocks i).2.1, hinjective, rfl⟩,
    ⟨fun _ _ => rfl, ?_, fun _ => ⟨rfl, fun _ => rfl⟩⟩, fun hquiet => ?_, rfl,
    ⟨Nat.zero_le _, fun _ => Nat.zero_le _⟩, rfl, fun _ => rfl⟩
  · simp [openPositions]
  · exact ⟨(Nat.zero_mul _).symm, Nat.zero_le _, Nat.zero_le _, fun _ => Nat.zero_le _, hquiet,
      fun hc => by cases hc⟩

/-- In every reachable state the escrow holds exactly the principal's PASS, the
vault holds its cash and its stocks, the count is that of the open positions,
with no units there is nothing at work, and neither a deallocation nor a
withdrawal takes more than there is. -/
theorem books_in_every_run
    (hnew : constructor m x self lockerSelf owner strategyCreator strategyId strategyRef pass usdc
      router stocks feeds maxPriceAge tokens balance = .ok (c, s))
    (hquiet : s.tokens.Quiet (own c)) (as : List Action) :
    (exec (step c) s as).locker.lockedBalance = (exec (step c) s as).principalBasis * 10 ^ 12 ∧
      (exec (step c) s as).idleCash + (exec (step c) s as).runtimeCash ≤
        (exec (step c) s as).tokens.balanceOf c.afUsdc c.self ∧
      (∀ token, (exec (step c) s as).trackedPosition token ≤
        (exec (step c) s as).tokens.balanceOf token c.self) ∧
      (exec (step c) s as).openTrackedPositionCount =
        Set.ncard {token | (exec (step c) s as).trackedPosition token ≠ 0} ∧
      ((exec (step c) s as).runtimeUnits = 0 →
        (exec (step c) s as).runtimeCash = 0 ∧
          ∀ token, (exec (step c) s as).trackedPosition token = 0) ∧
      (∀ m feeds amount equity units, amount ≤ (exec (step c) s as).runtimeCash →
        runtimeEquity c m feeds (exec (step c) s as) = .ok equity →
        (mulDivCeil amount (exec (step c) s as).runtimeUnits equity : Result Error Nat) = .ok units →
        units ≤ (exec (step c) s as).runtimeUnits) ∧
      (∀ amount profit, amount ≤ (exec (step c) s as).idleCash →
        realizedProfit (exec (step c) s as) = .ok profit →
        (if profit < amount then amount - profit else 0) ≤ (exec (step c) s as).principalBasis) := by
  obtain ⟨hid, hworking, hfunded, _⟩ := constructor_ok hnew
  have hreach : Working c (exec (step c) s as) ∧ Funded c (exec (step c) s as) :=
    exec_invariant (P := fun t => Working c t ∧ Funded c t)
      (fun a _ _ hb h => ⟨step_working hid a hb.1 h, step_funded hid a hb.1 hb.2 h⟩)
      ⟨hworking, hfunded hquiet⟩ as
  obtain ⟨hw, hf⟩ := hreach
  refine ⟨hf.locked, hf.cash, hf.positions, ?_, hw.empty, ?_, ?_⟩
  · rw [hw.count]
    exact openPositions_eq_ncard hid hw.listed
  · intro m feeds amount equity units hamount hequity hunits
    exact units_le hamount hequity hunits
  · intro amount profit hamount hprofit
    have hle := exited_le hamount hprofit
    split <;> omega

end Run

def exampleView : View :=
  { hasCode := fun a => a ∈ [7, 8, 9, 10, 17, 18, 19], router := fun _ => ⟨0, 0, 0⟩,
    decimals := fun a => if a = 6 then 6 else 18, strategyId := fun a => if a = 5 then some 1 else none,
    acceptsValue := fun _ => true }

/-- The owner at 3 has cash and PASS and has approved the vault at 1; the router
at 10 has cash and stock. -/
def exampleTokens : Tokens :=
  { balanceOf := fun token holder =>
      if (holder = 3 ∧ (token = 5 ∨ token = 6)) ∨ (holder = 10 ∧ (token = 6 ∨ token = 7))
      then 10 ^ 24 else 0
    allowance := fun token owner spender =>
      if (token = 5 ∨ token = 6) ∧ owner = 3 ∧ spender = 1 then 10 ^ 24 else 0
    totalSupply := fun _ => 10 ^ 25 }

def exampleMsg (sender : Address) (timestamp : Nat) : Msg := ⟨sender, 0, timestamp, testnetChainId⟩

/-- Two dollars, seen at 100. -/
def exampleFeeds : Feeds := fun _ => ⟨2 * 10 ^ 6, 100, 1⟩

/-- The router takes what it was approved for and pays `output`. -/
def exampleSwap (tokenIn tokenOut : Address) (amountIn output : Nat) : RouterCall :=
  { calls := [.transferFrom tokenIn 10 1 10 amountIn, .transfer tokenOut 10 1 output], value := 0,
    feeds := exampleFeeds, amountOut := some output }

/-- A deposit of 1000 of which 900 go to work, a grant to the executor at 12, its
buy for 300, a donation and its sell of half the position. -/
def exampleRun : List Action :=
  [.deposit (exampleMsg 3 100) 1000,
    .allocate (exampleMsg 3 100) exampleFeeds 900,
    .authorizeExecutor (exampleMsg 3 101) ⟨12, 150, 20, 500, 600, 100⟩,
    .execute (exampleMsg 12 102) exampleFeeds (exampleSwap 6 7 300 (150 * 10 ^ 12))
      ⟨6, 7, 300, 149 * 10 ^ 12, 120, 3⟩,
    .outside [.transfer 6 10 1 77],
    .execute (exampleMsg 12 103) exampleFeeds (exampleSwap 7 6 (75 * 10 ^ 12) 149)
      ⟨7, 6, 75 * 10 ^ 12, 149, 120, 4⟩]

theorem books_after_trades :
    ∃ c s, constructor (exampleMsg 3 99) exampleView 1 2 3 4 1 1 5 6 10 ![7, 8, 9] ![17, 18, 19] 60
        exampleTokens 0 = .ok (c, s) ∧
      (history (step c) s exampleRun).length = 6 ∧
      (exec (step c) s exampleRun).trackedPosition 7 = 75 * 10 ^ 12 ∧
      (exec (step c) s exampleRun).idleCash + (exec (step c) s exampleRun).runtimeCash ≤
        (exec (step c) s exampleRun).tokens.balanceOf 6 1 := by
  have h : constructor (exampleMsg 3 99) exampleView 1 2 3 4 1 1 5 6 10 ![7, 8, 9] ![17, 18, 19] 60
      exampleTokens 0 = .ok (_, _) := rfl
  refine ⟨_, _, h, by decide, by decide, (books_in_every_run h ?_ exampleRun).2.1⟩
  intro token account hown spender
  simp only [own, List.mem_cons, List.not_mem_nil, or_false] at hown
  rcases hown with rfl | rfl <;> simp [exampleTokens]

end TradingVault
end AlphaForge
