/-
What stands behind a vault's books.

`Backed` joins the five figures the vault keeps with the balances they speak of.
Each entry point moves a different subset of them, and each keeps all of it.
-/
import AlphaForge.Vault.Base

namespace AlphaForge
namespace Vault

open Evm

variable {c : Config} {m : Msg} {s s' : State}

/-- What the constructor checked or set of the immutables. -/
structure Identity (c : Config) : Prop where
  passUsdc : c.pass ≠ c.afUsdc
  passEth : c.pass ≠ c.afEth
  passBtc : c.pass ≠ c.afBtc
  usdcEth : c.afUsdc ≠ c.afEth
  usdcBtc : c.afUsdc ≠ c.afBtc
  ethBtc : c.afEth ≠ c.afBtc
  lockerPass : c.locker.pass = c.pass

/-- The contracts that act only through their own code. -/
def own (c : Config) : List Address := [c.self, c.locker.self]

def openPositions (c : Config) (s : State) : Nat :=
  (if s.trackedPosition c.afEth = 0 then 0 else 1) +
    (if s.trackedPosition c.afBtc = 0 then 0 else 1)

structure Backed (c : Config) (s : State) : Prop where
  locked : s.locker.lockedBalance = s.principalBasis * passScale
  escrow : s.locker.lockedBalance ≤ s.tokens.balanceOf c.pass c.locker.self
  usdc : s.trackedUsdcBalance ≤ s.tokens.balanceOf c.afUsdc c.self
  eth : s.trackedPosition c.afEth ≤ s.tokens.balanceOf c.afEth c.self
  btc : s.trackedPosition c.afBtc ≤ s.tokens.balanceOf c.afBtc c.self
  count : s.openTrackedPositionCount = openPositions c s
  quiet : s.tokens.Quiet (own c)
  settled : s.closed = true → s.principalBasis = 0 ∧ s.trackedUsdcBalance = 0 ∧
    s.trackedPosition c.afEth = 0 ∧ s.trackedPosition c.afBtc = 0

theorem SamePositions.openPositions (h : SamePositions s s') :
    openPositions c s' = openPositions c s := by
  rw [Vault.openPositions, Vault.openPositions, h.positions]

theorem constructor_ok {x : View} {self lockerSelf owner strategyCreator : Address}
    {strategyId strategyRef : Bytes32} {pass afUsdc afEth afBtc : Address} {tokens : Tokens}
    {balance : Nat}
    (h : constructor x self lockerSelf owner strategyCreator strategyId strategyRef pass afUsdc
      afEth afBtc tokens balance = .ok (c, s)) :
    Identity c ∧ (s.tokens.Quiet (own c) → Backed c s) ∧ c.afUsdc = afUsdc ∧ c.afEth = afEth ∧
      s.trackedUsdcBalance = 0 := by
  simp only [constructor, requireDistinctAssets, PassLocker.constructor, bind_eq_ok, require_eq_ok,
    nested_eq_ok, pure_eq_ok, Prod.mk.injEq] at h
  obtain ⟨_, _, _, _, _, ⟨_, ⟨hpu, hpe, hpb⟩, _, ⟨hue, hub⟩, heb⟩, _, _, _, _, _, _, ⟨l, ls⟩,
    ⟨_, _, rfl, rfl⟩, rfl, rfl⟩ := h
  refine ⟨⟨hpu, hpe, hpb, hue, hub, heb, rfl⟩, fun hquiet => ⟨?_, Nat.zero_le _, Nat.zero_le _,
    Nat.zero_le _, Nat.zero_le _, rfl, hquiet, fun hc => ?_⟩, rfl, rfl, rfl⟩
  · exact (Nat.zero_mul _).symm
  · cases hc

/-- Token calls from outside. -/
theorem Backed.outside (hb : Backed c s) {k : Tokens} (hk : Tokens.OutsideStep (own c) s.tokens k) :
    Backed c { s with tokens := k } := by
  have hself : c.self ∈ own c := by simp [own]
  have hlocker : c.locker.self ∈ own c := by simp [own]
  have hgrow : ∀ t, s.tokens.balanceOf t c.self ≤ k.balanceOf t c.self :=
    fun t => hk.balance_le t c.self hself (hb.quiet t c.self hself)
  have hescrow := hk.balance_le c.pass c.locker.self hlocker (hb.quiet c.pass _ hlocker)
  exact ⟨hb.locked, Nat.le_trans hb.escrow hescrow, Nat.le_trans hb.usdc (hgrow _),
    Nat.le_trans hb.eth (hgrow _), Nat.le_trans hb.btc (hgrow _), hb.count, hk.quiet hb.quiet,
    hb.settled⟩

theorem Deposited.backed {amount : Nat} (h : Deposited c m amount s s') (hid : Identity c)
    (hout : m.sender ∉ own c) (hb : Backed c s) : Backed c s' := by
  obtain ⟨k, hk, hk'⟩ := h.moved
  have hself : c.self ≠ m.sender := fun e => hout (by simp [own, ← e])
  have hgrow : ∀ t, s.tokens.balanceOf t c.self ≤ s'.tokens.balanceOf t c.self :=
    fun t => Nat.le_trans (hk.balance_le hself t) (hk'.balance_le hself t)
  refine ⟨?_, ?_, ?_, ?_, ?_, ?_, hk'.quiet (hk.quiet hb.quiet), fun hc => ?_⟩
  · rw [h.locked, h.principal, hb.locked, Nat.add_mul]
  · rw [← hid.lockerPass]
    exact h.escrow
  · rw [h.tracked, hk'.balance_token hid.passUsdc.symm, hk.balance_dst]
    exact Nat.add_le_add_right hb.usdc amount
  · rw [h.same.positions]
    exact Nat.le_trans hb.eth (hgrow _)
  · rw [h.same.positions]
    exact Nat.le_trans hb.btc (hgrow _)
  · rw [h.same.count, h.same.openPositions]
    exact hb.count
  · rw [h.active.2] at hc
    cases hc

theorem Withdrawn.backed {amount : Nat} (h : Withdrawn c m amount s s') (hid : Identity c)
    (hb : Backed c s) : Backed c s' := by
  obtain ⟨k, hk, hk'⟩ := h.moved
  rw [hid.lockerPass] at hk'
  have hstock : ∀ t, t ≠ c.afUsdc → t ≠ c.pass →
      s'.tokens.balanceOf t c.self = s.tokens.balanceOf t c.self := by
    intro t hu hp
    rw [hk'.balance_token hp, hk.balance_token hu]
  refine ⟨?_, ?_, ?_, ?_, ?_, ?_, hk'.quiet (hk.quiet hb.quiet), fun hc => ?_⟩
  · rw [h.locked, h.principal, hb.locked, Nat.sub_mul]
  · rw [h.locked, hk'.balance_src, hk.balance_token hid.passUsdc]
    have := hb.escrow
    omega
  · rw [h.tracked, hk'.balance_token hid.passUsdc.symm, hk.balance_src]
    have := hb.usdc
    omega
  · rw [h.same.positions, hstock _ hid.usdcEth.symm hid.passEth.symm]
    exact hb.eth
  · rw [h.same.positions, hstock _ hid.usdcBtc.symm hid.passBtc.symm]
    exact hb.btc
  · rw [h.same.count, h.same.openPositions]
    exact hb.count
  · rw [h.active.2] at hc
    cases hc

/-- A vault with nothing on its books is backed by any balances. -/
theorem backed_of_settled (hlocked : s.locker.lockedBalance = 0) (hprincipal : s.principalBasis = 0)
    (htracked : s.trackedUsdcBalance = 0) (heth : s.trackedPosition c.afEth = 0)
    (hbtc : s.trackedPosition c.afBtc = 0) (hcount : s.openTrackedPositionCount = 0)
    (hquiet : s.tokens.Quiet (own c)) : Backed c s := by
  refine ⟨by rw [hlocked, hprincipal, Nat.zero_mul], by omega, by omega, by omega, by omega, ?_,
    hquiet, fun _ => ⟨hprincipal, htracked, heth, hbtc⟩⟩
  rw [hcount, openPositions, if_pos heth, if_pos hbtc]

theorem Closing.backed (h : Closing c m s s') (hb : Backed c s) : Backed c s' := by
  obtain ⟨k, hk, hk'⟩ := h.moved
  refine backed_of_settled h.locked h.principal h.tracked ?_ ?_ ?_ (hk'.quiet (hk.quiet hb.quiet))
  · rw [h.same.positions]; exact h.positions.1
  · rw [h.same.positions]; exact h.positions.2
  · rw [h.same.count]; exact h.count

theorem Rescued.backed {token : Address} (h : Rescued c m token s s') (hb : Backed c s) :
    Backed c s' := by
  obtain ⟨k, _, _, hk, hk'⟩ := h.moved
  obtain ⟨hprincipal, htracked, heth, hbtc⟩ := hb.settled h.closed.1
  have hlocked : s.locker.lockedBalance = 0 := by rw [hb.locked, hprincipal, Nat.zero_mul]
  have hcount : s.openTrackedPositionCount = 0 := by
    rw [hb.count, openPositions, if_pos heth, if_pos hbtc]
  refine backed_of_settled (h.locked.trans hlocked) (h.principal.trans hprincipal)
    (h.tracked.trans htracked) ?_ ?_ (h.same.count.trans hcount) (hk'.quiet (hk.quiet hb.quiet))
  · rw [h.same.positions]; exact heth
  · rw [h.same.positions]; exact hbtc

end Vault
end AlphaForge
