/-
The escrow that holds PASS while a vault uses its principal, `PassLocker.sol`.

Only its vault calls it.  `lockedBalance` counts the PASS that stands behind
principal; what the escrow holds beyond that was sent by somebody else.
-/
import AlphaForge.Evm.Token

namespace AlphaForge
namespace PassLocker

open Evm

inductive Error where
  | unauthorized
  | zeroAddress
  | zeroAmount
  | escrowBalanceDeficit (balance accounted : Nat)
  | insufficientUnaccountedPass (available requested : Nat)
  | insufficientLockedPass (available requested : Nat)
  | passTransferAmountMismatch (expected actual : Nat)
  deriving DecidableEq, Repr

structure Config where
  self : Address
  vault : Address
  owner : Address
  pass : Address

inductive Event where
  | passLocked (owner : Address) (amount : Nat)
  | passUnlocked (owner : Address) (amount : Nat)
  | untrackedPassRescued (owner : Address) (amount : Nat)
  deriving DecidableEq, Repr

structure State where
  lockedBalance : Nat
  log : List Event

def State.emit (s : State) (e : Event) : State := { s with log := s.log ++ [e] }

def constructor (self vault owner pass : Address) : Result Error (Config × State) := do
  require (vault ≠ 0 ∧ owner ≠ 0 ∧ pass ≠ 0) (.custom .zeroAddress)
  return ({ self, vault, owner, pass }, { lockedBalance := 0, log := [] })

section Calls

variable (c : Config) (caller : Address) (k : Tokens) (s : State)

/-- `_checkVault`. -/
def checkVault : Result Error Unit :=
  require (caller = c.vault) (.custom .unauthorized)

/-- `_transferToOwnerExact`. -/
def transferToOwnerExact (amount : Nat) : Result Error Tokens :=
  k.sendReceived c.pass c.self c.owner amount
    (fun received => .custom (.passTransferAmountMismatch amount received))

def lock (amount : Nat) : Result Error State := do
  checkVault c caller
  require (amount ≠ 0) (.custom .zeroAmount)
  let balance := k.balanceOf c.pass c.self
  let accounted := s.lockedBalance
  require (accounted ≤ balance) (.custom (.escrowBalanceDeficit balance accounted))
  let available := balance - accounted
  require (amount ≤ available) (.custom (.insufficientUnaccountedPass available amount))
  let lockedBalance ← checkedAdd s.lockedBalance amount
  return { s with lockedBalance }.emit (.passLocked c.owner amount)

def unlock (amount : Nat) : Result Error (Tokens × State) := do
  checkVault c caller
  require (amount ≠ 0) (.custom .zeroAmount)
  let available := s.lockedBalance
  require (amount ≤ available) (.custom (.insufficientLockedPass available amount))
  let k ← transferToOwnerExact c k amount
  return (k, { s with lockedBalance := available - amount }.emit (.passUnlocked c.owner amount))

def releaseAll : Result Error (Tokens × State × Nat) := do
  checkVault c caller
  let amount := s.lockedBalance
  require (amount ≠ 0) (.custom .zeroAmount)
  let k ← transferToOwnerExact c k amount
  return (k, { s with lockedBalance := 0 }.emit (.passUnlocked c.owner amount), amount)

def rescueUntrackedPass : Result Error (Tokens × State × Nat) := do
  checkVault c caller
  let balance := k.balanceOf c.pass c.self
  let accounted := s.lockedBalance
  require (accounted ≤ balance) (.custom (.escrowBalanceDeficit balance accounted))
  let amount := balance - accounted
  if amount ≠ 0 then do
    let k ← transferToOwnerExact c k amount
    return (k, s.emit (.untrackedPassRescued c.owner amount), amount)
  else return (k, s, amount)

end Calls

/-! ## What an accepted call did -/

section Accepted

variable {c : Config} {caller : Address} {k k' : Tokens} {s s' : State} {amount : Nat}

theorem lock_ok (h : lock c caller k s amount = .ok s') :
    s'.lockedBalance = s.lockedBalance + amount ∧
      s'.lockedBalance ≤ k.balanceOf c.pass c.self := by
  simp only [lock, checkVault, bind_eq_ok, require_eq_ok, checkedAdd_eq_ok, pure_eq_ok] at h
  obtain ⟨_, _, _, _, _, hfunded, _, havailable, _, ⟨_, rfl⟩, rfl⟩ := h
  refine ⟨rfl, ?_⟩
  show s.lockedBalance + amount ≤ k.balanceOf c.pass c.self
  omega

theorem unlock_ok (h : unlock c caller k s amount = .ok (k', s')) :
    amount ≤ s.lockedBalance ∧ s'.lockedBalance = s.lockedBalance - amount ∧
      k.Moved k' c.pass c.self c.owner amount := by
  simp only [unlock, checkVault, transferToOwnerExact, bind_eq_ok, require_eq_ok, pure_eq_ok,
    Prod.mk.injEq] at h
  obtain ⟨_, _, _, _, _, hle, k₁, hk, rfl, rfl⟩ := h
  exact ⟨hle, rfl, Tokens.sendReceived_ok hk⟩

theorem releaseAll_ok (h : releaseAll c caller k s = .ok (k', s', amount)) :
    amount = s.lockedBalance ∧ s'.lockedBalance = 0 ∧
      k.Moved k' c.pass c.self c.owner amount := by
  simp only [releaseAll, checkVault, transferToOwnerExact, bind_eq_ok, require_eq_ok, pure_eq_ok,
    Prod.mk.injEq] at h
  obtain ⟨_, _, _, _, k₁, hk, rfl, rfl, rfl⟩ := h
  exact ⟨rfl, rfl, Tokens.sendReceived_ok hk⟩

/-- A rescue takes what is not accounted for, and only that. -/
theorem rescueUntrackedPass_ok (h : rescueUntrackedPass c caller k s = .ok (k', s', amount)) :
    s.lockedBalance + amount = k.balanceOf c.pass c.self ∧
      s'.lockedBalance = s.lockedBalance ∧ k.Moved k' c.pass c.self c.owner amount := by
  simp only [rescueUntrackedPass, checkVault, transferToOwnerExact, bind_eq_ok, require_eq_ok] at h
  obtain ⟨_, _, _, hle, h⟩ := h
  split at h
  · simp only [bind_eq_ok, pure_eq_ok, Prod.mk.injEq] at h
    obtain ⟨k₁, hk, rfl, rfl, rfl⟩ := h
    exact ⟨Nat.add_sub_cancel' hle, rfl, Tokens.sendReceived_ok hk⟩
  · next hzero =>
    simp only [pure_eq_ok, Prod.mk.injEq] at h
    obtain ⟨rfl, rfl, rfl⟩ := h
    rw [not_not] at hzero
    refine ⟨Nat.add_sub_cancel' hle, rfl, ?_⟩
    rw [hzero]
    exact Tokens.Moved.zero k

theorem lock_sized (h : lock c caller k s amount = .ok s') : s'.lockedBalance ≤ maxUint256 := by
  simp only [lock, checkVault, bind_eq_ok, require_eq_ok, checkedAdd_eq_ok, pure_eq_ok] at h
  obtain ⟨_, _, _, _, _, _, _, _, _, ⟨hfits, rfl⟩, rfl⟩ := h
  exact hfits

/-! ## Calls that go through -/

/-- Who the escrow pays and who may call it. -/
structure Pays (c : Config) (caller : Address) : Prop where
  vault : caller = c.vault
  self : c.self ≠ 0
  owner : c.owner ≠ 0
  apart : c.self ≠ c.owner

theorem unlock_of (hp : Pays c caller) (hamount : amount ≠ 0) (hlocked : amount ≤ s.lockedBalance)
    (hheld : amount ≤ k.balanceOf c.pass c.self) :
    ∃ r, unlock c caller k s amount = .ok r := by
  obtain ⟨k', hk⟩ : ∃ k', transferToOwnerExact c k amount = .ok k' :=
    Tokens.sendReceived_of _ hp.self hp.owner hp.apart hheld
  rw [unlock, checkVault, require_of hp.vault, ok_bind, require_of hamount, ok_bind]
  dsimp only
  rw [require_of hlocked, ok_bind, hk, ok_bind]
  exact ⟨_, rfl⟩

theorem releaseAll_of (hp : Pays c caller) (hsome : s.lockedBalance ≠ 0)
    (hheld : s.lockedBalance ≤ k.balanceOf c.pass c.self) :
    ∃ r, releaseAll c caller k s = .ok r := by
  obtain ⟨k', hk⟩ : ∃ k', transferToOwnerExact c k s.lockedBalance = .ok k' :=
    Tokens.sendReceived_of _ hp.self hp.owner hp.apart hheld
  rw [releaseAll, checkVault, require_of hp.vault, ok_bind]
  dsimp only
  rw [require_of hsome, ok_bind, hk, ok_bind]
  exact ⟨_, rfl⟩

end Accepted

end PassLocker
end AlphaForge
