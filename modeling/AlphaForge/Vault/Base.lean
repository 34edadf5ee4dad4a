/-
Owner-controlled custody for one strategy, `AlphaForgeVault.sol`.

Deposited AF-USDC is principal, matched by PASS in the escrow at a fixed rate.
What the vault owes is what it tracks; tokens that merely arrive are not tracked
and can be taken out only after the vault has closed.
-/
import AlphaForge.Network
import AlphaForge.Vault.PassLocker

namespace AlphaForge
namespace Vault

open Evm

def passScale : Nat := 10 ^ 12

/-- The errors of `IAlphaForgeVault`, and those of the escrow it calls. -/
inductive Error where
  | unauthorized (caller : Address)
  | zeroAddress
  | duplicateAsset (token : Address)
  | invalidStrategyIdentity
  | strategyPassMismatch (pass : Address) (expected actual : Bytes32)
  | unexpectedDecimals (token : Address) (expected actual : Nat)
  | zeroAmount
  | vaultClosed
  | vaultActive
  | amountOverflow (amount : Nat)
  | insufficientTrackedUsdc (available requested : Nat)
  | openTrackedPositions (count : Nat)
  | unsupportedTrackedAsset (token : Address)
  | trackedBalanceDeficit (token : Address) (actual reserved : Nat)
  | tokenTransferAmountMismatch (token : Address) (expected actual : Nat)
  | noUntrackedExcess (token : Address)
  | locker (error : PassLocker.Error)
  deriving DecidableEq, Repr

structure Config where
  self : Address
  owner : Address
  strategyCreator : Address
  strategyId : Bytes32
  strategyRef : Bytes32
  pass : Address
  afUsdc : Address
  afEth : Address
  afBtc : Address
  locker : PassLocker.Config

inductive Event where
  | deposited (owner : Address) (usdcAmount passRaw principalBasis trackedUsdcBalance : Nat)
  | withdrawn (owner : Address) (usdcAmount profitAmount principalAmount passRawUnlocked
      principalBasis trackedUsdcBalance : Nat)
  | closed (owner : Address) (usdcReturned passRawReleased : Nat)
  | trackedPositionChanged (token : Address) (previousAmount newAmount : Nat)
  | untrackedTokenRescued (token owner : Address) (amount : Nat)
  | nativeRescued (owner : Address) (amount : Nat)

structure State where
  tokens : Tokens
  locker : PassLocker.State
  /-- `address(this).balance`. -/
  balance : Nat
  principalBasis : Nat
  trackedUsdcBalance : Nat
  trackedPosition : Address → Nat
  openTrackedPositionCount : Nat
  closed : Bool
  log : List Event

def State.emit (s : State) (e : Event) : State := { s with log := s.log ++ [e] }

/-- `_requireDistinctAssets`. -/
def requireDistinctAssets (pass usdc eth btc : Address) : Result Error Unit := do
  require (pass ≠ usdc ∧ pass ≠ eth ∧ pass ≠ btc) (.custom (.duplicateAsset pass))
  require (usdc ≠ eth ∧ usdc ≠ btc) (.custom (.duplicateAsset usdc))
  require (eth ≠ btc) (.custom (.duplicateAsset eth))

/-- `_requireDecimals`. -/
def requireDecimals (x : View) (token : Address) (expected : Nat) : Result Error Unit :=
  require (x.decimals token = expected)
    (.custom (.unexpectedDecimals token expected (x.decimals token)))

/-- `_requireStrategyPass`. -/
def requireStrategyPass (x : View) (pass : Address) (expected : Bytes32) : Result Error Unit :=
  match x.strategyId pass with
  | none => .error (.custom (.strategyPassMismatch pass expected 0))
  | some actual =>
      require (actual = expected) (.custom (.strategyPassMismatch pass expected actual))

/-- Construction over the ledgers and the native balance found at the new
address; `lockerSelf` is the address the new escrow gets. -/
def constructor (x : View) (self lockerSelf owner strategyCreator : Address)
    (strategyId strategyRef : Bytes32) (pass afUsdc afEth afBtc : Address) (tokens : Tokens)
    (balance : Nat) : Result Error (Config × State) := do
  require (owner ≠ 0 ∧ strategyCreator ≠ 0 ∧ pass ≠ 0 ∧ afUsdc ≠ 0 ∧ afEth ≠ 0 ∧ afBtc ≠ 0)
    (.custom .zeroAddress)
  require (strategyId ≠ 0 ∧ strategyRef ≠ 0) (.custom .invalidStrategyIdentity)
  requireDistinctAssets pass afUsdc afEth afBtc
  requireDecimals x pass 18
  requireDecimals x afUsdc 6
  requireStrategyPass x pass strategyId
  let (locker, lockerState) ← nested .locker (PassLocker.constructor lockerSelf self owner pass)
  return ({ self, owner, strategyCreator, strategyId, strategyRef, pass, afUsdc, afEth, afBtc,
            locker },
    { tokens, locker := lockerState, balance, principalBasis := 0, trackedUsdcBalance := 0,
      trackedPosition := fun _ => 0, openTrackedPositionCount := 0, closed := false, log := [] })

section Calls

variable (c : Config)

def onlyOwner (m : Msg) : Result Error Unit :=
  require (m.sender = c.owner) (.custom (.unauthorized m.sender))

def whenActive (s : State) : Result Error Unit :=
  require (s.closed = false) (.custom .vaultClosed)

def usdcToPassRaw (usdcRaw : Nat) : Result Error Nat := do
  require (usdcRaw ≤ maxUint256 / passScale) (.custom (.amountOverflow usdcRaw))
  checkedMul usdcRaw passScale

def realizedProfit (s : State) : Nat :=
  if s.principalBasis < s.trackedUsdcBalance then s.trackedUsdcBalance - s.principalBasis else 0

def withdrawableUsdc (s : State) : Nat :=
  if s.closed then 0
  else if s.openTrackedPositionCount ≠ 0 then realizedProfit s
  else s.trackedUsdcBalance

def reservedTrackedBalance (token : Address) (s : State) : Nat :=
  if token = c.afUsdc then s.trackedUsdcBalance
  else if token = c.afEth ∨ token = c.afBtc then s.trackedPosition token
  else if token = c.pass then s.locker.lockedBalance
  else 0

def untrackedExcess (token : Address) (s : State) : Result Error Nat := do
  require (token ≠ 0) (.custom .zeroAddress)
  let actual := s.tokens.balanceOf token c.self
  let reserved := reservedTrackedBalance c token s
  if token = c.pass ∧ s.closed then
    let lockerActual := s.tokens.balanceOf token c.locker.self
    checkedAdd actual (if reserved < lockerActual then lockerActual - reserved else 0)
  else return if reserved < actual then actual - reserved else 0

/-- `_pullOwnerUsdcExact`. -/
def pullOwnerUsdcExact (m : Msg) (amount : Nat) (k : Tokens) : Result Error Tokens :=
  k.pullReceived c.afUsdc c.self m.sender c.self amount
    (fun received => .custom (.tokenTransferAmountMismatch c.afUsdc amount received))

/-- `_pullOwnerPassExact`. -/
def pullOwnerPassExact (m : Msg) (amount : Nat) (k : Tokens) : Result Error Tokens :=
  k.pullReceived c.pass c.self m.sender c.locker.self amount
    (fun received => .custom (.tokenTransferAmountMismatch c.pass amount received))

/-- `_requireFunded`. -/
def requireFunded (token : Address) (reserved : Nat) (k : Tokens) : Result Error Unit :=
  require (reserved ≤ k.balanceOf token c.self)
    (.custom (.trackedBalanceDeficit token (k.balanceOf token c.self) reserved))

/-- `_safeTransferExact`. -/
def safeTransferExact (token dst : Address) (amount : Nat) (k : Tokens) : Result Error Tokens := do
  requireFunded c token amount k
  k.sendReceived token c.self dst amount
    (fun received => .custom (.tokenTransferAmountMismatch token amount received))

/-- `_setTrackedPosition`. -/
def setTrackedPosition (token : Address) (amount : Nat) (s : State) : Result Error State := do
  whenActive s
  require (token = c.afEth ∨ token = c.afBtc) (.custom (.unsupportedTrackedAsset token))
  let previous := s.trackedPosition token
  if previous = amount then return s
  else
    require (amount = 0 ∨ amount ≤ s.tokens.balanceOf token c.self)
      (.custom (.trackedBalanceDeficit token (s.tokens.balanceOf token c.self) amount))
    let openTrackedPositionCount ←
      (if previous = 0 then checkedAdd s.openTrackedPositionCount 1
      else if amount = 0 then checkedSub s.openTrackedPositionCount 1
      else .ok s.openTrackedPositionCount)
    let s := { s with
      openTrackedPositionCount
      trackedPosition := Function.update s.trackedPosition token amount }
    return s.emit (.trackedPositionChanged token previous amount)

def deposit (m : Msg) (usdcAmount : Nat) (s : State) : Result Error State := do
  onlyOwner c m
  whenActive s
  require (usdcAmount ≠ 0) (.custom .zeroAmount)
  let passRaw ← usdcToPassRaw usdcAmount
  require (s.principalBasis ≤ maxUint256 - usdcAmount ∧
    s.trackedUsdcBalance ≤ maxUint256 - usdcAmount) (.custom (.amountOverflow usdcAmount))
  let principalBasis ← checkedAdd s.principalBasis usdcAmount
  let trackedUsdcBalance ← checkedAdd s.trackedUsdcBalance usdcAmount
  let tokens ← pullOwnerUsdcExact c m usdcAmount s.tokens
  let tokens ← pullOwnerPassExact c m passRaw tokens
  let locker ← nested .locker (PassLocker.lock c.locker c.self tokens s.locker passRaw)
  return { s with tokens, locker, principalBasis, trackedUsdcBalance }.emit
    (.deposited c.owner usdcAmount passRaw principalBasis trackedUsdcBalance)

def withdraw (m : Msg) (usdcAmount : Nat) (s : State) : Result Error State := do
  onlyOwner c m
  whenActive s
  require (usdcAmount ≠ 0) (.custom .zeroAmount)
  let available := s.trackedUsdcBalance
  require (usdcAmount ≤ available) (.custom (.insufficientTrackedUsdc available usdcAmount))
  let profit := realizedProfit s
  let profitAmount := if usdcAmount < profit then usdcAmount else profit
  let principalAmount ← checkedSub usdcAmount profitAmount
  let positionCount := s.openTrackedPositionCount
  require (principalAmount = 0 ∨ positionCount = 0) (.custom (.openTrackedPositions positionCount))
  let passRawUnlocked ← usdcToPassRaw principalAmount
  let trackedUsdcBalance ← checkedSub available usdcAmount
  let principalBasis ← checkedSub s.principalBasis principalAmount
  let tokens ← safeTransferExact c c.afUsdc c.owner usdcAmount s.tokens
  let (tokens, locker) ←
    (if passRawUnlocked ≠ 0 then
      nested .locker (PassLocker.unlock c.locker c.self tokens s.locker passRawUnlocked)
    else .ok (tokens, s.locker))
  return { s with tokens, locker, principalBasis, trackedUsdcBalance }.emit
    (.withdrawn c.owner usdcAmount profitAmount principalAmount passRawUnlocked principalBasis
      trackedUsdcBalance)

def close (m : Msg) (s : State) : Result Error State := do
  onlyOwner c m
  whenActive s
  let positionCount := s.openTrackedPositionCount
  require (positionCount = 0) (.custom (.openTrackedPositions positionCount))
  let usdcReturned := s.trackedUsdcBalance
  let passRawReleased := s.locker.lockedBalance
  let s ← setTrackedPosition c c.afEth 0 s
  let s ← setTrackedPosition c c.afBtc 0 s
  let tokens ←
    (if usdcReturned ≠ 0 then safeTransferExact c c.afUsdc c.owner usdcReturned s.tokens
    else .ok s.tokens)
  let (tokens, locker, passRawReleased) ←
    (if passRawReleased ≠ 0 then
      nested .locker (PassLocker.releaseAll c.locker c.self tokens s.locker)
    else .ok (tokens, s.locker, passRawReleased))
  return { s with
    tokens, locker, closed := true, principalBasis := 0, trackedUsdcBalance := 0 }.emit
    (.closed c.owner usdcReturned passRawReleased)

def rescueUntrackedToken (m : Msg) (token : Address) (s : State) : Result Error (State × Nat) := do
  onlyOwner c m
  require (s.closed = true) (.custom .vaultActive)
  require (token ≠ 0) (.custom .zeroAddress)
  let amount ← untrackedExcess c token s
  require (1 ≤ amount) (.custom (.noUntrackedExcess token))
  let (tokens, locker, rescued) ←
    (if token = c.pass then
      nested .locker (PassLocker.rescueUntrackedPass c.locker c.self s.tokens s.locker)
    else .ok (s.tokens, s.locker, 0))
  let vaultAmount ← checkedSub amount rescued
  let tokens ←
    (if vaultAmount ≠ 0 then safeTransferExact c token c.owner vaultAmount tokens else .ok tokens)
  return ({ s with tokens, locker }.emit (.untrackedTokenRescued token c.owner amount), amount)

/-- The payment is the last thing the call does, so what the owner's code does on
receiving it is the same as doing that next. -/
def rescueNative (m : Msg) (x : View) (s : State) : Result Error (State × Nat) := do
  onlyOwner c m
  require (s.closed = true) (.custom .vaultActive)
  let amount := s.balance
  require (1 ≤ amount) (.custom (.noUntrackedExcess 0))
  require (x.acceptsValue c.owner) .sendValueFailed
  return ({ s with balance := 0 }.emit (.nativeRescued c.owner amount), amount)

/-- `receive`. -/
def receive (m : Msg) (s : State) : State := { s with balance := s.balance + m.value }

end Calls

/-! ## What an accepted call did -/

section Accepted

variable {c : Config} {m : Msg} {x : View} {s s' : State}

theorem usdcToPassRaw_ok {usdcRaw passRaw : Nat} (h : usdcToPassRaw usdcRaw = .ok passRaw) :
    passRaw = usdcRaw * passScale := by
  simp only [usdcToPassRaw, bind_eq_ok, checkedMul_eq_ok] at h
  obtain ⟨_, _, _, rfl⟩ := h
  rfl

theorem safeTransferExact_ok {token dst : Address} {amount : Nat} {k k' : Tokens}
    (h : safeTransferExact c token dst amount k = .ok k') :
    k.Moved k' token c.self dst amount := by
  simp only [safeTransferExact, bind_eq_ok] at h
  obtain ⟨_, _, h⟩ := h
  exact Tokens.sendReceived_ok h

/-- A transfer that is skipped when there is nothing to move. -/
theorem safeTransferExact_unless_zero {token dst : Address} {amount : Nat} {k k' : Tokens}
    (h : (if amount ≠ 0 then safeTransferExact c token dst amount k else .ok k) = .ok k') :
    k.Moved k' token c.self dst amount := by
  split at h
  · exact safeTransferExact_ok h
  · next hzero =>
    rw [not_not] at hzero
    simp only [Except.ok.injEq] at h
    rw [hzero, ← h]
    exact Tokens.Moved.zero k

/-- The books besides principal and cash. -/
structure SamePositions (s s' : State) : Prop where
  positions : s'.trackedPosition = s.trackedPosition
  count : s'.openTrackedPositionCount = s.openTrackedPositionCount

structure Deposited (c : Config) (m : Msg) (amount : Nat) (s s' : State) : Prop where
  owner : m.sender = c.owner
  active : s.closed = false ∧ s'.closed = false
  principal : s'.principalBasis = s.principalBasis + amount
  tracked : s'.trackedUsdcBalance = s.trackedUsdcBalance + amount
  locked : s'.locker.lockedBalance = s.locker.lockedBalance + amount * passScale
  escrow : s'.locker.lockedBalance ≤ s'.tokens.balanceOf c.locker.pass c.locker.self
  moved : ∃ k, s.tokens.Moved k c.afUsdc m.sender c.self amount ∧
    k.Moved s'.tokens c.pass m.sender c.locker.self (amount * passScale)
  same : SamePositions s s'

theorem deposit_ok {amount : Nat} (h : deposit c m amount s = .ok s') :
    Deposited c m amount s s' := by
  simp only [deposit, onlyOwner, whenActive, pullOwnerUsdcExact, pullOwnerPassExact, bind_eq_ok,
    require_eq_ok, checkedAdd_eq_ok, nested_eq_ok, pure_eq_ok] at h
  obtain ⟨_, howner, _, hopen, _, _, raw, hraw, _, _, _, ⟨_, rfl⟩, _, ⟨_, rfl⟩, k, hk, k', hk', l,
    hl, rfl⟩ := h
  rw [usdcToPassRaw_ok hraw] at hk' hl
  obtain ⟨hlocked, hescrow⟩ := PassLocker.lock_ok hl
  exact ⟨howner, ⟨hopen, hopen⟩, rfl, rfl, hlocked, hescrow,
    ⟨k, Tokens.pullReceived_ok hk, Tokens.pullReceived_ok hk'⟩, ⟨rfl, rfl⟩⟩

/-- The part of a withdrawal that profit does not cover. -/
def principalPart (amount : Nat) (s : State) : Nat := amount - realizedProfit s

structure Withdrawn (c : Config) (m : Msg) (amount : Nat) (s s' : State) : Prop where
  owner : m.sender = c.owner
  active : s.closed = false ∧ s'.closed = false
  available : amount ≤ s.trackedUsdcBalance
  tracked : s'.trackedUsdcBalance = s.trackedUsdcBalance - amount
  covered : principalPart amount s ≤ s.principalBasis
  principal : s'.principalBasis = s.principalBasis - principalPart amount s
  unlocked : principalPart amount s * passScale ≤ s.locker.lockedBalance
  locked : s'.locker.lockedBalance = s.locker.lockedBalance - principalPart amount s * passScale
  moved : ∃ k, s.tokens.Moved k c.afUsdc c.self c.owner amount ∧
    k.Moved s'.tokens c.locker.pass c.locker.self c.locker.owner
      (principalPart amount s * passScale)
  same : SamePositions s s'

theorem withdraw_ok {amount : Nat} (h : withdraw c m amount s = .ok s') :
    Withdrawn c m amount s s' := by
  simp only [withdraw, onlyOwner, whenActive, bind_eq_ok, require_eq_ok, checkedSub_eq_ok,
    pure_eq_ok] at h
  obtain ⟨_, howner, _, hopen, _, _, _, havail, _, ⟨_, rfl⟩, _, _, raw, hraw, _, ⟨_, rfl⟩, _,
    ⟨hcovered, rfl⟩, k, hk, ⟨k', l⟩, hl, rfl⟩ := h
  have hpart : amount - (if amount < realizedProfit s then amount else realizedProfit s) =
      principalPart amount s := by
    unfold principalPart
    split <;> omega
  have hleft : s.principalBasis -
      (amount - (if amount < realizedProfit s then amount else realizedProfit s)) =
      s.principalBasis - principalPart amount s := by rw [hpart]
  rw [hpart] at hcovered hraw
  rw [usdcToPassRaw_ok hraw] at hl
  have hmoved := safeTransferExact_ok hk
  split at hl
  · rw [nested_eq_ok] at hl
    obtain ⟨hle, hlocked, hpass⟩ := PassLocker.unlock_ok hl
    exact ⟨howner, ⟨hopen, hopen⟩, havail, rfl, hcovered, hleft, hle, hlocked,
      ⟨k, hmoved, hpass⟩, ⟨rfl, rfl⟩⟩
  · next hzero =>
    rw [not_not] at hzero
    simp only [Except.ok.injEq, Prod.mk.injEq] at hl
    obtain ⟨rfl, rfl⟩ := hl
    refine ⟨howner, ⟨hopen, hopen⟩, havail, rfl, hcovered, hleft, ?_, ?_, ⟨k, hmoved, ?_⟩,
      ⟨rfl, rfl⟩⟩
    · rw [hzero]; exact Nat.zero_le _
    · rw [hzero]; rfl
    · rw [hzero]; exact Tokens.Moved.zero k

/-- What setting one position did.  A position that already has the amount is left
as it is; otherwise the balance covers the new amount and the count follows. -/
theorem setTrackedPosition_ok {token : Address} {amount : Nat}
    (h : setTrackedPosition c token amount s = .ok s') :
    (token = c.afEth ∨ token = c.afBtc) ∧
      s'.trackedPosition = Function.update s.trackedPosition token amount ∧
      s'.openTrackedPositionCount + (if s.trackedPosition token = 0 then 0 else 1) =
        s.openTrackedPositionCount + (if amount = 0 then 0 else 1) ∧
      s'.tokens = s.tokens ∧ s'.locker = s.locker ∧ s'.principalBasis = s.principalBasis ∧
      s'.trackedUsdcBalance = s.trackedUsdcBalance ∧ s'.closed = s.closed := by
  simp only [setTrackedPosition, whenActive, bind_eq_ok, require_eq_ok] at h
  obtain ⟨_, _, _, htoken, h⟩ := h
  split at h
  · next hsame =>
    simp only [pure_eq_ok] at h
    subst h
    refine ⟨htoken, ?_, by rw [hsame], rfl, rfl, rfl, rfl, rfl⟩
    rw [← hsame, Function.update_eq_self]
  · next hdiff =>
    simp only [bind_eq_ok, require_eq_ok, pure_eq_ok] at h
    obtain ⟨_, _, count, hcount, rfl⟩ := h
    refine ⟨htoken, rfl, ?_, rfl, rfl, rfl, rfl, rfl⟩
    show count + (if s.trackedPosition token = 0 then 0 else 1) =
      s.openTrackedPositionCount + (if amount = 0 then 0 else 1)
    by_cases hprev : s.trackedPosition token = 0
    · have hamount : amount ≠ 0 := fun e => hdiff (hprev.trans e.symm)
      rw [if_pos hprev, checkedAdd_eq_ok] at hcount
      rw [if_pos hprev, if_neg hamount]
      omega
    · rw [if_neg hprev] at hcount ⊢
      by_cases hamount : amount = 0
      · rw [if_pos hamount, checkedSub_eq_ok] at hcount
        rw [if_pos hamount]
        omega
      · rw [if_neg hamount, Except.ok.injEq] at hcount
        rw [if_neg hamount]
        omega

/-- With no position counted, setting one to zero finds it zero already. -/
theorem setTrackedPosition_zero {token : Address} (hcount : s.openTrackedPositionCount = 0)
    (h : setTrackedPosition c token 0 s = .ok s') :
    s.trackedPosition token = 0 ∧ s'.trackedPosition = s.trackedPosition ∧
      s'.openTrackedPositionCount = 0 := by
  obtain ⟨_, hpos, hnext, _⟩ := setTrackedPosition_ok h
  rw [if_pos rfl, hcount] at hnext
  have hzero : s.trackedPosition token = 0 := by
    by_contra hne
    rw [if_neg hne] at hnext
    omega
  refine ⟨hzero, ?_, by omega⟩
  rw [hpos, ← hzero, Function.update_eq_self]

structure Closing (c : Config) (m : Msg) (s s' : State) : Prop where
  owner : m.sender = c.owner
  active : s.closed = false
  closed : s'.closed = true
  count : s.openTrackedPositionCount = 0
  positions : s.trackedPosition c.afEth = 0 ∧ s.trackedPosition c.afBtc = 0
  principal : s'.principalBasis = 0
  tracked : s'.trackedUsdcBalance = 0
  locked : s'.locker.lockedBalance = 0
  moved : ∃ k, s.tokens.Moved k c.afUsdc c.self c.owner s.trackedUsdcBalance ∧
    k.Moved s'.tokens c.locker.pass c.locker.self c.locker.owner s.locker.lockedBalance
  same : SamePositions s s'

theorem close_ok (h : close c m s = .ok s') : Closing c m s s' := by
  simp only [close, onlyOwner, bind_eq_ok, require_eq_ok, pure_eq_ok] at h
  obtain ⟨_, howner, _, hactive, _, hcount, s₁, h₁, s₂, h₂, k, hk, ⟨k', l, released⟩, hl, rfl⟩ := h
  have hopen : s.closed = false := by simpa [whenActive] using hactive
  obtain ⟨heth, hpos₁, hcount₁⟩ := setTrackedPosition_zero hcount h₁
  obtain ⟨hbtc, hpos₂, hcount₂⟩ := setTrackedPosition_zero hcount₁ h₂
  obtain ⟨_, _, _, htok₁, hlock₁, _⟩ := setTrackedPosition_ok h₁
  obtain ⟨_, _, _, htok₂, hlock₂, _⟩ := setTrackedPosition_ok h₂
  rw [htok₂, htok₁] at hk
  rw [hlock₂, hlock₁] at hl
  have hmoved := safeTransferExact_unless_zero hk
  have hpositions : s₂.trackedPosition = s.trackedPosition := hpos₂.trans hpos₁
  rw [hpos₁] at hbtc
  have hrelease : l.lockedBalance = 0 ∧
      k.Moved k' c.locker.pass c.locker.self c.locker.owner s.locker.lockedBalance := by
    split at hl
    · rw [nested_eq_ok] at hl
      obtain ⟨rfl, hlocked, hpass⟩ := PassLocker.releaseAll_ok hl
      exact ⟨hlocked, hpass⟩
    · next hzero =>
      rw [not_not] at hzero
      simp only [Except.ok.injEq, Prod.mk.injEq] at hl
      obtain ⟨rfl, rfl, _⟩ := hl
      rw [hzero]
      exact ⟨rfl, Tokens.Moved.zero k⟩
  exact ⟨howner, hopen, rfl, hcount, ⟨heth, hbtc⟩, rfl, rfl, hrelease.1, ⟨k, hmoved, hrelease.2⟩,
    ⟨hpositions, hcount₂.trans hcount.symm⟩⟩

structure Rescued (c : Config) (m : Msg) (token : Address) (s s' : State) : Prop where
  owner : m.sender = c.owner
  closed : s.closed = true ∧ s'.closed = true
  principal : s'.principalBasis = s.principalBasis
  tracked : s'.trackedUsdcBalance = s.trackedUsdcBalance
  locked : s'.locker.lockedBalance = s.locker.lockedBalance
  moved : ∃ k lockerAmount vaultAmount,
    s.tokens.Moved k c.locker.pass c.locker.self c.locker.owner lockerAmount ∧
    k.Moved s'.tokens token c.self c.owner vaultAmount
  same : SamePositions s s'

theorem rescueUntrackedToken_ok {token : Address} {amount : Nat}
    (h : rescueUntrackedToken c m token s = .ok (s', amount)) : Rescued c m token s s' := by
  simp only [rescueUntrackedToken, onlyOwner, bind_eq_ok, require_eq_ok, checkedSub_eq_ok,
    pure_eq_ok, Prod.mk.injEq] at h
  obtain ⟨_, howner, _, hclosed, _, _, _, _, _, _, ⟨k, l, rescued⟩, hl, _, ⟨_, rfl⟩, k', hk', rfl,
    rfl⟩ := h
  have hmoved := safeTransferExact_unless_zero hk'
  split at hl
  · rw [nested_eq_ok] at hl
    obtain ⟨_, hlocked, hpass⟩ := PassLocker.rescueUntrackedPass_ok hl
    exact ⟨howner, ⟨hclosed, hclosed⟩, rfl, rfl, hlocked, ⟨k, _, _, hpass, hmoved⟩, ⟨rfl, rfl⟩⟩
  · simp only [Except.ok.injEq, Prod.mk.injEq] at hl
    obtain ⟨rfl, rfl, rfl⟩ := hl
    exact ⟨howner, ⟨hclosed, hclosed⟩, rfl, rfl, rfl,
      ⟨s.tokens, 0, _, Tokens.Moved.zero s.tokens, hmoved⟩, ⟨rfl, rfl⟩⟩

end Accepted

end Vault
end AlphaForge
