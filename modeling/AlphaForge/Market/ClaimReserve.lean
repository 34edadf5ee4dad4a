/-
The claim contract, `AlphaForgeClaimReserve.sol`.

A voucher names an account and a wallet, and the contract pays it once to the
account.  The EIP-712 digest of a voucher is a parameter, like the recovery of a
signer.
-/
import AlphaForge.Machine.Run
import AlphaForge.Market.NativeReserve

namespace AlphaForge
namespace ClaimReserve

open Evm
open MarketTypes (Signatures signer)

def claimAmount : Nat := 1000000000

def maxClaims : Nat := 100

def maxVoucherAge : Nat := 60

structure ClaimVoucher where
  accountId : Bytes32
  wallet : Address
  nonce : Nat
  issuedAt : Nat
  deadline : Nat
  epoch : Nat
  deriving DecidableEq

structure Config where
  self : Address
  owner : Address
  usdc : Address
  voucherDigest : ClaimVoucher → Bytes32
  signatures : Signatures

inductive Event where
  | reserveFunded (funder : Address) (amount : Nat)
  | claimsOpened (reserve maxClaims : Nat)
  | claim (accountId : Bytes32) (wallet : Address) (nonce amount totalClaims : Nat)
  | credentialIssuerChanged (signer : Address) (epoch : Nat)
  | claimsPaused (paused : Bool)

structure State where
  tokens : Tokens
  claimSigner : Address
  claimEpoch : Nat
  claimsOpened : Bool
  paused : Bool
  totalClaims : Nat
  claimedAccount : Bytes32 → Bool
  usedNonce : Bytes32 → Nat → Bool
  log : List Event

def State.emit (s : State) (e : Event) : State := { s with log := s.log ++ [e] }

/-- The contract just after its construction. -/
def deployed (claimSigner : Address) (tokens : Tokens) : State :=
  { tokens, claimSigner, claimEpoch := 1, claimsOpened := false, paused := false, totalClaims := 0,
    claimedAccount := fun _ => false, usedNonce := fun _ _ => false, log := [] }

section Calls

variable (c : Config)

def onlyOwner (m : Msg) : Result Empty Unit :=
  require (m.sender = c.owner) (.reason "OWNER_REQUIRED")

def fund (m : Msg) (amount : Nat) (s : State) : Result Empty State := do
  onlyOwner c m
  require (amount ≠ 0) (.reason "AMOUNT")
  let tokens ← s.tokens.pullExact c.usdc c.self m.sender c.self amount (.reason "TRANSFER_MISMATCH")
  return { s with tokens }.emit (.reserveFunded m.sender amount)

def openClaims (m : Msg) (s : State) : Result Empty State := do
  onlyOwner c m
  require (s.claimsOpened = false ∧ maxClaims * claimAmount ≤ s.tokens.balanceOf c.usdc c.self)
    (.reason "CLAIM_PREFUND_REQUIRED")
  return { s with claimsOpened := true }.emit (.claimsOpened (maxClaims * claimAmount) maxClaims)

/-- `++claimEpoch` is a checked `uint64` increment. -/
def setSigner (m : Msg) (signer : Address) (s : State) : Result Empty State := do
  onlyOwner c m
  require (signer ≠ 0) (.reason "SIGNER")
  require (s.claimEpoch + 1 < 2 ^ 64) arithmeticPanic
  let s := { s with claimSigner := signer, claimEpoch := s.claimEpoch + 1 }
  return s.emit (.credentialIssuerChanged signer s.claimEpoch)

def setPaused (m : Msg) (paused : Bool) (s : State) : Result Empty State := do
  onlyOwner c m
  return { s with paused }.emit (.claimsPaused paused)

def claim (m : Msg) (voucher : ClaimVoucher) (signature : List UInt8) (s : State) :
    Result Empty State := do
  require (m.chainId = testnetChainId ∧ s.claimsOpened = true ∧ s.paused = false ∧
    s.totalClaims < maxClaims) (.reason "CLAIMS_UNAVAILABLE")
  require (voucher.wallet = m.sender ∧ voucher.accountId ≠ 0) (.reason "CLAIM_OWNER")
  require (voucher.epoch = s.claimEpoch ∧ voucher.issuedAt ≤ m.timestamp ∧
    m.timestamp - voucher.issuedAt ≤ maxVoucherAge ∧ m.timestamp ≤ voucher.deadline ∧
    voucher.issuedAt ≤ voucher.deadline ∧ voucher.deadline - voucher.issuedAt ≤ maxVoucherAge)
    (.reason "CREDENTIAL_EXPIRED")
  require (s.claimedAccount voucher.accountId = false ∧
    s.usedNonce voucher.accountId voucher.nonce = false) (.reason "ALREADY_CLAIMED")
  let recovered ← signer c.signatures (c.voucherDigest voucher) signature
  require (recovered = s.claimSigner) (.reason "CREDENTIAL_SIGNATURE")
  let s := { s with
    claimedAccount := Function.update s.claimedAccount voucher.accountId true,
    usedNonce := fun a n =>
      if a = voucher.accountId ∧ n = voucher.nonce then true else s.usedNonce a n,
    totalClaims := s.totalClaims + 1 }
  let tokens ← s.tokens.sendExactBoth c.usdc c.self voucher.wallet claimAmount
    (.reason "TRANSFER_MISMATCH")
  return { s with tokens }.emit
    (.claim voucher.accountId voucher.wallet voucher.nonce claimAmount s.totalClaims)

inductive Action where
  | fund (m : Msg) (amount : Nat)
  | openClaims (m : Msg)
  | setSigner (m : Msg) (signer : Address)
  | setPaused (m : Msg) (paused : Bool)
  | claim (m : Msg) (voucher : ClaimVoucher) (signature : List UInt8)
  | outside (calls : List TokenCall)

def step : Action → State → Result Empty State
  | .fund m amount, s => callFrom [c.self] m (fund c m amount s)
  | .openClaims m, s => callFrom [c.self] m (openClaims c m s)
  | .setSigner m signer, s => callFrom [c.self] m (setSigner c m signer s)
  | .setPaused m paused, s => callFrom [c.self] m (setPaused c m paused s)
  | .claim m voucher signature, s => callFrom [c.self] m (claim c m voucher signature s)
  | .outside calls, s => .ok { s with tokens := s.tokens.outside [c.self] calls }

end Calls

/-- The voucher that an action claims with. -/
def Action.voucher : Action → Option ClaimVoucher
  | .claim _ voucher _ => some voucher
  | _ => none

/-- What a run paid, one entry for each accepted claim. -/
def payouts (c : Config) (s : State) (actions : List Action) : List ClaimVoucher :=
  (Machine.history (step c) s actions).filterMap (fun t => t.action.voucher)

section

variable {c : Config} {s s' : State}

theorem claim_eq_ok {m : Msg} {voucher : ClaimVoucher} {signature : List UInt8}
    (h : step c (.claim m voucher signature) s = .ok s') :
    s.claimedAccount voucher.accountId = false ∧
      s'.claimedAccount = Function.update s.claimedAccount voucher.accountId true := by
  simp only [step, claim, callFrom_eq_ok, bind_eq_ok, require_eq_ok, pure_eq_ok] at h
  obtain ⟨_, _, _, _, _, _, _, _, _, hunused, _, _, _, _, tokens, _, rfl⟩ := h
  exact ⟨hunused.1, rfl⟩

/-- No call makes a claimed account unclaimed. -/
theorem claimedAccount_kept {a : Action} (h : step c a s = .ok s') {accountId : Bytes32}
    (hclaimed : s.claimedAccount accountId = true) : s'.claimedAccount accountId = true := by
  cases a with
  | fund m amount =>
      simp only [step, fund, onlyOwner, callFrom_eq_ok, bind_eq_ok, pure_eq_ok] at h
      obtain ⟨_, _, _, _, _, _, _, _, rfl⟩ := h
      exact hclaimed
  | openClaims m =>
      simp only [step, openClaims, onlyOwner, callFrom_eq_ok, bind_eq_ok, pure_eq_ok] at h
      obtain ⟨_, _, _, _, _, _, rfl⟩ := h
      exact hclaimed
  | setSigner m signer =>
      simp only [step, setSigner, onlyOwner, callFrom_eq_ok, bind_eq_ok, pure_eq_ok] at h
      obtain ⟨_, _, _, _, _, _, _, _, rfl⟩ := h
      exact hclaimed
  | setPaused m paused =>
      simp only [step, setPaused, onlyOwner, callFrom_eq_ok, bind_eq_ok, pure_eq_ok] at h
      obtain ⟨_, _, _, _, rfl⟩ := h
      exact hclaimed
  | claim m voucher signature =>
      rw [(claim_eq_ok h).2, Function.update_apply]
      split
      · rfl
      · exact hclaimed
  | outside calls =>
      cases h
      exact hclaimed

/-- No account is paid twice. -/
theorem payouts_accounts_nodup (c : Config) (s : State) (actions : List Action) :
    ((payouts c s actions).map (·.accountId)).Nodup := by
  have hkeys := (Machine.history_keys_nodup
    (fun a : Action => a.voucher.map (·.accountId)) (fun s accountId => s.claimedAccount accountId = true)
    (fun a s s' accountId (h : step c a s = .ok s') hclaimed => claimedAccount_kept h hclaimed)
    (fun a s s' accountId h hkey => by
      cases a with
      | claim m voucher signature =>
          cases hkey
          obtain ⟨hunused, hclaimed⟩ := claim_eq_ok h
          refine ⟨by simp [hunused], ?_⟩
          rw [hclaimed, Function.update_self]
      | fund m amount => cases hkey
      | openClaims m => cases hkey
      | setSigner m signer => cases hkey
      | setPaused m paused => cases hkey
      | outside calls => cases hkey) s actions).1
  rw [payouts, List.map_filterMap]
  exact hkeys

end

end ClaimReserve
end AlphaForge
