/-
What the runtime reads of a wallet, of the chain and of the indexer, and the
presentation it makes of it.

A canonical snapshot is one that the indexer serves for the reviewed deployment; where
it cannot, the vault is read from the chain, which is enough to leave it.  None of
these calls changes the runtime.
-/
import AlphaForge.Client.M3BrowserRuntime

namespace AlphaForge
namespace M3BrowserRuntime

open Evm
open M3SubmissionJournal (chainId)

/-! ## The wallet -/

def answered {α : Type} (x : Except WalletFailureCode α) : Runtime α :=
  Async.ofExcept (x.mapError Failure.wallet)

/-- `Eip1193WalletConnection.#session`. -/
def sessionOf (accounts : Except WalletFailureCode (List Address)) :
    Runtime (Option WalletSession) := do
  match ← answered accounts with
  | [] => return none
  | account :: _ => do
      let id ← Async.request Request.chainId
      return some ⟨account, ← answered id⟩

/-- `Eip1193WalletConnection.observe`. -/
def observe : Runtime (Option WalletSession) := do
  sessionOf (← Async.request Request.accounts)

/-- The wallet has this account on the chain of the deployments. -/
def isSession (account : Address) (observed : Option WalletSession) : Prop :=
  observed = some ⟨account, chainId⟩

instance (account : Address) : DecidablePred (isSession account) := fun _ => by
  unfold isSession; infer_instance

/-! ## The deployment -/

section Reads

variable (c : Options) (d : Deployment)

def assertRuntimeCode (target : Address) (expectedHash : Bytes32) : Runtime Unit := do
  ensure (c.provider = true) (.error "M3_RUNTIME_CODE_UNAVAILABLE")
  let code ← require (← Async.request (Request.getCode target))
    (.error "M3_RUNTIME_CODE_UNAVAILABLE")
  ensure (code ≠ [] ∧ c.keccak256Evm code = expectedHash) (.error "M3_RUNTIME_CODE_MISMATCH")

def assertRuntimeStatus : Runtime Unit := do
  if c.readRuntimeStatus then
    let actual ← require (← Async.request Request.readRuntimeStatus)
      (.error "M3_RUNTIME_STATUS_UNAVAILABLE")
    ensure (actual.chainId = chainId ∧ actual.contract = d.vaultAddress ∧
        actual.strategyPassAddress = d.strategyPassAddress ∧
        actual.manifestDigest = d.manifestDigest ∧ actual.abiHash = d.abiHash ∧
        actual.runtimeBytecodeHash = d.runtimeBytecodeHash ∧
        actual.strategyPassAbiHash = d.strategyPassAbiHash ∧
        actual.strategyPassRuntimeBytecodeHash = d.strategyPassRuntimeBytecodeHash)
      (.error "M3_RUNTIME_STATUS_MISMATCH")

/-- The pass is the reviewed one, and of the vault's strategy. -/
def passMatches (state : VaultState) : Prop :=
  state.pass = d.strategyPassAddress ∧ state.strategyId ≠ 0 ∧
    state.strategyId = state.passStrategyId

instance : DecidablePred (passMatches d) := fun _ => by unfold passMatches; infer_instance

def readCanonicalSnapshot (owner : Address) : Runtime VaultSnapshot := do
  assertRuntimeStatus c d
  let snapshot ← Async.ofExcept (← Async.request (Request.readSnapshot owner))
  ensure (snapshot.chainId = chainId ∧ snapshot.contract = d.vaultAddress ∧
      snapshot.owner = owner ∧ snapshot.state.owner = owner ∧ passMatches d snapshot.state)
    (.error "M3_VAULT_SNAPSHOT_MISMATCH")
  return snapshot

def readLiveExitSnapshot : Runtime RuntimeSnapshot := do
  ensure (c.provider = true) (.error "M3_LIVE_EXIT_READ_UNAVAILABLE")
  let value ← Async.ofExcept (← Async.request Request.readLiveSnapshot)
  ensure (passMatches d value.state) (.error "M3_STRATEGY_PASS_MISMATCH")
  return ⟨.liveExit, value⟩

def readFlowSnapshot (owner : Address) : Runtime RuntimeSnapshot :=
  Async.recover
    (do return ⟨.canonical, ← readCanonicalSnapshot c d owner⟩)
    (fun _ => readLiveExitSnapshot c d)

/-! ## What the owner allows the vault, `m3-vault-allowance.ts` -/

/-- An amount from a form: a decimal number above zero. -/
def amountOf (text : String) : Option Nat :=
  match text.toList with
  | d :: ds =>
      if '1' ≤ d ∧ d ≤ '9' ∧ ds.all Char.isDigit = true then some (Text.ofDecimal text) else none
  | [] => none

def requiredAmounts (usdcBaseUnits : String) : Runtime (Nat × Nat) := do
  let usdc ← require (amountOf usdcBaseUnits) (.error "M3_ALLOWANCE_INVALID_AMOUNT")
  let pass := usdc * 10 ^ 12
  ensure (usdc ≤ maxUint256 ∧ pass ≤ maxUint256) (.error "M3_ALLOWANCE_INVALID_AMOUNT")
  return (usdc, pass)

/-- The wallet's chain and its first account, for a read of allowances. -/
def allowanceChain : Runtime Int := do
  match ← Async.request Request.chainId with
  | .ok id => return id
  | .error _ => Async.throw (.error "M3_ALLOWANCE_READ_FAILED")

def allowanceOwner (accounts : Except WalletFailureCode (List Address)) : Runtime Address :=
  match accounts with
  | .ok (owner :: _) => pure owner
  | .ok [] => Async.throw (.error "M3_ALLOWANCE_OWNER_CHANGED")
  | .error _ => Async.throw (.error "M3_ALLOWANCE_READ_FAILED")

/-- `#authorization`. -/
def authorization (session : WalletSession) (usdcBaseUnits : String) :
    Runtime DepositAuthorization := do
  ensure (c.provider = true) (.error "M3_DEPLOYMENT_NOT_CONFIGURED")
  let (usdc, pass) ← requiredAmounts usdcBaseUnits
  let before ← Async.read
  let listening : Bool ← Async.input Request.listen
  ensure (listening = true) (.error "M3_ALLOWANCE_READ_FAILED")
  let initialChainId ← allowanceChain
  ensure (initialChainId = chainId) (.error "M3_ALLOWANCE_WRONG_CHAIN")
  let initialOwner ← allowanceOwner (← Async.request Request.accounts)
  ensure (initialOwner = session.account) (.error "M3_ALLOWANCE_OWNER_CHANGED")
  let allowances ← require (← Async.request (Request.allowances session.account d.vaultAddress))
    (.error "M3_ALLOWANCE_READ_FAILED")
  let finalAccounts ← Async.request Request.accounts
  let finalChainId ← allowanceChain
  let after ← Async.read
  let finalOwner ← allowanceOwner finalAccounts
  ensure (after.walletEvents = before.walletEvents ∧ finalChainId = initialChainId)
    (.error "M3_ALLOWANCE_SESSION_CHANGED")
  ensure (finalOwner = initialOwner) (.error "M3_ALLOWANCE_OWNER_CHANGED")
  return {
    vault := d.vaultAddress
    owner := session.account
    usdcApproval := ⟨allowances.afUsdc, d.vaultAddress, usdc, allowances.usdcAllowance⟩
    passApproval := ⟨allowances.pass, d.vaultAddress, pass, allowances.passAllowance⟩ }

/-! ## The presentation -/

/-- The optional arguments of `#presentation`; without `passVerified` it stays as shown. -/
structure Details where
  authorization : Option DepositAuthorization
  passBalanceBaseUnits : Option Nat
  passVerified : Option Bool
  ethBalanceWei : Option Nat

def presentation (session : WalletSession) (snapshot : RuntimeSnapshot) (details : Details)
    (p : Page) : Presentation :=
  let owner := snapshot.value.owner = session.account
  let live := snapshot.source = .canonical
  let closed := snapshot.value.state.closed
  let passVerified :=
    details.passVerified.getD (p.snapshot.onchain.passTransferMode ≠ some .disabled)
  { wallet := ⟨.connected, some session.account, details.ethBalanceWei, none⟩
    network := ⟨.correct, some session.chainId⟩
    transaction := p.snapshot.transaction
    onchain := {
      configured := true
      health := if live then .live else .degraded
      readiness := .finalityUnknown
      owner := if owner then .owner else .nonOwner
      writeMode := if owner then writeMode c else .disabled
      exitPath := if owner then .simulation else .unavailable
      supportedActions :=
        if closed then [.rescueToken, .rescueNative]
        else if live then [.deposit, .withdraw, .close]
        else [.withdraw, .close]
      vaultAddress := some snapshot.value.contract
      vaultClosed := some closed
      passAddress := some snapshot.value.state.pass
      passBalanceBaseUnits := details.passBalanceBaseUnits
      passInitialSupplyBaseUnits := d.passInitialSupplyBaseUnits
      passInitialRecipient := d.passInitialRecipient
      passTransferMode := some (if passVerified then writeMode c else .disabled)
      depositAuthorization :=
        if closed then none
        else details.authorization.map fun a =>
          ⟨a.vault, a.usdcApproval.allowance, a.passApproval.allowance⟩ } }

def readEthBalance (session : WalletSession) : Runtime (Option Nat) := do
  if c.provider then Async.request (Request.getBalance session.account) else return none

/-- The balance of the pass, and whether the pass is the vault's. -/
def readPass (session : WalletSession) (snapshot : RuntimeSnapshot) :
    Runtime (Option Nat × Bool) := do
  let state := snapshot.value.state
  let passVerified := decide (snapshot.source = .liveExit) || !c.readPassSnapshot
  if snapshot.source = .canonical ∧ c.readPassSnapshot = true then
    match ← Async.request (Request.readPassSnapshot session.account) with
    | some pass =>
        if pass.contract = state.pass ∧ pass.pass = state.pass ∧
            pass.strategyId = state.strategyId ∧ pass.decimals = 18 then
          return (some pass.balanceRaw, true)
        else return (none, false)
    | none => return (none, false)
  else if c.provider then
    return (← Async.request (Request.balanceOf session.account state.pass), passVerified)
  else return (none, passVerified)

def connectedPresentation (session : WalletSession) (snapshot : RuntimeSnapshot) :
    Runtime Presentation := do
  let ethBalanceWei ← readEthBalance c session
  let (passBalanceBaseUnits, passVerified) ← readPass c session snapshot
  let details : Details := ⟨none, passBalanceBaseUnits, some passVerified, ethBalanceWei⟩
  if snapshot.source = .liveExit then
    return presentation c d session snapshot details (← Async.read)
  else
    let allowed ← Async.recover
      (do return some (← authorization c d session "1"))
      (fun _ => return none)
    return presentation c d session snapshot { details with authorization := allowed }
      (← Async.read)

end Reads

end M3BrowserRuntime
end AlphaForge
