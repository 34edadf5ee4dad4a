/-
The browser's runtime of one vault, `m3-browser-runtime.ts` with `chain-wallet.ts`.

A runtime shows what it knows of a wallet and of a vault, and asks the wallet to send
what its user has reviewed.  Every call runs between waits beside the others, so each
is a program over the fields of the runtime, and what a wallet, an indexer or a clock
answers comes from outside.

Answers come as they are understood: an account list, a chain id or a snapshot that is
not one is a failed answer.  Waits with nothing but checks between them are one, and
`turn` is the wait of a caller for a call that has returned.  `reader`, `sends` and
`shown` stand beside the runtime: whose read is the current one, what became of each
journaled submission, and what was published when.
-/
import AlphaForge.Client.M3SubmissionJournal
import AlphaForge.Machine.Async

namespace AlphaForge
namespace M3BrowserRuntime

open Evm
open ChainStore (HexData TransactionState)
open M3SubmissionJournal (PendingWalletSubmission SubmissionStorage chainId)

/-! ## What is shown, `m3-product-shell.ts` -/

inductive WalletStatus where
  | disconnected
  | connecting
  | connected
  | connectionRejected
  | accountChanged
  deriving DecidableEq

inductive NetworkStatus where
  | unavailable
  | correct
  | wrong
  deriving DecidableEq

inductive TransactionStatus where
  | idle
  | walletApprovalRequired
  | walletPending
  | submitted
  | submissionAmbiguous
  | confirming
  | chainConfirmed
  | indexing
  | ready
  | failed
  deriving DecidableEq

structure WalletPresentation where
  status : WalletStatus
  address : Option Address
  ethBalanceWei : Option Nat
  errorCode : Option String
  deriving DecidableEq

structure NetworkPresentation where
  status : NetworkStatus
  chainId : Option Int
  deriving DecidableEq

structure TransactionPresentation where
  status : TransactionStatus
  txHash : Option Bytes32
  errorCode : Option String
  deriving DecidableEq

inductive Health where
  | unavailable
  | live
  | degraded
  deriving DecidableEq

inductive Readiness where
  | unknown
  | softReady
  | finalityUnknown
  | reorged
  deriving DecidableEq

inductive Ownership where
  | unknown
  | owner
  | nonOwner
  deriving DecidableEq

inductive WriteMode where
  | disabled
  | injectedMock
  | liveAuthorized
  deriving DecidableEq

inductive ExitPath where
  | unavailable
  | simulation
  deriving DecidableEq

inductive ActionKind where
  | deposit
  | withdraw
  | close
  | rescueToken
  | rescueNative
  deriving DecidableEq

structure DepositAuthorizationPresentation where
  spender : Address
  afUsdcAllowanceBaseUnits : Nat
  passAllowanceBaseUnits : Nat
  deriving DecidableEq

structure OnchainPresentation where
  configured : Bool
  health : Health
  readiness : Readiness
  owner : Ownership
  writeMode : WriteMode
  exitPath : ExitPath
  supportedActions : List ActionKind
  vaultAddress : Option Address
  vaultClosed : Option Bool
  passAddress : Option Address
  passBalanceBaseUnits : Option Nat
  passInitialSupplyBaseUnits : Option Nat
  passInitialRecipient : Option Address
  passTransferMode : Option WriteMode
  depositAuthorization : Option DepositAuthorizationPresentation
  deriving DecidableEq

structure Presentation where
  wallet : WalletPresentation
  network : NetworkPresentation
  transaction : TransactionPresentation
  onchain : OnchainPresentation
  deriving DecidableEq

/-! ## The deployment and what is read of it -/

/-- What the runtime reads of its reviewed deployment. -/
structure Deployment where
  vaultAddress : Address
  abiHash : Bytes32
  manifestDigest : Bytes32
  runtimeBytecodeHash : Bytes32
  strategyPassAddress : Address
  strategyPassAbiHash : Bytes32
  strategyPassRuntimeBytecodeHash : Bytes32
  passInitialSupplyBaseUnits : Option Nat
  passInitialRecipient : Option Address

/-- `M3BrowserRuntimeOptions`.  The calls that a reader may lack are told apart. -/
structure Options where
  provider : Bool
  deployment : Option Deployment
  readRuntimeStatus : Bool
  readPassSnapshot : Bool
  registerSubmission : Bool
  readOperationEvidence : Bool
  devMock : Bool
  keccak256Evm : HexData → Bytes32

def writeMode (c : Options) : WriteMode :=
  if c.devMock then .injectedMock else .liveAuthorized

def Deployment.context (d : Deployment) : M3SubmissionJournal.Context where
  vaultAddress := d.vaultAddress
  strategyPassAddress := d.strategyPassAddress

structure RuntimeStatus where
  chainId : Int
  contract : Address
  strategyPassAddress : Address
  manifestDigest : Bytes32
  abiHash : Bytes32
  runtimeBytecodeHash : Bytes32
  strategyPassAbiHash : Bytes32
  strategyPassRuntimeBytecodeHash : Bytes32

structure VaultState where
  owner : Address
  pass : Address
  strategyId : Bytes32
  passStrategyId : Bytes32
  closed : Bool

structure VaultSnapshot where
  chainId : Int
  contract : Address
  owner : Address
  state : VaultState

structure PassSnapshot where
  contract : Address
  pass : Address
  strategyId : Bytes32
  decimals : Nat
  balanceRaw : Nat

inductive Source where
  | canonical
  | liveExit
  deriving DecidableEq

structure RuntimeSnapshot where
  source : Source
  value : VaultSnapshot

inductive ReceiptEvidence where
  | pending
  | success
  | reverted
  deriving DecidableEq

inductive ReconciliationEvidence where
  | pending
  | matched
  | failed
  deriving DecidableEq

inductive ProjectionEvidence where
  | pending
  | ready
  | stale
  deriving DecidableEq

inductive ChainStatus where
  | pending
  | included
  | softReady
  | reorged
  | failed
  | unknown
  deriving DecidableEq

inductive IndexerStatus where
  | healthy
  | syncing
  | degraded
  deriving DecidableEq

structure OperationEvidence where
  lifecycle : TransactionState
  receipt : ReceiptEvidence
  reconciliation : ReconciliationEvidence
  projection : ProjectionEvidence
  chainStatus : ChainStatus
  indexerStatus : IndexerStatus
  productReady : Bool

/-- The product has it, or it has ended without effect. -/
def terminal (evidence : OperationEvidence) : Prop :=
  evidence.productReady = true ∨
    evidence.lifecycle ∈ [TransactionState.rejected, .reverted, .replaced, .dropped]

instance : DecidablePred terminal := fun _ => by unfold terminal; infer_instance

def failedTransaction (errorCode : String) (txHash : Bytes32) : TransactionPresentation :=
  ⟨.failed, some txHash, some errorCode⟩

def transactionPresentationFromEvidence (evidence : OperationEvidence) (txHash : Bytes32) :
    TransactionPresentation :=
  let failure : Option String :=
    match evidence.lifecycle with
    | .rejected => some "REJECTED"
    | .reverted => some "REVERTED"
    | .replaced => some "REPLACED"
    | .dropped => some "DROPPED"
    | .reorged => some "REORGED"
    | .reconciliationFailed => some "RECONCILIATION_FAILED"
    | _ =>
        if evidence.receipt = .reverted then some "TRANSACTION_REVERTED"
        else if evidence.reconciliation = .failed then some "RECONCILIATION_FAILED"
        else if evidence.projection = .stale then some "PROJECTION_STALE"
        else none
  match failure with
  | some errorCode => failedTransaction errorCode txHash
  | none =>
      let status : TransactionStatus :=
        if evidence.productReady then .ready
        else match evidence.lifecycle with
          | .awaitingSignature => .walletApprovalRequired
          | .submitted => .submitted
          | .mined => if evidence.receipt = .success then .chainConfirmed else .confirming
          | .confirmed => .indexing
          | _ => .confirming
      ⟨status, some txHash, none⟩

/-! ## Actions -/

structure WalletSession where
  account : Address
  chainId : Int
  deriving DecidableEq

structure PreparedAction where
  operationId : String
  chainId : Int
  owner : Address
  target : Address
  data : HexData
  deriving DecidableEq

/-- Amounts are texts, as a form holds them. -/
inductive ProductActionRequest where
  | deposit (usdcBaseUnits : String)
  | withdraw (usdcBaseUnits : String)
  | close
  | rescueToken (token : Address)
  | rescueNative

def ProductActionRequest.kindText : ProductActionRequest → String
  | .deposit _ => "deposit"
  | .withdraw _ => "withdraw"
  | .close => "close"
  | .rescueToken _ => "rescue-token"
  | .rescueNative => "rescue-native"

structure PassTransferRequest where
  recipient : Address
  passBaseUnits : String

structure ApprovalRequirement where
  token : Address
  spender : Address
  required : Nat
  allowance : Nat
  deriving DecidableEq

def ApprovalRequirement.sufficient (r : ApprovalRequirement) : Prop := r.required ≤ r.allowance

instance : DecidablePred ApprovalRequirement.sufficient := fun _ => by
  unfold ApprovalRequirement.sufficient; infer_instance

/-- `M3DepositAuthorization`. -/
structure DepositAuthorization where
  vault : Address
  owner : Address
  usdcApproval : ApprovalRequirement
  passApproval : ApprovalRequirement
  deriving DecidableEq

inductive ApprovalKind where
  | afUsdc
  | pass
  deriving DecidableEq

inductive SubmissionReason where
  | sessionChanged
  | postSubmissionCheckFailed
  | providerResultUnknown
  | localEvidenceInvalid
  deriving DecidableEq

def SubmissionReason.text : SubmissionReason → String
  | .sessionChanged => "SESSION_CHANGED"
  | .postSubmissionCheckFailed => "POST_SUBMISSION_CHECK_FAILED"
  | .providerResultUnknown => "PROVIDER_RESULT_UNKNOWN"
  | .localEvidenceInvalid => "LOCAL_EVIDENCE_INVALID"

inductive WalletSubmission where
  | submitted (txHash : Bytes32)
  | submissionAmbiguous (txHash : Option Bytes32) (reason : SubmissionReason)
  deriving DecidableEq

/-! ## Failures -/

inductive WalletFailureCode where
  | disconnected
  | wrongChain
  | accountChanged
  | sessionChanged
  | rejected
  | invalidResponse
  | requestFailed
  | simulationFailed
  | untrustedPreparedAction
  deriving DecidableEq

def WalletFailureCode.text : WalletFailureCode → String
  | .disconnected => "WALLET_DISCONNECTED"
  | .wrongChain => "WALLET_WRONG_CHAIN"
  | .accountChanged => "WALLET_ACCOUNT_CHANGED"
  | .sessionChanged => "WALLET_SESSION_CHANGED"
  | .rejected => "WALLET_REJECTED"
  | .invalidResponse => "WALLET_INVALID_RESPONSE"
  | .requestFailed => "WALLET_REQUEST_FAILED"
  | .simulationFailed => "WALLET_SIMULATION_FAILED"
  | .untrustedPreparedAction => "UNTRUSTED_PREPARED_ACTION"

inductive Failure where
  | wallet (code : WalletFailureCode)
  | error (message : String)

/-! ## Requests -/

inductive SendAnswer where
  | hash (txHash : Bytes32)
  /-- Error 4001. -/
  | rejected
  /-- Any other error, or a result that is no hash. -/
  | unknown

inductive Request where
  /-- `provider.on` for each of the three events. -/
  | listen
  /-- `beforeSend`, which may throw. -/
  | beforeSend
  /-- A time, if the clock gives one. -/
  | now
  | randomUUID
  | turn
  | accounts
  | requestAccounts
  | chainId
  | getBalance (account : Address)
  | getCode (target : Address)
  | simulate (prepared : PreparedAction)
  | balanceOf (account pass : Address)
  /-- The vault's tokens and what the owner allows it of each. -/
  | allowances (owner vault : Address)
  | sendTransaction (prepared : PreparedAction)
  | readRuntimeStatus
  | readSnapshot (owner : Address)
  | readPassSnapshot (owner : Address)
  | readLiveSnapshot
  | registerSubmission (input : PendingWalletSubmission)
  | readOperationEvidence (operationId : String) (owner : Address)

structure Allowances where
  afUsdc : Address
  pass : Address
  usdcAllowance : Nat
  passAllowance : Nat

def Answer : Request → Type
  | .listen => Bool
  | .beforeSend => Bool
  | .now => Bool
  | .randomUUID => Option String
  | .turn => Unit
  | .accounts => Except WalletFailureCode (List Address)
  | .requestAccounts => Except WalletFailureCode (List Address)
  | .chainId => Except WalletFailureCode Int
  | .getBalance _ => Option Nat
  | .getCode _ => Option HexData
  | .simulate _ => Bool
  | .balanceOf _ _ => Option Nat
  | .allowances _ _ => Option Allowances
  | .sendTransaction _ => SendAnswer
  | .readRuntimeStatus => Option RuntimeStatus
  | .readSnapshot _ => Except Failure VaultSnapshot
  | .readPassSnapshot _ => Option PassSnapshot
  | .readLiveSnapshot => Except Failure VaultSnapshot
  | .registerSubmission _ => Bool
  | .readOperationEvidence _ _ => Except Failure OperationEvidence

/-! ## The runtime -/

/-- What a submission is told by. -/
structure Intent where
  owner : Address
  target : Address
  calldata : HexData
  deriving DecidableEq

def PreparedAction.intent (prepared : PreparedAction) : Intent :=
  ⟨prepared.owner, prepared.target, prepared.data⟩

/-- What became of a submission that the journal is to keep, by the number of its call. -/
inductive SendNote where
  /-- The journal has nothing against it. -/
  | checked (call : Nat) (t : Intent)
  | asked (call : Nat) (operationId : String) (t : Intent)
  | rejected (call : Nat)
  /-- The wallet gave no hash. -/
  | unknown (call : Nat)
  | recorded (call : Nat)
  | unrecorded (call : Nat)
  | ended (call : Nat)
  /-- There is evidence that it has ended. -/
  | settled (operationId : String)
  | reloaded

inductive Origin where
  /-- `connect`, `refresh` and what the wallet's events do. -/
  | read
  /-- The presentation of a deposit that is reviewed. -/
  | review
  /-- What was shown, but for balances and the transaction. -/
  | kept
  deriving DecidableEq

inductive ShowNote where
  | began (revision : Nat)
  /-- The read of this revision got an account and a chain from the wallet. -/
  | observed (revision : Nat)
  /-- `bound` says whether there was a session. -/
  | published (origin : Origin) (before : Presentation) (bound : Bool) (after : Presentation)
  deriving DecidableEq

structure Page where
  snapshot : Presentation
  session : Option WalletSession
  flowSession : Option WalletSession
  readRevision : Nat
  /-- The reads that listen to the wallet, by revision. -/
  listening : List Nat
  actionReviews : List Nat
  flowReviews : OrderedMap Nat PreparedAction
  approvalReviews : OrderedMap Nat DepositAuthorization
  passTransferReviews : OrderedMap Nat PreparedAction
  pendingOperation : Option PendingWalletSubmission
  registeredOperations : List String
  storage : SubmissionStorage
  /-- How many events the wallet has sent. -/
  walletEvents : Nat
  reader : Nat
  sends : List SendNote
  shown : List ShowNote

abbrev Runtime (α : Type) : Type := Async Page Request Answer Failure α

/-- A call that has returned is waited for. -/
def turn : Runtime Unit := Async.request Request.turn

def ensure (p : Prop) [Decidable p] (e : Failure) : Runtime Unit :=
  if p then pure () else Async.throw e

def require {α : Type} (x : Option α) (e : Failure) : Runtime α :=
  match x with
  | some a => pure a
  | none => Async.throw e

/-- A call of the journal. -/
def journaled {α : Type} (x : Except String α) : Runtime α :=
  Async.ofExcept (x.mapError Failure.error)

def note (entry : SendNote) (p : Page) : Page := { p with sends := entry :: p.sends }

/-- `#publish`. -/
def publish (origin : Origin) (f : Page → Presentation) (p : Page) : Page :=
  { p with
    snapshot := f p
    shown := .published origin p.snapshot p.session.isSome (f p) :: p.shown }

/-- The transaction changes and nothing else. -/
def publishTransaction (transaction : TransactionPresentation) : Page → Page :=
  publish .kept fun p => { p.snapshot with transaction }

def initialSnapshot (c : Options) : Presentation where
  wallet := ⟨.disconnected, none, none, none⟩
  network := ⟨.unavailable, none⟩
  transaction := ⟨.idle, none, none⟩
  onchain := {
    configured := c.deployment.isSome
    health := .unavailable
    readiness := .unknown
    owner := .unknown
    writeMode := .disabled
    exitPath := .unavailable
    supportedActions := if c.deployment.isSome then [.deposit, .withdraw, .close] else []
    vaultAddress := c.deployment.map Deployment.vaultAddress
    vaultClosed := none
    passAddress := c.deployment.map Deployment.strategyPassAddress
    passBalanceBaseUnits := none
    passInitialSupplyBaseUnits := c.deployment.bind Deployment.passInitialSupplyBaseUnits
    passInitialRecipient := c.deployment.bind Deployment.passInitialRecipient
    passTransferMode := none
    depositAuthorization := none }

/-- A page that loads, with what its storage holds. -/
def load (c : Options) (storage : SubmissionStorage) (sends : List SendNote) : Page where
  snapshot := initialSnapshot c
  session := none
  flowSession := none
  readRevision := 0
  listening := []
  actionReviews := []
  flowReviews := []
  approvalReviews := []
  passTransferReviews := []
  pendingOperation := none
  registeredOperations := []
  storage
  walletEvents := 0
  reader := 0
  sends
  shown := []

/-- The page is closed and loads again. -/
def reload (c : Options) (p : Page) : Page := load c p.storage (.reloaded :: p.sends)

end M3BrowserRuntime
end AlphaForge
