/-
Reviews and confirmations, with `m3-chain-action-flow.ts`, the factories of
`m3-vault-actions.ts` and `m3-pass-actions.ts`, and `submit` of `chain-wallet.ts`.

A review is told by the number of its call and is used once.  A confirmation asks the
journal, then the wallet, and the journal keeps the hash that the wallet answers with.
-/
import AlphaForge.Client.M3BrowserRuntime.Session

namespace AlphaForge
namespace M3BrowserRuntime

open Evm
open ChainStore (HexData)
open ChainRuntime (VaultCalldata decodeM3VaultCalldata)
open Lifecycle (validOperationId)
open M3SubmissionJournal (PendingWalletSubmission chainId)

/-! ## Calldata -/

/-- The low `k` bytes of a number. -/
def toBytes : Nat → Nat → HexData
  | 0, _ => []
  | k + 1, n => toBytes k (n / 256) ++ [UInt8.ofNat (n % 256)]

def uintWord (n : Nat) : HexData := toBytes 32 n

def addressWord (a : Address) : HexData := List.replicate 12 0 ++ toBytes 20 a.toNat

def amount (text code : String) : Except Failure Nat :=
  match amountOf text with
  | some n => if n ≤ maxUint256 then .ok n else .error (.error code)
  | none => .error (.error code)

/-- The data of `createM3VaultActionFactory`. -/
def vaultCalldata : ProductActionRequest → Except Failure HexData
  | .deposit usdcBaseUnits => do
      return [0xb6, 0xb5, 0x5f, 0x25] ++ uintWord (← amount usdcBaseUnits "INVALID_M3_VAULT_AMOUNT")
  | .withdraw usdcBaseUnits => do
      return [0x2e, 0x1a, 0x7d, 0x4d] ++ uintWord (← amount usdcBaseUnits "INVALID_M3_VAULT_AMOUNT")
  | .close => .ok [0x43, 0xd7, 0x26, 0xd6]
  | .rescueToken token => .ok ([0x45, 0xf5, 0x03, 0x0f] ++ addressWord token)
  | .rescueNative => .ok [0xfc, 0x82, 0xf0, 0x84]

/-- The data of `createM3PassTransferFactory`. -/
def passTransferCalldata (request : PassTransferRequest) : Except Failure HexData :=
  if request.recipient = 0 then .error (.error "INVALID_M3_PASS_RECIPIENT")
  else do
    return [0xa9, 0x05, 0x9c, 0xbb] ++ addressWord request.recipient ++
      uintWord (← amount request.passBaseUnits "INVALID_M3_PASS_AMOUNT")

def approveCalldata (spender : Address) (amount : Nat) : HexData :=
  [0x09, 0x5e, 0xa7, 0xb3] ++ addressWord spender ++ uintWord amount

/-- `PreparedActionFactory.prepare`. -/
def prepare (operationId : String) (owner target : Address) (encoded : Except Failure HexData) :
    Except Failure PreparedAction := do
  let data ← encoded
  if 131072 < data.length then .error (.error "TRANSACTION_DATA_TOO_LARGE")
  else if validOperationId operationId = true then
    return { operationId, chainId := chainId, owner, target, data }
  else .error (.error "INVALID_OPERATION_ID")

/-- `m3-` and the kind, with a random number. -/
def operationId (kind : String) : Runtime String := do
  let uuid : Option String ← Async.input Request.randomUUID
  let uuid ← require uuid (.error "M3_OPERATION_ID_UNAVAILABLE")
  let value := "m3-" ++ kind ++ "-" ++ String.ofList (uuid.toList.filter (· ≠ '-'))
  ensure (validOperationId value = true) (.error "INVALID_OPERATION_ID")
  return value

/-! ## `Eip1193Wallet.submit` -/

/-- The wallet has the owner of the action, and has sent no event since. -/
def checkSession (prepared : PreparedAction) (before : Nat) (current : Option WalletSession) :
    Runtime Unit := do
  let session ← require current (.wallet .disconnected)
  ensure (session.account = prepared.owner) (.wallet .accountChanged)
  ensure (session.chainId = chainId) (.wallet .wrongChain)
  ensure ((← Async.read).walletEvents = before) (.wallet .sessionChanged)

/-- The wallet still has the owner of the action, as far as it answers. -/
def sessionMatches (prepared : PreparedAction) (before : Nat) : Runtime Bool :=
  Async.recover
    (do
      let current ← observe
      let p ← Async.read
      return decide (p.walletEvents = before) && decide (isSession prepared.owner current))
    (fun _ => return false)

/-- `noted` says whether the submission is one that the journal is to keep. -/
def noteIf (noted : Bool) (entry : SendNote) : Runtime Unit :=
  if noted then Async.modify (note entry) else pure ()

/-- What an answered hash amounts to. -/
def afterHash (prepared : PreparedAction) (before : Nat) (txHash : Bytes32) :
    Runtime WalletSubmission := do
  let timed : Bool ← Async.input Request.now
  if timed = false then return .submissionAmbiguous (some txHash) .localEvidenceInvalid
  else if (← sessionMatches prepared before) = true then return .submitted txHash
  else if (← Async.read).walletEvents = before then
    return .submissionAmbiguous (some txHash) .postSubmissionCheckFailed
  else return .submissionAmbiguous (some txHash) .sessionChanged

def submit (n : Nat) (noted : Bool) (target : Address) (prepared : PreparedAction) :
    Runtime WalletSubmission := do
  ensure (prepared.chainId = chainId ∧ prepared.target = target)
    (.wallet .untrustedPreparedAction)
  let before := (← Async.read).walletEvents
  let listening : Bool ← Async.input Request.listen
  ensure (listening = true) (.wallet .requestFailed)
  checkSession prepared before (← observe)
  let simulated : Bool ← Async.request (Request.simulate prepared)
  ensure (simulated = true) (.wallet .simulationFailed)
  checkSession prepared before (← observe)
  let ready : Bool ← Async.input Request.beforeSend
  ensure (ready = true) (.error "BEFORE_SEND_FAILED")
  Async.modify (publishTransaction ⟨.walletPending, none, none⟩)
  noteIf noted (.asked n prepared.operationId prepared.intent)
  match ← Async.request (Request.sendTransaction prepared) with
  | .hash txHash => afterHash prepared before txHash
  | .rejected => do
      noteIf noted (.rejected n)
      Async.throw (.wallet .rejected)
  | .unknown => do
      noteIf noted (.unknown n)
      return .submissionAmbiguous none .providerResultUnknown

def WalletSubmission.txHash : WalletSubmission → Option Bytes32
  | .submitted txHash => some txHash
  | .submissionAmbiguous txHash _ => txHash

def publishSubmission (submission : WalletSubmission) : Runtime Unit :=
  Async.modify (publishTransaction
    (match submission with
    | .submitted txHash => ⟨.submitted, some txHash, none⟩
    | .submissionAmbiguous txHash reason => ⟨.submissionAmbiguous, txHash, some reason.text⟩))

section Actions

variable (c : Options) (d : Deployment)

/-! ## The journal -/

/-- The journal has nothing against the action. -/
def assertWritable (n : Nat) (prepared : PreparedAction) : Runtime Unit := do
  let p ← Async.read
  let storage ← journaled (M3SubmissionJournal.assertWritable d.context prepared.owner
    prepared.target prepared.data p.storage)
  Async.modify fun p => note (.checked n prepared.intent) { p with storage }

/-- `record`, whether it keeps the entry or throws. -/
def recordSubmission (n : Nat) (input : PendingWalletSubmission) : Runtime Unit := do
  let p ← Async.read
  match M3SubmissionJournal.record d.context input p.storage with
  | .ok storage => Async.modify fun p => note (.recorded n) { p with storage }
  | .error e => do
      Async.modify (note (.unrecorded n))
      Async.throw (.error e)

def registerSubmitted (input : PendingWalletSubmission) : Runtime Unit := do
  ensure (c.registerSubmission = true) (.error "M3_SUBMISSION_REGISTRATION_UNAVAILABLE")
  let registered : Bool ← Async.request (Request.registerSubmission input)
  ensure (registered = true) (.error "M3_SUBMISSION_REGISTRATION_FAILED")
  Async.modify fun p =>
    { p with registeredOperations := input.operationId :: p.registeredOperations }

/-- `#retainSubmission`. -/
def retainSubmission (n : Nat) (prepared : PreparedAction) (submission : WalletSubmission) :
    Runtime WalletSubmission := do
  match submission.txHash with
  | none => return submission
  | some txHash => do
      let input : PendingWalletSubmission :=
        ⟨prepared.operationId, chainId, prepared.owner, prepared.target, prepared.data, txHash⟩
      Async.modify fun p => { p with pendingOperation := some input }
      Async.recover
        (do
          recordSubmission d n input
          match submission with
          | .submitted _ => do
              registerSubmitted c input
              return submission
          | .submissionAmbiguous _ _ => return submission)
        (fun _ => return .submissionAmbiguous (some txHash) .localEvidenceInvalid)

/-- The journal is asked, the wallet is, and the journal keeps the answer. -/
def submitJournaled (n : Nat) (target : Address) (prepared : PreparedAction) :
    Runtime WalletSubmission := do
  assertWritable d n prepared
  Async.finally_
    (do
      let submission ← submit n true target prepared
      turn
      retainSubmission c d n prepared submission)
    (note (.ended n))

/-! ## Deposit approvals -/

def showDeposit (session : WalletSession) (snapshot : VaultSnapshot)
    (authorization : DepositAuthorization) : Runtime Unit :=
  Async.modify (publish .review
    (presentation c d session ⟨.canonical, snapshot⟩ ⟨some authorization, none, none, none⟩))

def reviewDepositApprovals (n : Nat) (usdcBaseUnits : String) : Runtime Unit := do
  let session ← require (← Async.read).session (.error "WALLET_CONNECTION_REQUIRED")
  assertRuntimeCode c d.vaultAddress d.runtimeBytecodeHash
  assertRuntimeCode c d.strategyPassAddress d.strategyPassRuntimeBytecodeHash
  let snapshot ← readCanonicalSnapshot c d session.account
  let allowed ← authorization c d session usdcBaseUnits
  showDeposit c d session snapshot allowed
  Async.modify fun p => { p with approvalReviews := p.approvalReviews.set n allowed }

def approvalOf (kind : ApprovalKind) (allowed : DepositAuthorization) : ApprovalRequirement :=
  match kind with
  | .afUsdc => allowed.usdcApproval
  | .pass => allowed.passApproval

def ApprovalKind.text : ApprovalKind → String
  | .afUsdc => "approve-af-usdc"
  | .pass => "approve-pass"

/-- An approval of the pass rests on the code of the pass too. -/
def assertApprovalCode (kind : ApprovalKind) : Runtime Unit :=
  match kind with
  | .afUsdc => assertRuntimeCode c d.vaultAddress d.runtimeBytecodeHash
  | .pass => do
      assertRuntimeCode c d.vaultAddress d.runtimeBytecodeHash
      assertRuntimeCode c d.strategyPassAddress d.strategyPassRuntimeBytecodeHash

def confirmDepositApproval (n review : Nat) (kind : ApprovalKind) : Runtime Unit := do
  ensure (c.provider = true) (.error "INVALID_DEPOSIT_APPROVAL_REVIEW")
  let allowed ← require ((← Async.read).approvalReviews.get? review)
    (.error "INVALID_DEPOSIT_APPROVAL_REVIEW")
  Async.modify fun p => { p with approvalReviews := p.approvalReviews.filter (·.1 ≠ review) }
  let requirement := approvalOf kind allowed
  ensure (¬ requirement.sufficient) (.error "DEPOSIT_APPROVAL_ALREADY_SUFFICIENT")
  assertApprovalCode c d kind
  let id ← operationId kind.text
  let prepared ← Async.ofExcept (prepare id allowed.owner requirement.token
    (.ok (approveCalldata requirement.spender requirement.required)))
  let submission ← submit n false requirement.token prepared
  turn
  publishSubmission submission

/-! ## Actions -/

/-- `simulateAction`. -/
def simulateAction (owner : Address) (snapshot : RuntimeSnapshot) (prepared : PreparedAction) :
    Runtime Unit := do
  let decoded := decodeM3VaultCalldata prepared.data
  let rescue : Bool :=
    match decoded with
    | some (.rescueUntrackedToken _) => true
    | some .rescueNative => true
    | _ => false
  let isDeposit : Bool :=
    match decoded with
    | some (.deposit _) => true
    | _ => false
  let state := snapshot.value.state
  ensure (snapshot.value.owner = owner) (.error "M3_VAULT_OWNER_REQUIRED")
  ensure (¬ (rescue = true ∧ state.closed = false)) (.error "M3_RESCUE_REQUIRES_CLOSED_VAULT")
  ensure (¬ (rescue = false ∧ state.closed = true)) (.error "M3_VAULT_CLOSED")
  ensure (¬ (snapshot.source = .liveExit ∧ isDeposit = true))
    (.error "M3_CANONICAL_PROJECTION_REQUIRED")
  let simulated : Bool ← Async.request (Request.simulate prepared)
  ensure (simulated = true) (.error "M3_LIVE_SIMULATION_FAILED")

/-- `M3ChainActionFlow.review`. -/
def flowReview (n : Nat) (request : ProductActionRequest) : Runtime Unit := do
  let session ← require (← Async.read).flowSession (.error "WALLET_CONNECTION_REQUIRED")
  let snapshot ← readFlowSnapshot c d session.account
  let id ← operationId request.kindText
  let prepared ← Async.ofExcept (prepare id session.account d.vaultAddress (vaultCalldata request))
  turn
  ensure (prepared.chainId = session.chainId ∧ prepared.owner = session.account)
    (.error "PREPARED_ACTION_SESSION_MISMATCH")
  simulateAction session.account snapshot prepared
  Async.modify fun p => { p with flowReviews := p.flowReviews.set n prepared }

/-- The part of `reviewAction` that only a deposit has. -/
def reviewDeposit (usdcBaseUnits : String) : Runtime Unit := do
  let session ← require (← Async.read).session (.error "WALLET_SESSION_MISSING")
  let snapshot ← readCanonicalSnapshot c d session.account
  let session ← require (← Async.read).session (.error "WALLET_SESSION_MISSING")
  let allowed ← authorization c d session usdcBaseUnits
  let session ← require (← Async.read).session (.error "WALLET_SESSION_MISSING")
  showDeposit c d session snapshot allowed
  ensure (allowed.usdcApproval.sufficient ∧ allowed.passApproval.sufficient)
    (.error "DEPOSIT_APPROVAL_REQUIRED")

def reviewAuthorization : ProductActionRequest → Runtime Unit
  | .deposit usdcBaseUnits => reviewDeposit c d usdcBaseUnits
  | _ => pure ()

def reviewAction (n : Nat) (request : ProductActionRequest) : Runtime Unit := do
  ensure (c.provider = true ∧ (← Async.read).session.isSome = true)
    (.error "M3_DEPLOYMENT_NOT_CONFIGURED")
  assertRuntimeCode c d.vaultAddress d.runtimeBytecodeHash
  reviewAuthorization c d request
  Async.modify (publishTransaction ⟨.walletApprovalRequired, none, none⟩)
  flowReview c d n request
  turn
  Async.modify fun p => { p with actionReviews := n :: p.actionReviews }

/-- `M3ChainActionFlow.confirm`. -/
def flowConfirm (n review : Nat) : Runtime WalletSubmission := do
  let prepared ← require ((← Async.read).flowReviews.get? review) (.error "INVALID_ACTION_REVIEW")
  Async.modify fun p => { p with flowReviews := p.flowReviews.filter (·.1 ≠ review) }
  let session ← require (← Async.read).flowSession (.error "WALLET_CONNECTION_REQUIRED")
  ensure (prepared.chainId = session.chainId ∧ prepared.owner = session.account)
    (.error "PREPARED_ACTION_SESSION_MISMATCH")
  let snapshot ← readFlowSnapshot c d session.account
  simulateAction session.account snapshot prepared
  turn
  submitJournaled c d n d.vaultAddress prepared

def confirmAction (n review : Nat) : Runtime Unit := do
  ensure (c.provider = true) (.error "M3_DEPLOYMENT_NOT_CONFIGURED")
  ensure (review ∈ (← Async.read).actionReviews) (.error "INVALID_PRODUCT_REVIEW")
  Async.modify fun p => { p with actionReviews := p.actionReviews.filter (· ≠ review) }
  assertRuntimeCode c d.vaultAddress d.runtimeBytecodeHash
  let submission ← flowConfirm c d n review
  turn
  publishSubmission submission

/-! ## Transfers of the pass -/

def reviewPassTransfer (n : Nat) (request : PassTransferRequest) : Runtime Unit := do
  let session ← require (← Async.read).session (.error "M3_DEPLOYMENT_NOT_CONFIGURED")
  ensure (c.provider = true) (.error "M3_DEPLOYMENT_NOT_CONFIGURED")
  let observedBefore ← observe
  ensure (observedBefore = some session) (.wallet .sessionChanged)
  assertRuntimeCode c d.strategyPassAddress d.strategyPassRuntimeBytecodeHash
  let _ ← readFlowSnapshot c d session.account
  let id ← operationId "pass-transfer"
  let prepared ← Async.ofExcept (prepare id session.account d.strategyPassAddress
    (passTransferCalldata request))
  let simulated : Bool ← Async.request (Request.simulate prepared)
  ensure (simulated = true) (.error "M3_PASS_TRANSFER_SIMULATION_FAILED")
  let observedAfter ← observe
  ensure (observedAfter = some session) (.wallet .sessionChanged)
  Async.modify fun p => { p with passTransferReviews := p.passTransferReviews.set n prepared }
  Async.modify (publishTransaction ⟨.walletApprovalRequired, none, none⟩)

def confirmPassTransfer (n review : Nat) : Runtime Unit := do
  let prepared ← require ((← Async.read).passTransferReviews.get? review)
    (.error "INVALID_PASS_TRANSFER_REVIEW")
  Async.modify fun p => { p with passTransferReviews := p.passTransferReviews.filter (·.1 ≠ review) }
  assertRuntimeCode c d.strategyPassAddress d.strategyPassRuntimeBytecodeHash
  let submission ← submitJournaled c d n d.strategyPassAddress prepared
  turn
  publishSubmission submission

end Actions

/-! ## Calls -/

inductive Call where
  | connect
  | refresh
  | walletEvent
  | reviewDepositApprovals (usdcBaseUnits : String)
  | confirmDepositApproval (review : Nat) (kind : ApprovalKind)
  | reviewAction (request : ProductActionRequest)
  | confirmAction (review : Nat)
  | reviewPassTransfer (request : PassTransferRequest)
  | confirmPassTransfer (review : Nat)

/-- A call that needs a deployment. -/
def withDeployment (c : Options) (run : Deployment → Runtime Unit) : Runtime Unit := do
  run (← require c.deployment (.error "M3_DEPLOYMENT_NOT_CONFIGURED"))

def body (c : Options) (n : Nat) : Call → Runtime Unit
  | .connect => connect c n
  | .refresh => refresh c n
  | .walletEvent => walletEvent
  | .reviewDepositApprovals usdcBaseUnits =>
      withDeployment c fun d => reviewDepositApprovals c d n usdcBaseUnits
  | .confirmDepositApproval review kind =>
      withDeployment c fun d => confirmDepositApproval c d n review kind
  | .reviewAction request => withDeployment c fun d => reviewAction c d n request
  | .confirmAction review => withDeployment c fun d => confirmAction c d n review
  | .reviewPassTransfer request => withDeployment c fun d => reviewPassTransfer c d n request
  | .confirmPassTransfer review => withDeployment c fun d => confirmPassTransfer c d n review

abbrev Event : Type := Concurrent.Event Call Request Answer

abbrev State : Type := Concurrent Call Page Request Answer Failure

def step (c : Options) : Event → State → Except String State :=
  Concurrent.step (body c) (reload c)

/-- A page that loads with this storage, of which nothing has been asked. -/
def start (c : Options) (storage : M3SubmissionJournal.SubmissionStorage) : State :=
  Concurrent.start (load c storage [])

end M3BrowserRuntime
end AlphaForge
