/-
The life of an operation, `lifecycle.ts`.

An operation goes from its signature to a confirmed, reconciled transaction or to
one of the ways to fail.  `transitions` is the table of what may follow what, and
`transitionOperation` adds the checks on the data of each step.
-/
import AlphaForge.Indexer.ChainStore

namespace AlphaForge
namespace Lifecycle

open Evm
open ChainStore (HexData TransactionState)

inductive ReceiptStatus where
  | success
  | reverted
  deriving DecidableEq

inductive OperationErrorCode where
  | walletRejected
  | transactionReverted
  | transactionReplaced
  | transactionDropped
  | chainReorg
  | eventEvidenceMismatch
  | contractStateMismatch
  | rpcUnavailable
  deriving DecidableEq

structure ChainOperation where
  operationId : String
  chainId : Int
  owner : Address
  target : Address
  calldata : Option HexData
  state : TransactionState
  txHash : Option Bytes32
  submittedAt : Option String
  blockNumber : Option Int
  blockHash : Option Bytes32
  transactionIndex : Option Int
  receiptStatus : Option ReceiptStatus
  confirmations : Int
  replacementTxHash : Option Bytes32
  canonical : Bool
  reconciled : Bool
  confirmedAt : Option String
  errorCode : Option OperationErrorCode
  deriving DecidableEq

/-- `MISMATCH` codes, the only ones a failed reconciliation gives. -/
inductive MismatchCode where
  | eventEvidenceMismatch
  | contractStateMismatch
  deriving DecidableEq

def MismatchCode.errorCode : MismatchCode → OperationErrorCode
  | .eventEvidenceMismatch => .eventEvidenceMismatch
  | .contractStateMismatch => .contractStateMismatch

inductive OperationTransition where
  | submitted (txHash : Bytes32) (submittedAt : String)
  | rejected
  | mined (blockNumber : Int) (blockHash : Bytes32) (transactionIndex : Option Int)
  | reverted (blockNumber : Int) (blockHash : Bytes32) (transactionIndex : Option Int)
  | confirming (confirmations : Int) (reconciled : Option Bool)
  | confirmed (confirmations : Int) (confirmedAt : String) (reconciled : Bool)
  | replaced (replacementTxHash : Option Bytes32)
  | dropped
  | reorged
  | reconciliationFailed (errorCode : MismatchCode)

def OperationTransition.state : OperationTransition → TransactionState
  | .submitted _ _ => .submitted
  | .rejected => .rejected
  | .mined _ _ _ => .mined
  | .reverted _ _ _ => .reverted
  | .confirming _ _ => .confirming
  | .confirmed _ _ _ => .confirmed
  | .replaced _ => .replaced
  | .dropped => .dropped
  | .reorged => .reorged
  | .reconciliationFailed _ => .reconciliationFailed

def transitions : TransactionState → List TransactionState
  | .awaitingSignature => [.submitted, .rejected]
  | .submitted => [.mined, .reverted, .replaced, .dropped]
  | .mined => [.confirming, .reconciliationFailed, .reorged]
  | .confirming => [.confirming, .confirmed, .reconciliationFailed, .reorged]
  | .confirmed => [.reorged]
  | .rejected => []
  | .reverted => [.reorged]
  | .replaced => []
  | .dropped => []
  | .reorged => [.mined, .reverted, .replaced, .dropped]
  | .reconciliationFailed => [.confirming, .reorged]

/-- `Number.isSafeInteger`. -/
def isSafeInteger (value : Int) : Prop := -Json.maxSafeInteger ≤ value ∧ value ≤ Json.maxSafeInteger

instance (value : Int) : Decidable (isSafeInteger value) := by unfold isSafeInteger; infer_instance

def transactionIndexValid : Option Int → Prop
  | none => True
  | some index => isSafeInteger index ∧ 0 ≤ index

instance (index : Option Int) : Decidable (transactionIndexValid index) := by
  cases index <;> unfold transactionIndexValid <;> infer_instance

section Transition

/- `validTime`: whether `Date.parse` makes a number of a text. -/
variable (validTime : String → Bool)

/-- The checks and the new record, once the table allows the step. -/
def applyTransition (current : ChainOperation) :
    OperationTransition → Except String ChainOperation
  | .submitted txHash submittedAt => do
      ensure (validTime submittedAt = true) "INVALID_SUBMITTED_AT"
      return { current with
        state := .submitted, txHash := some txHash, submittedAt := some submittedAt,
        errorCode := none }
  | .rejected =>
      return { current with
        state := .rejected, errorCode := some .walletRejected, canonical := false,
        reconciled := false, confirmedAt := none }
  | .dropped =>
      return { current with
        state := .dropped, errorCode := some .transactionDropped, canonical := false,
        reconciled := false, confirmedAt := none }
  | .mined blockNumber blockHash transactionIndex => do
      ensure (0 ≤ blockNumber) "INVALID_BLOCK_NUMBER"
      ensure (transactionIndexValid transactionIndex) "INVALID_TRANSACTION_INDEX"
      return { current with
        state := .mined, blockNumber := some blockNumber, blockHash := some blockHash,
        receiptStatus := some .success, transactionIndex, confirmations := 0, canonical := true,
        reconciled := false, confirmedAt := none, errorCode := none }
  | .reverted blockNumber blockHash transactionIndex => do
      ensure (0 ≤ blockNumber) "INVALID_BLOCK_NUMBER"
      ensure (transactionIndexValid transactionIndex) "INVALID_TRANSACTION_INDEX"
      return { current with
        state := .reverted, blockNumber := some blockNumber, blockHash := some blockHash,
        receiptStatus := some .reverted, transactionIndex, confirmations := 0, canonical := true,
        reconciled := false, confirmedAt := none, errorCode := some .transactionReverted }
  | .confirming confirmations reconciled => do
      ensure (isSafeInteger confirmations ∧ current.confirmations ≤ confirmations)
        "INVALID_CONFIRMATION_COUNT"
      return { current with
        state := .confirming, confirmations, reconciled := reconciled.getD current.reconciled,
        confirmedAt := none, errorCode := none }
  | .confirmed confirmations confirmedAt reconciled => do
      ensure (reconciled = true) "RECONCILIATION_REQUIRED"
      ensure (isSafeInteger confirmations ∧ current.confirmations ≤ confirmations)
        "INVALID_CONFIRMATION_COUNT"
      ensure (validTime confirmedAt = true) "INVALID_CONFIRMED_AT"
      return { current with
        state := .confirmed, confirmations, confirmedAt := some confirmedAt, reconciled,
        canonical := true, errorCode := none }
  | .replaced replacementTxHash => do
      ensure (replacementTxHash ≠ none) "REPLACEMENT_HASH_REQUIRED"
      ensure (current.txHash ≠ replacementTxHash) "REPLACEMENT_HASH_MUST_DIFFER"
      return { current with
        state := .replaced, replacementTxHash, errorCode := some .transactionReplaced,
        canonical := false, reconciled := false, confirmedAt := none }
  | .reorged =>
      return { current with
        state := .reorged, errorCode := some .chainReorg, canonical := false, reconciled := false,
        confirmedAt := none }
  | .reconciliationFailed errorCode =>
      return { current with
        state := .reconciliationFailed, errorCode := some errorCode.errorCode, reconciled := false,
        confirmedAt := none }

def transitionOperation (current : ChainOperation) (update : OperationTransition) :
    Except String ChainOperation := do
  ensure (update.state ∈ transitions current.state) "INVALID_OPERATION_TRANSITION"
  applyTransition validTime current update

end Transition

/-! ## What a step keeps -/

variable {validTime : String → Bool} {current next : ChainOperation} {update : OperationTransition}

theorem transitionOperation_eq_ok :
    transitionOperation validTime current update = .ok next ↔
      update.state ∈ transitions current.state ∧
        applyTransition validTime current update = .ok next := by
  simp [transitionOperation]

/-- A step ends in the state it is named after, for the same operation. -/
theorem applyTransition_state (h : applyTransition validTime current update = .ok next) :
    next.state = update.state ∧ next.operationId = current.operationId ∧
      next.chainId = current.chainId ∧ next.owner = current.owner ∧
      next.target = current.target ∧ next.calldata = current.calldata := by
  cases update <;>
    simp only [applyTransition, bind_eq_ok, ensure_eq_ok, pure_eq_ok] at h <;>
    grind [OperationTransition.state]

end Lifecycle
end AlphaForge
