/-
The whole database of the indexer, `chain-store.ts`.

Beside the blocks and events there are the leases of the synchronizers, the
operations that are tracked and the projections.  `log` is the part that
`ChainStore` models, and what is recorded or rolled back goes through it.  The
columns of an operation whose values are names hold the text that was written, and
whoever reads a row looks the text up.

A call that throws leaves the database as it was.
-/
import AlphaForge.Indexer.ChainStore.Steps
import AlphaForge.Indexer.Lifecycle.Evidence

namespace AlphaForge
namespace Database

open Evm ChainStore Lifecycle

/-! ## Names in columns -/

def stateText : TransactionState → String
  | .awaitingSignature => "AWAITING_SIGNATURE"
  | .submitted => "SUBMITTED"
  | .mined => "MINED"
  | .confirming => "CONFIRMING"
  | .confirmed => "CONFIRMED"
  | .rejected => "REJECTED"
  | .reverted => "REVERTED"
  | .replaced => "REPLACED"
  | .dropped => "DROPPED"
  | .reorged => "REORGED"
  | .reconciliationFailed => "RECONCILIATION_FAILED"

def states : List TransactionState :=
  [.awaitingSignature, .submitted, .mined, .confirming, .confirmed, .rejected, .reverted,
    .replaced, .dropped, .reorged, .reconciliationFailed]

def errorCodeText : OperationErrorCode → String
  | .walletRejected => "WALLET_REJECTED"
  | .transactionReverted => "TRANSACTION_REVERTED"
  | .transactionReplaced => "TRANSACTION_REPLACED"
  | .transactionDropped => "TRANSACTION_DROPPED"
  | .chainReorg => "CHAIN_REORG"
  | .eventEvidenceMismatch => "EVENT_EVIDENCE_MISMATCH"
  | .contractStateMismatch => "CONTRACT_STATE_MISMATCH"
  | .rpcUnavailable => "RPC_UNAVAILABLE"

def errorCodes : List OperationErrorCode :=
  [.walletRejected, .transactionReverted, .transactionReplaced, .transactionDropped, .chainReorg,
    .eventEvidenceMismatch, .contractStateMismatch, .rpcUnavailable]

def receiptStatusText : ReceiptStatus → String
  | .success => "SUCCESS"
  | .reverted => "REVERTED"

def receiptStatuses : List ReceiptStatus := [.success, .reverted]

/-- The value that a text names, or a damaged database. -/
def readName {α : Type} (values : List α) (text : α → String) (column : String) :
    Except String α :=
  match values.find? (fun v => text v = column) with
  | some v => .ok v
  | none => .error "CORRUPT_CHAIN_DATABASE"

/-! ## Tables -/

structure LeaseRow where
  ownerToken : String
  targetBlock : Int

structure OperationColumns where
  chainId : Int
  txHash : Option Bytes32
  owner : Address
  target : Address
  calldata : Option HexData
  state : String
  submittedAt : Option String
  blockNumber : Option Int
  blockHash : Option Bytes32
  transactionIndex : Option Int
  receiptStatus : Option String
  confirmations : Int
  replacementTxHash : Option Bytes32
  canonical : Bool
  reconciled : Bool
  confirmedAt : Option String
  errorCode : Option String
  deriving DecidableEq

structure ProjectionKey where
  chainId : Int
  owner : Address
  contract : Address
  projectionKey : String
  deriving DecidableEq

structure ProjectionRow where
  blockNumber : Int
  blockHash : Bytes32
  state : List (String × Json)

structure ProductProjection where
  chainId : Int
  owner : Address
  contract : Address
  projectionKey : String
  blockNumber : Int
  blockHash : Bytes32
  state : List (String × Json)

end Database

structure Database where
  blocks : OrderedMap ChainStore.BlockKey ChainStore.BlockRow
  checkpoints : OrderedMap (Int × Evm.Address) ChainStore.CheckpointRow
  events : OrderedMap ChainStore.EventKey ChainStore.EventRow
  leases : OrderedMap (Int × Evm.Address) Database.LeaseRow
  operations : OrderedMap String Database.OperationColumns
  projections : OrderedMap Database.ProjectionKey Database.ProjectionRow

namespace Database

open Evm ChainStore Lifecycle

def empty : Database := ⟨[], [], [], [], [], []⟩

/-- The part with the blocks and events. -/
def log (db : Database) : Store where
  blocks := db.blocks
  checkpoints := db.checkpoints
  events := db.events
  leases := db.leases.map (fun e => (e.1, e.2.ownerToken))
  transactions := []
  projections := []

def withLog (db : Database) (s : Store) : Database :=
  { db with blocks := s.blocks, checkpoints := s.checkpoints, events := s.events }

/-! ## Reading -/

def canonicalBlock (db : Database) (valueChainId : Int) (contract : Address) (blockNumber : Int) :
    Except String (Option ChainBlock) := do
  let id ← chainId valueChainId
  let number ← safeNumber blockNumber
  let row := db.blocks.find? (fun e => isCanonicalBlock id contract e ∧ e.1.number = number)
  return row.map fun e => ⟨e.1.number, e.1.hash, e.2.parentHash, e.2.timestamp⟩

def checkpoint (db : Database) (valueChainId : Int) (contract : Address) :
    Except String (Option ChainCheckpoint) := do
  let id ← chainId valueChainId
  return checkpointAt db.log id contract

structure ChainSyncHealth where
  healthy : Bool
  error : Option String
  deriving DecidableEq

/-- The combinations of the health columns that the calls write. -/
def healthValid (row : CheckpointRow) : Bool :=
  (row.syncHealthy && row.syncError.isNone && row.syncTarget.isNone) ||
    (!row.syncHealthy && (row.syncError = some "CHAIN_REORG_DEPTH_EXCEEDED" ∨
        row.syncError = some "CHAIN_REORG_NO_COMMON_ANCESTOR") && row.syncTarget.isNone) ||
    (!row.syncHealthy && row.syncError = some "CHAIN_SYNC_INCOMPLETE" && row.syncTarget.isSome)

def syncHealth (db : Database) (valueChainId : Int) (contract : Address) :
    Except String ChainSyncHealth := do
  let id ← chainId valueChainId
  if (db.leases.get? (id, contract)).isSome then return ⟨false, some "CHAIN_SYNC_INCOMPLETE"⟩
  match db.checkpoints.get? (id, contract) with
  | none => return ⟨true, none⟩
  | some row => do
      check (healthValid row = true) "CORRUPT_CHAIN_DATABASE"
      return ⟨row.syncHealthy, row.syncError⟩

def operationOf (operationId : String) (row : OperationColumns) : Except String ChainOperation := do
  let state ← readName states stateText row.state
  let receiptStatus ← row.receiptStatus.mapM (readName receiptStatuses receiptStatusText)
  let errorCode ← row.errorCode.mapM (readName errorCodes errorCodeText)
  return {
    operationId, chainId := row.chainId, owner := row.owner, target := row.target,
    calldata := row.calldata, state, txHash := row.txHash, submittedAt := row.submittedAt,
    blockNumber := row.blockNumber, blockHash := row.blockHash,
    transactionIndex := row.transactionIndex, receiptStatus, confirmations := row.confirmations,
    replacementTxHash := row.replacementTxHash, canonical := row.canonical,
    reconciled := row.reconciled, confirmedAt := row.confirmedAt, errorCode }

def operation (db : Database) (operationId : String) : Except String (Option ChainOperation) :=
  match db.operations.get? operationId with
  | none => .ok none
  | some row => do return some (← operationOf operationId row)

/-- The row that a transaction is reserved by. -/
def reservedBy (db : Database) (id : Int) (txHash : Bytes32) :
    Option (String × OperationColumns) :=
  db.operations.find? fun e =>
    e.2.chainId = id ∧ e.2.txHash = some txHash ∧ e.2.reconciled = true

def operationByTransaction (db : Database) (networkChainId : Int) (txHash : Bytes32) :
    Except String (Option ChainOperation) := do
  let id ← chainId networkChainId
  match db.reservedBy id txHash with
  | none => return none
  | some e => db.operation e.1

/-! ## Saving an operation -/

/-- What an `INSERT` writes. -/
def columnsOf (operation : ChainOperation) : OperationColumns where
  chainId := operation.chainId
  txHash := operation.txHash
  owner := operation.owner
  target := operation.target
  calldata := operation.calldata
  state := stateText operation.state
  submittedAt := operation.submittedAt
  blockNumber := operation.blockNumber
  blockHash := operation.blockHash
  transactionIndex := operation.transactionIndex
  receiptStatus := operation.receiptStatus.map receiptStatusText
  confirmations := operation.confirmations
  replacementTxHash := operation.replacementTxHash
  canonical := operation.canonical
  reconciled := operation.reconciled
  confirmedAt := operation.confirmedAt
  errorCode := operation.errorCode.map errorCodeText

/-- `ON CONFLICT(operation_id) DO UPDATE`: the columns that say whose operation it is
stay as they were. -/
def upsertColumns (existing : Option OperationColumns) (row : OperationColumns) :
    OperationColumns :=
  match existing with
  | none => row
  | some old =>
      { row with
        chainId := old.chainId, owner := old.owner, target := old.target,
        calldata := old.calldata }

/-- Another row that a transaction is reserved by, which the unique index refuses. -/
def reservedElsewhere (db : Database) (operationId : String) (row : OperationColumns) : Prop :=
  row.reconciled = true ∧ row.txHash.isSome = true ∧ ∃ e ∈ db.operations, e.1 ≠ operationId ∧
    e.2.chainId = row.chainId ∧ e.2.txHash = row.txHash ∧ e.2.reconciled = true

instance (db : Database) (operationId : String) (row : OperationColumns) :
    Decidable (db.reservedElsewhere operationId row) := by
  unfold reservedElsewhere; infer_instance

/-- The statement, with the conditions of the schema. -/
def upsertOperation (operation : ChainOperation) (db : Database) : Except String Database := do
  let _ ← chainId operation.chainId
  let _ ← operation.blockNumber.mapM safeNumber
  let row := upsertColumns (db.operations.get? operation.operationId) (columnsOf operation)
  check (0 ≤ row.confirmations ∧ ∀ index ∈ row.transactionIndex, 0 ≤ index)
    "CHECK constraint failed"
  check (¬ db.reservedElsewhere operation.operationId row) "UNIQUE constraint failed"
  return { db with operations := db.operations.set operation.operationId row }

/-- A failed statement is a conflict when another operation has the transaction. -/
def conflictCode (operation : ChainOperation) (db : Database) (error : String) : String :=
  match operation.txHash with
  | none => error
  | some txHash =>
      match db.operationByTransaction operation.chainId txHash with
      | .error code => code
      | .ok none => error
      | .ok (some other) =>
          if other.operationId ≠ operation.operationId then "OPERATION_IDENTITY_CONFLICT"
          else error

/-- The record a save finds is of another operation. -/
def identityConflict (previous operation : ChainOperation) : Prop :=
  previous.chainId ≠ operation.chainId ∨ previous.owner ≠ operation.owner ∨
    previous.target ≠ operation.target ∨ previous.calldata ≠ operation.calldata ∨
    (previous.txHash.isSome = true ∧ operation.txHash.isSome = true ∧
      previous.txHash ≠ operation.txHash)

instance (previous operation : ChainOperation) : Decidable (identityConflict previous operation) := by
  unfold identityConflict; infer_instance

section Save

variable (validTime : String → Bool)

def saveOperation (operation : ChainOperation) (db : Database) : Except String Database := do
  validateOperationEvidence validTime operation
  check (validOperationId operation.operationId = true) "INVALID_OPERATION_ID"
  let previous ← db.operation operation.operationId
  check (∀ old ∈ previous, ¬ identityConflict old operation) "OPERATION_IDENTITY_CONFLICT"
  match upsertOperation operation db with
  | .ok saved => .ok saved
  | .error error => .error (conflictCode operation db error)

def optionJson {α : Type} (f : α → Json) : Option α → Json
  | none => .null
  | some a => f a

def operationFingerprint (operation : ChainOperation) : Except String Json :=
  boundedJson (.object
    [("operationId", .string operation.operationId), ("chainId", .number operation.chainId),
      ("owner", .string (addressText operation.owner)),
      ("target", .string (addressText operation.target)),
      ("calldata", optionJson (fun d => .string (hexDataText d)) operation.calldata),
      ("state", .string (stateText operation.state)),
      ("txHash", optionJson (fun h => .string (digestText h)) operation.txHash),
      ("submittedAt", optionJson .string operation.submittedAt),
      ("blockNumber", optionJson (fun n => .string (toString n)) operation.blockNumber),
      ("blockHash", optionJson (fun h => .string (digestText h)) operation.blockHash),
      ("transactionIndex", optionJson .number operation.transactionIndex),
      ("receiptStatus", optionJson (fun r => .string (receiptStatusText r))
        operation.receiptStatus),
      ("confirmations", .number operation.confirmations),
      ("replacementTxHash", optionJson (fun h => .string (digestText h))
        operation.replacementTxHash),
      ("canonical", .bool operation.canonical), ("reconciled", .bool operation.reconciled),
      ("confirmedAt", optionJson .string operation.confirmedAt),
      ("errorCode", optionJson (fun e => .string (errorCodeText e)) operation.errorCode)])

/-- The checkpoint is at the expected block, projected and healthy. -/
def settledAt (expected : ChainCheckpoint) (row : CheckpointRow) : Prop :=
  row.place = expected ∧ row.projected = some row.place ∧ row.syncHealthy = true ∧
    row.syncError = none ∧ row.syncTarget = none

instance (expected : ChainCheckpoint) : DecidablePred (settledAt expected) := fun row => by
  unfold settledAt; infer_instance

def saveOperationAtCheckpoint (operation expectedOperation : ChainOperation)
    (expectedCheckpoint : ChainCheckpoint) (db : Database) : Except String Database := do
  validateOperationEvidence validTime operation
  check (operation.operationId = expectedOperation.operationId ∧
    operation.chainId = expectedOperation.chainId ∧ operation.owner = expectedOperation.owner ∧
    operation.target = expectedOperation.target ∧
    operation.calldata = expectedOperation.calldata ∧
    operation.txHash = expectedOperation.txHash) "OPERATION_IDENTITY_CONFLICT"
  let id ← chainId operation.chainId
  assertSyncOwner db.log id operation.target none
  match db.checkpoints.get? (id, operation.target) with
  | none => .error "CHAIN_SYNC_SUPERSEDED"
  | some row => do
      let _ ← safeNumber expectedCheckpoint.blockNumber
      check (settledAt expectedCheckpoint row) "CHAIN_SYNC_SUPERSEDED"
      match ← db.operation expectedOperation.operationId with
      | none => .error "CHAIN_SYNC_SUPERSEDED"
      | some current => do
          let stored ← operationFingerprint current
          let expected ← operationFingerprint expectedOperation
          check (stored = expected) "CHAIN_SYNC_SUPERSEDED"
          saveOperation validTime operation db

end Save

end Database
end AlphaForge
