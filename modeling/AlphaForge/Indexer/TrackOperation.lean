/-
Following one operation on the chain, `trackOperation` of `chain-sync.ts`.

The call waits twice, for the receipt and for the reconciliation, and is cut there:
`beginTracking` is what comes before the first wait, `onReceipt` what comes between
them and `onReconciled` what comes after.  Everything it writes goes through the
guarded save.  `rollbackFromBlock` adds the operations to the rollback of the
blocks and events.
-/
import AlphaForge.Indexer.Database.Rows
import AlphaForge.Indexer.Reconcile

namespace AlphaForge
namespace Database

open Evm ChainStore Lifecycle

/-! ## Rolling back -/

def displacedColumns (id : Int) (address : Address) (number : Int) (row : OperationColumns) : Prop :=
  row.chainId = id ∧ row.target = address ∧ (∃ n ∈ row.blockNumber, number ≤ n) ∧
    row.state ∈ ["MINED", "CONFIRMING", "CONFIRMED", "REVERTED", "RECONCILIATION_FAILED"]

instance (id : Int) (address : Address) (number : Int) :
    DecidablePred (displacedColumns id address number) := fun _ => instDecidableAnd

def reorgOperations (id : Int) (address : Address) (number : Int)
    (operations : OrderedMap String OperationColumns) : OrderedMap String OperationColumns :=
  operations.mapValues fun _ row =>
    if displacedColumns id address number row then
      { row with
        state := "REORGED", canonical := false, reconciled := false, confirmedAt := none,
        errorCode := some "CHAIN_REORG" }
    else row

def rollbackFromBlock (valueChainId : Int) (contract : Address) (fromBlock : Int)
    (ownerToken : Option String) (db : Database) : Except String Database := do
  let id ← chainId valueChainId
  let number ← safeNumber fromBlock
  let (log, _) ← ChainStore.rollbackFromBlock valueChainId contract fromBlock ownerToken db.log
  return { db.withLog log with
    operations := reorgOperations id contract number db.operations
    projections := db.projections.filter
      (fun e => ¬ (e.1.chainId = id ∧ e.1.contract = contract)) }

/-! ## The operations to follow -/

def trackableColumns (id : Int) (address : Address) (row : OperationColumns) : Prop :=
  row.chainId = id ∧ row.target = address ∧
    row.state ∈ ["SUBMITTED", "MINED", "CONFIRMING", "REORGED", "RECONCILIATION_FAILED"]

instance (id : Int) (address : Address) : DecidablePred (trackableColumns id address) :=
  fun _ => instDecidableAnd

/-- `ORDER BY operation_id`. -/
def trackableIds (id : Int) (address : Address) (db : Database) : List String :=
  ((db.operations.filter (fun e => trackableColumns id address e.2)).map Prod.fst).insertionSort
    (· ≤ ·)

/-- From behind the cursor on, and from the start again while there is room. -/
def trackableOperationIds (networkChainId : Int) (contract : Address) (limit : Nat)
    (after : Option String) (db : Database) : Except String (List String) := do
  check (1 ≤ limit ∧ limit ≤ 1000) "INVALID_OPERATION_QUERY_LIMIT"
  check (∀ cursor ∈ after, validOperationId cursor = true) "INVALID_OPERATION_ID"
  let id ← chainId networkChainId
  match after with
  | none => return (trackableIds id contract db).take limit
  | some cursor =>
      let rows := ((trackableIds id contract db).filter (fun k => cursor < k)).take limit
      return rows ++ ((trackableIds id contract db).filter (fun k => k ≤ cursor)).take
        (limit - rows.length)

end Database

namespace ChainSync

open Evm ChainStore Lifecycle
open Indexer (ChainReceipt ReconciliationResult)

/-- The contract a synchronizer follows and the depth at which it confirms. -/
structure Config where
  chainId : Int
  contract : Address
  softReadyDepth : Int

def toCount (value : Int) : Except String Int := do
  check (0 ≤ value ∧ value ≤ Json.maxSafeInteger) "CHAIN_SYNC_RANGE_EXCEEDED"
  return value

section Track

variable (c : Config) (validTime : String → Bool)

def beginTracking (operationId : String) (latest : ChainBlock) (db : Database) :
    Except String (ChainOperation × Bytes32 × ChainCheckpoint) := do
  match ← db.operation operationId with
  | none => .error "OPERATION_NOT_FOUND"
  | some operation =>
      match operation.txHash with
      | none => .error "OPERATION_NOT_TRACKABLE"
      | some transactionHash => do
          check (operation.chainId = c.chainId ∧ operation.target = c.contract)
            "OPERATION_NOT_TRACKABLE"
          match ← db.checkpoint c.chainId c.contract with
          | none => .error "CHAIN_SYNC_SUPERSEDED"
          | some checkpoint => do
              check (checkpoint.blockNumber = latest.number ∧ checkpoint.blockHash = latest.hash)
                "CHAIN_SYNC_SUPERSEDED"
              let health ← db.syncHealth c.chainId c.contract
              check (health.healthy = true) "CHAIN_SYNC_SUPERSEDED"
              return (operation, transactionHash, checkpoint)

/-- The step that a receipt makes of a submitted operation. -/
def receiptTransition (receipt : ChainReceipt) : OperationTransition :=
  match receipt.status with
  | .reverted => .reverted receipt.blockNumber receipt.blockHash (some receipt.transactionIndex)
  | .success => .mined receipt.blockNumber receipt.blockHash (some receipt.transactionIndex)

/-- The receipt is of this transaction, from the owner to the contract. -/
def receiptMatches (operation : ChainOperation) (transactionHash : Bytes32) (receipt : ChainReceipt) :
    Prop :=
  receipt.transactionHash = transactionHash ∧ receipt.sender = operation.owner ∧
    receipt.recipient = some operation.target

instance (operation : ChainOperation) (transactionHash : Bytes32) (receipt : ChainReceipt) :
    Decidable (receiptMatches operation transactionHash receipt) := by
  unfold receiptMatches; infer_instance

/-- The first write, of an operation that waited for its receipt. -/
def applyReceipt (operation : ChainOperation) (checkpoint : ChainCheckpoint)
    (receipt : ChainReceipt) (db : Database) : Except String (ChainOperation × Database) :=
  if operation.state = .submitted ∨ operation.state = .reorged then do
    let next ← transitionOperation validTime operation (receiptTransition receipt)
    let db ← db.saveOperationAtCheckpoint validTime next operation checkpoint
    return (next, db)
  else .ok (operation, db)

/-- With the operation to reconcile, when there is more to do. -/
def onReceipt (operation : ChainOperation) (transactionHash : Bytes32)
    (checkpoint : ChainCheckpoint) (receipt : Option ChainReceipt) (db : Database) :
    Except String (Database × Option (ChainOperation × ChainReceipt)) :=
  match receipt with
  | none => .ok (db, none)
  | some receipt => do
      check (receiptMatches operation transactionHash receipt) "RECEIPT_EVIDENCE_MISMATCH"
      match ← db.canonicalBlock operation.chainId operation.target receipt.blockNumber with
      | none => return (db, none)
      | some block =>
          if block.hash ≠ receipt.blockHash then return (db, none)
          else do
            let (operation, db) ← applyReceipt validTime operation checkpoint receipt db
            if receipt.status = .reverted ∨
                operation.state ∉ [.mined, .confirming, .reconciliationFailed] then
              return (db, none)
            else return (db, some (operation, receipt))

def onReconciled (operation : ChainOperation) (receipt : ChainReceipt) (latest : ChainBlock)
    (checkpoint : ChainCheckpoint) (result : ReconciliationResult) (now : String) (db : Database) :
    Except String Database :=
  match result with
  | .mismatch errorCode =>
      if operation.state = .reconciliationFailed then .ok db
      else do
        let next ← transitionOperation validTime operation (.reconciliationFailed errorCode)
        db.saveOperationAtCheckpoint validTime next operation checkpoint
  | .match_ => do
      let confirmations ← toCount (latest.number - receipt.blockNumber + 1)
      let confirming ← transitionOperation validTime operation (.confirming confirmations (some true))
      let next ← (if c.softReadyDepth ≤ confirmations then
        transitionOperation validTime confirming (.confirmed confirmations now true)
        else .ok confirming)
      db.saveOperationAtCheckpoint validTime next operation checkpoint

/-- What the node and the integration answer during one call, with the head fixed. -/
structure Rpc where
  receipt : Bytes32 → Option ChainReceipt
  reconcile : ChainOperation → ChainReceipt → ReconciliationResult

/-- The whole call, when nothing else comes in between. -/
def trackOperation (rpc : Rpc) (latest : ChainBlock) (now : String) (db : Database)
    (operationId : String) : Except String Database := do
  let (operation, transactionHash, checkpoint) ← beginTracking c operationId latest db
  let (db, rest) ← onReceipt validTime operation transactionHash checkpoint
    (rpc.receipt transactionHash) db
  match rest with
  | none => return db
  | some (operation, receipt) =>
      onReconciled c validTime operation receipt latest checkpoint
        (rpc.reconcile operation receipt) now db

end Track

end ChainSync
end AlphaForge
