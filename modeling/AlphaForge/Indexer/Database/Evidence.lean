/-
What is reported of an operation, `operationEvidence` of `chain-store.ts`.

An operation is ready for the product once it is confirmed, its projection is shown, and
the stored blocks lead from its block through the projection's to the checkpoint.
-/
import AlphaForge.Indexer.Database.Sync

namespace AlphaForge
namespace Database

open Evm ChainStore Lifecycle

inductive ReconciliationStatus where
  | pending
  | matched
  | failed
  deriving DecidableEq

inductive ProjectionMilestone where
  | pending
  | stale
  | ready
  deriving DecidableEq

inductive IndexerStatus where
  | syncing
  | healthy
  | degraded
  deriving DecidableEq

inductive ChainStatus where
  | pending
  | included
  | softReady
  | reorged
  | failed
  deriving DecidableEq

structure ProductOperationEvidence where
  lifecycle : TransactionState
  /-- Nothing is `PENDING`. -/
  receipt : Option ReceiptStatus
  receiptCanonical : Bool
  confirmations : Int
  reconciliation : ReconciliationStatus
  projection : ProjectionMilestone
  chainStatus : ChainStatus
  l1Status : String
  finalityStatus : String
  indexerStatus : IndexerStatus
  degradedReason : Option String
  productReady : Bool

/-! ## The way to the checkpoint -/

/-- `ORDER BY block_number`. -/
def ascending (a b : BlockKey × BlockRow) : Prop := a.1.number ≤ b.1.number

instance : DecidableRel ascending := fun a b => Int.decLe a.1.number b.1.number

/-- `AND canonical = 1 AND block_number BETWEEN ? AND ?`. -/
def ancestryBlocks (db : Database) (id : Int) (contract : Address) (first last : Int) :
    List (BlockKey × BlockRow) :=
  (db.blocks.filter (fun e => isCanonicalBlock id contract e ∧ first ≤ e.1.number ∧
    e.1.number ≤ last)).insertionSort ascending

/-- What the loop over the blocks has seen. -/
structure Walk where
  observedBlockCount : Nat
  previousHash : Option Bytes32
  projectionWitnessed : Bool

def Walk.start : Walk := ⟨0, none, false⟩

def Walk.observe (projection : ProductProjection) (key : BlockKey) (walk : Walk) : Walk where
  observedBlockCount := walk.observedBlockCount + 1
  previousHash := some key.hash
  projectionWitnessed :=
    if key.number = projection.blockNumber then key.hash = projection.blockHash
    else walk.projectionWitnessed

/-- The loop, which breaks off at a block that does not follow. -/
def walkBlocks (first : Int) (operationHash : Bytes32) (projection : ProductProjection) :
    Walk → List (BlockKey × BlockRow) → Option Walk
  | walk, [] => some walk
  | walk, (key, row) :: rest =>
      if key.number ≠ first + walk.observedBlockCount ∨
          (walk.observedBlockCount = 0 ∧ key.hash ≠ operationHash) ∨
          (∃ previous ∈ walk.previousHash, row.parentHash ≠ previous) then none
      else walkBlocks first operationHash projection (walk.observe projection key) rest

def maxProductEvidenceAncestryBlocks : Int := 2000

/-- The blocks from the operation's on lead through the projection's to the checkpoint. -/
def ancestryHolds (operation : ChainOperation) (projection : ProductProjection)
    (checkpoint : ChainCheckpoint) (number : Int) (hash : Bytes32) (db : Database) :
    Except String Bool := do
  let first ← safeNumber number
  let last ← safeNumber checkpoint.blockNumber
  let expectedBlockCount := last - first + 1
  if maxProductEvidenceAncestryBlocks < expectedBlockCount then return false
  else do
    let id ← chainId operation.chainId
    match walkBlocks first hash projection Walk.start
        (db.ancestryBlocks id operation.target first last) with
    | none => return false
    | some walk =>
        return decide (walk.observedBlockCount = expectedBlockCount ∧
          walk.projectionWitnessed = true ∧ walk.previousHash = some checkpoint.blockHash)

def canonicalAncestry (operation : ChainOperation) (projection : ProductProjection)
    (checkpoint : Option ChainCheckpoint) (db : Database) : Except String Bool :=
  match operation.blockNumber, operation.blockHash, checkpoint with
  | some number, some hash, some checkpoint =>
      if operation.canonical ∧ projection.chainId = operation.chainId ∧
          projection.owner = operation.owner ∧ projection.contract = operation.target ∧
          number ≤ projection.blockNumber ∧ projection.blockNumber ≤ checkpoint.blockNumber then
        ancestryHolds operation projection checkpoint number hash db
      else .ok false
  | _, _, _ => .ok false

/-! ## The report -/

def reconciliationStatus (operation : ChainOperation) : ReconciliationStatus :=
  if operation.state = .reconciliationFailed then .failed
  else if operation.reconciled then .matched
  else .pending

def indexerStatus (checkpoint : Option ChainCheckpoint) (health : ChainSyncHealth) :
    IndexerStatus :=
  match checkpoint with
  | none => .syncing
  | some _ =>
      if health.healthy then .healthy
      else if health.error ≠ some "CHAIN_SYNC_INCOMPLETE" then .degraded
      else .syncing

def projectionMilestone (operation : ChainOperation) (projectionKey : String)
    (checkpoint : Option ChainCheckpoint) (status : IndexerStatus) (db : Database) :
    Except String ProjectionMilestone :=
  if operation.state = .reorged ∨ status = .degraded then .ok .stale
  else if status = .healthy then do
    match ← db.projection operation.chainId operation.owner operation.target projectionKey with
    | none => return .pending
    | some projection => do
        let ready ← canonicalAncestry operation projection checkpoint db
        return if ready then .ready else .stale
  else .ok .pending

def chainStatus : TransactionState → ChainStatus
  | .awaitingSignature => .pending
  | .submitted => .pending
  | .mined => .included
  | .confirming => .included
  | .confirmed => .softReady
  | .reorged => .reorged
  | .rejected => .failed
  | .reverted => .failed
  | .replaced => .failed
  | .dropped => .failed
  | .reconciliationFailed => .failed

def operationEvidence (operationId projectionKey : String) (db : Database) :
    Except String (Option ProductOperationEvidence) := do
  match ← db.operation operationId with
  | none => return none
  | some operation => do
      let reconciliation := reconciliationStatus operation
      let health ← db.syncHealth operation.chainId operation.target
      let checkpoint ← db.checkpoint operation.chainId operation.target
      let status := indexerStatus checkpoint health
      let projection ← projectionMilestone operation projectionKey checkpoint status db
      return some {
        lifecycle := operation.state
        receipt := operation.receiptStatus
        receiptCanonical := operation.receiptStatus.isSome && operation.canonical
        confirmations := operation.confirmations
        reconciliation, projection
        chainStatus := chainStatus operation.state
        l1Status := "UNKNOWN"
        finalityStatus := "UNKNOWN"
        indexerStatus := status
        degradedReason := if health.error = some "CHAIN_SYNC_INCOMPLETE" then none else health.error
        productReady := decide (operation.state = .confirmed ∧ operation.canonical = true ∧
          reconciliation = .matched ∧ projection = .ready ∧ status = .healthy) }

end Database
end AlphaForge
