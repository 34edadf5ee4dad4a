/-
Owner submissions of the trading runtime, `trading-chain-runtime.ts`.

A report of a transaction hash reads the operation, waits for the node and saves a
step of what it has read.  While it waits, other reports, the synchronizer and
rollbacks go on.  A step of the machine is one stretch of one call between two
waits, and the calls that wait are part of the state.  A call that throws is over
and leaves the database as it was.

The synchronizer follows one operation at a time.  Its other calls write no
operation, except for the rollback, and stand here as what they may write.
-/
import AlphaForge.Indexer.TrackOperation
import AlphaForge.Machine.Run

namespace AlphaForge
namespace TradingRuntime

open Evm ChainStore Lifecycle Database
open ChainSync (beginTracking onReceipt onReconciled)
open Indexer (ChainReceipt ReconciliationResult)

/-- The owner of `inventory`, and the synchronizer for the vault. -/
structure Config where
  owner : Address
  sync : ChainSync.Config

/-- What a report reads of the transaction the node knows. -/
structure ReportedTransaction where
  chainId : Int
  sender : Address
  recipient : Option Address
  data : HexData
  value : Nat

/-- An `observeOwnerSubmission` that waits for the node. -/
structure Report where
  operation : ChainOperation
  txHash : Bytes32
  epoch : Nat

/-- A `trackOperation` that waits. -/
inductive Tracking where
  | receipt (operation : ChainOperation) (transactionHash : Bytes32) (checkpoint : ChainCheckpoint)
      (latest : ChainBlock)
  | reconciliation (operation : ChainOperation) (receipt : ChainReceipt)
      (checkpoint : ChainCheckpoint) (latest : ChainBlock)

structure State where
  db : Database
  writesPaused : Bool
  closed : Bool
  writeEpoch : Nat
  reports : List Report
  tracking : Option Tracking

inductive Action where
  /-- `prepareOwnerAction`, with the identifier it draws and the call it prepared. -/
  | prepareOwnerAction (operationId : String) (calldata : HexData)
  | observeOwnerSubmission (address : Address) (id : String) (txHash : Bytes32)
  /-- The node answers the report at this place, or fails; then the clock is read. -/
  | transaction (place : Nat) (answer : Except Unit (Option ReportedTransaction))
      (submittedAt : String)
  | trackOperation (id : String) (latest : ChainBlock)
  | receipt (answer : Except Unit (Option ChainReceipt))
  | reconciled (answer : Except Unit ReconciliationResult) (now : String)
  | recordCanonicalBlock (r : Recording) (ownerToken : Option String)
  | rollbackFromBlock (fromBlock : Int) (ownerToken : Option String)
  /-- Any other call of the synchronizer. -/
  | bookkeeping (checkpoints : OrderedMap (Int × Address) CheckpointRow)
      (leases : OrderedMap (Int × Address) LeaseRow)
      (projections : OrderedMap ProjectionKey ProjectionRow)
  | pauseWrites
  | resumeWrites
  | close

section Calls

variable (c : Config) (validTime : String → Bool)

def assertWritable (s : State) : Except String Unit :=
  check (s.writesPaused = false ∧ s.closed = false) "TRADING_WRITES_PAUSED"

/-- `randomUUID` draws an identifier that no operation has. -/
def prepareOwnerAction (operationId : String) (calldata : HexData) (s : State) :
    Except String State := do
  assertWritable s
  check ((s.db.operations.get? operationId).isNone = true) "UUID_IN_USE"
  let operation ← createOperation
    ⟨operationId, c.sync.chainId, c.owner, c.sync.contract, some calldata⟩
  let db ← s.db.saveOperation validTime operation
  return { s with db }

/-- Up to the wait for `rpc.transaction`. -/
def observeOwnerSubmission (address : Address) (id : String) (txHash : Bytes32) (s : State) :
    Except String State := do
  assertWritable s
  check (address = c.owner) "TRADING_OWNER_REQUIRED"
  match ← s.db.operation id with
  | none => .error "TRADING_OPERATION_REQUIRED"
  | some operation => do
      check (operation.owner = c.owner ∧ operation.target = c.sync.contract)
        "TRADING_OPERATION_REQUIRED"
      match operation.txHash with
      | some known => do
          check (known = txHash) "TRADING_SUBMISSION_CONFLICT"
          return s
      | none => return { s with reports := s.reports ++ [⟨operation, txHash, s.writeEpoch⟩] }

/-- The transaction the node knows is the one that was prepared. -/
def transactionMatches (operation : ChainOperation) (tx : ReportedTransaction) : Prop :=
  tx.chainId = c.sync.chainId ∧ tx.sender = c.owner ∧ tx.recipient = some c.sync.contract ∧
    some tx.data = operation.calldata ∧ tx.value = 0

instance (operation : ChainOperation) (tx : ReportedTransaction) :
    Decidable (transactionMatches c operation tx) := by
  unfold transactionMatches; infer_instance

/-- After the wait. -/
def observed (report : Report) (tx : Option ReportedTransaction) (submittedAt : String)
    (s : State) : Except String Database := do
  assertWritable s
  check (report.epoch = s.writeEpoch) "TRADING_WRITES_PAUSED"
  check (∀ t ∈ tx, transactionMatches c report.operation t) "TRADING_TRANSACTION_MISMATCH"
  let next ← transitionOperation validTime report.operation (.submitted report.txHash submittedAt)
  s.db.saveOperation validTime next

/-- The database after a call that may have thrown. -/
def after (db : Database) : Except String Database → Database
  | .ok db' => db'
  | .error _ => db

def step : Action → State → Except String State
  | .prepareOwnerAction operationId calldata, s => prepareOwnerAction c validTime operationId calldata s
  | .observeOwnerSubmission address id txHash, s => observeOwnerSubmission c address id txHash s
  | .transaction place answer submittedAt, s =>
      match s.reports[place]? with
      | none => .error "NO_SUCH_REPORT"
      | some report =>
          let reports := s.reports.eraseIdx place
          match answer with
          | .error _ => .ok { s with reports }
          | .ok tx =>
              .ok { s with db := after s.db (observed c validTime report tx submittedAt s), reports }
  | .trackOperation id latest, s => do
      check (s.tracking.isNone = true) "TRACKING"
      let (operation, transactionHash, checkpoint) ← beginTracking c.sync id latest s.db
      return { s with tracking := some (.receipt operation transactionHash checkpoint latest) }
  | .receipt answer, s =>
      match s.tracking, answer with
      | some (.receipt operation transactionHash checkpoint latest), .ok receipt =>
          match onReceipt validTime operation transactionHash checkpoint receipt s.db with
          | .ok (db, some (operation, receipt)) =>
              .ok { s with
                db, tracking := some (.reconciliation operation receipt checkpoint latest) }
          | .ok (db, none) => .ok { s with db, tracking := none }
          | .error _ => .ok { s with tracking := none }
      | some (.receipt _ _ _ _), .error _ => .ok { s with tracking := none }
      | _, _ => .error "NOT_TRACKING"
  | .reconciled answer now, s =>
      match s.tracking, answer with
      | some (.reconciliation operation receipt checkpoint latest), .ok result =>
          .ok { s with
            db := after s.db
              (onReconciled c.sync validTime operation receipt latest checkpoint result now s.db)
            tracking := none }
      | some (.reconciliation _ _ _ _), .error _ => .ok { s with tracking := none }
      | _, _ => .error "NOT_TRACKING"
  | .recordCanonicalBlock r ownerToken, s => do
      let (log, _) ← ChainStore.recordCanonicalBlock c.sync.chainId c.sync.contract r.block r.events
        r.syncTargetBlock ownerToken s.db.log
      return { s with db := s.db.withLog log }
  | .rollbackFromBlock fromBlock ownerToken, s => do
      let db ← s.db.rollbackFromBlock c.sync.chainId c.sync.contract fromBlock ownerToken
      return { s with db }
  | .bookkeeping checkpoints leases projections, s =>
      .ok { s with db := { s.db with checkpoints, leases, projections } }
  | .pauseWrites, s => do
      assertWritable s
      return { s with writesPaused := true, writeEpoch := s.writeEpoch + 1 }
  | .resumeWrites, s => do
      check (s.writesPaused = true) "NOT_PAUSED"
      return { s with writesPaused := false, writeEpoch := s.writeEpoch + 1 }
  | .close, s => .ok { s with closed := true }

/-- The loop at the end of `syncToHead`. -/
def trackOperations (rpc : ChainSync.Rpc) (latest : ChainBlock) (now : String) (ids : List String)
    (db : Database) : Except String Database :=
  ids.foldlM (ChainSync.trackOperation c.sync validTime rpc latest now) db

/-- A runtime on a database without operations. -/
def start (db : Database) : State := ⟨{ db with operations := [] }, false, false, 0, [], none⟩

end Calls

end TradingRuntime
end AlphaForge
