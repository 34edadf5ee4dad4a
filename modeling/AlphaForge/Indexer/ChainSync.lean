/-
Following one contract up to a block of the chain, `#syncTo` of `chain-sync.ts`.

A call claims the lease of its contract, goes back to the last block the node still has,
rebuilds the projections where that was left undone, and takes one block after the other
with its logs.  It is cut at each use of the database and at each wait, and between two
stretches any other call may come, of this process or of another one on the same
database.  A call whose process stops is never heard of again.
-/
import AlphaForge.Indexer.Database.Sync

namespace AlphaForge
namespace ChainSync

open Evm ChainStore Lifecycle
open Database (ProductProjection)

structure ChainLog where
  address : Address
  blockNumber : Int
  blockHash : Bytes32
  transactionHash : Bytes32
  transactionIndex : Int
  logIndex : Int
  data : HexData
  topics : List HexData
  removed : Bool

structure DecodedContractEvent where
  eventSignature : HexData
  eventName : String
  normalizedData : List (String × Json)

structure ProjectionCandidate where
  owner : Address
  projectionKey : String
  blockNumber : Int
  blockHash : Bytes32
  state : List (String × Json)

/-- A deployed contract, `ContractIntegration` and what the calls read of the manifest.
The projections are those of the events and of the contracts at the block. -/
structure Integration where
  deploymentBlock : Int
  decode : ChainLog → Except String (Option DecodedContractEvent)
  rebuildProjections : List IndexedChainEvent → ChainBlock → List ProjectionCandidate

inductive Phase where
  | rewind
  | remoteCheckpoint (checkpoint : ChainCheckpoint)
  | search (candidate : Int) (searched : Nat)
  | searchRemote (candidate : Int) (searched : Nat) (local_ : Option ChainBlock)
  | recover
  | recoverProjected (checkpoint : ChainCheckpoint)
  | recoverBlock (checkpoint : ChainCheckpoint)
  | recoverEvents (block : ChainBlock)
  | recoverRebuild (block : ChainBlock) (events : List IndexedChainEvent)
  | scan
  | fetch (number : Int)
  | logs (block : ChainBlock)
  | events (block : ChainBlock)
  | rebuild (block : ChainBlock) (events : List IndexedChainEvent)
  | undo (number : Int) (failure : String)
  | finish

structure SyncCall where
  chainId : Int
  contract : Address
  head : Int
  requiredTarget : Int
  maxBlocksPerSync : Int
  reorgSearchLimit : Nat
  ownerToken : String
  phase : Phase

/-- What a call waited for: the node, the integration, or an error of one of them. -/
inductive Answer where
  | block (found : Option ChainBlock)
  | logs (found : List ChainLog)
  | rebuilt
  | failed (error : String)

def Answer.toBlock : Answer → Except String ChainBlock
  | Answer.block (some found) => .ok found
  | Answer.block none => .error "CHAIN_BLOCK_UNAVAILABLE"
  | .failed error => .error error
  | _ => .error "NOT_ANSWERED"

def Answer.toLogs : Answer → Except String (List ChainLog)
  | Answer.logs found => .ok found
  | .failed error => .error error
  | _ => .error "NOT_ANSWERED"

def Answer.toRebuilt : Answer → Except String Unit
  | .rebuilt => .ok ()
  | .failed error => .error error
  | _ => .error "NOT_ANSWERED"

/-- Where a stretch leads: on in the call, or to its end with what it throws. -/
inductive Next where
  | go (phase : Phase)
  | done (failure : Option String)

section Stretches

variable (integration : Integration) (call : SyncCall) (answer : Answer) (db : Database)

def rewind : Except String (Database × Next) := do
  match ← db.checkpoint call.chainId call.contract with
  | none => return (db, .go .recover)
  | some checkpoint => return (db, .go (.remoteCheckpoint checkpoint))

def compareCheckpoint (checkpoint : ChainCheckpoint) : Except String (Database × Next) := do
  let remote ← answer.toBlock
  if remote.hash = checkpoint.blockHash then return (db, .go .recover)
  else return (db, .go (.search (checkpoint.blockNumber - 1) 1))

/-- The search for a block that the node still has, or its end. -/
def search (candidate : Int) (searched : Nat) : Except String (Database × Next) :=
  if integration.deploymentBlock ≤ candidate ∧ searched ≤ call.reorgSearchLimit then do
    let local_ ← db.canonicalBlock call.chainId call.contract candidate
    return (db, .go (.searchRemote candidate searched local_))
  else do
    let failure := if integration.deploymentBlock ≤ candidate then "CHAIN_REORG_DEPTH_EXCEEDED"
      else "CHAIN_REORG_NO_COMMON_ANCESTOR"
    let db ← db.markSyncUnhealthy call.chainId call.contract failure none (some call.ownerToken)
    return (db, .done (some failure))

def compareBlock (candidate : Int) (searched : Nat) (local_ : Option ChainBlock) :
    Except String (Database × Next) := do
  let remote ← answer.toBlock
  if ∃ block ∈ local_, block.hash = remote.hash then do
    let db ← db.rollbackFromBlock call.chainId call.contract (candidate + 1) (some call.ownerToken)
    return (db, .go .recover)
  else return (db, .go (.search (candidate - 1) (searched + 1)))

def recover : Except String (Database × Next) := do
  match ← db.checkpoint call.chainId call.contract with
  | none => return (db, .go .scan)
  | some checkpoint => return (db, .go (.recoverProjected checkpoint))

def recoverProjected (checkpoint : ChainCheckpoint) : Except String (Database × Next) := do
  let projected ← db.projectionCheckpoint call.chainId call.contract
  if projected = some checkpoint then return (db, .go .scan)
  else return (db, .go (.recoverBlock checkpoint))

def recoverBlock (checkpoint : ChainCheckpoint) : Except String (Database × Next) := do
  match ← db.canonicalBlock call.chainId call.contract checkpoint.blockNumber with
  | none => .error "PROJECTION_REBUILD_FAILED"
  | some block => do
      check (block.hash = checkpoint.blockHash) "PROJECTION_REBUILD_FAILED"
      return (db, .go (.recoverEvents block))

/-- The candidates, with the chain and the contract filled in. -/
def productProjections (id : Int) (contract : Address) (events : List IndexedChainEvent)
    (block : ChainBlock) : List ProductProjection :=
  (integration.rebuildProjections events block).map fun projection =>
    ⟨id, projection.owner, contract, projection.projectionKey, projection.blockNumber,
      projection.blockHash, projection.state⟩

def commitRebuilt (block : ChainBlock) (events : List IndexedChainEvent) :
    Except String Database := do
  answer.toRebuilt
  db.commitProjections call.chainId call.contract block
    (productProjections integration call.chainId call.contract events block)
    (some call.ownerToken)

/-- What becomes of an error while the projections are rebuilt. -/
def rebuildFailure (error : String) : String :=
  if error = "CHAIN_SYNC_SUPERSEDED" then error else "PROJECTION_REBUILD_FAILED"

def recoverRebuild (block : ChainBlock) (events : List IndexedChainEvent) :
    Except String (Database × Next) :=
  match commitRebuilt integration call answer db block events with
  | .ok db => .ok (db, .go .scan)
  | .error error => .error (rebuildFailure error)

/-- The number of the block that comes after the checkpoint, or of the first one. -/
def nextNumber (deploymentBlock : Int) (checkpoint : Option ChainCheckpoint) : Int :=
  match checkpoint with
  | some checkpoint => checkpoint.blockNumber + 1
  | none => deploymentBlock

def scan : Except String (Database × Next) := do
  let checkpoint ← db.checkpoint call.chainId call.contract
  let start := nextNumber integration.deploymentBlock checkpoint
  if call.head < start then return (db, .go .finish)
  else do
    let count ← toCount (call.head - start + 1)
    check (count ≤ call.maxBlocksPerSync) "CHAIN_SYNC_RANGE_EXCEEDED"
    return (db, .go (.fetch start))

def fetch (number : Int) : Except String (Database × Next) := do
  let current ← answer.toBlock
  check (current.number = number) "CHAIN_BLOCK_MISMATCH"
  let previous ← db.checkpoint call.chainId call.contract
  check (∀ checkpoint ∈ previous, current.parentHash = checkpoint.blockHash) "CHAIN_BLOCK_MISMATCH"
  return (db, .go (.logs current))

def validLog (block : ChainBlock) (log : ChainLog) : Prop :=
  log.address = call.contract ∧ log.blockNumber = block.number ∧ log.blockHash = block.hash ∧
    log.removed = false

instance (block : ChainBlock) : DecidablePred (validLog call block) :=
  fun _ => instDecidableAnd

/-- A log that the integration does not know is left out. -/
def decodeLog (block : ChainBlock) (log : ChainLog) : Except String (Option IndexedChainEvent) := do
  check (validLog call block log) "CHAIN_LOG_MISMATCH"
  let decoded ← integration.decode log
  return decoded.map fun d =>
    { chainId := call.chainId, address := log.address, blockNumber := log.blockNumber,
      blockHash := log.blockHash, transactionHash := log.transactionHash,
      transactionIndex := log.transactionIndex, logIndex := log.logIndex, data := log.data,
      topics := log.topics, removed := log.removed, eventSignature := d.eventSignature,
      eventName := d.eventName, normalizedData := d.normalizedData }

def decodeLogs (logs : List ChainLog) (block : ChainBlock) :
    Except String (List IndexedChainEvent) := do
  return (← logs.mapM (decodeLog integration call block)).filterMap id

def record (block : ChainBlock) : Except String (Database × Next) := do
  let logs ← answer.toLogs
  let events ← decodeLogs integration call logs block
  let db ← db.recordCanonicalBlock call.chainId call.contract
    ⟨block, events, some call.requiredTarget⟩ (some call.ownerToken)
  return (db, .go (.events block))

def readEvents (k : List IndexedChainEvent → Phase) : Except String (Database × Next) := do
  let events ← canonicalEvents db.log call.chainId call.contract
  return (db, .go (k events))

/-- A block whose projections cannot be rebuilt is taken back. -/
def rebuild (block : ChainBlock) (events : List IndexedChainEvent) : Database × Next :=
  match commitRebuilt integration call answer db block events with
  | .ok db =>
      if block.number < call.head then (db, .go (.fetch (block.number + 1))) else (db, .go .finish)
  | .error error => (db, .go (.undo block.number (rebuildFailure error)))

def undo (number : Int) (failure : String) : Except String (Database × Next) := do
  let db ← db.rollbackFromBlock call.chainId call.contract number (some call.ownerToken)
  return (db, .done (some failure))

def finish : Except String (Database × Next) :=
  if call.head < call.requiredTarget then do
    let db ← db.releaseSyncIncomplete call.chainId call.contract call.requiredTarget call.ownerToken
    return (db, .done none)
  else do
    let (db, marked) ← db.markSyncHealthy call.chainId call.contract call.head (some call.ownerToken)
    return (db, .done (if marked then none else some "CHAIN_SYNC_SUPERSEDED"))

/-- The next stretch of a call.  An error ends it and leaves the database as it was. -/
def resume : Except String (Database × Next) :=
  match call.phase with
  | .rewind => rewind call db
  | .remoteCheckpoint checkpoint => compareCheckpoint answer db checkpoint
  | .search candidate searched => search integration call db candidate searched
  | .searchRemote candidate searched local_ => compareBlock call answer db candidate searched local_
  | .recover => recover call db
  | .recoverProjected checkpoint => recoverProjected call db checkpoint
  | .recoverBlock checkpoint => recoverBlock call db checkpoint
  | .recoverEvents block => readEvents call db (.recoverRebuild block)
  | .recoverRebuild block events => recoverRebuild integration call answer db block events
  | .scan => scan integration call db
  | .fetch number => fetch call answer db number
  | .logs block => record integration call answer db block
  | .events block => readEvents call db (.rebuild block)
  | .rebuild block events => .ok (rebuild integration call answer db block events)
  | .undo number failure => undo call db number failure
  | .finish => finish call db

end Stretches

/-! ## Many calls on one database -/

/-- What a call is made with, and what the node answers before the lease is claimed. -/
structure SyncRequest where
  chainId : Int
  contract : Address
  head : Int
  requiredTarget : Int
  maxBlocksPerSync : Int
  reorgSearchLimit : Nat
  remoteChainId : Int
  remoteHead : Option ChainBlock

structure State where
  db : Database
  calls : List SyncCall
  /-- How many tokens `randomUUID` has given. -/
  drawn : Nat

inductive Action where
  | syncTo (request : SyncRequest)
  | turn (place : Nat) (answer : Answer)
  /-- The process of the call stops. -/
  | crash (place : Nat)
  /-- Calls that follow or record operations write that table only. -/
  | operations (operations : OrderedMap String Database.OperationColumns)

section System

variable (deployed : Int × Address → Integration) (uuid : Nat → String)

def syncTo (request : SyncRequest) (s : State) : Except String State := do
  let integration := deployed (request.chainId, request.contract)
  check (request.remoteChainId = request.chainId) "CHAIN_ID_MISMATCH"
  check (integration.deploymentBlock ≤ request.head) "CHAIN_HEAD_BEFORE_DEPLOYMENT"
  check (request.head ≤ request.requiredTarget) "CHAIN_SYNC_TARGET_BEHIND"
  check (request.remoteHead.isSome = true) "CHAIN_HEAD_UNAVAILABLE"
  check (∀ head ∈ request.remoteHead, head.number = request.head) "CHAIN_BLOCK_MISMATCH"
  let ownerToken := uuid s.drawn
  let db ← s.db.claimSync request.chainId request.contract request.requiredTarget ownerToken
  let call := ⟨request.chainId, request.contract, request.head, request.requiredTarget,
    request.maxBlocksPerSync, request.reorgSearchLimit, ownerToken, .rewind⟩
  return ⟨db, s.calls ++ [call], s.drawn + 1⟩

def step : Action → State → Except String State
  | .syncTo request, s => syncTo deployed uuid request s
  | .turn place answer, s =>
      match s.calls[place]? with
      | none => .error "NOT_SYNCING"
      | some call =>
          match resume (deployed (call.chainId, call.contract)) call answer s.db with
          | .ok (db, .go phase) =>
              .ok { s with db, calls := s.calls.set place { call with phase } }
          | .ok (db, .done _) => .ok { s with db, calls := s.calls.eraseIdx place }
          | .error _ => .ok { s with calls := s.calls.eraseIdx place }
  | .crash place, s => .ok { s with calls := s.calls.eraseIdx place }
  | .operations operations, s => .ok { s with db := { s.db with operations } }

def start : State := ⟨Database.empty, [], 0⟩

end System

end ChainSync
end AlphaForge
