/-
The calls of a synchronizer on the database, `chain-store.ts`.

Whoever synchronizes a contract first claims its lease with a token of its own.  From
then on each call that writes blocks, projections or the health of the contract has to
show the token, and whoever claims next takes the lease over.  The lease and the
checkpoint both keep the block that has to be reached before the contract is healthy.
-/
import AlphaForge.Indexer.TrackOperation

namespace AlphaForge
namespace Database

open Evm ChainStore Lifecycle

/-! ## Leases -/

/-- `/^[0-9a-f-]{36}$/`. -/
def validOwnerToken (ownerToken : String) : Bool :=
  ownerToken.toList.length = 36 &&
    ownerToken.toList.all (fun x => Text.isHexDigit x || x = '-')

/-- `CASE WHEN sync_target_block_number IS NULL OR sync_target_block_number < ?`. -/
def raisedTarget (previous : Option Int) (target : Int) : Int :=
  match previous with
  | none => target
  | some previous => if previous < target then target else previous

/-- The row of a contract that has a block to reach. -/
def incomplete (target : Int) (row : CheckpointRow) : CheckpointRow :=
  { row with
    syncHealthy := false, syncError := some "CHAIN_SYNC_INCOMPLETE",
    syncTarget := some (raisedTarget row.syncTarget target) }

/-- The row of a contract that cannot be synchronized. -/
def failed (error : String) (row : CheckpointRow) : CheckpointRow :=
  { row with syncHealthy := false, syncError := some error, syncTarget := none }

def settled (row : CheckpointRow) : CheckpointRow :=
  { row with syncHealthy := true, syncError := none, syncTarget := none }

def projectedAt (block : ChainBlock) (row : CheckpointRow) : CheckpointRow :=
  { row with projected := some ⟨block.number, block.hash⟩ }

/-- `UPDATE chain_checkpoints ... WHERE chain_id = ? AND contract_address = ?`. -/
def updateCheckpoint (key : Int × Address) (f : CheckpointRow → CheckpointRow) (db : Database) :
    OrderedMap (Int × Address) CheckpointRow :=
  db.checkpoints.mapValues fun k row => if k = key then f row else row

/-- `DELETE FROM chain_sync_leases ... AND owner_token = ?`. -/
def releaseLease (key : Int × Address) (ownerToken : String) (db : Database) :
    OrderedMap (Int × Address) LeaseRow :=
  db.leases.filter fun e => ¬ (e.1 = key ∧ e.2.ownerToken = ownerToken)

def requiredTarget (key : Int × Address) (db : Database) : Int :=
  max (((db.leases.get? key).map LeaseRow.targetBlock).getD (-1))
    (((db.checkpoints.get? key).bind CheckpointRow.syncTarget).getD (-1))

def claimSync (valueChainId : Int) (contract : Address) (targetBlock : Int) (ownerToken : String)
    (db : Database) : Except String Database := do
  check (validOwnerToken ownerToken = true) "INVALID_CHAIN_SYNC_OWNER"
  let id ← chainId valueChainId
  let target ← safeNumber targetBlock
  check (db.requiredTarget (id, contract) ≤ target) "CHAIN_SYNC_TARGET_BEHIND"
  let claimedTarget := max target (db.requiredTarget (id, contract))
  let targetBlock := match db.leases.get? (id, contract) with
    | none => claimedTarget
    | some lease => if claimedTarget < lease.targetBlock then lease.targetBlock else claimedTarget
  return { db with
    leases := db.leases.set (id, contract) ⟨ownerToken, targetBlock⟩
    checkpoints := db.updateCheckpoint (id, contract) (incomplete claimedTarget) }

def projectionCheckpoint (db : Database) (valueChainId : Int) (contract : Address) :
    Except String (Option ChainCheckpoint) := do
  let id ← chainId valueChainId
  return (db.checkpoints.get? (id, contract)).bind CheckpointRow.projected

/-- With `CHAIN_SYNC_INCOMPLETE` there is a block to reach, and with no other error. -/
def markSyncUnhealthy (valueChainId : Int) (contract : Address) (error : String)
    (targetBlock : Option Int) (ownerToken : Option String) (db : Database) :
    Except String Database := do
  check (error = "CHAIN_SYNC_INCOMPLETE" ↔ targetBlock.isSome = true) "INVALID_CHAIN_SYNC_HEALTH"
  let id ← chainId valueChainId
  let target ← targetBlock.mapM safeNumber
  assertSyncOwner db.log id contract ownerToken
  let mark := match target with
    | some target => incomplete target
    | none => failed error
  check ((db.checkpoints.get? (id, contract)).isSome = true) "CHAIN_CHECKPOINT_NOT_FOUND"
  let leases := match target, ownerToken with
    | none, some token => db.releaseLease (id, contract) token
    | _, _ => db.leases
  return { db with leases, checkpoints := db.updateCheckpoint (id, contract) mark }

/-- The rows that `markSyncHealthy` updates: projected up to the checkpoint, and with
nothing left to reach. -/
def caughtUp (completed : Int) (row : CheckpointRow) : Prop :=
  row.syncError = some "CHAIN_SYNC_INCOMPLETE" ∧ completed ≤ row.blockNumber ∧
    row.projected = some row.place ∧ ∃ target ∈ row.syncTarget, target ≤ completed

instance (completed : Int) : DecidablePred (caughtUp completed) := fun _ => instDecidableAnd

def markSyncHealthy (valueChainId : Int) (contract : Address) (completedTarget : Int)
    (ownerToken : Option String) (db : Database) : Except String (Database × Bool) := do
  let id ← chainId valueChainId
  let completed ← safeNumber completedTarget
  assertSyncOwner db.log id contract ownerToken
  if ∃ row ∈ db.checkpoints.get? (id, contract), caughtUp completed row then do
    let checkpoints := db.updateCheckpoint (id, contract) settled
    match ownerToken with
    | none => return ({ db with checkpoints }, true)
    | some token =>
        return ({ db with checkpoints, leases := db.releaseLease (id, contract) token }, true)
  else return (db, false)

def releaseSyncIncomplete (valueChainId : Int) (contract : Address) (targetBlock : Int)
    (ownerToken : String) (db : Database) : Except String Database := do
  let id ← chainId valueChainId
  let target ← safeNumber targetBlock
  assertSyncOwner db.log id contract (some ownerToken)
  check ((db.checkpoints.get? (id, contract)).isSome = true) "CHAIN_CHECKPOINT_NOT_FOUND"
  return { db with
    checkpoints := db.updateCheckpoint (id, contract) (incomplete target)
    leases := db.releaseLease (id, contract) ownerToken }

def syncTarget (db : Database) (valueChainId : Int) (contract : Address) :
    Except String (Option Int) := do
  let id ← chainId valueChainId
  match db.leases.get? (id, contract) with
  | some lease => return some lease.targetBlock
  | none => return (db.checkpoints.get? (id, contract)).bind CheckpointRow.syncTarget

def recordCanonicalBlock (valueChainId : Int) (contract : Address) (r : Recording)
    (ownerToken : Option String) (db : Database) : Except String Database := do
  let log ← ChainStore.step (.recordCanonicalBlock valueChainId contract r ownerToken) db.log
  return db.withLog log

/-! ## Projections -/

/-- The block is canonical, and it is the checkpoint. -/
def assertCheckpoint (id : Int) (contract : Address) (block : ChainBlock) (db : Database) :
    Except String Unit := do
  let canonical ← db.canonicalBlock id contract block.number
  let checkpoint ← db.checkpoint id contract
  check ((∃ b ∈ canonical, b.hash = block.hash) ∧ checkpoint = some ⟨block.number, block.hash⟩)
    "PROJECTION_BLOCK_NOT_CANONICAL"

/-- One turn of the loop over what is to be committed, with the keys so far. -/
def admitProjection (id : Int) (contract : Address) (block : ChainBlock) (db : Database)
    (keys : List (Address × String)) (projection : ProductProjection) :
    Except String (List (Address × String)) := do
  check (projection.chainId = id ∧ projection.contract = contract ∧
    projection.blockNumber ≤ block.number ∧ isName projection.projectionKey = true)
    "INVALID_PROJECTION"
  let projectionBlock ← db.canonicalBlock id contract projection.blockNumber
  check (∃ b ∈ projectionBlock, b.hash = projection.blockHash) "PROJECTION_BLOCK_NOT_CANONICAL"
  check ((projection.owner, projection.projectionKey) ∉ keys) "DUPLICATE_PROJECTION"
  let _ ← boundedJson (.object projection.state)
  return keys ++ [(projection.owner, projection.projectionKey)]

/-- What is inserted for a projection. -/
def projectionEntry (id : Int) (contract : Address) (projection : ProductProjection) :
    Except String (ProjectionKey × ProjectionRow) := do
  let state ← boundedJson (.object projection.state)
  return (⟨id, projection.owner, contract, projection.projectionKey⟩,
    ⟨projection.blockNumber, projection.blockHash, match state with
      | .object fields => fields
      | _ => []⟩)

def ofContract (id : Int) (contract : Address) (e : ProjectionKey × ProjectionRow) : Prop :=
  e.1.chainId = id ∧ e.1.contract = contract

instance (id : Int) (contract : Address) : DecidablePred (ofContract id contract) :=
  fun _ => instDecidableAnd

/-- The block and the projections are looked at again inside the transaction, where the
tables are the same. -/
def commitProjections (valueChainId : Int) (contract : Address) (block : ChainBlock)
    (projections : List ProductProjection) (ownerToken : Option String) (db : Database) :
    Except String Database := do
  let id ← chainId valueChainId
  let _ ← safeNumber block.number
  assertCheckpoint id contract block db
  let _ ← projections.foldlM (admitProjection id contract block db) []
  assertSyncOwner db.log id contract ownerToken
  let entries ← projections.mapM (projectionEntry id contract)
  return { db with
    projections := db.projections.filter (fun e => ¬ ofContract id contract e) ++ entries
    checkpoints := db.updateCheckpoint (id, contract) (projectedAt block) }

/-- What may be shown of a contract: nothing while it is synchronized, or behind. -/
def projection (db : Database) (valueChainId : Int) (owner contract : Address)
    (projectionKey : String) : Except String (Option ProductProjection) := do
  let id ← chainId valueChainId
  let row := db.projections.get? ⟨id, owner, contract, projectionKey⟩
  check ((db.leases.get? (id, contract)).isNone = true) "CHAIN_SYNC_UNHEALTHY"
  match db.checkpoints.get? (id, contract) with
  | none => do
      check (row.isNone = true) "CORRUPT_CHAIN_DATABASE"
      return none
  | some checkpoint => do
      check (healthValid checkpoint = true) "CORRUPT_CHAIN_DATABASE"
      check (checkpoint.syncHealthy = true) "CHAIN_SYNC_UNHEALTHY"
      check (checkpoint.projected = some checkpoint.place) "CHAIN_PROJECTION_PENDING"
      return row.map fun r =>
        ⟨valueChainId, owner, contract, projectionKey, r.blockNumber, r.blockHash, r.state⟩

end Database
end AlphaForge
