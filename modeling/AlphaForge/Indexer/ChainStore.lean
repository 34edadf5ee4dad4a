/-
The indexer's database of blocks and events, `chain-store.ts`.

Each table is a map from its primary key.  Blocks and events are never deleted: a
rollback only marks them as no longer canonical, and a row that was left so comes
back when its event is recorded again.  Event rows are found by chain, transaction
and log index, whichever contract they belong to.

Hexadecimal text of any case stands for the bytes it spells, and the JSON columns
for the value of their text.  A call that throws leaves the database as it was.
-/
import AlphaForge.Data.Json
import AlphaForge.Data.OrderedMap
import AlphaForge.Evm.Abi
import AlphaForge.Machine.Run

namespace AlphaForge
namespace ChainStore

open Evm

abbrev HexData := List UInt8

def hexDataText (data : HexData) : String :=
  String.ofList ('0' :: 'x' :: data.flatMap (fun b => Text.hexDigits 2 b.toNat))

structure ChainBlock where
  number : Int
  hash : Bytes32
  parentHash : Bytes32
  timestamp : Int
  deriving DecidableEq

structure IndexedChainEvent where
  chainId : Int
  address : Address
  blockNumber : Int
  blockHash : Bytes32
  transactionHash : Bytes32
  transactionIndex : Int
  logIndex : Int
  data : HexData
  topics : List HexData
  removed : Bool
  eventSignature : HexData
  eventName : String
  normalizedData : List (String × Json)
  deriving DecidableEq

structure ChainCheckpoint where
  blockNumber : Int
  blockHash : Bytes32
  deriving DecidableEq

/-! ## Tables -/

structure BlockKey where
  chainId : Int
  contract : Address
  number : Int
  hash : Bytes32
  deriving DecidableEq

structure BlockRow where
  parentHash : Bytes32
  timestamp : Int
  logCount : Nat
  canonical : Bool

structure EventKey where
  chainId : Int
  txHash : Bytes32
  logIndex : Int
  deriving DecidableEq

structure EventRow where
  transactionIndex : Int
  contract : Address
  blockNumber : Int
  blockHash : Bytes32
  data : HexData
  topics : List HexData
  eventSignature : HexData
  eventName : String
  normalized : List (String × Json)
  canonical : Bool
  deriving DecidableEq

structure CheckpointRow where
  blockNumber : Int
  blockHash : Bytes32
  projected : Option ChainCheckpoint := none
  syncHealthy : Bool := true
  syncError : Option String := none
  syncTarget : Option Int := none

inductive TransactionState where
  | awaitingSignature
  | submitted
  | mined
  | confirming
  | confirmed
  | rejected
  | reverted
  | replaced
  | dropped
  | reorged
  | reconciliationFailed
  deriving DecidableEq

/-- The columns of an operation that a rollback reads or writes. -/
structure OperationRow where
  chainId : Int
  target : Address
  state : TransactionState
  blockNumber : Option Int
  canonical : Bool
  reconciled : Bool
  confirmedAt : Option String
  errorCode : Option String

structure Store where
  blocks : OrderedMap BlockKey BlockRow
  checkpoints : OrderedMap (Int × Address) CheckpointRow
  events : OrderedMap EventKey EventRow
  /-- The token of whoever holds the lease. -/
  leases : OrderedMap (Int × Address) String
  transactions : List OperationRow
  /-- Chain and contract of each projection. -/
  projections : List (Int × Address)

/-- A database in which nothing was recorded yet. -/
def fresh (leases : OrderedMap (Int × Address) String) (transactions : List OperationRow)
    (projections : List (Int × Address)) : Store :=
  { blocks := [], checkpoints := [], events := [], leases, transactions, projections }

/-! ## Checks -/

def check (p : Prop) [Decidable p] (code : String) : Except String Unit :=
  if p then .ok () else .error code

def safeNumber (value : Int) : Except String Int := do
  check (0 ≤ value ∧ value ≤ Json.maxSafeInteger) "CHAIN_BLOCK_NUMBER_UNSUPPORTED"
  return value

def chainId (value : Int) : Except String Int := do
  check (0 < value ∧ value ≤ Json.maxSafeInteger) "INVALID_CHAIN_ID"
  return value

def boundedJson (value : Json) : Except String Json :=
  match value.text with
  | none => .error "INVALID_CHAIN_JSON"
  | some json => do
      check (json.byteLength ≤ 65536) "CHAIN_JSON_TOO_LARGE"
      return json

def topicsJson (topics : List HexData) : Json :=
  .array (topics.map (fun t => .string (hexDataText t)))

def payloadFields (event : IndexedChainEvent) : List (String × Json) :=
  [("address", .string (addressText event.address)),
    ("transactionHash", .string (digestText event.transactionHash)),
    ("logIndex", .number event.logIndex),
    ("data", .string (hexDataText event.data)),
    ("topics", topicsJson event.topics),
    ("removed", .bool event.removed),
    ("eventSignature", .string (hexDataText event.eventSignature)),
    ("eventName", .string event.eventName),
    ("normalizedData", .object event.normalizedData)]

def placeFields (event : IndexedChainEvent) : List (String × Json) :=
  [("blockNumber", .string (toString event.blockNumber)),
    ("blockHash", .string (digestText event.blockHash)),
    ("transactionIndex", .number event.transactionIndex)]

def eventFingerprint (event : IndexedChainEvent) : Except String Json :=
  boundedJson (.object (placeFields event ++ payloadFields event))

def eventPayloadFingerprint (event : IndexedChainEvent) : Except String Json :=
  boundedJson (.object (payloadFields event))

/-- `namePattern`. -/
def isName (name : String) : Bool :=
  match name.toList with
  | [] => false
  | d :: ds =>
      d.isAlpha && ds.length ≤ 127 &&
        ds.all (fun x => x.isAlphanum || x = '.' || x = '_' || x = '-')

def validateEvent (event : IndexedChainEvent) (expectedChainId : Int) (contract : Address)
    (block : ChainBlock) : Except String Unit := do
  check (event.chainId = expectedChainId ∧ event.address = contract ∧
    event.blockNumber = block.number ∧ event.blockHash = block.hash ∧ event.removed = false ∧
    (0 ≤ event.transactionIndex ∧ event.transactionIndex ≤ Json.maxSafeInteger) ∧
    (0 ≤ event.logIndex ∧ event.logIndex ≤ Json.maxSafeInteger) ∧ isName event.eventName = true ∧
    event.topics.head? = some event.eventSignature) "INVALID_CHAIN_EVENT"
  let _ ← eventFingerprint event
  return ()

/-- `#assertSyncOwner`. -/
def assertSyncOwner (s : Store) (id : Int) (address : Address) (ownerToken : Option String) :
    Except String Unit :=
  check (s.leases.get? (id, address) = ownerToken) "CHAIN_SYNC_SUPERSEDED"

/-! ## Reading -/

def CheckpointRow.place (row : CheckpointRow) : ChainCheckpoint := ⟨row.blockNumber, row.blockHash⟩

def checkpointAt (s : Store) (id : Int) (address : Address) : Option ChainCheckpoint :=
  (s.checkpoints.get? (id, address)).map CheckpointRow.place

def isCanonicalBlock (id : Int) (address : Address) (e : BlockKey × BlockRow) : Bool :=
  e.1.chainId = id ∧ e.1.contract = address ∧ e.2.canonical = true

def isCanonicalEvent (id : Int) (address : Address) (e : EventKey × EventRow) : Bool :=
  e.1.chainId = id ∧ e.2.contract = address ∧ e.2.canonical = true

def decodeEvent (e : EventKey × EventRow) : IndexedChainEvent :=
  { chainId := e.1.chainId, address := e.2.contract, blockNumber := e.2.blockNumber,
    blockHash := e.2.blockHash, transactionHash := e.1.txHash,
    transactionIndex := e.2.transactionIndex, logIndex := e.1.logIndex, data := e.2.data,
    topics := e.2.topics, removed := false, eventSignature := e.2.eventSignature,
    eventName := e.2.eventName, normalizedData := e.2.normalized }

/-- `ORDER BY block_number, transaction_index, log_index`. -/
def eventOrder (a b : EventKey × EventRow) : Prop :=
  a.2.blockNumber < b.2.blockNumber ∨ (a.2.blockNumber = b.2.blockNumber ∧
    (a.2.transactionIndex < b.2.transactionIndex ∨
      (a.2.transactionIndex = b.2.transactionIndex ∧ a.1.logIndex ≤ b.1.logIndex)))

instance : DecidableRel eventOrder := fun a b => by unfold eventOrder; infer_instance

def canonicalRows (s : Store) (id : Int) (address : Address) : List (EventKey × EventRow) :=
  (s.events.filter (isCanonicalEvent id address)).insertionSort eventOrder

def canonicalEvents (s : Store) (valueChainId : Int) (contract : Address) :
    Except String (List IndexedChainEvent) := do
  let id ← chainId valueChainId
  return (canonicalRows s id contract).map decodeEvent

/-! ## Recording a block -/

def suppliedOrder (left right : IndexedChainEvent) : Prop :=
  left.transactionIndex < right.transactionIndex ∨
    (left.transactionIndex = right.transactionIndex ∧ left.logIndex ≤ right.logIndex)

instance : DecidableRel suppliedOrder := fun a b => by unfold suppliedOrder; infer_instance

def eventKey (id : Int) (event : IndexedChainEvent) : EventKey :=
  ⟨id, event.transactionHash, event.logIndex⟩

/-- The columns written for an event. -/
def eventRow (address : Address) (blockNumber : Int) (item : IndexedChainEvent) :
    Except String EventRow := do
  let _ ← boundedJson (topicsJson item.topics)
  let normalized ← boundedJson (.object item.normalizedData)
  return { transactionIndex := item.transactionIndex, contract := address, blockNumber,
           blockHash := item.blockHash, data := item.data, topics := item.topics,
           eventSignature := item.eventSignature, eventName := item.eventName,
           normalized := match normalized with
             | .object fields => fields
             | _ => [],
           canonical := true }

/-- Whether a row found under an event's key may stand for it. -/
def compareRow (existing : EventKey × EventRow) (item : IndexedChainEvent) :
    Except String Unit := do
  let fingerprint := if existing.2.canonical then eventFingerprint else eventPayloadFingerprint
  let stored ← fingerprint (decodeEvent existing)
  let supplied ← fingerprint item
  check (stored = supplied) "CHAIN_EVENT_CONFLICT"

/-- One turn of the loop over the events, with the number of rows written so far. -/
def recordEvent (id : Int) (address : Address) (blockNumber : Int)
    (table : OrderedMap EventKey EventRow × Nat) (item : IndexedChainEvent) :
    Except String (OrderedMap EventKey EventRow × Nat) :=
  let key := eventKey id item
  match table.1.get? key with
  | some existing => do
      compareRow (key, existing) item
      if existing.canonical then .ok table
      else do
        let row ← eventRow address blockNumber item
        return (table.1.set key row, table.2 + 1)
  | none => do
      let row ← eventRow address blockNumber item
      return (table.1.set key row, table.2 + 1)

/-- The rows of a block that is recorded once more, against what is supplied. -/
def compareEvents : List (EventKey × EventRow) → List IndexedChainEvent → Except String Unit
  | row :: rows, supplied :: rest => do
      check (row.1.txHash = supplied.transactionHash ∧ row.1.logIndex = supplied.logIndex)
        "CHAIN_BLOCK_CONFLICT"
      let stored ← eventFingerprint (decodeEvent row)
      let given ← eventFingerprint supplied
      check (stored = given) "CHAIN_EVENT_CONFLICT"
      compareEvents rows rest
  | _, _ => .ok ()

/-- The table of blocks once the block is known to be new or unchanged. -/
def admitBlock (s : Store) (id : Int) (address : Address) (block : ChainBlock)
    (sorted : List IndexedChainEvent) : Except String (OrderedMap BlockKey BlockRow) :=
  let current := checkpointAt s id address
  match s.blocks.find? (fun e => isCanonicalBlock id address e ∧ e.1.number = block.number) with
  | some (key, existingBlock) => do
      check (¬ (∃ c ∈ current, block.number < c.blockNumber)) "CHAIN_BLOCK_OUT_OF_ORDER"
      check (key.hash = block.hash ∧ existingBlock.logCount = sorted.length) "CHAIN_BLOCK_CONFLICT"
      let existingEvents := (s.events.filter (fun e =>
        isCanonicalEvent id address e ∧ e.2.blockNumber = block.number)).insertionSort eventOrder
      check (existingEvents.length = sorted.length) "CHAIN_BLOCK_CONFLICT"
      compareEvents existingEvents sorted
      return s.blocks
  | none => do
      check (¬ ∃ c ∈ current, ¬ (block.number = c.blockNumber + 1 ∧ block.parentHash = c.blockHash))
        "CHAIN_PARENT_MISMATCH"
      check (∀ c ∈ current, c.blockNumber < block.number) "CHAIN_BLOCK_OUT_OF_ORDER"
      return s.blocks.set ⟨id, address, block.number, block.hash⟩
        ⟨block.parentHash, block.timestamp, sorted.length, true⟩

/-- The checkpoint moves to a block beyond it, with its other columns kept. -/
def advanceCheckpoint (checkpoints : OrderedMap (Int × Address) CheckpointRow) (id : Int)
    (address : Address) (block : ChainBlock) : OrderedMap (Int × Address) CheckpointRow :=
  match checkpoints.get? (id, address) with
  | none => checkpoints.set (id, address) { blockNumber := block.number, blockHash := block.hash }
  | some row =>
      if row.blockNumber < block.number then
        checkpoints.set (id, address)
          { row with blockNumber := block.number, blockHash := block.hash }
      else checkpoints

def setSyncTarget (checkpoints : OrderedMap (Int × Address) CheckpointRow) (id : Int)
    (address : Address) (syncTargetBlock : Option Int) :
    Except String (OrderedMap (Int × Address) CheckpointRow) :=
  match syncTargetBlock with
  | none => .ok checkpoints
  | some target => do
      let target ← safeNumber target
      match checkpoints.get? (id, address) with
      | none => .error "CHAIN_CHECKPOINT_NOT_FOUND"
      | some row =>
          let syncTarget := match row.syncTarget with
            | none => target
            | some previous => if previous < target then target else previous
          return checkpoints.set (id, address)
            { row with
              syncHealthy := false, syncError := some "CHAIN_SYNC_INCOMPLETE",
              syncTarget := some syncTarget }

/-- The checks before the transaction starts, which give the events in order. -/
def validateBlock (id : Int) (contract : Address) (block : ChainBlock)
    (events : List IndexedChainEvent) (syncTargetBlock : Option Int) :
    Except String (List IndexedChainEvent) := do
  let _ ← safeNumber block.number
  check (0 ≤ block.timestamp ∧ events.length ≤ 10000) "INVALID_CHAIN_BLOCK"
  check (∀ target ∈ syncTargetBlock, block.number ≤ target) "INVALID_CHAIN_SYNC_TARGET"
  events.forM (fun item => validateEvent item id contract block)
  let sorted := events.insertionSort suppliedOrder
  check ((sorted.map (eventKey id)).Nodup) "CHAIN_EVENT_CONFLICT"
  return sorted

def recordCanonicalBlock (valueChainId : Int) (contract : Address) (block : ChainBlock)
    (events : List IndexedChainEvent) (syncTargetBlock : Option Int) (ownerToken : Option String)
    (s : Store) : Except String (Store × Nat × ChainCheckpoint) := do
  let id ← chainId valueChainId
  let sorted ← validateBlock id contract block events syncTargetBlock
  assertSyncOwner s id contract ownerToken
  let blocks ← admitBlock s id contract block sorted
  let (events, insertedEvents) ← sorted.foldlM (recordEvent id contract block.number) (s.events, 0)
  let checkpoints ←
    setSyncTarget (advanceCheckpoint s.checkpoints id contract block) id contract syncTargetBlock
  return ({ s with blocks, events, checkpoints }, insertedEvents, ⟨block.number, block.hash⟩)

/-! ## Rolling back -/

def reorgable (state : TransactionState) : Bool :=
  state ∈ [.mined, .confirming, .confirmed, .reverted, .reconciliationFailed]

def displacedBlock (id : Int) (address : Address) (number : Int) (e : BlockKey × BlockRow) : Prop :=
  isCanonicalBlock id address e = true ∧ number ≤ e.1.number

def displacedEvent (id : Int) (address : Address) (number : Int) (e : EventKey × EventRow) : Prop :=
  isCanonicalEvent id address e = true ∧ number ≤ e.2.blockNumber

def displacedOperation (id : Int) (address : Address) (number : Int) (o : OperationRow) : Prop :=
  o.chainId = id ∧ o.target = address ∧ (∃ n ∈ o.blockNumber, number ≤ n) ∧ reorgable o.state = true

instance (id : Int) (address : Address) (number : Int) :
    DecidablePred (displacedBlock id address number) := fun _ => instDecidableAnd

instance (id : Int) (address : Address) (number : Int) :
    DecidablePred (displacedEvent id address number) := fun _ => instDecidableAnd

instance (id : Int) (address : Address) (number : Int) :
    DecidablePred (displacedOperation id address number) := fun _ => instDecidableAnd

def orphanBlocks (id : Int) (address : Address) (number : Int)
    (blocks : OrderedMap BlockKey BlockRow) : OrderedMap BlockKey BlockRow :=
  blocks.mapValues fun key row =>
    if displacedBlock id address number (key, row) then { row with canonical := false } else row

def orphanEvents (id : Int) (address : Address) (number : Int)
    (events : OrderedMap EventKey EventRow) : OrderedMap EventKey EventRow :=
  events.mapValues fun key row =>
    if displacedEvent id address number (key, row) then { row with canonical := false } else row

/-- `ORDER BY block_number DESC`. -/
def blockOrder (a b : BlockKey × BlockRow) : Prop := b.1.number ≤ a.1.number

instance : DecidableRel blockOrder := fun a b => Int.decLe b.1.number a.1.number

/-- The checkpoint goes back to the highest canonical block, or away when there is none. -/
def restoreCheckpoint (checkpoints : OrderedMap (Int × Address) CheckpointRow) (id : Int)
    (address : Address) (blocks : OrderedMap BlockKey BlockRow) :
    OrderedMap (Int × Address) CheckpointRow :=
  match ((blocks.filter (isCanonicalBlock id address)).insertionSort blockOrder).head? with
  | some previous => checkpoints.mapValues fun key row =>
      if key = (id, address) then
        { row with
          blockNumber := previous.1.number, blockHash := previous.1.hash, projected := none }
      else row
  | none => checkpoints.filter (fun e => e.1 ≠ (id, address))

/-- The number of blocks, events, operations and projections that changed. -/
structure RollbackCount where
  blocks : Nat
  events : Nat
  operations : Nat
  projections : Nat
  deriving DecidableEq

def rollbackFromBlock (valueChainId : Int) (contract : Address) (fromBlock : Int)
    (ownerToken : Option String) (s : Store) : Except String (Store × RollbackCount) := do
  let id ← chainId valueChainId
  let number ← safeNumber fromBlock
  assertSyncOwner s id contract ownerToken
  let blocks := orphanBlocks id contract number s.blocks
  let events := orphanEvents id contract number s.events
  let transactions := s.transactions.map fun o =>
    if displacedOperation id contract number o then
      { o with
        state := .reorged, canonical := false, reconciled := false, confirmedAt := none,
        errorCode := some "CHAIN_REORG" }
    else o
  let projections := s.projections.filter (fun p => p ≠ (id, contract))
  let checkpoints := restoreCheckpoint s.checkpoints id contract blocks
  return ({ s with blocks, events, transactions, projections, checkpoints },
    ⟨s.blocks.countP (displacedBlock id contract number),
      s.events.countP (displacedEvent id contract number),
      s.transactions.countP (displacedOperation id contract number),
      s.projections.countP (fun p => p = (id, contract))⟩)

/-! ## Calls -/

/-- What is supplied for one block. -/
structure Recording where
  block : ChainBlock
  events : List IndexedChainEvent
  syncTargetBlock : Option Int

inductive Call where
  | recordCanonicalBlock (valueChainId : Int) (contract : Address) (r : Recording)
      (ownerToken : Option String)
  | rollbackFromBlock (valueChainId : Int) (contract : Address) (fromBlock : Int)
      (ownerToken : Option String)

def step : Call → Store → Except String Store
  | .recordCanonicalBlock valueChainId contract r ownerToken, s => do
      return (← recordCanonicalBlock valueChainId contract r.block r.events r.syncTargetBlock
        ownerToken s).1
  | .rollbackFromBlock valueChainId contract fromBlock ownerToken, s => do
      return (← rollbackFromBlock valueChainId contract fromBlock ownerToken s).1

end ChainStore
end AlphaForge
