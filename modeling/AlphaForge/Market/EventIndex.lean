/-
The event index of the launch market, `apps/server/src/launch-market/indexer.ts`.

The index keeps blocks, watched addresses and decoded events, and a cursor on the
last block it took.  A rewind marks what lies above the common ancestor as not
canonical, and a scan takes a batch of blocks above the cursor.  Addresses are
discovered from the events of the batch that is being scanned.

Hexadecimal text of any case stands for the bytes it spells, and `none` in place
of a block hash is the text `STATIC`.  An answer that does not have the shape of a
block, a log or an address is an answer that failed.
-/
import Mathlib.Data.List.MinMax
import AlphaForge.Data.OrderedMap
import AlphaForge.Market.Types

namespace AlphaForge
namespace EventIndex

open Evm Market

inductive StrategyId where
  | tsla
  | amzn
  deriving DecidableEq

structure StrategyEntry where
  pass : Address
  launch : Option Address
  pool : Option Address

/-- The part of a `LaunchMarketManifest` that the index reads, once it has passed
`validateManifest`. -/
structure Manifest where
  chainId : Nat
  deploymentBlock : Nat
  claim : Address
  poolFactory : Address
  vaultFactory : Option Address
  tsla : StrategyEntry
  amzn : StrategyEntry
  /-- The addresses for which a runtime code hash is given. -/
  runtimeCodeHashes : List Address

structure IndexBlock where
  number : Nat
  hash : Bytes32
  parentHash : Bytes32
  timestamp : Nat
  deriving DecidableEq

structure RawLog where
  address : Address
  blockNumber : Nat
  blockHash : Bytes32
  transactionHash : Bytes32
  logIndex : Nat
  topics : List Bytes32
  data : List UInt8
  removed : Bool
  deriving DecidableEq

/-! ## `marketEventInterface` -/

inductive InputType where
  | address
  | uint256
  | uint64
  | uint8
  | bool
  | bytes32
  deriving DecidableEq

inductive EventName where
  | transfer
  | approval
  | poolCreated
  | vaultCreated
  | swap
  | sync
  | liquidityAdded
  | liquidityRemoved
  | subscription
  | soldOut
  | launch
  | mintOpened
  | claim
  | conversion
  | nativeTrade
  | deposited
  | withdrawn
  | closed
  | trackedPositionChanged
  | trackedUsdcBalanceChanged
  | swapped
  | executorConfigured
  | strategyExecuted
  | passLocked
  | passUnlocked
  deriving DecidableEq

def EventName.inputs : EventName → List (String × InputType)
  | .transfer => [("from", .address), ("to", .address), ("value", .uint256)]
  | .approval => [("owner", .address), ("spender", .address), ("value", .uint256)]
  | .poolCreated =>
      [("pass", .address), ("pool", .address), ("lpRecipient", .address), ("shares", .uint256)]
  | .vaultCreated =>
      [("owner", .address), ("strategyIndex", .uint8), ("vault", .address),
        ("generation", .uint256)]
  | .swap =>
      [("payer", .address), ("recipient", .address), ("buy", .bool), ("amountIn", .uint256),
        ("amountOut", .uint256), ("fee", .uint256)]
  | .sync => [("reservePass", .uint256), ("reserveUsdc", .uint256)]
  | .liquidityAdded | .liquidityRemoved =>
      [("recipient", .address), ("passAmount", .uint256), ("usdcAmount", .uint256),
        ("shares", .uint256)]
  | .subscription =>
      [("payer", .address), ("passAmount", .uint256), ("usdcAmount", .uint256),
        ("ethAmount", .uint256), ("totalSold", .uint256)]
  | .soldOut => [("totalSold", .uint256)]
  | .launch =>
      [("pool", .address), ("lpRecipient", .address), ("passAmount", .uint256),
        ("usdcAmount", .uint256), ("lpShares", .uint256)]
  | .mintOpened =>
      [("publicInventory", .uint256), ("lpPass", .uint256), ("lpUsdc", .uint256),
        ("lpRecipient", .address)]
  | .claim =>
      [("accountId", .bytes32), ("wallet", .address), ("nonce", .uint256), ("amount", .uint256),
        ("totalClaims", .uint256)]
  | .conversion =>
      [("accountId", .bytes32), ("payer", .address), ("operation", .uint8),
        ("usdcAmount", .uint256), ("ethAmount", .uint256), ("fee", .uint256)]
  | .nativeTrade =>
      [("accountId", .bytes32), ("payer", .address), ("pass", .address), ("buy", .bool),
        ("passAmount", .uint256), ("usdcAmount", .uint256), ("ethAmount", .uint256)]
  | .deposited =>
      [("owner", .address), ("usdcAmount", .uint256), ("passRaw", .uint256),
        ("principalBasis", .uint256), ("trackedUsdcBalance", .uint256)]
  | .withdrawn =>
      [("owner", .address), ("usdcAmount", .uint256), ("profitAmount", .uint256),
        ("principalAmount", .uint256), ("passRawUnlocked", .uint256),
        ("principalBasis", .uint256), ("trackedUsdcBalance", .uint256)]
  | .closed => [("owner", .address), ("usdcReturned", .uint256), ("passRawReleased", .uint256)]
  | .trackedPositionChanged =>
      [("token", .address), ("previousAmount", .uint256), ("newAmount", .uint256)]
  | .trackedUsdcBalanceChanged => [("previousBalance", .uint256), ("newBalance", .uint256)]
  | .swapped =>
      [("trader", .address), ("buy", .bool), ("input", .uint256), ("output", .uint256)]
  | .executorConfigured =>
      [("executor", .address), ("expiresAt", .uint64), ("version", .uint256)]
  | .strategyExecuted =>
      [("buy", .bool), ("input", .uint256), ("output", .uint256), ("version", .uint256)]
  | .passLocked | .passUnlocked => [("owner", .address), ("amount", .uint256)]

/-- A decoded argument.  Its text is what the source keeps, and the texts of two
values of one type differ when the values do. -/
inductive FieldValue where
  | address (value : Address)
  | number (value : Nat)
  | bool (value : Bool)
  | bytes32 (value : Bytes32)
  deriving DecidableEq

def InputType.field (type : InputType) (word : Nat) : FieldValue :=
  match type with
  | .address => .address (BitVec.ofNat 160 word)
  | .bool => .bool (word ≠ 0)
  | .bytes32 => .bytes32 (BitVec.ofNat 256 word)
  | .uint256 | .uint64 | .uint8 => .number word

/-- What `Interface.parseLog` finds: the event and its arguments as words. -/
structure ParsedLog where
  name : EventName
  args : List Nat
  deriving DecidableEq

def ParsedLog.fields (parsed : ParsedLog) : OrderedMap String FieldValue :=
  (parsed.name.inputs.zip parsed.args).map fun e => (e.1.1, e.1.2.field e.2)

structure IndexedMarketEvent where
  name : EventName
  emitter : Address
  strategyId : Option StrategyId
  fields : OrderedMap String FieldValue
  timestamp : Nat
  location : ChainLocation
  deriving DecidableEq

/-- The manifest, and the decoder of the event interface. -/
structure Config where
  manifest : Manifest
  parseLog : List Bytes32 → List UInt8 → Option ParsedLog

/-! ## Tables -/

inductive WatchKind where
  | static
  | pass
  | pool
  | vault
  | locker
  | stock
  deriving DecidableEq

structure BlockRow where
  parentHash : Bytes32
  timestamp : Nat
  canonical : Bool
  deriving DecidableEq

structure WatchRow where
  kind : WatchKind
  strategy : Option StrategyId
  number : Nat
  canonical : Bool
  deriving DecidableEq

structure EventRow where
  blockNumber : Nat
  emitter : Address
  name : EventName
  strategy : Option StrategyId
  payload : IndexedMarketEvent
  canonical : Bool
  deriving DecidableEq

abbrev WatchTable := OrderedMap (Address × Option Bytes32) WatchRow

structure Index where
  blocks : OrderedMap (Nat × Bytes32) BlockRow
  cursorRow : Option (Nat × Bytes32)
  watch : WatchTable
  events : OrderedMap EventKey EventRow
  deriving DecidableEq

def strategyForPass (m : Manifest) (pass : Address) : Except String (Option StrategyId) := do
  let pass ← address pass
  return if m.tsla.pass = pass then some .tsla else if m.amzn.pass = pass then some .amzn else none

def StrategyEntry.names (entry : StrategyEntry) (target : Address) : Bool :=
  entry.pass = target ∨ entry.launch = some target ∨ entry.pool = some target

def strategyForAddress (m : Manifest) (target : Address) : Option StrategyId :=
  if m.tsla.names target then some .tsla else if m.amzn.names target then some .amzn else none

/-- `watch`: a row that is there keeps its height. -/
def watch (target : Address) (kind : WatchKind) (strategy : Option StrategyId) (height : Nat)
    (blockHash : Option Bytes32) (table : WatchTable) : Except String WatchTable := do
  let target ← address target
  return table.set (target, blockHash)
    (match table.get? (target, blockHash) with
      | some row => { row with kind, strategy, canonical := true }
      | none => { kind, strategy, number := height, canonical := true })

/-- The rows a new database starts with. -/
def staticWatch (m : Manifest) : Except String WatchTable := do
  let height := m.deploymentBlock
  let table ← m.runtimeCodeHashes.foldlM
    (fun table target => watch target .static (strategyForAddress m target) height none table) []
  let table ← watch m.tsla.pass .pass (some .tsla) height none table
  let table ← m.tsla.pool.toList.foldlM
    (fun table pool => watch pool .pool (some .tsla) height none table) table
  let table ← watch m.amzn.pass .pass (some .amzn) height none table
  m.amzn.pool.toList.foldlM
    (fun table pool => watch pool .pool (some .amzn) height none table) table

def Index.create (m : Manifest) : Except String Index := do
  let table ← staticWatch m
  return { blocks := [], cursorRow := none, watch := table, events := [] }

/-- `cursor`: the block row the cursor names, if it is canonical. -/
def Index.cursor (s : Index) : Option IndexBlock :=
  s.cursorRow.bind fun key => (s.blocks.get? key).bind fun row =>
    if row.canonical then some ⟨key.1, key.2, row.parentHash, row.timestamp⟩ else none

/-- Where the next scan starts. -/
def Index.next (m : Manifest) (s : Index) : Nat :=
  s.cursor.elim m.deploymentBlock (fun cursor => cursor.number + 1)

/-! ## Decoding -/

/-- `block`, on an answer that has the shape of one. -/
def block (raw : IndexBlock) : Except String IndexBlock := do
  ensure (raw.number ≤ maxSafeInteger ∧ raw.timestamp ≤ maxSafeInteger) "INDEX_BLOCK_RANGE"
  return raw

/-- `header` of a height. -/
def header (answer : Nat → Except String IndexBlock) (height : Nat) : Except String IndexBlock := do
  let raw ← answer height
  let result ← block raw
  ensure (result.number = height) "INDEX_BLOCK_IDENTITY"
  return result

/-- `rows`. -/
def rows (value : List RawLog) : Except String (List RawLog) := do
  ensure (value.length ≤ 50000) "INDEX_LOG_LIMIT"
  return value

/-- `ORDER BY number DESC`, with the rows of one address met in the order of their
hash, in which every hash of a block comes before `STATIC`. -/
def watchRank (e : (Address × Option Bytes32) × WatchRow) : Nat :=
  2 * e.2.number + (if e.1.2 = none then 0 else 1)

def watchedRow (table : WatchTable) (emitter : Address) :
    Option ((Address × Option Bytes32) × WatchRow) :=
  (table.filter (fun e => e.1.1 = emitter ∧ e.2.canonical = true)).argmax watchRank

def watchedStrategy (table : WatchTable) (emitter : Address) : Option StrategyId :=
  (watchedRow table emitter).bind (fun e => e.2.strategy)

def addressField (fields : OrderedMap String FieldValue) (name : String) :
    Except String Address :=
  match fields.get? name with
  | some (.address value) => .ok value
  | _ => .error "INVALID_ADDRESS"

/-- The strategy an event belongs to: that of its emitter, unless its own arguments
say it. -/
def attribution (m : Manifest) (table : WatchTable) (emitter : Address) (name : EventName)
    (fields : OrderedMap String FieldValue) : Except String (Option StrategyId) :=
  match name with
  | .poolCreated | .nativeTrade => do
      let pass ← addressField fields "pass"
      strategyForPass m pass
  | .vaultCreated =>
      .ok (if fields.get? "strategyIndex" = some (.number 0) then some .tsla
        else if fields.get? "strategyIndex" = some (.number 1) then some .amzn else none)
  | _ => .ok (watchedStrategy table emitter)

def decodeParsed (c : Config) (table : WatchTable) (header : IndexBlock) (head : Nat)
    (raw : RawLog) (parsed : ParsedLog) : Except String IndexedMarketEvent := do
  let emitter ← address raw.address
  let strategyId ← attribution c.manifest table emitter parsed.name parsed.fields
  return { name := parsed.name, emitter, strategyId, fields := parsed.fields,
           timestamp := header.timestamp,
           location :=
             { chainId := c.manifest.chainId, blockNumber := raw.blockNumber,
               blockHash := header.hash, transactionHash := some raw.transactionHash,
               logIndex := some raw.logIndex, version := 0,
               confirmations := (head : Int) - raw.blockNumber + 1 } }

def decode (c : Config) (table : WatchTable) (headers : List IndexBlock) (head : Nat)
    (raw : RawLog) : Except String (Option IndexedMarketEvent) :=
  match headers.find? (fun b => b.number = raw.blockNumber) with
  | none => .error "INDEX_LOG_CANONICAL_MISMATCH"
  | some header => do
      ensure (raw.blockHash = header.hash ∧ raw.removed = false ∧ raw.logIndex ≤ maxSafeInteger)
        "INDEX_LOG_CANONICAL_MISMATCH"
      match c.parseLog raw.topics raw.data with
      | none => return none
      | some parsed => do
          let event ← decodeParsed c table header head raw parsed
          return some event

/-! ## `rewind` -/

/-- The hash of the canonical row of a height. -/
def Index.canonicalAt (s : Index) (height : Nat) : Option Bytes32 :=
  (s.blocks.find? (fun e => e.1.1 = height ∧ e.2.canonical = true)).map (fun e => e.1.2)

/-- The loop over the offsets below the cursor. -/
def findAncestor (m : Manifest) (s : Index) (answer : Nat → Except String IndexBlock)
    (head cursor : Nat) : List Nat → Except String (Option IndexBlock)
  | [] => .ok none
  | offset :: rest =>
      -- `height < deploymentBlock`, where the height may be negative
      if cursor < m.deploymentBlock + offset then .ok none
      else if head < cursor - offset then findAncestor m s answer head cursor rest
      else match s.canonicalAt (cursor - offset) with
        | none => findAncestor m s answer head cursor rest
        | some hash => do
            let remote ← header answer (cursor - offset)
            if remote.hash = hash then .ok (some remote)
            else findAncestor m s answer head cursor rest

/-- The transaction of a rewind. -/
def Index.rewound (s : Index) (start : Nat) (ancestor : Option IndexBlock) : Index :=
  { blocks := s.blocks.mapValues fun key row =>
      if start ≤ key.1 then { row with canonical := false } else row
    events := s.events.mapValues fun _ row =>
      if start ≤ row.blockNumber then { row with canonical := false } else row
    watch := s.watch.mapValues fun key row =>
      if start ≤ row.number ∧ key.2 ≠ none then { row with canonical := false } else row
    cursorRow := ancestor.map fun b => (b.number, b.hash) }

/-- Whether the chain still has the cursor's block. -/
def stillThere (answer : Nat → Except String IndexBlock) (head cursor : IndexBlock) :
    Except String Bool :=
  if cursor.number ≤ head.number then do
    let remote ← header answer cursor.number
    return (remote.hash = cursor.hash : Bool)
  else .ok false

/-- Where a rewind starts, with the ancestor, or `none` when the cursor stands. -/
def rewindFrom (m : Manifest) (s : Index) (answer : Nat → Except String IndexBlock)
    (head : IndexBlock) : Except String (Option (Nat × Option IndexBlock)) :=
  match s.cursor with
  | none => .ok none
  | some cursor => do
      let stands ← stillThere answer head cursor
      if stands = true then return none
      else do
        let ancestor ← findAncestor m s answer head.number cursor.number (List.range' 1 128)
        ensure (ancestor ≠ none ∨ cursor.number < m.deploymentBlock + 128)
          "INDEX_REORG_DEPTH_EXCEEDED"
        return some (ancestor.elim m.deploymentBlock (fun b => b.number + 1), ancestor)

/-! ## `scan` -/

inductive IdentityMethod where
  | passLocker
  | targetStock
  deriving DecidableEq

def IdentityMethod.kind : IdentityMethod → WatchKind
  | .passLocker => .locker
  | .targetStock => .stock

structure Dynamic where
  target : Address
  kind : WatchKind
  strategy : StrategyId
  event : IndexedMarketEvent

/-- What a scan is answered, in the order in which it asks. -/
structure ScanAnswers where
  header : Nat → Except String IndexBlock
  discoveryLogs : List Address → Nat → Nat → Except String (List RawLog)
  /-- `eth_call` of the vault that an event created, at a height. -/
  identity : IndexedMarketEvent → IdentityMethod → Nat → Except String Address
  logs : List Address → Nat → Nat → Except String (List RawLog)
  headerAgain : Nat → Except String IndexBlock

def scanHeaders (answer : Nat → Except String IndexBlock) (start until_ : Nat) :
    Except String (List IndexBlock) :=
  (List.range' start (until_ + 1 - start)).mapM (header answer)

def checkLinks : Option IndexBlock → List IndexBlock → Except String Unit
  | _, [] => .ok ()
  | previous, current :: rest => do
      ensure (∀ p ∈ previous, current.parentHash = p.hash) "INDEX_PARENT_MISMATCH"
      checkLinks (some current) rest

def discoveryTargets (m : Manifest) : List Address := m.poolFactory :: m.vaultFactory.toList

/-- Whether an event of the factories makes an address known. -/
def isDiscovery (m : Manifest) (event : IndexedMarketEvent) : Except String Bool :=
  if event.strategyId = none then .ok false
  else match event.name with
    | .poolCreated => .ok (event.emitter = m.poolFactory)
    | .vaultCreated =>
        match m.vaultFactory with
        | none => .error "INVALID_ADDRESS"
        | some factory => .ok (event.emitter = factory)
    | _ => .ok false

def discovery (c : Config) (table : WatchTable) (headers : List IndexBlock) (head : Nat)
    (raw : RawLog) : Except String (Option IndexedMarketEvent) := do
  let emitter ← address raw.address
  ensure (emitter ∈ discoveryTargets c.manifest) "INDEX_UNWATCHED_LOG"
  match ← decode c table headers head raw with
  | none => return none
  | some event => do
      let known ← isDiscovery c.manifest event
      return if known = true then some event else none

/-- The addresses that one discovery makes known. -/
def dynamicOf (a : ScanAnswers) (until_ : Nat) (event : IndexedMarketEvent) :
    Except String (List Dynamic) :=
  match event.strategyId, event.name with
  | some strategy, .poolCreated => do
      let target ← addressField event.fields "pool"
      return [{ target, kind := .pool, strategy, event }]
  | some strategy, .vaultCreated => do
      let target ← addressField event.fields "vault"
      let _ ← address target
      let locker ← a.identity event .passLocker until_
      let stock ← a.identity event .targetStock until_
      return [{ target, kind := .vault, strategy, event },
        { target := locker, kind := IdentityMethod.passLocker.kind, strategy, event },
        { target := stock, kind := IdentityMethod.targetStock.kind, strategy, event }]
  | _, _ => .ok []

def canonicalAddresses (table : WatchTable) : List Address :=
  (table.filter (fun e => e.2.canonical)).map (fun e => e.1.1)

structure Batch where
  headers : List IndexBlock
  dynamic : List Dynamic
  rawEvents : List RawLog

/-- What a scan gathers before it writes. -/
def gather (c : Config) (s : Index) (a : ScanAnswers) (start until_ head : Nat) :
    Except String Batch := do
  let headers ← scanHeaders a.header start until_
  checkLinks s.cursor headers
  let answered ← a.discoveryLogs (discoveryTargets c.manifest) start until_
  let raw ← rows answered
  let found ← raw.mapM (discovery c s.watch headers head)
  let dynamic ← (found.filterMap id).mapM (dynamicOf a until_)
  let dynamic := dynamic.flatten
  let known ← dynamic.mapM (fun item => address item.target)
  let targets := (canonicalAddresses s.watch ++ known).eraseDups
  let answered ← a.logs targets start until_
  let rawEvents ← rows answered
  rawEvents.forM fun raw => do
    let emitter ← address raw.address
    ensure (emitter ∈ targets) "INDEX_UNWATCHED_LOG"
  let again ← header a.headerAgain until_
  ensure (∀ b ∈ headers.getLast?, again.hash = b.hash) "INDEX_REORG_DURING_SCAN"
  return { headers, dynamic, rawEvents }

/-- A block row, under the index of one canonical block to a height. -/
def insertBlock (table : OrderedMap (Nat × Bytes32) BlockRow) (b : IndexBlock) :
    Except String (OrderedMap (Nat × Bytes32) BlockRow) := do
  ensure (table.all (fun e => e.1.1 ≠ b.number ∨ e.1.2 = b.hash ∨ e.2.canonical = false) = true)
    "UNIQUE constraint failed: event_index_blocks.number"
  return table.set (b.number, b.hash)
    (match table.get? (b.number, b.hash) with
      | some row => { row with canonical := true }
      | none => ⟨b.parentHash, b.timestamp, true⟩)

def IndexedMarketEvent.key (event : IndexedMarketEvent) : Option EventKey :=
  event.location.transactionHash.bind fun transactionHash =>
    event.location.logIndex.map fun logIndex =>
      ⟨transactionHash, logIndex, event.location.blockHash⟩

/-- An event row: one that is there is made canonical again with a new payload, and
its other columns stay. -/
def insertEvent (table : OrderedMap EventKey EventRow) (event : IndexedMarketEvent) :
    OrderedMap EventKey EventRow :=
  match event.key with
  | none => table
  | some key =>
      table.set key
        (match table.get? key with
          | some row => { row with payload := event, canonical := true }
          | none =>
              { blockNumber := event.location.blockNumber, emitter := event.emitter,
                name := event.name, strategy := event.strategyId, payload := event,
                canonical := true })

def watchDynamic (table : WatchTable) (item : Dynamic) : Except String WatchTable :=
  watch item.target item.kind (some item.strategy) item.event.location.blockNumber
    (some item.event.location.blockHash) table

/-- The transaction of a scan. -/
def Index.scanned (c : Config) (s : Index) (head : Nat) (batch : Batch) : Except String Index := do
  let table ← batch.dynamic.foldlM watchDynamic s.watch
  let decoded ← batch.rawEvents.mapM (decode c table batch.headers head)
  let blocks ← batch.headers.foldlM insertBlock s.blocks
  return { blocks, watch := table, events := (decoded.filterMap id).foldl insertEvent s.events,
           cursorRow := batch.headers.getLast?.map fun b => (b.number, b.hash) }

def scan (c : Config) (s : Index) (a : ScanAnswers) (start until_ head : Nat) :
    Except String Index := do
  let batch ← gather c s a start until_ head
  s.scanned c head batch

end EventIndex
end AlphaForge
