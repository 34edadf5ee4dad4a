/-
One poll of the market's event indexer, and its runs.

`tick` brings the index up to the head of the chain and then publishes a snapshot
to the projector.  It writes twice to each of two databases, one transaction at a
time, and what it committed stays when a later step throws.  A crash of the
process is a poll that gets no further, followed by a restart.
-/
import Mathlib.Data.List.Sort
import AlphaForge.Machine.Commit
import AlphaForge.Machine.Run
import AlphaForge.Market.EventIndex
import AlphaForge.Market.Projector

namespace AlphaForge
namespace EventIndex

open Evm Market
open Commit (await write)
open MarketStore (IndexedMarketClaim)
open Projector (MarketSnapshot Store)

/-- The two databases. -/
structure Durable where
  index : Index
  store : Store
  deriving DecidableEq

/-- What one poll is answered, in the order in which it asks. -/
structure Answers where
  chainId : Except String Nat
  latest : Except String IndexBlock
  rewindHeader : Nat → Except String IndexBlock
  scan : ScanAnswers
  /-- `chain.snapshot` of a block. -/
  snapshot : Nat → Bytes32 → Except String MarketSnapshot
  canonicalBlockHash : Nat → Except String (Option Bytes32)
  previousHeader : Nat → Except String IndexBlock

/-- Which of the four transactions of a poll succeed. -/
structure Writes where
  rewound : Bool
  rolledBack : Bool
  scanned : Bool
  published : Bool

abbrev Program := EStateM String Durable

def rewind (m : Manifest) (a : Answers) (w : Writes) (head : IndexBlock) : Program Unit := do
  let s ← get
  match ← await (rewindFrom m s.index a.rewindHeader head) with
  | none => return ()
  | some (start, ancestor) => do
      write w.rewound "INDEX_RPC_FAILED" fun s => { s with index := s.index.rewound start ancestor }
      let store ← await (Projector.rollbackFrom start s.store)
      write w.rolledBack "INDEX_RPC_FAILED" fun s => { s with store }

/-- The scan of the blocks above the cursor, at most `maxBlocks` of them. -/
def advance (c : Config) (maxBlocks : Nat) (a : Answers) (w : Writes) (head : IndexBlock) :
    Program Unit := do
  let s ← get
  let start := s.index.next c.manifest
  let until_ := min (start + maxBlocks - 1) head.number
  if start ≤ until_ then do
    let index ← await (scan c s.index a.scan start until_ head.number)
    write w.scanned "INDEX_RPC_FAILED" fun s => { s with index }
  else return ()

/-- `readSnapshotAt`. -/
def readSnapshotAt (m : Manifest) (a : Answers) (at_ : IndexBlock) :
    Except String MarketSnapshot := do
  let snapshot ← a.snapshot at_.number at_.hash
  ensure (snapshot.location.chainId = m.chainId ∧ snapshot.location.blockNumber = at_.number ∧
    snapshot.location.blockHash = at_.hash) "INDEX_SNAPSHOT_FORK"
  let canonical ← a.canonicalBlockHash at_.number
  ensure (canonical = some at_.hash) "NON_CANONICAL_MARKET_HEAD"
  return snapshot

/-- `ORDER BY block_number,log_index`. -/
def claimOrder (a b : EventKey × EventRow) : Prop :=
  a.2.blockNumber < b.2.blockNumber ∨
    (a.2.blockNumber = b.2.blockNumber ∧ a.1.logIndex ≤ b.1.logIndex)

instance : DecidableRel claimOrder := fun a b => by unfold claimOrder; infer_instance

def isClaim (m : Manifest) (e : EventKey × EventRow) : Bool :=
  e.2.emitter = m.claim ∧ e.2.name = .claim ∧ e.2.canonical = true

/-- The claim that an event row tells of, as of a block. -/
def claimOf (latest : Nat) (payload : IndexedMarketEvent) : Except String IndexedMarketClaim :=
  match payload.fields.get? "accountId" with
  | some (.bytes32 accountKey) => do
      let wallet ← addressField payload.fields "wallet"
      return { accountKey, wallet, location :=
        { payload.location with confirmations := (latest : Int) - payload.location.blockNumber + 1 } }
  | _ => .error "INVALID_HASH"

def indexedClaims (m : Manifest) (s : Index) (latest : Nat) :
    Except String (List IndexedMarketClaim) :=
  ((s.events.filter (isClaim m)).insertionSort claimOrder).mapM (fun e => claimOf latest e.2.payload)

/-- The hash that the chain has at the height of the stored snapshot. -/
def previousCanonicalHash (a : Answers) : Option MarketSnapshot → Except String (Option Bytes32)
  | none => .ok none
  | some previous => do
      let remote ← header a.previousHeader previous.location.blockNumber
      return some remote.hash

/-- What a poll that has caught up commits to the projector. -/
def commitAt (c : Config) (a : Answers) (s : Durable) (latest : IndexBlock) :
    Except String (Option Store) := do
  let snapshot ← readSnapshotAt c.manifest a latest
  let claims ← indexedClaims c.manifest s.index latest.number
  let previousHash ← previousCanonicalHash a s.store.latest
  Projector.commit c.manifest.chainId snapshot latest.parentHash previousHash claims s.store

def publish (c : Config) (a : Answers) (w : Writes) (latest : IndexBlock) : Program Unit := do
  let s ← get
  match ← await (commitAt c a s latest) with
  | none => return ()
  | some store => write w.published "INDEX_RPC_FAILED" fun s => { s with store }

inductive Health where
  | notRun
  | syncing
  | healthy
  | degraded
  deriving DecidableEq

/-- The head of the chain, once it is known to be the right chain. -/
def readHead (m : Manifest) (a : Answers) : Except String IndexBlock := do
  let id ← a.chainId
  ensure (id = m.chainId) "INDEX_WRONG_CHAIN"
  let raw ← a.latest
  block raw

/-- The end of a poll: a snapshot is published once the cursor is at the head. -/
def settle (c : Config) (a : Answers) (w : Writes) (head : IndexBlock) : Program Health := do
  let s ← get
  match s.index.cursor with
  | none => return .syncing
  | some latest =>
      if latest.number < head.number then return .syncing
      else do
        publish c a w latest
        return .healthy

def tick (c : Config) (maxBlocks : Nat) (a : Answers) (w : Writes) : Program Health := do
  let head ← await (readHead c.manifest a)
  rewind c.manifest a w head
  advance c maxBlocks a w head
  settle c a w head

/-! ## Runs -/

/-- The indexer of a process, over the databases. -/
structure System where
  durable : Durable
  maxBlocks : Nat
  state : Health
  error : Option String
  deriving DecidableEq

inductive Action where
  | poll (a : Answers) (w : Writes)
  | restart (maxBlocks : Nat)

/-- `poll`, which leaves the error of an earlier poll while it is syncing. -/
def System.poll (c : Config) (a : Answers) (w : Writes) (s : System) : System :=
  match tick c s.maxBlocks a w s.durable with
  | .ok .healthy durable => { s with durable, state := .healthy, error := none }
  | .ok state durable => { s with durable, state }
  | .error e durable => { s with durable, state := .degraded, error := some e }

/-- The constructor over databases that are there. -/
def start (durable : Durable) (maxBlocks : Nat) : Except String System := do
  ensure (1 ≤ maxBlocks ∧ maxBlocks ≤ 2000) "INVALID_INDEX_POLICY"
  return { durable, maxBlocks, state := .notRun, error := none }

def step (c : Config) : Action → System → Except String System
  | .poll a w, s => .ok (s.poll c a w)
  | .restart maxBlocks, s => start s.durable maxBlocks

/-- The constructor over new databases. -/
def create (c : Config) (maxBlocks : Nat) : Except String System := do
  let index ← Index.create c.manifest
  start { index, store := Store.empty } maxBlocks

end EventIndex
end AlphaForge
