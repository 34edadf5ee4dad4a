/-
The durable market projection, `MarketProjector` of `packages/launch-market` over
the tables of `LaunchMarketStore` that it writes.

Snapshots and claim events are kept by block, and a rollback marks those from a
height on as not canonical.  Each write takes the next version.
-/
import Mathlib.Data.List.MinMax
import AlphaForge.Market.MarketStore

namespace AlphaForge
namespace Projector

open Evm Market
open MarketStore (IndexedMarketClaim)

structure StrategyMarketSnapshot where
  pass : Address
  pool : Option Address
  totalSupplyRaw : Nat
  publicSupplyRaw : Nat
  soldRaw : Nat
  remainingRaw : Nat
  reservePassRaw : Nat
  reserveUsdcRaw : Nat
  deriving DecidableEq

structure MarketSnapshot where
  location : ChainLocation
  tsla : StrategyMarketSnapshot
  amzn : StrategyMarketSnapshot
  successfulClaims : Int
  remainingClaims : Int
  /-- The text of the members that are only carried. -/
  other : String
  deriving DecidableEq

structure SnapshotRow where
  parentHash : Bytes32
  version : Nat
  payload : MarketSnapshot
  canonical : Bool
  deriving DecidableEq

/-- The projector's own tables, beside the rest of the store. -/
structure Store where
  snapshots : OrderedMap (Nat × Bytes32) SnapshotRow
  version : Nat
  market : MarketStore.Store
  deriving DecidableEq

def Store.empty : Store := { snapshots := [], version := 0, market := MarketStore.Store.empty }

def latestRow (snapshots : OrderedMap (Nat × Bytes32) SnapshotRow) :
    Option ((Nat × Bytes32) × SnapshotRow) :=
  (snapshots.filter (fun e => e.2.canonical)).argmax (fun e => e.1.1)

def Store.latest (s : Store) : Option MarketSnapshot := (latestRow s.snapshots).map (fun e => e.2.payload)

/-! ## `commit` -/

/-- `config.uint`. -/
def uint (value : Nat) : Except String Unit := ensure (value < 2 ^ 256) "INVALID_AMOUNT"

def checkMarket (market : StrategyMarketSnapshot) : Except String Unit := do
  let _ ← address market.pass
  market.pool.toList.forM (fun pool => do let _ ← address pool)
  [market.totalSupplyRaw, market.publicSupplyRaw, market.soldRaw, market.remainingRaw,
    market.reservePassRaw, market.reserveUsdcRaw].forM uint

def checkSnapshot (chainId : Nat) (snapshot : MarketSnapshot) : Except String Unit := do
  ensure (snapshot.location.chainId = chainId ∧ snapshot.location.blockNumber ≤ maxSafeInteger ∧
    1 ≤ snapshot.location.confirmations) "INVALID_PROJECTION_LOCATION"
  [snapshot.tsla, snapshot.amzn].forM checkMarket
  ensure (0 ≤ snapshot.successfulClaims ∧ snapshot.successfulClaims ≤ 100 ∧
    snapshot.remainingClaims = 100 - snapshot.successfulClaims) "INVALID_CLAIM_PROJECTION"

/-- The place of a snapshot against that of the one before it. -/
def checkPrevious (location previous : ChainLocation) (previousCanonicalHash : Option Bytes32) :
    Except String Unit := do
  ensure (previous.blockNumber ≤ location.blockNumber) "OLD_MARKET_UPDATE"
  ensure (location.blockNumber = previous.blockNumber → location.blockHash = previous.blockHash)
    "REORG_REQUIRED"
  ensure (previous.blockNumber < location.blockNumber →
    previousCanonicalHash = some previous.blockHash) "REORG_REQUIRED"

/-- The snapshot that is there already, with no claims to observe. -/
def repeats (snapshot previous : MarketSnapshot) (claims : List IndexedMarketClaim) : Bool :=
  snapshot.location.blockNumber = previous.location.blockNumber ∧
    { snapshot with location := previous.location } = previous ∧ claims.isEmpty = true

def versioned (snapshot : MarketSnapshot) (version : Nat) : MarketSnapshot :=
  { snapshot with location := { snapshot.location with version } }

/-- A snapshot row, under the index of one canonical row to a height and that of
versions. -/
def insertSnapshot (table : OrderedMap (Nat × Bytes32) SnapshotRow) (snapshot : MarketSnapshot)
    (parentHash : Bytes32) (version : Nat) :
    Except String (OrderedMap (Nat × Bytes32) SnapshotRow) := do
  let key := (snapshot.location.blockNumber, snapshot.location.blockHash)
  ensure (table.all (fun e => e.1 = key ∨
    (e.2.version ≠ version ∧ (e.1.1 ≠ key.1 ∨ e.2.canonical = false))) = true)
    "UNIQUE constraint failed: market_snapshots"
  return table.set key
    (match table.get? key with
      | some row => { row with version, payload := versioned snapshot version, canonical := true }
      | none => { parentHash, version, payload := versioned snapshot version, canonical := true })

/-- One turn of the loop over the claims. -/
def commitClaim (chainId blockNumber : Nat) (market : MarketStore.Store)
    (claim : IndexedMarketClaim) : Except String MarketStore.Store := do
  ensure (claim.location.blockNumber ≤ blockNumber) "FUTURE_CLAIM_EVENT"
  MarketStore.observeClaim chainId claim market

/-- The transaction of a commit. -/
def Store.committed (s : Store) (chainId : Nat) (snapshot : MarketSnapshot) (parentHash : Bytes32)
    (claims : List IndexedMarketClaim) : Except String Store := do
  let snapshots ← insertSnapshot s.snapshots snapshot parentHash (s.version + 1)
  let market ← claims.foldlM (commitClaim chainId snapshot.location.blockNumber) s.market
  return { snapshots, market, version := s.version + 1 }

/-- `commit`, with `none` when the stored snapshot is returned as it is. -/
def commit (chainId : Nat) (snapshot : MarketSnapshot) (parentHash : Bytes32)
    (previousCanonicalHash : Option Bytes32) (claims : List IndexedMarketClaim) (s : Store) :
    Except String (Option Store) := do
  checkSnapshot chainId snapshot
  match s.latest with
  | none => some <$> s.committed chainId snapshot parentHash claims
  | some previous => do
      checkPrevious snapshot.location previous.location previousCanonicalHash
      if repeats snapshot previous claims = true then return none
      else some <$> s.committed chainId snapshot parentHash claims

/-! ## `rollbackFrom` -/

def orphanSnapshots (start : Nat) (table : OrderedMap (Nat × Bytes32) SnapshotRow) :
    OrderedMap (Nat × Bytes32) SnapshotRow :=
  table.mapValues fun key row => if start ≤ key.1 then { row with canonical := false } else row

/-- The snapshot that is latest after a rollback takes the new version. -/
def renumber (latest : MarketSnapshot) (version : Nat)
    (table : OrderedMap (Nat × Bytes32) SnapshotRow) :
    Except String (OrderedMap (Nat × Bytes32) SnapshotRow) := do
  let place := (latest.location.blockNumber, latest.location.blockHash)
  ensure (table.all (fun e => e.1 = place ∨ e.2.version ≠ version) = true)
    "UNIQUE constraint failed: market_snapshots.version"
  return table.mapValues fun key row =>
    if key = place then { row with payload := versioned latest version, version } else row

def rollbackFrom (start : Nat) (s : Store) : Except String Store := do
  ensure (start ≤ maxSafeInteger) "INVALID_PROJECTION_LOCATION"
  let snapshots := orphanSnapshots start s.snapshots
  let version := s.version + 1
  let snapshots ← (match (latestRow snapshots).map (fun e => e.2.payload) with
    | none => .ok snapshots
    | some latest => renumber latest version snapshots)
  return { snapshots, market := MarketStore.rollbackClaims start s.market, version }

end Projector
end AlphaForge
