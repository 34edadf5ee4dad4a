/-
Reads of the event index: `holders` and `candles` of
`apps/server/src/launch-market/indexer.ts`.

Both fold the canonical events of one kind in the order of the chain.  The errors are
those of a reader that finds the index in a healthy state.
-/
import AlphaForge.Data.Grouped
import AlphaForge.Market.EventIndex
import Mathlib.Data.List.Sort

namespace AlphaForge
namespace EventIndex

open Evm Market

/-- `ORDER BY block_number, log_index`. -/
def before (a b : EventKey × EventRow) : Prop :=
  a.2.blockNumber < b.2.blockNumber ∨
    (a.2.blockNumber = b.2.blockNumber ∧ a.1.logIndex ≤ b.1.logIndex)

instance (a b : EventKey × EventRow) : Decidable (before a b) := by unfold before; infer_instance

/-- The events of the canonical rows that a query selects, in the order of the chain. -/
def Index.select (s : Index) (p : EventRow → Bool) : List IndexedMarketEvent :=
  ((s.events.filter (fun e => p e.2 && e.2.canonical)).insertionSort before).map fun e =>
    e.2.payload

/-- `uint` of a field. -/
def numberField (fields : OrderedMap String FieldValue) (name : String) : Except String Nat :=
  match fields.get? name with
  | some (.number value) => do
      ensure (value < 2 ^ 256) "INVALID_AMOUNT"
      return value
  | _ => .error "INVALID_AMOUNT"

def Manifest.entry (m : Manifest) : StrategyId → StrategyEntry
  | .tsla => m.tsla
  | .amzn => m.amzn

/-! ## `holders` -/

structure Transfer where
  from_ : Address
  to_ : Address
  value : Nat
  deriving DecidableEq

def transferOf (event : IndexedMarketEvent) : Except String Transfer := do
  let value ← numberField event.fields "value"
  let from_ ← addressField event.fields "from"
  let to_ ← addressField event.fields "to"
  return { from_, to_, value }

/-- What a transfer takes and gives; the zero address holds nothing. -/
def Transfer.postings (t : Transfer) : List (Address × Int) :=
  (if t.from_ ≠ 0 then [(t.from_, -(t.value : Int))] else []) ++
    (if t.to_ ≠ 0 then [(t.to_, (t.value : Int))] else [])

def addBalance (old : Option Int) (posting : Address × Int) : Int := old.getD 0 + posting.2

def balancesOf (transfers : List Transfer) : OrderedMap Address Int :=
  .grouped Prod.fst addBalance (transfers.flatMap Transfer.postings)

/-- The transfers of a PASS in the index. -/
def transfers (m : Manifest) (s : Index) (strategy : StrategyId) : Except String (List Transfer) := do
  let pass ← address (m.entry strategy).pass
  (s.select fun row => row.emitter = pass ∧ row.name = .transfer).mapM transferOf

def holders (m : Manifest) (s : Index) (strategy : StrategyId) (limit : Int) :
    Except String (List (Address × Int)) := do
  ensure (1 ≤ limit ∧ limit ≤ 500) "INVALID_HISTORY_LIMIT"
  let transfers ← transfers m s strategy
  let balances := balancesOf transfers
  ensure (balances.all (fun e => 0 ≤ e.2) = true) "HOLDER_PROJECTION_INCOMPLETE"
  return ((balances.filter (fun e => 0 < e.2)).insertionSort (fun a b => b.2 ≤ a.2)).take
    limit.toNat

/-! ## `candles` -/

structure SwapRecord where
  timestamp : Nat
  pass : Nat
  usdc : Nat
  deriving DecidableEq

def swapOf (event : IndexedMarketEvent) : Except String SwapRecord := do
  let buy : Bool := event.fields.get? "buy" = some (.bool true)
  let pass ← numberField event.fields (if buy then "amountOut" else "amountIn")
  let usdc ← numberField event.fields (if buy then "amountIn" else "amountOut")
  return { timestamp := event.timestamp, pass, usdc }

def SwapRecord.price (swap : SwapRecord) : Nat := swap.usdc * 10 ^ 18 / swap.pass

structure Candle where
  timestamp : Nat
  open_ : Nat
  high : Nat
  low : Nat
  close : Nat
  volume : Nat
  deriving DecidableEq

def bucketOf (bucketSeconds : Nat) (swap : SwapRecord) : Nat :=
  swap.timestamp / bucketSeconds * bucketSeconds

def Candle.start (timestamp price usdc : Nat) : Candle :=
  { timestamp, open_ := price, high := price, low := price, close := price, volume := usdc }

def Candle.add (c : Candle) (price usdc : Nat) : Candle :=
  { c with
    high := if c.high < price then price else c.high
    low := if price < c.low then price else c.low
    close := price
    volume := c.volume + usdc }

def Candle.next (current : Option Candle) (timestamp price usdc : Nat) : Candle :=
  match current with
  | some c => c.add price usdc
  | none => .start timestamp price usdc

def addSwap (bucketSeconds : Nat) (current : Option Candle) (swap : SwapRecord) : Candle :=
  .next current (bucketOf bucketSeconds swap) swap.price swap.usdc

/-- The swaps of a strategy that moved PASS, in the order of the chain. -/
def swaps (s : Index) (strategy : StrategyId) : Except String (List SwapRecord) := do
  let all ← (s.select fun row => row.strategy = some strategy ∧ row.name = .swap).mapM swapOf
  return all.filter (fun swap => swap.pass ≠ 0)

def candles (s : Index) (strategy : StrategyId) (bucketSeconds : Nat) (limit : Int) :
    Except String (List Candle) := do
  ensure (bucketSeconds ∈ [60, 300, 900, 3600, 86400] ∧ 1 ≤ limit ∧ limit ≤ 500)
    "INVALID_CANDLE_RANGE"
  let swaps ← swaps s strategy
  let buckets := OrderedMap.grouped (bucketOf bucketSeconds) (addSwap bucketSeconds) swaps
  let sorted := (buckets.map Prod.snd).insertionSort fun a b => a.timestamp ≤ b.timestamp
  return sorted.drop (sorted.length - limit.toNat)

end EventIndex
end AlphaForge
