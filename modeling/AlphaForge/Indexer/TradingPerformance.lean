/-
Returns recomputed from the vault's events, `trading-performance.ts`.

Amounts come as decimal text and are checked before use.  The loop over the events
is `record`, one event at a time.
-/
import AlphaForge.Data.OrderedMap
import AlphaForge.Indexer.TradingEvents

namespace AlphaForge
namespace Indexer

open Evm

def raw : Option Datum → Except String Int
  | some (.text v) =>
      if Text.isDecimal 77 v = true ∧ Text.ofDecimal v < 2 ^ 256 then .ok (Text.ofDecimal v)
      else .error "TRADING_PERFORMANCE_INPUT"
  | _ => .error "TRADING_PERFORMANCE_INPUT"

structure Position where
  quantity : Int
  cost : Int
  realized : Int
  deriving DecidableEq

structure Totals where
  contributed : Int
  paidOut : Int
  positions : OrderedMap String Position

/-- One fill, once its stock and side are known. -/
def fill (t : Totals) (stock : String) (buy : Bool) (input output : Option Datum) :
    Except String Totals := do
  let position := (t.positions.get? stock).getD ⟨0, 0, 0⟩
  let input ← raw input
  let output ← raw output
  if input = 0 ∨ output = 0 then .error "TRADING_PERFORMANCE_INPUT"
  else if buy then
    let position := { position with
      quantity := position.quantity + output, cost := position.cost + input }
    .ok { t with positions := t.positions.set stock position }
  else if position.quantity < input then .error "TRADING_PERFORMANCE_NEGATIVE_POSITION"
  else
    let allocatedCost :=
      if input = position.quantity then position.cost
      else (position.cost * input).tdiv position.quantity
    let position := {
      quantity := position.quantity - input, cost := position.cost - allocatedCost,
      realized := position.realized + (output - allocatedCost) }
    .ok { t with positions := t.positions.set stock position }

def record (t : Totals) (event : DecodedContractEvent) : Except String Totals :=
  let e := fun key => event.normalizedData.lookup key
  if event.eventName = "Deposited" then do
    return { t with contributed := t.contributed + (← raw (e "amountUsdc")) }
  else if event.eventName = "Withdrawn" then do
    return { t with paidOut := t.paidOut + (← raw (e "amountUsdc")) }
  else if event.eventName = "Closed" then do
    return { t with paidOut := t.paidOut + (← raw (e "returnedUsdc")) }
  else if event.eventName = "SwapExecuted" then
    match e "stock", e "buy" with
    | some (.text stock), some (.flag buy) =>
        if Text.isHexText 40 stock = true then fill t stock buy (e "input") (e "output")
        else .error "TRADING_PERFORMANCE_INPUT"
    | _, _ => .error "TRADING_PERFORMANCE_INPUT"
  else .ok t

structure Costs where
  dexFees : String := "INCLUDED_IN_FILL_NOT_SEPARATELY_ATTRIBUTED"
  priceImpact : String := "INCLUDED_IN_FILL"
  platformGas : String := "PAID_BY_EXECUTOR_NOT_DEDUCTED_FROM_VAULT_USDC"
  commercialFees : String := "SIMULATION_ONLY"

structure PositionReport where
  stock : String
  quantityRaw : String
  costBasisUsdc : String
  realizedPnlUsdc : String

structure Performance where
  publicationScope : String := "OWNER_ONLY_TESTNET"
  testAssets : Bool := true
  publicStrategyPerformance : String := "NOT_PUBLISHED"
  grossContributedUsdc : String
  paidOutUsdc : String
  netContributedUsdc : String
  vaultEquity : Option String
  pnlUsdc : Option String
  costs : Costs := {}
  positions : List PositionReport

def report (entry : String × Position) : PositionReport :=
  ⟨entry.1, toString entry.2.quantity, toString entry.2.cost, toString entry.2.realized⟩

def tradingPerformance (events : List DecodedContractEvent) (vaultEquity : Option String) :
    Except String Performance := do
  let t ← events.foldlM record ⟨0, 0, []⟩
  let net := t.contributed - t.paidOut
  let pnlUsdc ←
    (match vaultEquity with
    | none => .ok none
    | some v => do return some (toString ((← raw (some (.text v))) - net)))
  return { grossContributedUsdc := toString t.contributed, paidOutUsdc := toString t.paidOut,
           netContributedUsdc := toString net, vaultEquity, pnlUsdc,
           positions := t.positions.map report }

/-- `performance.positions.find((p) => p.stock === stock)?.quantityRaw ?? '0'`. -/
def Performance.quantityRaw (p : Performance) (stock : String) : String :=
  ((p.positions.find? (fun r => r.stock = stock)).map PositionReport.quantityRaw).getD "0"

/-! ## What the vault's events do to the totals -/

theorem raw_word (n : Nat) : raw (some (normalized (word n))) = .ok ((n % 2 ^ 256 : Nat) : Int) := by
  have hlt : n % 2 ^ 256 < 2 ^ 256 := Nat.mod_lt _ (by decide)
  have hlength : n % 2 ^ 256 < 10 ^ (77 + 1) := Nat.lt_of_lt_of_le hlt (by decide)
  simp only [normalized, word, raw]
  rw [if_pos ⟨Text.isDecimal_repr hlength, by rw [Text.ofDecimal_repr]; exact hlt⟩,
    Text.ofDecimal_repr]

/-- The quantity on record for a stock. -/
def Totals.quantity (t : Totals) (stock : String) : Int :=
  ((t.positions.get? stock).getD ⟨0, 0, 0⟩).quantity

/-- A fill in range moves the one quantity as the vault moves its position. -/
theorem fill_word (t : Totals) (stock : String) (buy : Bool) {input output : Nat}
    (hin : input < 2 ^ 256) (hout : output < 2 ^ 256) (hinput : input ≠ 0) (houtput : output ≠ 0)
    (hheld : buy = false → (input : Int) ≤ t.quantity stock) :
    ∃ t', fill t stock buy (some (normalized (word input))) (some (normalized (word output))) =
        .ok t' ∧
      t'.quantity stock = (if buy then t.quantity stock + output else t.quantity stock - input) ∧
      ∀ other, other ≠ stock → t'.quantity other = t.quantity other := by
  have hzero : ¬ ((input : Int) = 0 ∨ (output : Int) = 0) := by omega
  simp only [fill, raw_word, Nat.mod_eq_of_lt hin, Nat.mod_eq_of_lt hout, bind, Except.bind,
    if_neg hzero]
  cases buy with
  | true =>
      refine ⟨_, rfl, ?_, fun other hne => ?_⟩
      · simp [Totals.quantity]
      · simp only [Totals.quantity, OrderedMap.get?_set_of_ne hne]
  | false =>
      have hcovered : ¬ ((t.positions.get? stock).getD ⟨0, 0, 0⟩).quantity < input :=
        Int.not_lt.mpr (hheld rfl)
      simp only [Bool.false_eq_true, if_false, if_neg hcovered]
      refine ⟨_, rfl, ?_, fun other hne => ?_⟩
      · simp [Totals.quantity]
      · simp only [Totals.quantity, OrderedMap.get?_set_of_ne hne]

/-- A fill with an output of nothing is refused whatever is on record. -/
theorem fill_zero (t : Totals) (stock : String) (buy : Bool) (input : Nat) :
    fill t stock buy (some (normalized (word input))) (some (normalized (word 0))) =
      .error "TRADING_PERFORMANCE_INPUT" := by
  simp [fill, raw_word, bind, Except.bind]

theorem record_swap (t : Totals) (version grantVersion : Nat) (stock : Address) (buy : Bool)
    (input output : Nat) :
    record t (performanceEvent (.swapExecuted version grantVersion stock buy input output)) =
      fill t (addressText stock) buy (some (normalized (word input)))
        (some (normalized (word output))) := by
  have htext : Text.isHexText 40 (addressText stock) = true := Text.isHexText_hexText 40 _
  simp [record, performanceEvent, fragment, arguments, swapExecuted, normalizedData, uint256,
    List.lookup_cons, normalized, htext]

/-- Events that trade nothing are all accepted and leave the quantities. -/
theorem record_other {e : TradingVault.Event} (he : e.isSwap = false) (t : Totals) :
    ∃ t', record t (performanceEvent e) = .ok t' ∧ t'.positions = t.positions := by
  cases e with
  | deposited amountUsdc _ _ =>
      refine ⟨{ t with contributed := t.contributed + (amountUsdc % 2 ^ 256 : Nat) }, ?_, rfl⟩
      show (raw (some (normalized (word amountUsdc))) >>= _) = _
      rw [raw_word]
      rfl
  | withdrawn amountUsdc _ _ =>
      refine ⟨{ t with paidOut := t.paidOut + (amountUsdc % 2 ^ 256 : Nat) }, ?_, rfl⟩
      show (raw (some (normalized (word amountUsdc))) >>= _) = _
      rw [raw_word]
      rfl
  | closed returnedUsdc _ =>
      refine ⟨{ t with paidOut := t.paidOut + (returnedUsdc % 2 ^ 256 : Nat) }, ?_, rfl⟩
      show (raw (some (normalized (word returnedUsdc))) >>= _) = _
      rw [raw_word]
      rfl
  | swapExecuted _ _ _ _ _ _ => cases he
  | _ => exact ⟨t, rfl, rfl⟩

end Indexer
end AlphaForge
