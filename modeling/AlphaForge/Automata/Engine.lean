/-
The bot engine, `packages/automata/src/engine.ts`, with the types and checks of
`model.ts`, the targets of `strategy-protocol.ts` and the frames of `fixtures.ts`.

An amount of a run or a frame is the integer that its text spells, and `amount` is
the check that every read of it makes.  Amounts that come with a request are text.
The engine works on a copy, so a call that throws has no effect.
-/
import AlphaForge.Data.OrderedMap
import AlphaForge.Evm.Exec
import AlphaForge.Text.Digits
import Mathlib.Data.List.Sort

namespace AlphaForge
namespace Automata

open Evm

/-! ## Amounts -/

def scale : Int := 1000000

def bps : Int := 10000

/-- `amount` of a text that spells `value`. -/
def amount (value : Int) : Except String Int := do
  ensure (0 ≤ value ∧ value < 10 ^ 24) "INVALID_AMOUNT"
  return value

/-- `amount` of the text of a request. -/
def amountText (value : String) : Except String Int := do
  ensure (Text.isDecimal 23 value = true) "INVALID_AMOUNT"
  return Text.ofDecimal value

def isSafeInteger (n : Int) : Prop := -(2 ^ 53 - 1) ≤ n ∧ n ≤ 2 ^ 53 - 1

instance (n : Int) : Decidable (isSafeInteger n) := by unfold isSafeInteger; infer_instance

def isIdChar (d : Char) : Bool :=
  ('a' ≤ d && d ≤ 'z') || ('A' ≤ d && d ≤ 'Z') || ('0' ≤ d && d ≤ '9') || d = '_' || d = '-'

def isId (value : String) : Bool :=
  value.toList.all isIdChar && 1 ≤ value.toList.length && value.toList.length ≤ 80

/-! ## Model -/

def assets : List String := ["rwa-a", "rwa-b"]

inductive Limits where
  | off
  | percent (upperBps lowerBps : Option Int)
  | price (assetId : String) (upper lower : Option String)
  deriving DecidableEq

inductive StrategyMode where
  | rebalance
  | external
  deriving DecidableEq

structure Parameters where
  strategyMode : Option StrategyMode
  weights : OrderedMap String Int
  deviationBps : Int
  intervalMs : Int
  feeBps : Int
  maxSlippageBps : Int
  limits : Limits
  deriving DecidableEq

structure Quote where
  assetId : String
  bid : Int
  ask : Int
  reference : Option Int
  observedAt : Int
  expiresAt : Int
  capacity : Int
  slippageBps : Int
  available : Bool
  deriving DecidableEq

structure Frame where
  seq : Int
  at' : Int
  quotes : List Quote
  deriving DecidableEq

inductive Side where
  | buy
  | sell
  deriving DecidableEq

inductive Purpose where
  | rebalance
  | liquidation
  deriving DecidableEq

structure Trade where
  id : String
  at' : Int
  assetId : String
  side : Side
  quantity : Int
  price : Int
  fee : Int
  cashAfter : Int
  purpose : Purpose
  deriving DecidableEq

structure Position where
  quantity : Int
  cost : Int
  deriving DecidableEq

inductive RunStatus where
  | running
  | paused
  | liquidating
  | blocked
  | stopped
  deriving DecidableEq

inductive TriggerReason where
  | manual
  | upper
  | lower
  deriving DecidableEq

structure Trigger where
  reason : TriggerReason
  at' : Int
  equity : Int
  deriving DecidableEq

structure LastDecision where
  id : String
  frameSeq : Int
  at' : Int
  targets : OrderedMap String Int
  trades : Nat
  deriving DecidableEq

/-- A line of the run's history, with the return before it is rounded to a float. -/
structure HistoryEntry where
  at' : Int
  equity : Int
  returnBps : Int
  status : RunStatus
  reason : Option String
  deriving DecidableEq

structure Run where
  id : String
  parameters : Parameters
  status : RunStatus
  cursor : Int
  clock : Int
  /-- The frame that `lastFrame` spells. -/
  lastFrame : Option Frame
  nextDecisionAt : Int
  cash : Int
  positions : OrderedMap String Position
  quotes : OrderedMap String Quote
  usedCapacity : OrderedMap String Int
  initialCash : Int
  netContributed : Int
  unitsNumerator : Int
  unitsDenominator : Int
  emptyNumerator : Int
  emptyDenominator : Int
  fees : Int
  realizedPnl : Int
  trades : List Trade
  trigger : Option Trigger
  reason : Option String
  history : List HistoryEntry
  lastDecision : Option LastDecision
  deriving DecidableEq

inductive Action where
  | decision (id : String) (frameSeq : Int) (targets : OrderedMap String Int)
  | frame (frame : Frame)
  | stop
  | pause
  | resume
  | fund (inward : Bool) (amount : String)
  deriving DecidableEq

/-- An integer field of the parameters. -/
def integer (v min max : Int) : Prop := isSafeInteger v ∧ min ≤ v ∧ v ≤ max

instance (v min max : Int) : Decidable (integer v min max) := by unfold integer; infer_instance

def validateLimits (p : Parameters) : Except String Unit :=
  match p.limits with
  | .off => .ok ()
  | .percent upperBps lowerBps => do
      ensure (upperBps ≠ none ∨ lowerBps ≠ none) "INVALID_PARAMETERS"
      ensure (∀ v ∈ upperBps, integer v 1 1000000) "INVALID_PARAMETERS"
      ensure (∀ v ∈ lowerBps, integer v (-10000) (-1)) "INVALID_PARAMETERS"
  | .price assetId upper lower => do
      ensure (p.weights.get? assetId ≠ none) "INVALID_PARAMETERS"
      ensure (upper ≠ none ∨ lower ≠ none) "INVALID_PARAMETERS"
      forM upper.toList fun text => do
        let v ← amountText text
        ensure (0 < v) "INVALID_PARAMETERS"
      forM lower.toList fun text => do
        let v ← amountText text
        ensure (0 < v) "INVALID_PARAMETERS"
      match upper, lower with
      | some upper, some lower => do
          let u ← amountText upper
          let l ← amountText lower
          ensure (l < u) "INVALID_PARAMETERS"
      | _, _ => .ok ()

def validateParameters (p : Parameters) : Except String Unit := do
  ensure (p.weights ≠ [] ∧ p.weights.length ≤ assets.length ∧
    (∀ e ∈ p.weights, e.1 ∈ assets ∧ integer e.2 0 10000) ∧ (p.weights.map (·.2)).sum ≤ 10000)
    "INVALID_PARAMETERS"
  ensure (integer p.deviationBps 1 10000 ∧ integer p.intervalMs 1000 86400000 ∧
    integer p.feeBps 0 1000 ∧ integer p.maxSlippageBps 0 1000) "INVALID_PARAMETERS"
  validateLimits p

def validateTargets (targets : OrderedMap String Int) (eligible : List String) :
    Except String Unit :=
  ensure (targets.length ≤ eligible.length ∧
    (∀ e ∈ targets, e.1 ∈ eligible ∧ integer e.2 0 10000) ∧ (targets.map (·.2)).sum ≤ 10000)
    "STRATEGY_TARGETS"

/-! ## Valuation -/

def ceil (n d : Int) : Int := (n + d - 1) / d

def fresh (run : Run) (q : Quote) : Bool :=
  q.available && q.observedAt ≤ run.clock && run.clock ≤ q.expiresAt

/-- The quote of an asset, if it can be used. -/
def freshQuote (run : Run) (id : String) : Option Quote :=
  (run.quotes.get? id).filter (fresh run)

def bidOf (run : Run) (id : String) : Int := ((run.quotes.get? id).map (·.bid)).getD 0

def positionWorth (run : Run) (e : String × Position) : Except String Int := do
  let quantity ← amount e.2.quantity
  let bid ← amount (bidOf run e.1)
  return quantity * bid / scale

def equity (run : Run) : Except String Int := do
  let cash ← amount run.cash
  let worth ← run.positions.mapM (positionWorth run)
  return cash + worth.sum

/-- The return before it is rounded to a float.  A division by zero throws. -/
def returnBps (run : Run) : Except String Int :=
  if run.unitsNumerator ≠ 0 then do
    let value ← equity run
    return ((value * run.unitsDenominator - run.unitsNumerator) * bps).tdiv run.unitsNumerator
  else do
    ensure (run.emptyDenominator ≠ 0) "Division by zero"
    return ((run.emptyNumerator - run.emptyDenominator) * bps).tdiv run.emptyDenominator

def createRun (id : String) (cash : String) (parameters : Parameters) : Except String Run := do
  ensure (isId id = true) "INVALID_ID"
  let amount ← amountText cash
  ensure (0 < amount) "NO_ACTIVE_FUNDS"
  validateParameters parameters
  return { id, parameters, status := .running, cursor := 0, clock := 0, lastFrame := none,
           nextDecisionAt := 0, cash := amount, positions := [], quotes := [], usedCapacity := [],
           initialCash := amount, netContributed := amount, unitsNumerator := amount,
           unitsDenominator := 1, emptyNumerator := 1, emptyDenominator := 1, fees := 0,
           realizedPnl := 0, trades := [], trigger := none, reason := none, history := [],
           lastDecision := none }

/-! ## Frames -/

/-- One quote of a frame, after those of the assets in `seen`. -/
def validQuote (run : Run) (frame : Frame) (seen : List String) (q : Quote) : Prop :=
  q.assetId ∈ assets ∧ q.assetId ∉ seen ∧
    (0 < q.bid ∧ q.bid < 10 ^ 24) ∧ (q.bid ≤ q.ask ∧ q.ask < 10 ^ 24) ∧
    (0 ≤ q.capacity ∧ q.capacity < 10 ^ 24) ∧
    (∀ r ∈ q.reference, 0 < r ∧ r < 10 ^ 24) ∧
    (isSafeInteger q.observedAt ∧ 0 ≤ q.observedAt ∧ q.observedAt ≤ frame.at') ∧
    (isSafeInteger q.expiresAt ∧ q.observedAt ≤ q.expiresAt) ∧
    (isSafeInteger q.slippageBps ∧ 0 ≤ q.slippageBps ∧ q.slippageBps ≤ 10000) ∧
    ∀ before ∈ run.quotes.get? q.assetId,
      before.observedAt ≤ q.observedAt ∧ (q.observedAt = before.observedAt → q = before)

instance (run : Run) (frame : Frame) (seen : List String) (q : Quote) :
    Decidable (validQuote run frame seen q) := by unfold validQuote; infer_instance

def validQuotes (run : Run) (frame : Frame) : List String → List Quote → Except String Unit
  | _, [] => .ok ()
  | seen, q :: rest => do
      ensure (validQuote run frame seen q) "INVALID_QUOTE"
      validQuotes run frame (q.assetId :: seen) rest

def validateFrame (run : Run) (frame : Frame) : Except String Unit := do
  ensure (isSafeInteger frame.seq ∧ frame.seq = run.cursor + 1 ∧ isSafeInteger frame.at' ∧
    run.clock < frame.at') "FRAME_ORDER"
  ensure (frame.quotes.length ≤ assets.length) "INVALID_QUOTE"
  validQuotes run frame [] frame.quotes

/-- A quote goes into the run, and a new observation has its whole capacity. -/
def addQuote (run : Run) (q : Quote) : Run :=
  let seen := (run.quotes.get? q.assetId).map (·.observedAt)
  { run with
    usedCapacity := if seen ≠ some q.observedAt then run.usedCapacity.set q.assetId 0
      else run.usedCapacity
    quotes := run.quotes.set q.assetId q }

/-- `every`, which stops at the first that fails. -/
def everyM {α : Type} (p : α → Except String Bool) : List α → Except String Bool
  | [] => .ok true
  | a :: rest => do
      let holds ← p a
      if holds then everyM p rest else return false

def valuationsFresh (run : Run) : Except String Bool :=
  everyM (fun e => do
    let quantity ← amount e.2.quantity
    return decide (quantity = 0 ∨ freshQuote run e.1 ≠ none)) run.positions

def flatPositions (run : Run) : Except String Bool :=
  everyM (fun e => do
    let quantity ← amount e.2.quantity
    return decide (quantity = 0)) run.positions

/-! ## Trades -/

def setTrigger (run : Run) (reason : TriggerReason) : Except String Run := do
  match run.trigger with
  | some _ => return { run with status := .liquidating }
  | none => do
      let value ← equity run
      return { run with
        trigger := some { reason, at' := run.clock, equity := value }, status := .liquidating }

/-- The trigger that a limit sets: the lower one is looked at first. -/
def limitReason (lower upper : Bool) : Option TriggerReason :=
  if lower then some .lower else if upper then some .upper else none

def reached (run : Run) : Except String (Option TriggerReason) :=
  match run.parameters.limits with
  | .off => .ok none
  | .percent upperBps lowerBps =>
      if run.unitsNumerator ≠ 0 then do
        let valued ← valuationsFresh run
        if valued then do
          let value ← equity run
          let numerator := (value * run.unitsDenominator - run.unitsNumerator) * bps
          return limitReason (lowerBps.any (fun l => numerator ≤ l * run.unitsNumerator))
            (upperBps.any (fun u => u * run.unitsNumerator ≤ numerator))
        else return none
      else .ok none
  | .price assetId upper lower =>
      match freshQuote run assetId with
      | none => .ok none
      | some q => do
          let bid ← amount q.bid
          let lower ← lower.mapM amountText
          let upper ← upper.mapM amountText
          return limitReason (lower.any (fun l => bid ≤ l)) (upper.any (fun u => u ≤ bid))

def limits (run : Run) : Except String Run :=
  if run.trigger ≠ none ∨ run.status = .stopped then .ok run
  else do
    match ← reached run with
    | none => return run
    | some reason => setTrigger run reason

def stale : String := "报价缺失、过期或交易场所不可用"

def Side.quoted (side : Side) (q : Quote) : Int :=
  match side with
  | .buy => q.ask
  | .sell => q.bid

def Side.price (side : Side) (quoted slippageBps : Int) : Int :=
  match side with
  | .buy => ceil (quoted * (bps + slippageBps)) bps
  | .sell => quoted * (bps - slippageBps) / bps

def Side.gross (side : Side) (quantity price : Int) : Int :=
  match side with
  | .buy => ceil (quantity * price) scale
  | .sell => quantity * price / scale

/-- The most that the position or the cash allows. -/
def Side.most (side : Side) (held cash price feeBps : Int) : Int :=
  match side with
  | .sell => held
  | .buy => cash * bps * scale / (price * (bps + feeBps))

def feeOf (run : Run) (gross : Int) : Int := ceil (gross * run.parameters.feeBps) bps

/-- One unit less, if a buy and its fee take more than the cash. -/
def affordable (run : Run) (side : Side) (cash quantity price : Int) : Int :=
  let gross := side.gross quantity price
  if side = .buy ∧ cash < gross + feeOf run gross then quantity - 1 else quantity

def Side.position (side : Side) (held spent quantity gross fee cost : Int) : Position :=
  match side with
  | .buy => { quantity := held + quantity, cost := spent + gross + fee }
  | .sell => { quantity := held - quantity, cost := spent - cost }

def Side.cashAfter (side : Side) (cash gross fee : Int) : Int :=
  match side with
  | .buy => cash - gross - fee
  | .sell => cash + gross - fee

def Side.pnlAfter (side : Side) (pnl gross fee cost : Int) : Int :=
  match side with
  | .buy => pnl
  | .sell => pnl + gross - fee - cost

/-- A buy or a sale at the quote, for as much as its capacity, the cash and the position
allow. -/
def trade (run : Run) (id : String) (side : Side) (requested : Int) (purpose : Purpose) :
    Except String Run :=
  if requested ≤ 0 then .ok run
  else match freshQuote run id with
  | none => .ok { run with reason := some stale }
  | some q =>
      if run.parameters.maxSlippageBps < q.slippageBps then
        .ok { run with reason := some "滑点超出配置上限" }
      else do
        let capacity ← amount q.capacity
        let used ← amount ((run.usedCapacity.get? id).getD 0)
        let position := (run.positions.get? id).getD { quantity := 0, cost := 0 }
        let quoted ← amount (side.quoted q)
        let price := side.price quoted q.slippageBps
        if price ≤ 0 then return { run with reason := some "无有效成交价格" }
        else do
          let held ← amount position.quantity
          let cash ← amount run.cash
          let most := min (min requested (capacity - used))
            (side.most held cash price run.parameters.feeBps)
          if most ≤ 0 then return { run with reason := some "报价容量或可用资金不足" }
          else do
            let quantity := affordable run side cash most price
            let gross := side.gross quantity price
            let fee := feeOf run gross
            if quantity ≤ 0 ∨ gross ≤ fee ∨ (side = .buy ∧ cash < gross + fee) then
              return { run with reason := some "最小成交单位或费用约束阻止成交" }
            else do
              let spent ← amount position.cost
              let cost := if quantity = held then spent else spent * quantity / held
              let paid ← amount run.fees
              return { run with
                cash := side.cashAfter cash gross fee
                realizedPnl := side.pnlAfter run.realizedPnl gross fee cost
                positions := run.positions.set id (side.position held spent quantity gross fee cost)
                fees := paid + fee
                usedCapacity := run.usedCapacity.set id (used + quantity)
                trades := run.trades ++ [{
                  id := run.id ++ "-" ++ toString (run.trades.length + 1), at' := run.clock,
                  assetId := id, side, quantity, price, fee,
                  cashAfter := side.cashAfter cash gross fee, purpose }] }

def sorted (ids : List String) : List String := ids.insertionSort (· ≤ ·)

def liquidate (run : Run) : Except String Run := do
  let run ← (sorted run.positions.keys).foldlM (fun run id => do
    let quantity ← amount ((run.positions.get? id).getD { quantity := 0, cost := 0 }).quantity
    trade run id .sell quantity .liquidation) { run with status := .liquidating }
  let flat ← flatPositions run
  return if flat then { run with status := .stopped, reason := none }
    else { run with status := .blocked,
                    reason := run.reason.or (some "清仓未完成，等待下一份有效报价") }

structure Intent where
  id : String
  side : Side
  quantity : Int

/-- What an asset is off its target by, if that is enough for a trade. -/
def intent (run : Run) (nav : Int) (targets : OrderedMap String Int) (id : String) (q : Quote) :
    Except String (Option Intent) := do
  let held ← amount ((run.positions.get? id).getD { quantity := 0, cost := 0 }).quantity
  let bid ← amount q.bid
  let current := held * bid / scale
  let difference := nav * (targets.get? id).getD 0 / bps - current
  let magnitude := if difference < 0 then -difference else difference
  if magnitude * bps < nav * run.parameters.deviationBps ∨ magnitude = 0 then return none
  else do
    let side : Side := if 0 < difference then .buy else .sell
    let price ← amount (side.quoted q)
    return some { id, side, quantity := magnitude * scale / price }

/-- The intents, and the run with the reason that a missing quote leaves. -/
def intents (run : Run) (nav : Int) (targets : OrderedMap String Int) (ids : List String) :
    Except String (Run × List Intent) :=
  ids.foldlM (fun acc id =>
    match freshQuote run id with
    | none => return ({ acc.1 with reason := some stale }, acc.2)
    | some q => do
        let found ← intent run nav targets id q
        return (acc.1, acc.2 ++ found.toList)) (run, [])

/-- The trades in order, until a limit is reached. -/
def tradeAll (run : Run) : List Intent → Except String Run
  | [] => .ok run
  | i :: rest => do
      let run ← trade run i.id i.side i.quantity .rebalance
      let run ← limits run
      if run.trigger ≠ none then liquidate run else tradeAll run rest

def rebalance (run : Run) (targets : OrderedMap String Int) (scheduled : Bool) :
    Except String Run :=
  if scheduled = true ∧ run.clock < run.nextDecisionAt then .ok run
  else do
    let run := if scheduled then
      { run with nextDecisionAt := run.clock + run.parameters.intervalMs } else run
    let valued ← valuationsFresh run
    if valued then do
      let nav ← equity run
      let (run, all) ← intents run nav targets (sorted run.parameters.weights.keys)
      tradeAll run (all.filter (fun i => i.side = .sell) ++ all.filter (fun i => i.side = .buy))
    else return { run with reason := some "组合估值不完整，暂停新增交易" }

/-! ## Units -/

def changeUnits (run : Run) (cash : Int) (inward : Bool) : Except String Run := do
  let nav ← equity run
  if nav = 0 ∧ run.unitsNumerator = 0 ∧ inward = true then
    return { run with unitsNumerator := cash * run.emptyDenominator,
                      unitsDenominator := run.emptyNumerator }
  else do
    ensure (0 < nav ∧ (inward = true ∨ cash ≤ nav)) "FUNDING_NAV"
    if inward = false ∧ cash = nav then
      return { run with emptyNumerator := nav * run.unitsDenominator,
                        emptyDenominator := run.unitsNumerator, unitsNumerator := 0,
                        unitsDenominator := 1 }
    else do
      let n := run.unitsNumerator * (if inward then nav + cash else nav - cash)
      let d := run.unitsDenominator * nav
      ensure (n ≠ 0 ∨ d ≠ 0) "Division by zero"
      let n' := n / Int.gcd n d
      let d' := d / Int.gcd n d
      ensure (n' < 10 ^ 4096 ∧ d' < 10 ^ 4096) "UNIT_PRECISION_LIMIT"
      return { run with unitsNumerator := n', unitsDenominator := d' }

def pushHistory (run : Run) (equity : Int) (reason : Option String) : Except String Run := do
  let returnBps ← returnBps run
  return { run with
    history := run.history ++ [{ at' := run.clock, equity, returnBps, status := run.status, reason }] }

def releaseSettlementExcess (previous : Run) (excess : Int) : Except String Run := do
  let cash ← amount previous.cash
  ensure (0 ≤ excess ∧ excess ≤ cash) "INVALID_AMOUNT"
  let flat ← flatPositions previous
  ensure (flat = true) "INVALID_STATUS"
  if excess = 0 then return previous
  else do
    let run ← changeUnits previous excess false
    pushHistory { run with cash := cash - excess, netContributed := run.netContributed - excess }
      (cash - excess) (some "全额结算后超额度现金归还闲置余额")

/-! ## Transitions -/

def positionCosts (run : Run) : Except String Int := do
  let costs ← run.positions.mapM (fun e => amount e.2.cost)
  return costs.sum

/-- The action itself, before the checks that close a transition. -/
def applyAction (run : Run) (action : Action) : Except String Run :=
  match action with
  | .frame frame => do
      validateFrame run frame
      let run := frame.quotes.foldl addQuote
        { run with cursor := frame.seq, clock := frame.at', lastFrame := some frame }
      let run ← limits run
      if run.trigger ≠ none then liquidate run
      else if run.status = .running ∧ run.parameters.strategyMode ≠ some .external then
        rebalance run run.parameters.weights true
      else return run
  | .decision id frameSeq targets => do
      ensure (run.trigger = none ∧ run.status = .running) "INVALID_STATUS"
      ensure (run.parameters.strategyMode = some .external) "STRATEGY_MODE"
      ensure (isSafeInteger frameSeq ∧ 0 < frameSeq ∧ frameSeq = run.cursor) "STRATEGY_FRAME"
      ensure (isId id = true) "INVALID_ID"
      validateTargets targets run.parameters.weights.keys
      let valued ← valuationsFresh run
      ensure (valued = true) "STALE_VALUATION"
      let before := run.trades.length
      let run ← limits run
      let run ← if run.trigger ≠ none then liquidate run else rebalance run targets false
      return { run with
        lastDecision := some { id, frameSeq, at' := run.clock, targets,
                               trades := run.trades.length - before } }
  | .stop => do
      let run ← setTrigger run .manual
      liquidate run
  | .pause => do
      ensure (run.trigger = none ∧ (run.status = .running ∨ run.status = .paused)) "INVALID_STATUS"
      return { run with status := .paused }
  | .resume => do
      ensure (run.trigger = none ∧ (run.status = .running ∨ run.status = .paused)) "INVALID_STATUS"
      return { run with status := .running }
  | .fund inward text => do
      ensure (run.trigger = none ∧ (run.status = .running ∨ run.status = .paused)) "INVALID_STATUS"
      let valued ← valuationsFresh run
      ensure (valued = true) "STALE_VALUATION"
      let cash ← amountText text
      ensure (0 < cash) "INVALID_AMOUNT"
      let held ← amount run.cash
      ensure (inward = true ∨ cash ≤ held) "INSUFFICIENT_BOT_CASH"
      let run ← changeUnits run cash inward
      let delta := if inward then cash else -cash
      return { run with cash := held + delta, netContributed := run.netContributed + delta }

/-- The frame that the action brings, if it is one. -/
def Action.frame? : Action → Option Frame
  | .frame f => some f
  | _ => none

def transition (previous : Run) (action : Action) : Except String Run :=
  if action.frame?.map (·.seq) = some previous.cursor then do
    ensure (action.frame? = previous.lastFrame) "FRAME_CONFLICT"
    return previous
  else if previous.status = .stopped ∧ (action = .stop ∨ action.frame? ≠ none) then .ok previous
  else do
    let run ← applyAction { previous with reason := none } action
    ensure (run.trades.length ≤ 2000 ∧ run.history.length < 2000) "RUN_HISTORY_LIMIT"
    let cash ← amount run.cash
    let cost ← positionCosts run
    ensure (cash + cost = run.netContributed + run.realizedPnl) "RUN_CONSERVATION"
    let value ← equity run
    pushHistory run value run.reason

/-! ## Synthetic data -/

def datasets : List String := ["ema-cycle", "trend", "decline", "liquidity"]

def datasetPrice (id : String) (index : Nat) : Int :=
  let shift : Int := min index 60 * 500000
  if id = "ema-cycle" then
    (if index < 30 then 100 else if index < 60 then 100 + (index : Int) - 29
      else max 70 (130 - ((index : Int) - 59) * 2)) * 1000000
  else if id = "decline" then 100000000 - shift
  else if id = "trend" then 100000000 + shift
  else 100000000

def datasetFrame (id : String) (index : Nat) : Frame :=
  let seq : Int := index + 1
  let price := datasetPrice id index
  { seq, at' := seq * 1000,
    quotes := assets.map fun assetId =>
      { assetId, bid := price, ask := price, reference := some 100000000, observedAt := seq * 1000,
        expiresAt := seq * 1000 + 1000,
        capacity := if id = "liquidity" ∧ 3 ≤ seq ∧ seq ≤ 6 then 0 else 1000000000,
        slippageBps := 0, available := true } }

def datasetFrames (id : String) : Except String (List Frame) := do
  ensure (id ∈ datasets) "UNKNOWN_DATASET"
  return (List.range 120).map (datasetFrame id)

end Automata
end AlphaForge
