/-
The reference paper engine, `reference-paper.ts`.

A run holds cash and three positions, and trades them on paper at the reference
quotes.  Amounts are numbers here, where the source keeps their decimal text; no
divided amount is negative, so `/` is the division of `bigint`.  An order that throws
is caught in the middle of a batch, with whatever it did to the state before: orders
are programs over the state and the events so far.
-/
import AlphaForge.Machine.Commit
import AlphaForge.Reference.Engine

namespace AlphaForge
namespace Paper

open Evm Commit Reference

def bps : Int := 10000

def valueScale : Int := 10 ^ 30

/-- `MAX`. -/
def maxAmount : Int := 2 ^ 256 - 1

def ceil (n d : Int) : Int := (n + d - 1) / d

def paperAmount (value : String) (positive : Bool) : Except String Int := do
  ensure (Text.isDecimal 77 value = true) "INVALID_PAPER_AMOUNT"
  let n : Int := Text.ofDecimal value
  ensure (n ≤ maxAmount ∧ (positive = false ∨ 0 < n)) "INVALID_PAPER_AMOUNT"
  return n

/-- `paperAmount` of a number that was computed. -/
def checkAmount (n : Int) : Except String Unit :=
  ensure (0 ≤ n ∧ n ≤ maxAmount) "INVALID_PAPER_AMOUNT"

inductive Limits where
  | off
  | percent (lowerBps upperBps : Option Int)
  | price (identity : String) (lowerUsd18 upperUsd18 : Option String)
  deriving DecidableEq

inductive GapPolicy where
  | retain
  | reset
  deriving DecidableEq

/-- Its `version` and `mode` are fixed. -/
structure PaperConfig where
  market : BatchPolicy
  minuteCloseMaxAgeMs : Int
  gapPolicy : GapPolicy
  feeBps : Int
  slippageBps : Int
  initialCash6 : String
  limits : Limits
  deriving DecidableEq

inductive PaperStatus where
  | running
  | liquidating
  | stopped
  deriving DecidableEq

inductive Trigger where
  | manual
  | upper
  | lower
  deriving DecidableEq

inductive Side where
  | buy
  | sell
  deriving DecidableEq

structure Position where
  quantity18 : Int
  cost6 : Int
  deriving DecidableEq

structure Ratio where
  numerator : Int
  denominator : Int
  deriving DecidableEq

structure PaperState where
  config : PaperConfig
  clock : Int
  status : PaperStatus
  trigger : Option Trigger
  cash6 : Int
  positions : OrderedMap String Position
  quotes : OrderedMap String ReferenceObservation
  netContributed6 : Int
  fees6 : Int
  realizedPnl6 : Int
  units : Ratio
  emptyValue : Ratio
  minutes : MinuteState
  emas : OrderedMap String EmaState
  closedMinutes : Int
  fills : Int

inductive PaperSignal where
  | warmup
  | sell
  | hold
  | buy
  | cash
  deriving DecidableEq

structure Fill where
  at_ : Int
  identity : String
  side : Side
  quantity18 : Int
  priceUsd18 : Int
  gross6 : Int
  fee6 : Int
  deriving DecidableEq

inductive Direction where
  | inward
  | outward
  deriving DecidableEq

inductive PaperEvent where
  | referenceRejected (at_ : Int) (reason : Option String) (sourceCompletedAt : Option Int)
  | minute (event : MinuteEvent)
  | fill (fill : Fill)
  | liquidationTrigger (at_ : Int) (trigger : Trigger)
  | liquidationBlocked (identity : String) (at_ : Int) (reason : String)
  | stopped (at_ : Int) (trigger : Option Trigger)
  | signals (at_ : Int) (signals : List (String × PaperSignal))
  | orderBlocked (at_ : Int) (identity : String) (reason : String)
  | nav (at_ : Int) (equity6 : Option Int) (unitValue : Option Ratio)
      (cash6 netContributed6 fees6 realizedPnl6 : Int)
  | virtualFund (at_ : Int) (direction : Direction) (amount6 : String) (unitValue : Option Ratio)

structure PaperResult where
  state : PaperState
  events : List PaperEvent

/-! ## Configuration -/

def checkClock (at_ : Int) : Except String Unit :=
  ensure (isSafeInteger at_ = true ∧ 0 ≤ at_) "INVALID_PAPER_CLOCK"

/-- `bps`. -/
def checkBps (value : Int) : Except String Unit :=
  ensure (isSafeInteger value = true ∧ 0 ≤ value ∧ value < 10000) "INVALID_PAPER_COST"

def checkLimits (market : BatchPolicy) : Limits → Except String Unit
  | .off => .ok ()
  | .percent lowerBps upperBps => do
      ensure (∀ l ∈ lowerBps, isSafeInteger l = true ∧ l < 0 ∧ -10000 ≤ l) "INVALID_PAPER_LIMIT"
      ensure (∀ u ∈ upperBps, isSafeInteger u = true ∧ 0 < u ∧ u ≤ 100000000) "INVALID_PAPER_LIMIT"
      ensure (lowerBps ≠ none ∨ upperBps ≠ none) "INVALID_PAPER_LIMIT"
  | .price identity lowerUsd18 upperUsd18 => do
      ensure (identity ∈ market.selections.map identityOf) "INVALID_PAPER_LIMIT"
      let lower ← lowerUsd18.mapM (paperAmount · true)
      let upper ← upperUsd18.mapM (paperAmount · true)
      ensure (lowerUsd18 ≠ none ∨ upperUsd18 ≠ none) "INVALID_PAPER_LIMIT"
      ensure (∀ l ∈ lower, ∀ u ∈ upper, l < u) "INVALID_PAPER_LIMIT"

def parsePaperConfig (input : PaperConfig) : Except String PaperConfig := do
  let market ← parseBatchPolicy input.market
  ensure (market.selections.length = 3 ∧ market.maxQuoteSkewMs < 60000) "INVALID_PAPER_MARKET"
  ensure (isSafeInteger input.minuteCloseMaxAgeMs = true ∧ 0 < input.minuteCloseMaxAgeMs ∧
    input.minuteCloseMaxAgeMs ≤ 60000) "INVALID_PAPER_MINUTE_POLICY"
  let _ ← paperAmount input.initialCash6 true
  checkLimits market input.limits
  checkBps input.feeBps
  checkBps input.slippageBps
  return { input with market }

def createPaper (input : PaperConfig) : Except String PaperState := do
  let config ← parsePaperConfig input
  let ids := config.market.selections.map identityOf
  let cash : Int := Text.ofDecimal config.initialCash6
  let minutes ← createMinutes ids
  return { config, clock := 0, status := .running, trigger := none, cash6 := cash,
           positions := ids.map fun id => (id, { quantity18 := 0, cost6 := 0 }), quotes := [],
           netContributed6 := cash, fees6 := 0, realizedPnl6 := 0, units := ⟨cash, 1⟩,
           emptyValue := ⟨1, 1⟩, minutes, emas := ids.map fun id => (id, createEma),
           closedMinutes := 0, fills := 0 }

/-! ## Valuation -/

/-- The quote of a stock, if it is `fresh`. -/
def freshQuote (state : PaperState) (id : String) (at_ : Int) : Option ReferenceObservation :=
  (state.quotes.get? id).filter fun q =>
    q.generatedAt ≤ at_ ∧ at_ - q.generatedAt ≤ state.config.market.maxAgeMs

def bidOf (q : ReferenceObservation) : Int := Text.ofDecimal q.tokenBidUsd18

def askOf (q : ReferenceObservation) : Int := Text.ofDecimal q.tokenAskUsd18

def worthAt (quantity18 bid : Int) : Int := quantity18 * bid / valueScale

def addWorth (state : PaperState) (at_ value : Int) (e : String × Position) : Option Int :=
  if e.2.quantity18 = 0 then some value
  else match freshQuote state e.1 at_ with
  | none => none
  | some q => some (value + worthAt e.2.quantity18 (bidOf q))

def paperNav (state : PaperState) (at_ : Int) : Except String (Option Int) := do
  checkClock at_
  ensure (state.clock ≤ at_) "PAPER_CLOCK_REGRESSION"
  return state.positions.foldlM (addWorth state at_) state.cash6

def rational (n d : Int) : Except String Ratio := do
  ensure (0 ≤ n ∧ 0 < d) "INVALID_PAPER_UNITS"
  return ⟨n / Int.gcd n d, d / Int.gcd n d⟩

def paperReturn (state : PaperState) (at_ : Int) : Except String (Option Ratio) := do
  match ← paperNav state at_ with
  | none => return none
  | some nav =>
      if state.units.numerator = 0 then return some state.emptyValue
      else return some (← rational (nav * state.units.denominator) state.units.numerator)

def valuation (state : PaperState) : Except String Int := do
  match ← paperNav state state.clock with
  | none => .error "STALE_PAPER_VALUATION"
  | some nav => return nav

/-! ## Orders -/

structure TradeNumbers where
  price : Int
  gross : Int
  fee : Int

def tradeNumbers (state : PaperState) (id : String) (side : Side) (quantity : Int) :
    Except String TradeNumbers := do
  ensure (state.positions.get? id ≠ none) "PAPER_ASSET_MISMATCH"
  match freshQuote state id state.clock with
  | none => .error "STALE_PAPER_VALUATION"
  | some quote =>
      let slip := state.config.slippageBps
      let price := match side with
        | .buy => ceil (askOf quote * (bps + slip)) bps
        | .sell => bidOf quote * (bps - slip) / bps
      let gross := match side with
        | .buy => ceil (quantity * price) valueScale
        | .sell => quantity * price / valueScale
      return { price, gross, fee := ceil (gross * state.config.feeBps) bps }

def heldAt (state : PaperState) (id : String) : Position :=
  (state.positions.get? id).getD { quantity18 := 0, cost6 := 0 }

def bidAt (state : PaperState) (id : String) : Int := ((state.quotes.get? id).map bidOf).getD 0

def withinCap (state : PaperState) (id : String) (quantity : Int) : Except String Bool := do
  let n ← tradeNumbers state id .buy quantity
  let charge := n.gross + n.fee
  if state.cash6 < charge then return false
  else
    let bid := bidAt state id
    let held := (heldAt state id).quantity18
    let old := worthAt held bid
    let after := (← valuation state) - charge + worthAt (held + quantity) bid - old
    return decide ((old + charge) * 3 ≤ after)

/-- A state that is being changed, and the events so far. -/
structure Desk where
  state : PaperState
  events : List PaperEvent

abbrev Program := EStateM String Desk

def push (event : PaperEvent) : Program Unit :=
  modify fun desk => { desk with events := desk.events ++ [event] }

def update (f : PaperState → PaperState) : Program Unit :=
  modify fun desk => { desk with state := f desk.state }

def execute (id : String) (side : Side) (quantity : Int) : Program Unit := do
  let state := (← get).state
  await (ensure (0 < quantity ∧ quantity ≤ maxAmount) "INVALID_PAPER_AMOUNT")
  await (ensure (state.status ≠ .stopped ∧ (side = .sell ∨ state.status = .running))
    "PAPER_NOT_RUNNING")
  await (ensure (isSafeInteger (state.fills + 1) = true) "PAPER_COUNTER_LIMIT")
  let n ← await (tradeNumbers state id side quantity)
  let p := heldAt state id
  await (ensure (n.fee < n.gross) "PAPER_MINIMUM_FILL")
  match side with
  | .buy => do
      let within ← await (withinCap state id quantity)
      await (ensure (within = true) "ALLOCATION_LIMIT")
      await (ensure (p.quantity18 + quantity ≤ maxAmount ∧ p.cost6 + n.gross + n.fee ≤ maxAmount)
        "INVALID_PAPER_AMOUNT")
      update fun s => { s with cash6 := s.cash6 - n.gross - n.fee }
      update fun s => { s with
        positions := s.positions.set id
          { quantity18 := p.quantity18 + quantity, cost6 := p.cost6 + n.gross + n.fee } }
  | .sell => do
      await (ensure (quantity ≤ p.quantity18) "INSUFFICIENT_POSITION")
      await (checkAmount (state.cash6 + n.gross - n.fee))
      let cost := if quantity = p.quantity18 then p.cost6 else p.cost6 * quantity / p.quantity18
      update fun s => { s with cash6 := s.cash6 + n.gross - n.fee }
      update fun s => { s with
        positions := s.positions.set id
          { quantity18 := p.quantity18 - quantity, cost6 := p.cost6 - cost } }
      update fun s => { s with realizedPnl6 := s.realizedPnl6 + n.gross - n.fee - cost }
  update fun s => { s with fees6 := s.fees6 + n.fee }
  update fun s => { s with fills := s.fills + 1 }
  push (.fill { at_ := state.clock, identity := id, side, quantity18 := quantity,
                priceUsd18 := n.price, gross6 := n.gross, fee6 := n.fee })

/-- The result of a program that starts from a state. -/
def resultOf (program : Program Unit) (state : PaperState) : Except String PaperResult :=
  match program ⟨state, []⟩ with
  | .ok _ desk => .ok { state := desk.state, events := desk.events }
  | .error e _ => .error e

def executePaperOrder (before : PaperState) (id : String) (side : Side) (quantity18 : String) :
    Except String PaperResult := do
  let quantity ← paperAmount quantity18 true
  resultOf (execute id side quantity) before

/-- `code`. -/
def codeOf (error : String) : String := if isReason error then error else "PAPER_FAILED"

/-! ## Liquidation and limits -/

def liquidateOne (id : String) : Program Unit := do
  let state := (← get).state
  let held := (heldAt state id).quantity18
  if held ≠ 0 then
    recover (execute id .sell held) fun error =>
      push (.liquidationBlocked id state.clock (codeOf error))
  else pure ()

def isFlat (state : PaperState) : Bool := state.positions.all fun e => e.2.quantity18 = 0

def liquidate : Program Unit := do
  let ids := (← get).state.positions.keys
  ids.forM liquidateOne
  let state := (← get).state
  if isFlat state then do
    update fun s => { s with status := .stopped }
    push (.stopped state.clock state.trigger)
  else pure ()

def latch (trigger : Trigger) : Program Unit := do
  let state := (← get).state
  if state.status = .stopped then pure ()
  else do
    if state.trigger = none then push (.liquidationTrigger state.clock trigger) else pure ()
    update fun s => { s with trigger := s.trigger.or (some trigger), status := .liquidating }

/-- The trigger that a limit latches: the lower one is looked at first. -/
def limitTrigger (lower upper : Bool) : Option Trigger :=
  if lower then some .lower else if upper then some .upper else none

/-- The limit that a state has reached, if any. -/
def reached (state : PaperState) : Except String (Option Trigger) :=
  match state.config.limits with
  | .off => .ok none
  | .percent lowerBps upperBps => do
      match ← paperReturn state state.clock with
      | none => return none
      | some r =>
          let n := (r.numerator - r.denominator) * bps
          return limitTrigger (lowerBps.any fun l => n ≤ l * r.denominator)
            (upperBps.any fun u => u * r.denominator ≤ n)
  | .price identity lowerUsd18 upperUsd18 =>
      match freshQuote state identity state.clock with
      | none => .ok none
      | some q => .ok (limitTrigger
          (lowerUsd18.any fun l => bidOf q ≤ Text.ofDecimal l)
          (upperUsd18.any fun u => (Text.ofDecimal u : Int) ≤ bidOf q))

def evaluateLimits : Program Unit := do
  let state := (← get).state
  if state.status ≠ .running then pure ()
  else do
    match ← await (reached state) with
    | none => pure ()
    | some trigger => latch trigger

/-! ## Batches -/

/-- The loop of `buyBudget`.  A round at least halves what lies between the two, and
`fuel` is that from the start. -/
def search (fits : Int → Except String Bool) : Nat → Int → Int → Except String Int
  | 0, low, _ => .ok low
  | fuel + 1, low, high =>
      if low < high then do
        let middle := (low + high + 1) / 2
        if ← fits middle then search fits fuel middle high else search fits fuel low (middle - 1)
      else .ok low

def buyBudget (state : PaperState) (id : String) : Except String Int := do
  let n ← tradeNumbers state id .buy 1
  ensure (n.price ≠ 0) "Division by zero"
  let high := min (state.cash6 * valueScale / n.price) maxAmount
  search (withinCap state id) high.toNat 0 high

/-- A closed price moves the averages of its stock. -/
def closeEma (prices : String → Option String) (emas : OrderedMap String EmaState) (id : String) :
    Except String (OrderedMap String EmaState) :=
  match emas.get? id, prices id with
  | some ema, some price => do return emas.set id (← advanceEma ema price)
  | none, _ => .error "TypeError"
  | some _, none => .error "INVALID_EMA_PRICE"

/-- One event of the minutes, and whether one has closed by then. -/
def takeMinute (closed : Bool) (event : MinuteEvent) : Program Bool := do
  push (.minute event)
  let state := (← get).state
  match event with
  | .gap _ _ => do
      if state.config.gapPolicy = .reset then
        update fun s => { s with emas := s.minutes.identities.map fun id => (id, createEma) }
      else pure ()
      return closed
  | .close _ prices => do
      await (ensure (isSafeInteger (state.closedMinutes + 1) = true) "PAPER_COUNTER_LIMIT")
      let emas ← await (state.minutes.identities.foldlM (closeEma prices) state.emas)
      update fun s => { s with closedMinutes := s.closedMinutes + 1, emas }
      return true

def signalOf (state : PaperState) (id : String) : Except String (String × PaperSignal) :=
  match state.emas.get? id with
  | none => .error "TypeError"
  | some e =>
      match e.slow.value, e.fast.value with
      | none, _ => .ok (id, .warmup)
      | some _, none => .error "TypeError"
      | some slow, some fast =>
          if (heldAt state id).quantity18 ≠ 0 then
            .ok (id, if fast < slow then .sell else .hold)
          else .ok (id, if slow * 100015 < fast * 100000 then .buy else .cash)

def orderBlocked (id error : String) : Program Unit := do
  let state := (← get).state
  push (.orderBlocked state.clock id (codeOf error))

def sellSignal (id : String) : Program Unit := do
  let state := (← get).state
  recover (execute id .sell (heldAt state id).quantity18) (orderBlocked id)
  evaluateLimits

def buySignals : List String → Program Unit
  | [] => pure ()
  | id :: rest => do
      let state := (← get).state
      if state.status ≠ .running then pure ()
      else do
        let quantity ← await (buyBudget state id)
        if quantity = 0 then push (.orderBlocked state.clock id "ALLOCATION_LIMIT")
        else do
          recover (execute id .buy quantity) (orderBlocked id)
          evaluateLimits
        buySignals rest

def chosen (signals : List (String × PaperSignal)) (signal : PaperSignal) : List String :=
  (signals.filter fun s => s.2 = signal).map Prod.fst

def followSignals : Program Unit := do
  let state := (← get).state
  let signals ← await (state.minutes.identities.mapM (signalOf state))
  push (.signals state.clock signals)
  (chosen signals .sell).forM sellSignal
  buySignals (chosen signals .buy)
  if (← get).state.status = .liquidating then liquidate else pure ()

def pushNav : Program Unit := do
  let state := (← get).state
  let equity6 ← await (paperNav state state.clock)
  let unitValue ← await (paperReturn state state.clock)
  push (.nav state.clock equity6 unitValue state.cash6 state.netContributed6 state.fees6
    state.realizedPnl6)

def quotesOf (observations : List ReferenceObservation) : OrderedMap String ReferenceObservation :=
  observations.foldl (fun quotes o => quotes.set o.identity o) []

/-- The observations of an accepted batch, with what they make of the minutes. -/
def observe (minutes : MinuteState) (events : List MinuteEvent)
    (observations : List ReferenceObservation) : Program Unit := do
  update fun s => { s with minutes, quotes := quotesOf observations }
  let closed ← events.foldlM takeMinute false
  evaluateLimits
  let state := (← get).state
  if state.status = .liquidating then liquidate
  else if state.status = .running ∧ closed = true then followSignals
  else pure ()
  pushNav

/-- What an accepted batch brings, at its time. -/
def takeObservations (state : PaperState) (observations : List ReferenceObservation) :
    Except String PaperResult :=
  match advanceMinutes state.minutes observations state.config.minuteCloseMaxAgeMs with
  | .error e => .ok { state, events := [.referenceRejected state.clock (some (codeOf e)) none] }
  | .ok (minutes, events) => resultOf (observe minutes events observations) state

section Batches

variable (jsonParse : String → Option Json) (sha256 : String → String)

def applyPaperBatch (before : PaperState) (batch : ReferenceBatch) : Except String PaperResult := do
  let observations ← validateReferenceBatch jsonParse sha256 batch
  ensure (before.config.market = (← parseBatchPolicy batch.policy)) "PAPER_POLICY_MISMATCH"
  checkClock batch.completedAt
  if batch.completedAt < before.clock then
    return { state := before, events := [.referenceRejected before.clock
      (some "PAPER_INPUT_BEFORE_CONTROL") (some batch.completedAt)] }
  else
    let state := { before with clock := batch.completedAt }
    match batch.status, observations with
    | .rejected, _ => return { state, events := [.referenceRejected state.clock batch.reason none] }
    | .accepted, none => .error "BATCH_NOT_ACCEPTED"
    | .accepted, some observations => takeObservations state observations

end Batches

/-! ## Funding and stopping -/

def Direction.signed : Direction → Int → Int
  | .inward, amount => amount
  | .outward, amount => -amount

/-- The units after funding: those of an empty run are counted in the value it kept. -/
def fundUnits (state : PaperState) (nav amount delta : Int) : Except String PaperState := do
  let n := state.units.numerator
  let d := state.units.denominator
  if n = 0 then
    return { state with
      units := ← rational (amount * state.emptyValue.denominator) state.emptyValue.numerator }
  else
    return { state with
      emptyValue := ← rational (nav * d) n, units := ← rational (n * (nav + delta)) (d * nav) }

def fundPaper (before : PaperState) (direction : Direction) (amount6 : String) (at_ : Int) :
    Except String PaperResult := do
  checkClock at_
  ensure (before.clock ≤ at_) "PAPER_CLOCK_REGRESSION"
  let amount ← paperAmount amount6 true
  ensure (direction = .outward ∨ before.status = .running) "PAPER_NOT_RUNNING"
  let state := { before with clock := at_ }
  let nav ← valuation state
  ensure (0 < nav ∨ state.units.numerator = 0) "INSOLVENT_PAPER"
  ensure (direction = .inward ∨ amount ≤ state.cash6) "INSUFFICIENT_CASH"
  let delta := direction.signed amount
  let state ← fundUnits state nav amount delta
  checkAmount (state.cash6 + delta)
  let state := { state with
    cash6 := state.cash6 + delta, netContributed6 := state.netContributed6 + delta }
  let unitValue ← paperReturn state at_
  return { state, events := [.virtualFund at_ direction amount6 unitValue] }

def stopPaper (before : PaperState) (at_ : Int) : Except String PaperResult := do
  checkClock at_
  ensure (before.clock ≤ at_) "PAPER_CLOCK_REGRESSION"
  resultOf (do
    latch .manual
    if (← get).state.status = .liquidating then liquidate else pure ()) { before with clock := at_ }

end Paper
end AlphaForge
