/-
Reviewed stock trades, from `stock-execution.ts` of the web client.

The client reads the vault and its venue at one block and reviews an order of the
owner against what it read: it repeats the freshness, session and calendar rules
of the two contracts, computes what the order gets, and picks the last second at
which all of them still hold.  The amounts are the decimal texts the chain reads
come in.  `reviewed_trade_executes` says that the order then goes through at
every block of that window.
-/
import AlphaForge.Market.LaunchMarket
import AlphaForge.Vault.StrategyVault.Fill

namespace AlphaForge
namespace StockExecution

open Evm Machine
open StrategyVault (Config State Action Accounts Bounded Fills Identity outToken)

inductive Failure where
  | error (message : String)
  | market (thrown : LaunchMarket.Thrown)
  deriving DecidableEq, Repr

/-- `uint` of `config.ts`. -/
def uint (value : String) : Except Failure Nat := (LaunchMarket.uint value).mapError .market

inductive Status where
  | uninitialized
  | marketClosed
  | staleReference
  | staleCalendar
  | paused
  | vaultClosed
  | ready
  deriving DecidableEq, Repr

def Status.text : Status → String
  | .uninitialized => "UNINITIALIZED"
  | .marketClosed => "MARKET_CLOSED"
  | .staleReference => "STALE_REFERENCE"
  | .staleCalendar => "STALE_CALENDAR"
  | .paused => "PAUSED"
  | .vaultClosed => "VAULT_CLOSED"
  | .ready => "READY"

/-- `StockExecutionSnapshot`, as far as a review reads it. -/
structure Snapshot where
  owner : Address
  vault : Address
  blockNumber : String
  blockHash : String
  blockTimestamp : Nat
  closed : Bool
  version : String
  maxPriceAge : Nat
  trackedCashRaw : String
  trackedStockRaw : String
  reserveUsdcRaw : String
  reserveStockRaw : String
  stockPriceUsdcRaw : String
  referenceObservedAt : Nat
  referenceDigest : Bytes32
  regularOpen : Nat
  regularClose : Nat
  calendarObservedAt : Nat
  calendarDigest : Bytes32
  executionAllowed : Bool
  venuePaused : Bool

/-- The block a snapshot is read at. -/
structure Head where
  number : Nat
  hash : String
  timestamp : Nat

/-- What `readStockExecutionSnapshot` returns of a vault in this state. -/
def Snapshot.ofChain (c : Config) (s : State) (head : Head) : Snapshot where
  owner := c.base.owner
  vault := c.base.self
  blockNumber := head.number.repr
  blockHash := head.hash
  blockTimestamp := head.timestamp
  closed := s.base.closed
  version := s.executionVersion.repr
  maxPriceAge := c.maxPriceAge
  trackedCashRaw := s.base.trackedUsdcBalance.repr
  trackedStockRaw := (s.base.trackedPosition c.targetStock).repr
  reserveUsdcRaw := (s.base.tokens.balanceOf c.base.afUsdc c.stockReserve.self).repr
  reserveStockRaw := (s.base.tokens.balanceOf c.targetStock c.stockReserve.self).repr
  stockPriceUsdcRaw := s.feed.quote.repr
  referenceObservedAt := s.feed.observed
  referenceDigest := s.feed.digest
  regularOpen := s.feed.regularOpen
  regularClose := s.feed.regularClose
  calendarObservedAt := s.feed.calendarObservedAt
  calendarDigest := s.feed.calendarDigest
  executionAllowed :=
    ReferenceFeed.executionAllowed ⟨0, 0, head.timestamp, testnetChainId⟩ s.feed
  venuePaused := s.paused

def referenceStatus (snapshot : Snapshot) (now : Nat) : Except Failure Status := do
  if snapshot.closed then return .vaultClosed
  else if (← uint snapshot.stockPriceUsdcRaw) = 0 ∨ snapshot.referenceDigest = 0 ∨
      snapshot.referenceObservedAt = 0 ∨ snapshot.calendarDigest = 0 ∨
      snapshot.calendarObservedAt = 0 then
    return .uninitialized
  else if now < snapshot.referenceObservedAt ∨
      snapshot.maxPriceAge < now - snapshot.referenceObservedAt then
    return .staleReference
  else if now < snapshot.calendarObservedAt ∨ 60 < now - snapshot.calendarObservedAt then
    return .staleCalendar
  else if now < snapshot.regularOpen ∨ snapshot.regularClose ≤ now ∨
      snapshot.executionAllowed = false then
    return .marketClosed
  else if snapshot.venuePaused then return .paused
  else return .ready

/-- The arguments of `execute`. -/
structure Calldata where
  buy : Bool
  input : Nat
  minOutput : Nat
  deadline : Nat
  expectedVersion : Nat
  deriving DecidableEq, Repr

structure Transaction where
  src : Address
  dst : Address
  data : Calldata
  deriving DecidableEq, Repr

structure Review where
  snapshot : Snapshot
  buy : Bool
  inputRaw : String
  estimatedOutRaw : String
  minOutRaw : String
  slippageBps : Nat
  deadline : Nat
  data : Calldata
  gasEstimateRaw : String
  reviewExpiresAt : Nat

/-- The wallet's node, which may fail any request. -/
structure Provider where
  chainId : Except Failure String
  /-- The hash of the block with this number, if the node knows one. -/
  block : Nat → Except Failure (Option String)
  call : Transaction → Except Failure Unit
  estimateGas : Transaction → Except Failure Nat

/-- `toLowerCase` of hexadecimal text. -/
def lower (v : String) : String := String.ofList (v.toList.map Char.toLower)

/-- `Number.MAX_SAFE_INTEGER`. -/
def maxSafeInteger : Int := 2 ^ 53 - 1

def reviewStockExecution (p : Provider) (snapshot : Snapshot) (buy : Bool) (inputRaw : String)
    (slippageBps now : Int) : Except Failure Review := do
  ensure (now ≤ maxSafeInteger ∧ snapshot.blockTimestamp ≤ now ∧ 0 ≤ slippageBps ∧
    slippageBps ≤ 500) (.error "INVALID_STOCK_EXECUTION")
  let now := now.toNat
  let slippageBps := slippageBps.toNat
  let status ← referenceStatus snapshot now
  ensure (status = .ready) (.error ("STOCK_EXECUTION_" ++ status.text))
  let input ← uint inputRaw
  let price ← uint snapshot.stockPriceUsdcRaw
  ensure (input ≠ 0) (.error "INSUFFICIENT_VAULT_BALANCE")
  let held ← uint (if buy then snapshot.trackedCashRaw else snapshot.trackedStockRaw)
  ensure (input ≤ held) (.error "INSUFFICIENT_VAULT_BALANCE")
  let output := if buy then input * 10 ^ 18 / price else input * price / 10 ^ 18
  let minimum := output * (10000 - slippageBps) / 10000
  ensure (output ≠ 0 ∧ minimum ≠ 0 ∧ output ≤ 2 ^ 256 - 1) (.error "STOCK_EXECUTION_DUST")
  let stocked ← uint (if buy then snapshot.reserveStockRaw else snapshot.reserveUsdcRaw)
  ensure (output ≤ stocked) (.error "INSUFFICIENT_TEST_STOCK_RESERVE")
  let deadline := min (min (now + 60) (snapshot.referenceObservedAt + snapshot.maxPriceAge))
    (min (snapshot.calendarObservedAt + 60) (snapshot.regularClose - 1))
  ensure (now < deadline) (.error "STOCK_EXECUTION_STALE_REFERENCE")
  let version ← uint snapshot.version
  let data : Calldata := ⟨buy, input, minimum, deadline, version⟩
  let transaction : Transaction := ⟨snapshot.owner, snapshot.vault, data⟩
  let chainId ← p.chainId
  ensure (lower chainId = "0xb626") (.error "WALLET_WRONG_CHAIN")
  let number ← uint snapshot.blockNumber
  let canonical ← p.block number
  ensure (canonical.map lower = some (lower snapshot.blockHash))
    (.error "CHAIN_REORGANIZED")
  p.call transaction
  let gas ← p.estimateGas transaction
  ensure (gas ≠ 0) (.error "INVALID_SIMULATION_EVIDENCE")
  return { snapshot, buy, inputRaw := input.repr, estimatedOutRaw := output.repr,
           minOutRaw := minimum.repr, slippageBps, deadline, data, gasEstimateRaw := gas.repr,
           reviewExpiresAt := deadline }

/-! ## Reading numbers back -/

theorem uint_repr_eq_ok {n k : Nat} : uint n.repr = .ok k ↔ n < 2 ^ 256 ∧ n = k := by
  unfold uint LaunchMarket.uint
  rw [Text.ofDecimal_repr]
  by_cases hfits : n < 2 ^ 256
  · have hdecimal : Text.isDecimal 77 n.repr = true :=
      Text.isDecimal_repr (Nat.lt_of_lt_of_le hfits (by decide))
    rw [ensure_of hdecimal, ok_bind, ensure_of hfits, ok_bind]
    refine ⟨fun h => ⟨hfits, Except.ok.inj h⟩, fun h => ?_⟩
    rw [h.2]
    rfl
  · refine ⟨fun h => ?_, fun h => absurd h.1 hfits⟩
    rw [ensure, ensure, if_neg hfits] at h
    split at h <;> cases h

/-! ## The window -/

/-- A moment at which the venue trades at the price that was read. -/
structure Ready (snapshot : Snapshot) (price now : Nat) : Prop where
  active : snapshot.closed = false
  priced : uint snapshot.stockPriceUsdcRaw = .ok price
  quoted : price ≠ 0
  sourced : snapshot.referenceDigest ≠ 0
  seen : snapshot.referenceObservedAt ≤ now
  young : now - snapshot.referenceObservedAt ≤ snapshot.maxPriceAge
  calendar : snapshot.calendarDigest ≠ 0
  calendarSeen : snapshot.calendarObservedAt ≤ now
  calendarYoung : now - snapshot.calendarObservedAt ≤ 60
  opened : snapshot.regularOpen ≤ now
  closes : now < snapshot.regularClose
  running : snapshot.venuePaused = false

theorem referenceStatus_ready {snapshot : Snapshot} {now : Nat}
    (h : referenceStatus snapshot now = .ok .ready) : ∃ price, Ready snapshot price now := by
  unfold referenceStatus at h
  split at h
  · cases h
  next hactive =>
  obtain ⟨price, hprice, h⟩ := bind_eq_ok.mp h
  split at h
  · cases h
  next hset =>
  split at h
  · cases h
  next hfresh =>
  split at h
  · cases h
  next hcalendar =>
  split at h
  · cases h
  next hsession =>
  split at h
  · cases h
  next hrunning =>
  simp only [not_or] at hset hfresh hcalendar hsession
  exact ⟨price, by simpa using hactive, hprice, hset.1, hset.2.1, by omega, by omega, hset.2.2.2.1,
    by omega, by omega, by omega, by omega, by simpa using hrunning⟩

/-- What is ready stays so up to each of the three limits. -/
theorem Ready.later {snapshot : Snapshot} {price now later : Nat} (h : Ready snapshot price now)
    (hlater : now ≤ later)
    (hreference : later ≤ snapshot.referenceObservedAt + snapshot.maxPriceAge)
    (hcalendar : later ≤ snapshot.calendarObservedAt + 60)
    (hclose : later ≤ snapshot.regularClose - 1) : Ready snapshot price later where
  active := h.active
  priced := h.priced
  quoted := h.quoted
  sourced := h.sourced
  seen := h.seen.trans hlater
  young := by omega
  calendar := h.calendar
  calendarSeen := h.calendarSeen.trans hlater
  calendarYoung := by omega
  opened := h.opened.trans hlater
  closes := by
    have hcloses := h.closes
    omega
  running := h.running

/-- What a review checked, and what it sends. -/
structure Reviewed (snapshot : Snapshot) (buy : Bool) (slippageBps now : Nat) (review : Review)
    (input output price : Nat) : Prop where
  slippage : slippageBps ≤ 500
  ready : Ready snapshot price now
  amount : input ≠ 0
  held : ∃ held, uint (if buy then snapshot.trackedCashRaw else snapshot.trackedStockRaw) = .ok held ∧
    input ≤ held
  result : output = StrategyVault.expectedOutput buy input price
  least : output * (10000 - slippageBps) / 10000 ≠ 0
  stocked : ∃ stocked, uint (if buy then snapshot.reserveStockRaw else snapshot.reserveUsdcRaw) =
    .ok stocked ∧ output ≤ stocked
  reference : review.deadline ≤ snapshot.referenceObservedAt + snapshot.maxPriceAge
  calendar : review.deadline ≤ snapshot.calendarObservedAt + 60
  close : review.deadline ≤ snapshot.regularClose - 1
  sent : ∃ version, uint snapshot.version = .ok version ∧
    review.data = ⟨buy, input, output * (10000 - slippageBps) / 10000, review.deadline, version⟩
  estimated : review.estimatedOutRaw = output.repr
  snapshotKept : review.snapshot = snapshot

theorem reviewStockExecution_ok {p : Provider} {snapshot : Snapshot} {buy : Bool}
    {inputRaw : String} {slippageBps now : Int} {review : Review}
    (h : reviewStockExecution p snapshot buy inputRaw slippageBps now = .ok review) :
    0 ≤ now ∧ ∃ input output price,
      Reviewed snapshot buy slippageBps.toNat now.toNat review input output price := by
  simp only [reviewStockExecution, bind_eq_ok, ensure_eq_ok, pure_eq_ok] at h
  obtain ⟨_, ⟨_, hnow, _, hslippage⟩, status, hstatus, _, rfl, input, _, price, hprice, _, hinput,
    held, hheld, _, hle, _, ⟨_, hleast, _⟩, stocked, hstocked, _, hfits, _, _, version, hversion, _,
    _, _, _, _, _, _, _, _, _, _, _, _, _, _, _, rfl⟩ := h
  obtain ⟨price', hready⟩ := referenceStatus_ready hstatus
  have hsame : price' = price := Except.ok.inj (hready.priced.symm.trans hprice)
  subst hsame
  refine ⟨by omega, input, _, price', ⟨by omega, hready, hinput, ⟨held, hheld, hle⟩, rfl, hleast,
    ⟨stocked, hstocked, hfits⟩, ?_, ?_, ?_, ⟨version, hversion, rfl⟩, rfl, rfl⟩⟩
  · exact (Nat.min_le_left _ _).trans (Nat.min_le_right _ _)
  · exact (Nat.min_le_right _ _).trans (Nat.min_le_left _ _)
  · exact (Nat.min_le_right _ _).trans (Nat.min_le_right _ _)

/-- A reviewed order is one the vault and the venue fill, at every block of the
window. -/
theorem Reviewed.fills {c : Config} {s : State} {head : Head} {buy : Bool}
    {slippageBps now : Nat} {review : Review} {input output price : Nat} {m : Msg}
    (h : Reviewed (Snapshot.ofChain c s head) buy slippageBps now review input output price)
    (hage : c.stockReserve.maxPriceAge = c.maxPriceAge) (hsender : m.sender = review.snapshot.owner)
    (hchain : m.chainId = testnetChainId) (hafter : now ≤ m.timestamp)
    (hbefore : m.timestamp ≤ review.deadline) :
    Fills c m review.data.buy review.data.input review.data.minOutput review.data.deadline
      review.data.expectedVersion output s := by
  have hready := h.ready.later hafter (hbefore.trans h.reference) (hbefore.trans h.calendar)
    (hbefore.trans h.close)
  have hquote : s.feed.quote = price := (uint_repr_eq_ok.mp hready.priced).2
  obtain ⟨version, hversion, hdata⟩ := h.sent
  have hslippage := h.slippage
  rw [hdata]
  refine
    { active := hready.active
      owner := by rw [hsender, h.snapshotKept]; rfl
      chain := hchain
      inTime := hbefore
      version := (uint_repr_eq_ok.mp hversion).2.symm
      running := hready.running
      session := ?_
      fresh := ⟨hquote ▸ hready.quoted, hready.sourced, hready.seen, hready.young⟩
      age := hage
      amount := h.amount
      tracked := ?_
      result := hquote ▸ h.result
      least := h.least
      floor := Nat.div_le_div_right (Nat.mul_le_mul_left _ (by omega))
      within := Nat.div_le_of_le_mul (by rw [Nat.mul_comm]; exact Nat.mul_le_mul_right _ (by omega))
      reserve := ?_ }
  · unfold ReferenceFeed.executionAllowed
    exact decide_eq_true ⟨hready.calendar, hready.calendarSeen, hready.calendarYoung, hready.opened,
      hready.closes⟩
  · obtain ⟨held, hheld, hle⟩ := h.held
    cases buy with
    | true => exact hle.trans_eq (uint_repr_eq_ok.mp hheld).2.symm
    | false => exact hle.trans_eq (uint_repr_eq_ok.mp hheld).2.symm
  · obtain ⟨stocked, hstocked, hle⟩ := h.stocked
    cases buy with
    | true => exact hle.trans_eq (uint_repr_eq_ok.mp hstocked).2.symm
    | false => exact hle.trans_eq (uint_repr_eq_ok.mp hstocked).2.symm

/-- In every reachable state of a vault whose figures are in range, an order that
was reviewed against this state goes through from the moment of the review to its
deadline, and gets exactly what the review estimated. -/
theorem reviewed_trade_executes {c : Config} {s : State} {mc : Msg} {x : View}
    {self lockerSelf owner creator pass usdc targetStock otherStock : Address}
    {stockReserve : StockReserve.Config} {referenceFeed : ReferenceFeed.Config}
    {strategyRef : Bytes32} {maxPriceAge : Nat} {tokens : Tokens} {balance : Nat} {paused : Bool}
    {feed : ReferenceFeed.State}
    (hnew : StrategyVault.constructor mc x self lockerSelf owner creator pass usdc targetStock
      otherStock stockReserve referenceFeed strategyRef maxPriceAge tokens balance paused feed =
        .ok (c, s))
    (hzero : x.hasCode 0 = false) (hself : x.hasCode self = false)
    (hquiet : s.base.tokens.Quiet (StrategyVault.own c))
    (hage : c.stockReserve.maxPriceAge = c.maxPriceAge) (as : List Action)
    (hbounded : Bounded c (exec (StrategyVault.step c) s as)) {head : Head} {p : Provider}
    {buy : Bool} {inputRaw : String} {slippageBps now : Int} {review : Review}
    (hreview : reviewStockExecution p
      (Snapshot.ofChain c (exec (StrategyVault.step c) s as) head) buy inputRaw slippageBps now =
        .ok review)
    {m : Msg} (hsender : m.sender = review.snapshot.owner) (hchain : m.chainId = testnetChainId)
    (hafter : now ≤ m.timestamp) (hbefore : m.timestamp ≤ review.deadline) :
    ∃ s' output, StrategyVault.execute c m review.data.buy review.data.input review.data.minOutput
        review.data.deadline review.data.expectedVersion (exec (StrategyVault.step c) s as) =
          .ok (s', output) ∧
      review.estimatedOutRaw = output.repr := by
  obtain ⟨hid, hstart, _⟩ := StrategyVault.constructor_ok hnew
  have hbacked : Vault.Backed c.base (exec (StrategyVault.step c) s as).base :=
    exec_invariant (P := fun t => Vault.Backed c.base t.base)
      (fun a _ _ hb h => StrategyVault.step_backed hid a hb h) (hstart hquiet) as
  obtain ⟨hnow, input, output, price, hreviewed⟩ := reviewStockExecution_ok hreview
  obtain ⟨s', hs'⟩ := StrategyVault.execute_fills hid
    (StrategyVault.constructor_accounts hzero hself hnew)
    (hreviewed.fills hage hsender hchain (by omega) hbefore) hbounded hbacked
  exact ⟨s', output, hs', hreviewed.estimated⟩

/-- A node on the testnet that knows the block at 102 and lets every call pass. -/
def exampleProvider : Provider :=
  ⟨.ok "0xB626", fun number => .ok (if number = 102 then some "0xAB" else none), fun _ => .ok (),
    fun _ => .ok 21000⟩

def exampleConfig : Config :=
  ⟨⟨1, 3, 4, 1, 1, 5, 6, 7, 8, ⟨2, 1, 3, 5⟩⟩, 7, ⟨9, 13, 6, 7, 10, 60⟩, ⟨10, 11⟩, 60⟩

def exampleStart : State :=
  { base := ⟨StrategyVault.exampleTokens, ⟨0, []⟩, 0, 0, 0, fun _ => 0, 0, false, []⟩
    grant := .deleted, totalBuyUsdc := 0, executionVersion := 0, positionCostUsdc := 0
    realizedTradingPnl := 0, paused := false, feed := StrategyVault.exampleFeed, log := [] }

/-- The review of a sale of the rest of the position. -/
def exampleReview : Except Failure Review :=
  reviewStockExecution exampleProvider
    (Snapshot.ofChain exampleConfig
      (exec (StrategyVault.step exampleConfig) exampleStart StrategyVault.exampleRun)
      ⟨102, "0xab", 104⟩) false "100000000000000" 50 105

theorem example_review_executes :
    ∃ s', StrategyVault.execute exampleConfig (StrategyVault.exampleMsg 3 160) false 100000000000000
        199 160 3 (exec (StrategyVault.step exampleConfig) exampleStart StrategyVault.exampleRun) =
      .ok (s', 200) := by
  have h : StrategyVault.constructor (StrategyVault.exampleMsg 3 99) StrategyVault.exampleView 1 2 3
      4 5 6 7 8 ⟨9, 13, 6, 7, 10, 60⟩ ⟨10, 11⟩ 1 60 StrategyVault.exampleTokens 0 false
      StrategyVault.exampleFeed = .ok (exampleConfig, exampleStart) := rfl
  have hquiet : StrategyVault.exampleTokens.Quiet [1, 2] := by
    intro token account hown spender
    simp only [List.mem_cons, List.not_mem_nil, or_false] at hown
    rcases hown with rfl | rfl <;> simp [StrategyVault.exampleTokens]
  have hbounded : Bounded exampleConfig
      (exec (StrategyVault.step exampleConfig) exampleStart StrategyVault.exampleRun) :=
    ⟨⟨by decide, by decide, by decide, by decide, by decide, by decide⟩, by decide, by decide⟩
  have hdata : exampleReview.toOption.map (fun r => (r.data, r.estimatedOutRaw, r.deadline,
      r.snapshot.owner)) = some (⟨false, 100000000000000, 199, 160, 3⟩, "200", 160, 3) := by decide
  obtain ⟨review, hreview, hfields⟩ := Option.map_eq_some_iff.mp hdata
  simp only [Prod.mk.injEq] at hfields
  obtain ⟨hcall, hestimated, hdeadline, howner⟩ := hfields
  obtain ⟨s', output, hs', houtput⟩ := reviewed_trade_executes h rfl rfl hquiet rfl
    StrategyVault.exampleRun hbounded (toOption_eq_some.mp hreview)
    (m := StrategyVault.exampleMsg 3 160) howner.symm rfl (by decide)
    (by rw [hdeadline]; exact Nat.le_refl _)
  have houtput : output = 200 := by
    rw [← Text.ofDecimal_repr output, ← houtput, hestimated]
    decide
  rw [hcall, houtput] at hs'
  exact ⟨s', hs'⟩

end StockExecution
end AlphaForge
