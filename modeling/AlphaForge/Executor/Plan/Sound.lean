/-
Orders of the planner are filled.

The planner works on a snapshot and computes what the vault will compute: the
window, the bounds, the floor of the output and the two thirds.  Where it makes an
order, the vault in the state of the snapshot fills it, at any later moment at
which the prices stand and the order has not run out.
-/
import AlphaForge.Executor.Plan
import AlphaForge.Indexer.Reconcile.Complete
import AlphaForge.Vault.TradingVault.Fill

namespace AlphaForge
namespace Executor

open Evm Indexer
open TradingVault (Config State Feeds RouterCall Swap Fresh Priced worth equityAt Beyond lastMoment
  BuyLimits SellLimits Reserved Fills Ordered Bounded bought)

/-! ## Reading numbers back -/

theorem uint_eq_ok {v : String} {n : Nat} (h : uint v = .ok n) :
    n = Text.ofDecimal v ∧ n < 2 ^ 256 := by
  unfold uint at h
  split at h
  · next hv =>
    rw [← Except.ok.inj h]
    exact ⟨rfl, hv.2⟩
  · cases h

@[simp] theorem uint_repr_eq_ok {n k : Nat} : uint n.repr = .ok k ↔ n < 2 ^ 256 ∧ n = k := by
  unfold uint
  rw [Text.ofDecimal_repr]
  by_cases hfits : n < 2 ^ 256
  · have hdecimal : Text.isDecimal 77 n.repr = true :=
      Text.isDecimal_repr (Nat.lt_of_lt_of_le hfits (by decide))
    rw [if_pos ⟨hdecimal, hfits⟩, Except.ok.injEq]
    exact ⟨fun h => ⟨hfits, h⟩, fun h => h.2⟩
  · rw [if_neg (fun h => hfits h.2)]
    exact ⟨fun h => (nomatch h), fun h => absurd h.1 hfits⟩

@[simp] theorem either_eq_false {left right : Except String Bool} :
    either left right = .ok false ↔ left = .ok false ∧ right = .ok false := by
  unfold either
  rw [bind_eq_ok]
  constructor
  · rintro ⟨b, hleft, h⟩
    cases b with
    | false => exact ⟨hleft, h⟩
    | true => cases h
  · rintro ⟨hleft, hright⟩
    exact ⟨false, hleft, hright⟩

@[simp] theorem both_eq_false {left right : Except String Bool} :
    both left right = .ok false ↔
      left = .ok false ∨ (left = .ok true ∧ right = .ok false) := by
  unfold both
  rw [bind_eq_ok]
  constructor
  · rintro ⟨b, hleft, h⟩
    cases b with
    | false => exact Or.inl hleft
    | true => exact Or.inr ⟨hleft, h⟩
  · rintro (hleft | ⟨hleft, hright⟩)
    · exact ⟨false, hleft, rfl⟩
    · exact ⟨true, hleft, hright⟩

theorem some_eq_false {tests : List (Except String Bool)} :
    some_ tests = .ok false ↔ ∀ t ∈ tests, t = .ok false := by
  induction tests with
  | nil => simp [some_]
  | cons t rest ih =>
      rw [List.forall_mem_cons, ← ih]
      exact either_eq_false

/-- A value inside its bounds. -/
theorem reached_false {value low high : Nat} (h : reached value low.repr high.repr = .ok false) :
    ¬ Beyond low high value := by
  simp only [reached, either_eq_false, both_eq_false, bind_eq_ok, uint_repr_eq_ok, pure_eq_ok] at h
  obtain ⟨hlow, hhigh⟩ := h
  rintro (⟨hset, hle⟩ | ⟨hset, hle⟩)
  · rcases hlow with ⟨_, ⟨_, rfl⟩, hnone⟩ | ⟨_, _, ⟨_, rfl⟩, hwithin⟩
    · simp_all
    · simp_all
  · rcases hhigh with ⟨_, ⟨_, rfl⟩, hnone⟩ | ⟨_, _, ⟨_, rfl⟩, hwithin⟩
    · simp_all
    · simp_all

/-! ## What the reader saw -/

section Seen

variable {abi : AbiHashes} {node : Node} {manifest : DeploymentManifest}
  {inventory : TradingInventory} {block : Block} {snapshot : TradingSnapshot}

/-- What the orders of the planner rest on in a snapshot that was read. -/
structure Seen (node : Node) (manifest : DeploymentManifest) (inventory : TradingInventory)
    (block : Block) (snapshot : TradingSnapshot) : Prop where
  record : snapshot = tradingSnapshot node manifest inventory block
  usdc : node.vault.afUsdc = inventory.usdc
  maxPriceAge : node.vault.maxPriceAge = inventory.maxPriceAge
  stocks : ∀ i, node.vault.stocks i = (inventory.stocks i).token
  feeds : ∀ i, node.vault.feeds i = (inventory.stocks i).feed
  cash : node.state.idleCash + node.state.runtimeCash ≤
    node.state.tokens.balanceOf inventory.usdc manifest.contractAddress
  positions : ∀ i, node.state.trackedPosition (inventory.stocks i).token ≤
    node.state.tokens.balanceOf (inventory.stocks i).token manifest.contractAddress
  count : node.state.openTrackedPositionCount = heldCount node inventory

theorem readTradingSnapshot_ok
    (h : readTradingSnapshot abi node manifest inventory block = .ok snapshot) :
    Seen node manifest inventory block snapshot := by
  simp only [readTradingSnapshot, checkImmutables, checkBacking, checkAccounting, bind_eq_ok,
    ensure_eq_ok, pure_eq_ok, List.forM_eq_forM, forM_eq_ok] at h
  obtain ⟨_, _, _, ⟨_, hids, _, hage, _⟩, _, ⟨_, hbacking, _⟩, _, hstocks, _, hcount, _, _, rfl⟩ := h
  have hstock : ∀ i, checkStock node manifest inventory i = .ok () := fun i =>
    hstocks i (List.mem_finRange i)
  simp only [checkStock, bind_eq_ok, ensure_eq_ok] at hstock
  refine ⟨rfl, hids.2.2.1, hage, fun i => ?_, fun i => ?_, hbacking.2.2.2.1, fun i => ?_, hcount.1⟩
  · obtain ⟨_, hassets, _⟩ := hstock i
    exact hassets.1
  · obtain ⟨_, hassets, _⟩ := hstock i
    exact hassets.2.1
  · obtain ⟨_, _, _, _, hheld⟩ := hstock i
    exact hheld.2.1

theorem Seen.equity_eq (h : Seen node manifest inventory block snapshot) :
    equity node inventory = equityAt node.vault node.price node.state := by
  have hrange : List.finRange 3 = [0, 1, 2] := rfl
  simp only [equity, hrange, List.foldl_cons, List.foldl_nil, equityAt, worth, h.stocks, h.feeds]

theorem Seen.count_le (h : Seen node manifest inventory block snapshot) :
    node.state.openTrackedPositionCount ≤ 3 := by
  rw [h.count]
  exact Nat.le_trans (List.length_filter_le _ _) (Nat.le_refl 3)

/-- A stock that is held is counted. -/
theorem Seen.count_pos (h : Seen node manifest inventory block snapshot) {i : Fin 3}
    (hheld : node.state.trackedPosition (node.vault.stocks i) ≠ 0) :
    1 ≤ node.state.openTrackedPositionCount := by
  rw [h.count]
  refine List.length_pos_of_mem (a := i) ?_
  rw [List.mem_filter]
  refine ⟨List.mem_finRange i, decide_eq_true ?_⟩
  rw [h.stocks] at hheld
  exact Nat.pos_of_ne_zero hheld

variable {m : Msg}

/-- The prices of the snapshot, later. -/
structure Standing (node : Node) (inventory : TradingInventory) (block : Block) (m : Msg) : Prop where
  after : block.timestamp ≤ m.timestamp
  fresh : ∀ i, priceValid node inventory block i = true →
    m.timestamp - (node.price (inventory.stocks i).feed).observedAt ≤ inventory.maxPriceAge

theorem Seen.fresh (h : Seen node manifest inventory block snapshot)
    (hs : Standing node inventory block m) {i : Fin 3}
    (hvalid : priceValid node inventory block i = true) : Fresh node.vault m node.price i := by
  have hage := hs.fresh i hvalid
  have hafter := hs.after
  simp only [priceValid, decide_eq_true_eq] at hvalid
  obtain ⟨hprice, hdigest, hobserved, _⟩ := hvalid
  unfold Fresh
  rw [h.feeds, h.maxPriceAge]
  exact ⟨by omega, hdigest, by omega, hage⟩

theorem Seen.priced (h : Seen node manifest inventory block snapshot)
    (hs : Standing node inventory block m) (hvalued : valued node inventory block = true) :
    Priced node.vault m node.price node.state := by
  intro i hheld
  rw [valued, List.all_eq_true] at hvalued
  have hone := of_decide_eq_true (hvalued i (List.mem_finRange i))
  rw [h.stocks] at hheld
  exact h.fresh hs (hone.resolve_left hheld)

end Seen

/-! ## What a plan passed -/

section Passed

variable {getAddress : String → Option Address} {codec : Codec} {evidenceHash : EvidenceHash}
  {s : TradingSnapshot} {inventory : TradingInventory} {request : TradeRequest}
  {quotedOut quoted minimum : String} {intent : OrderIntent}

/-- The stock of a request. -/
def TradeRequest.stock (request : TradeRequest) : Fin 3 := Fin.ofNat 3 request.stockIndex.toNat

/-- The call the planner makes. -/
def plannedSwap (s : TradingSnapshot) (inventory : TradingInventory) (request : TradeRequest)
    (amountIn minAmountOut deadline expectedVersion : Nat) : Swap :=
  { tokenIn := if request.side = .buy then inventory.usdc else (s.stocks request.stock).token
    tokenOut := if request.side = .buy then (s.stocks request.stock).token else inventory.usdc
    amountIn, minAmountOut, deadline, expectedVersion }

/-- The checks behind a ready plan, in their order. -/
structure Passed (getAddress : String → Option Address) (codec : Codec) (s : TradingSnapshot)
    (inventory : TradingInventory) (request : TradeRequest) (quotedOut minimum : String)
    (intent : OrderIntent) (now deadline amount quote price position minOut version : Nat) :
    Prop where
  authority : checkAuthority getAddress s inventory request = .ok ()
  reference : (s.stocks request.stock).token = (inventory.stocks request.stock).token ∧
    (s.stocks request.stock).pool = (inventory.stocks request.stock).pool ∧
    (s.stocks request.stock).priceValid = true
  readNow : uint s.blockTimestamp = .ok now
  readDeadline : uint request.deadline = .ok deadline
  readAmount : uint request.amountIn = .ok amount
  readQuote : uint quotedOut = .ok quote
  timeAmount : (now : Int) ≤ request.createdAt / 1000 ∧ request.createdAt / 1000 - now ≤ 30 ∧
    now ≤ deadline ∧ deadline < 2 ^ 64 ∧ amount ≠ 0 ∧ quote ≠ 0
  window : checkWindow s (request.side = .buy) now deadline = .ok ()
  readPrice : uint (s.stocks request.stock).priceUsdc = .ok price
  readPosition : uint (s.stocks request.stock).position = .ok position
  floor : minimumOutput s (request.side = .buy) amount price = .ok minOut
  capacity : request.side = .buy → checkBuyCapacity s amount price position = .ok ()
  held : request.side ≠ .buy → amount ≤ position
  printed : minimum = minOut.repr
  enough : minOut ≤ quote
  postFill : request.side = .buy → checkPostFill s amount price position quote = .ok ()
  readVersion : uint s.stateVersion = .ok version
  calldata : intent.calldata =
    codec.encodeFunctionData (.execute (plannedSwap s inventory request amount minOut deadline version))
  basis : intent.executor = s.grant.executor ∧ intent.vault = s.vault ∧
    intent.chainId = testnetChainId

theorem planExecutorTrade_ready
    (h : planExecutorTrade getAddress codec evidenceHash s inventory request quotedOut =
      .ok (.ready intent quoted minimum)) :
    ∃ now deadline amount quote price position minOut version,
      Passed getAddress codec s inventory request quotedOut minimum intent now deadline amount quote
        price position minOut version := by
  simp only [planExecutorTrade, bind_eq_ok, ensure_eq_ok] at h
  obtain ⟨_, hauthority, _, hreference, now, hnow, deadline, hdeadline, amount, hamount, quote, hquote,
    _, htime, _, hwindow, price, hprice, position, hposition, minOut, hmin, h⟩ := h
  refine ⟨now, deadline, amount, quote, price, position, minOut, ?_⟩
  by_cases hbuy : request.side = .buy
  · simp only [hbuy, decide_true, if_true, bind_eq_ok] at h
    obtain ⟨_, hcapacity, h⟩ := h
    split at h
    · cases h
    · next henough =>
      simp only [bind_eq_ok] at h
      obtain ⟨_, hpost, version, hversion, h⟩ := h
      rw [pure_eq_ok, Plan.ready.injEq] at h
      obtain ⟨rfl, _, rfl⟩ := h
      refine ⟨version, hauthority, hreference, hnow, hdeadline, hamount, hquote, htime, hwindow,
        hprice, hposition, hmin, fun _ => hcapacity, fun hsell => absurd hbuy hsell, rfl,
        Nat.le_of_not_lt henough, fun _ => hpost, hversion, ?_, rfl, rfl, rfl⟩
      simp only [plannedSwap, hbuy, if_true]
      rfl
  · simp only [hbuy, decide_false, Bool.false_eq_true, if_false, bind_eq_ok, ensure_eq_ok] at h
    obtain ⟨_, hheld, h⟩ := h
    split at h
    · cases h
    · next henough =>
      simp only [bind_eq_ok] at h
      obtain ⟨version, hversion, h⟩ := h
      rw [pure_eq_ok, Plan.ready.injEq] at h
      obtain ⟨rfl, _, rfl⟩ := h
      refine ⟨version, hauthority, hreference, hnow, hdeadline, hamount, hquote, htime, hwindow,
        hprice, hposition, hmin, fun hside => absurd hside hbuy, fun _ => hheld, rfl,
        Nat.le_of_not_lt henough, fun hside => absurd hside hbuy, hversion, ?_, rfl, rfl, rfl⟩
      simp only [plannedSwap, hbuy, if_false]
      rfl

end Passed

/-! ## The checks on what was read -/

section Checks

variable {getAddress : String → Option Address} {node : Node} {manifest : DeploymentManifest}
  {inventory : TradingInventory} {block : Block} {request : TradeRequest} {buy : Bool}
  {now deadline amount price position quote minOut : Nat}

theorem checkAuthority_ok (h : checkAuthority getAddress
      (tradingSnapshot node manifest inventory block) inventory request = .ok ()) :
    node.state.closed = false ∧ node.state.grant.executor ≠ 0 := by
  simp only [checkAuthority, bind_eq_ok, ensure_eq_ok] at h
  obtain ⟨_, ⟨_, _, _, _, _, _, _, hopen, _⟩, executor, hwallet, hsame, _⟩ := h
  refine ⟨hopen, ?_⟩
  unfold walletAddress at hwallet
  split at hwallet
  · cases hwallet
  · simp only [bind_eq_ok, ensure_eq_ok, pure_eq_ok] at hwallet
    obtain ⟨_, hne, rfl⟩ := hwallet
    rw [hsame] at hne
    exact hne

theorem checkWindow_ok (h : checkWindow (tradingSnapshot node manifest inventory block) buy now
      deadline = .ok ()) :
    deadline ≤ lastMoment now node.state ∧ (buy = true →
      riskNeedsLiquidation (tradingSnapshot node manifest inventory block) = .ok false) := by
  simp only [checkWindow, bind_eq_ok, ensure_eq_ok] at h
  obtain ⟨expiresAt, hexpires, last, hlast, _, hwithin, _, hrisk, rfl⟩ := h
  have hgrant : node.state.grant.expiresAt = expiresAt := (uint_repr_eq_ok.mp hexpires).2
  have hmoment : last = lastMoment now node.state := by
    unfold lastMoment
    split at hlast
    · next hliquidating =>
      have hlatched : node.state.liquidating = true := hliquidating
      rw [if_pos hlatched]
      exact (uint_repr_eq_ok.mp hlast).2.symm
    · next hliquidating =>
      have hopen : ¬ node.state.liquidating = true := hliquidating
      simp only [bind_eq_ok, hexpires, Except.ok.injEq, pure_eq_ok, exists_eq_left'] at hlast
      obtain ⟨window, hwindow, rfl⟩ := hlast
      rw [if_neg hopen, hgrant]
      split at hwindow
      · next hexpired =>
        rw [if_pos (of_decide_eq_true hexpired), ← (uint_repr_eq_ok.mp hwindow).2]
      · next hexpired =>
        rw [if_neg (fun hle => hexpired (decide_eq_true hle)), ← Except.ok.inj hwindow, Nat.add_zero]
  refine ⟨hmoment ▸ hwithin.2, fun hbuy => ?_⟩
  simpa only [hbuy, both_eq_false, Except.ok.injEq, Bool.true_eq_false, false_or, true_and]
    using hrisk

/-- No bound is reached: the nav is read, so it fits a word. -/
theorem riskNeedsLiquidation_false (hseen : Seen node manifest inventory block
      (tradingSnapshot node manifest inventory block))
    (hvalued : valued node inventory block = true)
    (h : riskNeedsLiquidation (tradingSnapshot node manifest inventory block) = .ok false) :
    node.state.liquidating = false ∧
      (node.state.runtimeUnits ≠ 0 →
        equityAt node.vault node.price node.state * 10 ^ 18 / node.state.runtimeUnits < 2 ^ 256 ∧
        ¬ Beyond node.state.lowerUnitNav node.state.upperUnitNav
          (equityAt node.vault node.price node.state * 10 ^ 18 / node.state.runtimeUnits)) ∧
      ∀ i, node.state.trackedPosition (node.vault.stocks i) ≠ 0 →
        ¬ Beyond (node.state.lowerPrice i) (node.state.upperPrice i)
          (node.price (node.vault.feeds i)).price := by
  simp only [riskNeedsLiquidation, either_eq_false, some_eq_false] at h
  obtain ⟨hliquidating, _, hnav, hassets⟩ := h
  refine ⟨Except.ok.inj hliquidating, fun hunits => ?_, fun i hheld => ?_⟩
  · have hread : (tradingSnapshot node manifest inventory block).unitNav =
        some (equity node inventory * 10 ^ 18 / node.state.runtimeUnits).repr := by
      simp only [tradingSnapshot, hvalued, if_true, if_neg hunits]
    rw [hread, hseen.equity_eq] at hnav
    simp only [both_eq_false, bind_eq_ok, uint_repr_eq_ok, pure_eq_ok] at hnav
    rcases hnav with ⟨units, hunitsRead, hnone⟩ | ⟨_, _, ⟨hfits, rfl⟩, hwithin⟩
    · have hsame : node.state.runtimeUnits = units := (uint_repr_eq_ok.mp hunitsRead).2
      have hzero := of_decide_eq_false hnone
      omega
    · exact ⟨hfits, reached_false hwithin⟩
  · rw [hseen.stocks] at hheld
    rw [hseen.feeds]
    have hvalid : priceValid node inventory block i = true := by
      rw [valued, List.all_eq_true] at hvalued
      exact (of_decide_eq_true (hvalued i (List.mem_finRange i))).resolve_left hheld
    have htest := hassets _ (List.mem_map.mpr ⟨i, List.mem_finRange i, rfl⟩)
    simp only [both_eq_false, bind_eq_ok, pure_eq_ok] at htest
    rcases htest with ⟨held, hheldRead, hnone⟩ | ⟨_, hinvalid | ⟨_, quote, hquote, hwithin⟩⟩
    · have hsame : node.state.trackedPosition (inventory.stocks i).token = held :=
        (uint_repr_eq_ok.mp hheldRead).2
      have hzero := of_decide_eq_false hnone
      omega
    · have hfalse : priceValid node inventory block i = false := Except.ok.inj hinvalid
      rw [hvalid] at hfalse
      cases hfalse
    · have hsame : (node.price (inventory.stocks i).feed).price = quote :=
        (uint_repr_eq_ok.mp hquote).2
      rw [hsame]
      exact reached_false hwithin

theorem minimumOutput_ok (h : minimumOutput (tradingSnapshot node manifest inventory block) buy
      amount price = .ok minOut) :
    node.state.grant.maxSlippageBps < 10000 ∧ node.state.grant.maxOrderUsdc ≠ 0 ∧
      (if buy then amount else amount * price / 10 ^ 18) ≤ node.state.grant.maxOrderUsdc ∧
      (if buy then amount * 10 ^ 18 / price else amount * price / 10 ^ 18) *
        (10000 - node.state.grant.maxSlippageBps) / 10000 = minOut ∧ minOut ≠ 0 := by
  simp only [minimumOutput, tradingSnapshot, bind_eq_ok, ensure_eq_ok, uint_repr_eq_ok,
    pure_eq_ok] at h
  obtain ⟨_, ⟨_, rfl⟩, _, hslip, _, ⟨_, rfl⟩, _, hset, _, ⟨_, rfl⟩, _, hle, _, _, _, hpositive,
    hmin⟩ := h
  refine ⟨hslip, hset, hle, ?_, hmin ▸ hpositive⟩
  rw [← hmin]
  cases buy <;> rfl

theorem checkBuyCapacity_ok (hseen : Seen node manifest inventory block
      (tradingSnapshot node manifest inventory block))
    (h : checkBuyCapacity (tradingSnapshot node manifest inventory block) amount price position =
      .ok ()) :
    valued node inventory block = true ∧ amount ≤ node.state.runtimeCash ∧
      amount + node.state.totalBuyUsdc ≤ node.state.grant.maxTotalBuyUsdc ∧
      (position * price / 10 ^ 18 + amount) * 3 ≤ equityAt node.vault node.price node.state := by
  unfold checkBuyCapacity at h
  split at h
  · cases h
  · next equityText hequity =>
    simp only [tradingSnapshot] at hequity
    split at hequity
    · next hvalued =>
      rw [← Option.some.inj hequity, hseen.equity_eq] at h
      simp only [tradingSnapshot, bind_eq_ok, ensure_eq_ok, uint_repr_eq_ok] at h
      obtain ⟨_, ⟨_, rfl⟩, _, hcash, _, ⟨_, rfl⟩, _, ⟨_, rfl⟩, _, htotal, _, ⟨_, rfl⟩, hthird⟩ := h
      exact ⟨hvalued, hcash, htotal, hthird⟩
    · cases hequity

theorem checkPostFill_ok (hseen : Seen node manifest inventory block
      (tradingSnapshot node manifest inventory block)) (hvalued : valued node inventory block = true)
    (h : checkPostFill (tradingSnapshot node manifest inventory block) amount price position quote =
      .ok ()) :
    (position + quote) * price / 10 ^ 18 * 3 + amount + position * price / 10 ^ 18 ≤
      equityAt node.vault node.price node.state + (position + quote) * price / 10 ^ 18 := by
  have hequity : (tradingSnapshot node manifest inventory block).runtimeEquity =
      some (equity node inventory).repr := by
    simp only [tradingSnapshot, hvalued, if_true]
  simp only [checkPostFill, hequity, hseen.equity_eq, bind_eq_ok, ensure_eq_ok,
    uint_repr_eq_ok] at h
  obtain ⟨_, ⟨_, rfl⟩, hthird⟩ := h
  omega

end Checks

/-! ## The order is filled -/

section Filled

variable {abi : AbiHashes} {node : Node} {manifest : DeploymentManifest}
  {inventory : TradingInventory} {block : Block} {snapshot : TradingSnapshot}
  {getAddress : String → Option Address} {codec : Codec} {evidenceHash : EvidenceHash}
  {request : TradeRequest} {quotedOut quoted minimum : String} {intent : OrderIntent} {m mc : Msg}
  {c : Config} {s : State} {x : View} {self lockerSelf owner strategyCreator : Address}
  {strategyId strategyRef : Bytes32} {pass usdc router : Address} {stocks feeds : Fin 3 → Address}
  {maxPriceAge : Nat} {tokens : Tokens} {balance : Nat}

/-- The order of a request on the vault that was read. -/
def orderOf (node : Node) (manifest : DeploymentManifest) (inventory : TradingInventory)
    (block : Block) (request : TradeRequest) (minOut : Nat) : Swap :=
  plannedSwap (tradingSnapshot node manifest inventory block) inventory request
    (Text.ofDecimal request.amountIn) minOut (Text.ofDecimal request.deadline)
    node.state.stateVersion

section Order

variable {minOut : Nat} {r : RouterCall} (hid : TradingVault.Identity node.vault)
  (hself : node.vault.self ≠ 0) (hrouter : node.vault.router ≠ 0)
  (haddress : node.vault.self = manifest.contractAddress)
  (hseen : Seen node manifest inventory block (tradingSnapshot node manifest inventory block))
  (ho : Ordered node.vault m (orderOf node manifest inventory block request minOut) node.state)
  (hbounded : Bounded node.vault node.price node.state) (hstanding : Standing node inventory block m)
  (hvalid : priceValid node inventory block request.stock = true)
  (hfills : Fills node.vault r (orderOf node manifest inventory block request minOut)
    (Text.ofDecimal quotedOut) node.state)
  (henough : minOut ≤ Text.ofDecimal quotedOut) (hquotePos : Text.ofDecimal quotedOut ≠ 0)
  (hamountIn : Text.ofDecimal request.amountIn < 2 ^ 128)
  (hquotedOut : Text.ofDecimal quotedOut < 2 ^ 128)
  (hfloor : minimumOutput (tradingSnapshot node manifest inventory block) (request.side = .buy)
    (Text.ofDecimal request.amountIn) (node.price (inventory.stocks request.stock).feed).price =
      .ok minOut)

include hid hself hrouter haddress hseen ho hbounded hstanding hvalid hfills henough hquotePos
  hamountIn hquotedOut hfloor

theorem order_buys (hbuy : request.side = .buy) (hexecutor : node.state.grant.executor ≠ 0)
    (hexpiry : m.timestamp < node.state.grant.expiresAt) (hfeeds : r.feeds = node.price)
    (hrisk : riskNeedsLiquidation (tradingSnapshot node manifest inventory block) = .ok false)
    (hcapacity : checkBuyCapacity (tradingSnapshot node manifest inventory block)
      (Text.ofDecimal request.amountIn) (node.price (inventory.stocks request.stock).feed).price
      (node.state.trackedPosition (inventory.stocks request.stock).token) = .ok ())
    (hpostFill : checkPostFill (tradingSnapshot node manifest inventory block)
      (Text.ofDecimal request.amountIn) (node.price (inventory.stocks request.stock).feed).price
      (node.state.trackedPosition (inventory.stocks request.stock).token)
      (Text.ofDecimal quotedOut) = .ok ()) :
    ∃ s', TradingVault.execute node.vault m node.price r
        (orderOf node manifest inventory block request minOut) node.state = .ok s' ∧
      s'.log = node.state.log ++ [.swapExecuted (node.state.stateVersion + 1)
        node.state.grantVersion (node.vault.stocks request.stock) true
        (Text.ofDecimal request.amountIn) (Text.ofDecimal quotedOut)] := by
  have hmax : maxUint256 = 2 ^ 256 - 1 := rfl
  obtain ⟨hslip, hset, hnotional, hmin, hminPos⟩ := minimumOutput_ok hfloor
  obtain ⟨hvalued, hcash, htotal, hthird⟩ := checkBuyCapacity_ok hseen hcapacity
  have hpost := checkPostFill_ok hseen hvalued hpostFill
  have hpriced := hseen.priced hstanding hvalued
  obtain ⟨hliquidating, hnav, hassets⟩ := riskNeedsLiquidation_false hseen hvalued hrisk
  simp only [hbuy, decide_true, if_true] at hnotional hmin
  simp only [← hseen.stocks, ← hseen.feeds] at hmin hthird hpost
  have hin : (orderOf node manifest inventory block request minOut).tokenIn = node.vault.afUsdc :=
    (if_pos hbuy).trans hseen.usdc.symm
  have hout : (orderOf node manifest inventory block request minOut).tokenOut =
      node.vault.stocks request.stock := (if_pos hbuy).trans (hseen.stocks request.stock).symm
  have hreserved : Reserved node.vault (orderOf node manifest inventory block request minOut)
      node.state := by
    have hidle := hbounded.idleCash
    have hruntime := hbounded.runtimeCash
    unfold Reserved
    rw [if_pos hin, hin, haddress, hseen.usdc]
    exact ⟨by omega, hseen.cash⟩
  have hwithin : TradingVault.riskReached node.vault m node.price node.state = .ok false := by
    have hequity := hbounded.equityAt_lt
    refine TradingVault.riskReached_of hpriced (by omega) (fun hunits => ?_)
      (fun hunits => (hnav hunits).2) hassets
    have hfits := (hnav hunits).1
    omega
  have hexposure : (node.state.trackedPosition (node.vault.stocks request.stock) +
      Text.ofDecimal quotedOut) * (node.price (node.vault.feeds request.stock)).price / 10 ^ 18 * 3 ≤
        equityAt node.vault node.price (bought node.vault request.stock
          (Text.ofDecimal request.amountIn) (Text.ofDecimal quotedOut) node.state) := by
    have hexchanged : equityAt node.vault node.price (bought node.vault request.stock
        (Text.ofDecimal request.amountIn) (Text.ofDecimal quotedOut) node.state) +
          Text.ofDecimal request.amountIn + node.state.trackedPosition
            (node.vault.stocks request.stock) *
              (node.price (node.vault.feeds request.stock)).price / 10 ^ 18 = _ :=
      TradingVault.equityAt_bought hid.stocks hcash
    omega
  exact TradingVault.execute_buys hid hself hrouter ho hbounded (hseen.fresh hstanding hvalid)
    hreserved hfills henough hquotePos hamountIn hquotedOut hin hout hexecutor hliquidating hexpiry
    hpriced hwithin ⟨⟨hset, hnotional⟩, hslip, Nat.le_of_eq hmin, hminPos, hcash,
      Nat.add_comm _ _ ▸ htotal, hthird⟩ hseen.count_le hexposure hfeeds

theorem order_sells (hsell : request.side ≠ .buy)
    (hheld : Text.ofDecimal request.amountIn ≤
      node.state.trackedPosition (inventory.stocks request.stock).token) :
    ∃ s', TradingVault.execute node.vault m node.price r
        (orderOf node manifest inventory block request minOut) node.state = .ok s' ∧
      s'.log = node.state.log ++ [.swapExecuted (node.state.stateVersion + 1)
        node.state.grantVersion (node.vault.stocks request.stock) false
        (Text.ofDecimal request.amountIn) (Text.ofDecimal quotedOut)] := by
  obtain ⟨hslip, hset, hnotional, hmin, _⟩ := minimumOutput_ok hfloor
  simp only [hsell, decide_false, Bool.false_eq_true, if_false] at hnotional hmin
  simp only [← hseen.stocks, ← hseen.feeds] at hnotional hmin hheld
  have hin : (orderOf node manifest inventory block request minOut).tokenIn =
      node.vault.stocks request.stock := (if_neg hsell).trans (hseen.stocks request.stock).symm
  have hout : (orderOf node manifest inventory block request minOut).tokenOut = node.vault.afUsdc :=
    (if_neg hsell).trans hseen.usdc.symm
  have hreserved : Reserved node.vault (orderOf node manifest inventory block request minOut)
      node.state := by
    unfold Reserved
    rw [hin, if_neg (hid.stockUsdc _), haddress, hseen.stocks]
    exact hseen.positions _
  exact TradingVault.execute_sells hid hself hrouter ho hbounded (hseen.fresh hstanding hvalid)
    hreserved hfills henough hquotePos hamountIn hquotedOut hin hout
    ⟨⟨hset, hnotional⟩, hslip, Nat.le_of_eq hmin, hheld⟩ hseen.count_pos

end Order

/-- A ready plan, sent by the executor while the prices of its snapshot stand and
before it runs out, is filled whenever the router delivers what was quoted. -/
theorem ready_plan_fills
    (hnew : TradingVault.constructor mc x self lockerSelf owner strategyCreator strategyId
      strategyRef pass usdc router stocks feeds maxPriceAge tokens balance = .ok (c, s))
    (hcode : ¬ x.hasCode 0) (hvault : node.vault = c) (haddress : c.self = manifest.contractAddress)
    (hread : readTradingSnapshot abi node manifest inventory block = .ok snapshot)
    (hplan : planExecutorTrade getAddress codec evidenceHash snapshot inventory request quotedOut =
      .ok (.ready intent quoted minimum))
    (hbounded : Bounded c node.price node.state)
    (hamountIn : Text.ofDecimal request.amountIn < 2 ^ 128)
    (hquotedOut : Text.ofDecimal quotedOut < 2 ^ 128)
    (hsender : m.sender = intent.executor) (hchain : m.chainId = intent.chainId)
    (hstanding : Standing node inventory block m)
    (hdeadline : m.timestamp ≤ Text.ofDecimal request.deadline)
    (hexpiry : request.side = .buy → m.timestamp < node.state.grant.expiresAt) :
    let order := orderOf node manifest inventory block request (Text.ofDecimal minimum)
    intent.vault = c.self ∧ (TradingCall.execute order).Fits ∧
      intent.calldata = codec.encodeFunctionData (.execute order) ∧
      ∀ r : RouterCall, Fills c r order (Text.ofDecimal quotedOut) node.state →
        r.feeds = node.price →
        ∃ s', TradingVault.execute c m node.price r order node.state = .ok s' ∧
          s'.log = node.state.log ++ [.swapExecuted (node.state.stateVersion + 1)
            node.state.grantVersion (c.stocks request.stock) (request.side = .buy)
            (Text.ofDecimal request.amountIn) (Text.ofDecimal quotedOut)] := by
  subst hvault
  obtain ⟨hid, _⟩ := TradingVault.constructor_ok hnew
  obtain ⟨hself, hrouter⟩ := TradingVault.constructor_addresses hcode hnew
  have hseen := readTradingSnapshot_ok hread
  obtain ⟨now, deadline, amount, quote, price, position, minOut, version, hp⟩ :=
    planExecutorTrade_ready hplan
  have hrecord := hseen.record
  subst hrecord
  obtain ⟨rfl, hamountFits⟩ := uint_eq_ok hp.readAmount
  obtain ⟨rfl, hquoteFits⟩ := uint_eq_ok hp.readQuote
  obtain ⟨rfl, _⟩ := uint_eq_ok hp.readDeadline
  obtain ⟨_, rfl⟩ := uint_repr_eq_ok.mp hp.readNow
  obtain ⟨hversionFits, rfl⟩ := uint_repr_eq_ok.mp hp.readVersion
  obtain ⟨_, rfl⟩ := uint_repr_eq_ok.mp hp.readPrice
  obtain ⟨_, rfl⟩ := uint_repr_eq_ok.mp hp.readPosition
  obtain ⟨_, _, _, hdeadline64, hamountPos, hquotePos⟩ := hp.timeAmount
  obtain ⟨hopen, hexecutor⟩ := checkAuthority_ok hp.authority
  obtain ⟨hlast, hrisk⟩ := checkWindow_ok hp.window
  have henough := hp.enough
  have hminFits : minOut < 2 ^ 256 := by omega
  rw [hp.printed, Text.ofDecimal_repr]
  refine ⟨hp.basis.2.1.trans haddress.symm, ⟨hamountFits, hminFits, hdeadline64, hversionFits⟩,
    hp.calldata, fun r hfills hfeeds => ?_⟩
  have ho : Ordered node.vault m (orderOf node manifest inventory block request minOut)
      node.state :=
    ⟨hopen, hchain.trans hp.basis.2.2, hsender.trans hp.basis.1, rfl, hamountPos, hdeadline,
      TradingVault.le_lastMoment hlast hstanding.after hdeadline⟩
  by_cases hbuy : request.side = .buy
  · rw [decide_eq_true hbuy] at hrisk ⊢
    exact order_buys hid hself hrouter haddress hseen ho hbounded hstanding hp.reference.2.2 hfills
      henough hquotePos hamountIn hquotedOut hp.floor hbuy hexecutor (hexpiry hbuy) hfeeds
      (hrisk rfl) (hp.capacity hbuy) (hp.postFill hbuy)
  · rw [decide_eq_false hbuy]
    exact order_sells hid hself hrouter haddress hseen ho hbounded hstanding hp.reference.2.2 hfills
      henough hquotePos hamountIn hquotedOut hp.floor hbuy (hp.held hbuy)

end Filled

/-! ## A buy of the example vault -/

/-- The vault with cash at work and an executor. -/
def exampleVault : State :=
  Machine.exec (TradingVault.step exampleConfig) exampleFresh exampleStart

def exampleSnapshot : TradingSnapshot :=
  tradingSnapshot (exampleNode exampleConfig exampleVault) exampleManifest exampleInventory
    exampleBlock

/-- A buy for 300 within the next seconds. -/
def exampleRequest : TradeRequest :=
  { stockIndex := 0, side := .buy, amountIn := "300", deadline := "120"
    sourceDigest := digestText 0xcd, createdAt := 115000, executor := addressText 12 }

def wordBytes (w : Bytes32) : ChainStore.HexData :=
  (List.range 32).map fun k => UInt8.ofNat (w.toNat / 256 ^ (31 - k) % 256)

/-- The selector of `execute` and its six words. -/
def exampleOrderData (a : Swap) : ChainStore.HexData :=
  [0x4d, 0x6a, 0xbe, 0xba] ++
    [a.tokenIn.setWidth 256, a.tokenOut.setWidth 256, BitVec.ofNat 256 a.amountIn,
      BitVec.ofNat 256 a.minAmountOut, BitVec.ofNat 256 a.deadline,
      BitVec.ofNat 256 a.expectedVersion].flatMap wordBytes

def exampleOrder : Swap := ⟨6, 7, 300, 148500000000000, 120, 3⟩

def exampleOrderCodec : Codec :=
  { encodeFunctionData := fun call => match call with
      | .execute a => exampleOrderData a
      | _ => []
    parseTransaction := fun data =>
      if data = exampleOrderData exampleOrder then some (.execute exampleOrder) else none }

/-- The digests of the two records of this plan. -/
def exampleEvidenceHash : EvidenceHash :=
  { snapshot := fun _ => "0x0f0d2c7de75244b0af8d8d85696777aba6d8176ffc9685531678e3dcb4c88c01"
    basis := fun _ => "0x64d939c3598483fe1f2932dc0213c4618b78468447bb3b8a6410b5bbc643ff7a" }

def exampleGetAddress (v : String) : Option Address := if v = addressText 12 then some 12 else none

theorem example_read : readTradingSnapshot ⟨11, 12⟩ (exampleNode exampleConfig exampleVault)
    exampleManifest exampleInventory exampleBlock = .ok exampleSnapshot := by
  obtain ⟨hid, hworking, hfunded, _⟩ := TradingVault.constructor_ok example_constructed
  have hkeep : ∀ a w w', TradingVault.Working exampleConfig w ∧ TradingVault.Funded exampleConfig w →
      TradingVault.step exampleConfig a w = .ok w' →
      TradingVault.Working exampleConfig w' ∧ TradingVault.Funded exampleConfig w' := fun a _ _ hb h =>
    ⟨TradingVault.step_working hid a hb.1 h, TradingVault.step_funded hid a hb.1 hb.2 h⟩
  have hbooks : TradingVault.Working exampleConfig exampleVault ∧
      TradingVault.Funded exampleConfig exampleVault :=
    Machine.exec_invariant hkeep ⟨hworking, hfunded example_quiet⟩ exampleStart
  exact readTradingSnapshot_of (example_qualified exampleVault) hbooks.1 hbooks.2

theorem buy_plan_fills : ∃ intent s',
    planExecutorTrade exampleGetAddress exampleOrderCodec exampleEvidenceHash exampleSnapshot
      exampleInventory exampleRequest "150000000000000" =
        .ok (.ready intent "150000000000000" "148500000000000") ∧
    intent.calldata = exampleOrderCodec.encodeFunctionData (.execute exampleOrder) ∧
    TradingVault.execute exampleConfig (TradingVault.exampleMsg 12 112) TradingVault.exampleFeeds
      (TradingVault.exampleSwap 6 7 300 (150 * 10 ^ 12)) exampleOrder exampleVault = .ok s' ∧
    s'.log = exampleVault.log ++ [.swapExecuted 4 1 7 true 300 (150 * 10 ^ 12)] := by
  have hplan : planExecutorTrade exampleGetAddress exampleOrderCodec exampleEvidenceHash
      exampleSnapshot exampleInventory exampleRequest "150000000000000" =
        .ok (.ready _ "150000000000000" "148500000000000") := rfl
  have hbounded : Bounded exampleConfig TradingVault.exampleFeeds exampleVault := by
    refine ⟨by decide, by decide, by decide, fun i => ?_, fun i => ?_, by decide, by decide,
      by decide⟩
    · rcases TradingVault.stock_cases i with rfl | rfl | rfl
      all_goals decide
    · rcases TradingVault.stock_cases i with rfl | rfl | rfl
      all_goals decide
  have hstanding : Standing (exampleNode exampleConfig exampleVault) exampleInventory exampleBlock
      (TradingVault.exampleMsg 12 112) := by
    refine ⟨by decide, fun i _ => ?_⟩
    rcases TradingVault.stock_cases i with rfl | rfl | rfl
    all_goals decide
  obtain ⟨_, _, hdata, hfilled⟩ := ready_plan_fills (m := TradingVault.exampleMsg 12 112)
    example_constructed (by decide) rfl rfl example_read hplan hbounded (by decide) (by decide) rfl rfl
    hstanding (by decide) (fun _ => by decide)
  have hrouted : Fills exampleConfig (TradingVault.exampleSwap 6 7 300 (150 * 10 ^ 12)) exampleOrder
      (Text.ofDecimal "150000000000000") exampleVault := ⟨rfl, rfl, rfl⟩
  obtain ⟨s', hexecuted, hlog⟩ := hfilled _ hrouted rfl
  exact ⟨_, s', hplan, hdata, hexecuted, hlog⟩

end Executor
end AlphaForge
