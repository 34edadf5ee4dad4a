/-
The venue of the strategy vault: the keeper's reference feed and the test-stock
reserve that trades at its price, both in `AlphaForgeStrategyVault.sol`.
-/
import AlphaForge.Evm.Token
import AlphaForge.Network

namespace AlphaForge

open Evm

namespace ReferenceFeed

structure Config where
  self : Address
  keeper : Address

structure State where
  quote : Nat
  observed : Nat
  digest : Bytes32
  regularOpen : Nat
  regularClose : Nat
  calendarObservedAt : Nat
  calendarDigest : Bytes32

variable {ε : Type} (c : Config) (m : Msg)

def update (price at_ : Nat) (source : Bytes32) (s : State) : Result ε State := do
  require (m.sender = c.keeper ∧ price ≠ 0 ∧ source ≠ 0) (.reason "KEEPER_REFERENCE")
  require (at_ ≤ m.timestamp ∧ s.observed < at_ ∧ m.timestamp - at_ ≤ 60)
    (.reason "FRESH_REFERENCE_REQUIRED")
  return { s with quote := price, observed := at_, digest := source }

def updateSession (opens closes at_ : Nat) (source : Bytes32) (s : State) : Result ε State := do
  require (m.sender = c.keeper ∧ source ≠ 0) (.reason "KEEPER_CALENDAR")
  require (at_ ≤ m.timestamp ∧ s.calendarObservedAt ≤ at_ ∧ m.timestamp - at_ ≤ 60)
    (.reason "FRESH_CALENDAR_REQUIRED")
  require ((opens = 0 ∧ closes = 0) ∨ (opens < closes ∧ closes - opens ≤ 8 * 3600))
    (.reason "REGULAR_SESSION_BOUNDS")
  return { s with
    regularOpen := opens, regularClose := closes, calendarObservedAt := at_,
    calendarDigest := source }

def executionAllowed (s : State) : Bool :=
  s.calendarDigest ≠ 0 ∧ s.calendarObservedAt ≤ m.timestamp ∧
    m.timestamp - s.calendarObservedAt ≤ 60 ∧ s.regularOpen ≤ m.timestamp ∧
    m.timestamp < s.regularClose

/-- The price as a reader with its own age limit takes it: `price()` of the reserve
and `stockPrice()` of the vault. -/
def fresh (maxPriceAge : Nat) (s : State) : Result ε Nat := do
  require (s.quote ≠ 0 ∧ s.digest ≠ 0 ∧ s.observed ≤ m.timestamp ∧
    m.timestamp - s.observed ≤ maxPriceAge) (.reason "STALE_REFERENCE")
  return s.quote

/-- A price a reader with this age limit takes. -/
structure Fresh (maxPriceAge : Nat) (s : State) : Prop where
  quoted : s.quote ≠ 0
  sourced : s.digest ≠ 0
  seen : s.observed ≤ m.timestamp
  young : m.timestamp - s.observed ≤ maxPriceAge

variable {m}

theorem fresh_of {maxPriceAge : Nat} {s : State} (h : Fresh m maxPriceAge s) :
    (fresh m maxPriceAge s : Result ε Nat) = .ok s.quote := by
  rw [fresh, require_of ⟨h.quoted, h.sourced, h.seen, h.young⟩]
  rfl

end ReferenceFeed

namespace StockReserve

structure Config where
  self : Address
  owner : Address
  usdc : Address
  stock : Address
  feed : Address
  maxPriceAge : Nat

variable {ε : Type} (c : Config) (m : Msg)

def setPaused (next : Bool) : Result ε Bool := do
  require (m.sender = c.owner) (.reason "OWNER_PAUSE")
  return next

/-- `_pull`. -/
def pull (token src : Address) (amount : Nat) (k : Tokens) : Result ε Tokens :=
  k.pullExact token c.self src c.self amount (.reason "TRANSFER_MISMATCH")

/-- `_send`. -/
def send (token dst : Address) (amount : Nat) (k : Tokens) : Result ε Tokens :=
  k.sendExact token c.self dst amount (.reason "TRANSFER_MISMATCH")

def swap (paused : Bool) (feed : ReferenceFeed.State) (buy : Bool) (input minimum deadline : Nat)
    (k : Tokens) : Result ε (Tokens × Nat) := do
  require (m.chainId = testnetChainId ∧ input ≠ 0 ∧ m.timestamp ≤ deadline)
    (.reason "INVALID_SWAP")
  require (paused = false ∧ ReferenceFeed.executionAllowed m feed)
    (.reason "REGULAR_SESSION_REQUIRED")
  let price ← ReferenceFeed.fresh m c.maxPriceAge feed
  let output ← (if buy then mulDiv input (10 ^ 18) price else mulDiv input price (10 ^ 18))
  require (output ≠ 0 ∧ minimum ≤ output) (.reason "MINIMUM_OUTPUT")
  let inToken := if buy then c.usdc else c.stock
  let outToken := if buy then c.stock else c.usdc
  require (output ≤ k.balanceOf outToken c.self) (.reason "INSUFFICIENT_TEST_RESERVE")
  let k ← pull c inToken m.sender input k
  let k ← send c outToken m.sender output k
  return (k, output)

variable {c m}

theorem swap_ok {paused buy : Bool} {feed : ReferenceFeed.State} {input minimum deadline : Nat}
    {k k' : Tokens} {output : Nat}
    (h : (swap c m paused feed buy input minimum deadline k : Result ε (Tokens × Nat)) =
      .ok (k', output)) :
    output ≠ 0 ∧ minimum ≤ output ∧
      ∃ k₁, k.Moved k₁ (if buy then c.usdc else c.stock) m.sender c.self input ∧
        k₁.Moved k' (if buy then c.stock else c.usdc) c.self m.sender output := by
  simp only [swap, pull, send, bind_eq_ok, require_eq_ok, pure_eq_ok, Prod.mk.injEq] at h
  obtain ⟨_, _, _, _, _, _, _, _, _, ⟨hne, hmin⟩, _, _, k₁, hk₁, k₂, hk₂, rfl, rfl⟩ := h
  exact ⟨hne, hmin, k₁, Tokens.pullExact_ok hk₁, Tokens.sendExact_ok hk₂⟩

/-- A swap at a fresh price in an open session goes through when the trader has
the input and has approved it, and the reserve has the output. -/
theorem swap_of {paused buy : Bool} {feed : ReferenceFeed.State}
    {input minimum deadline output : Nat} {k : Tokens}
    (hself : c.self ≠ 0) (hsender : m.sender ≠ 0) (hapart : m.sender ≠ c.self)
    (htokens : c.usdc ≠ c.stock)
    (hcall : m.chainId = testnetChainId ∧ input ≠ 0 ∧ m.timestamp ≤ deadline)
    (hopen : paused = false ∧ ReferenceFeed.executionAllowed m feed = true)
    (hprice : (ReferenceFeed.fresh m c.maxPriceAge feed : Result ε Nat) = .ok feed.quote)
    (houtput : (if buy then mulDiv input (10 ^ 18) feed.quote else mulDiv input feed.quote (10 ^ 18) :
      Result ε Nat) = .ok output)
    (hmin : output ≠ 0 ∧ minimum ≤ output)
    (hreserve : output ≤ k.balanceOf (if buy then c.stock else c.usdc) c.self)
    (hallowed : input ≤ k.allowance (if buy then c.usdc else c.stock) m.sender c.self)
    (hfunded : input ≤ k.balanceOf (if buy then c.usdc else c.stock) m.sender) :
    ∃ k', (swap c m paused feed buy input minimum deadline k : Result ε (Tokens × Nat)) =
      .ok (k', output) := by
  obtain ⟨k₁, hpull⟩ := Tokens.pullExact_of (ε := ε) (.reason "TRANSFER_MISMATCH") hself hsender
    hself hapart hallowed hfunded
  have hmoved := Tokens.pullExact_ok hpull
  -- the pull moved the other token, so the reserve still has the output
  have hother : (if buy then c.stock else c.usdc) ≠ (if buy then c.usdc else c.stock) := by
    cases buy with
    | true => exact htokens.symm
    | false => exact htokens
  have hreserve₁ : output ≤ k₁.balanceOf (if buy then c.stock else c.usdc) c.self := by
    rw [hmoved.balance_token hother]
    exact hreserve
  obtain ⟨k₂, hsend⟩ := Tokens.sendExact_of (ε := ε) (.reason "TRANSFER_MISMATCH") hself hsender
    hapart.symm hreserve₁
  unfold swap pull send
  dsimp only
  rw [require_of hcall, ok_bind, require_of hopen, ok_bind, hprice, ok_bind, houtput, ok_bind,
    require_of hmin, ok_bind, require_of hreserve, ok_bind, hpull, ok_bind, hsend]
  exact ⟨k₂, rfl⟩

end StockReserve

end AlphaForge
