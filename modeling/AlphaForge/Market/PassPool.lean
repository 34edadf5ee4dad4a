/-
The PASS/AF-USDC constant-product pool, `AlphaForgePassPool.sol`.

The pool is itself an ERC-20 token, so its LP shares live in the ledger at the
pool's own address and `totalSupply()` is that ledger's supply.  Reserves are
kept apart from balances: a donation moves a balance and no reserve.
-/
import Mathlib.Data.Nat.Sqrt
import AlphaForge.Evm.Token
import AlphaForge.Machine.Run
import AlphaForge.Network

namespace AlphaForge

open Evm

namespace PassPool

def feeBps : Nat := 30

structure Config where
  self : Address
  factory : Address
  pass : Address
  usdc : Address
  initialLpRecipient : Address

inductive Event where
  | liquidityAdded (recipient : Address) (passAmount usdcAmount shares : Nat)
  | liquidityRemoved (recipient : Address) (passAmount usdcAmount shares : Nat)
  | swap (payer recipient : Address) (buy : Bool) (amountIn amountOut fee : Nat)
  | sync (reservePass reserveUsdc : Nat)

structure State where
  tokens : Tokens
  reservePass : Nat
  reserveUsdc : Nat
  initialized : Bool
  log : List Event

def State.emit (s : State) (e : Event) : State := { s with log := s.log ++ [e] }

def constructor (m : Msg) (hasCode : Address → Bool) (self pass usdc lpRecipient : Address) :
    Result Empty Config := do
  require (m.chainId = testnetChainId) (.reason "TESTNET_ONLY")
  require (pass ≠ usdc ∧ hasCode pass ∧ hasCode usdc ∧ lpRecipient ≠ 0) (.reason "IDENTITY")
  return { self, factory := m.sender, pass, usdc, initialLpRecipient := lpRecipient }

/-- The storage of a pool that has just been constructed. -/
def State.fresh (tokens : Tokens) : State :=
  { tokens, reservePass := 0, reserveUsdc := 0, initialized := false, log := [] }

section Calls

variable (c : Config)

def State.totalSupply (s : State) : Nat := s.tokens.totalSupply c.self

/-- `initialize`. -/
def initialise (m : Msg) (passAmount usdcAmount : Nat) (s : State) :
    Result Empty (State × Nat) := do
  require (m.sender = c.factory ∧ s.initialized = false) (.reason "INITIALIZER_ONLY")
  require (passAmount = 500000 * 10 ^ 18 ∧ usdcAmount = 250000 * 10 ^ 6)
    (.reason "INITIAL_RESERVES")
  require (passAmount ≤ s.tokens.balanceOf c.pass c.self ∧
    usdcAmount ≤ s.tokens.balanceOf c.usdc c.self) (.reason "FUNDING")
  let product ← checkedMul passAmount usdcAmount
  let shares := Nat.sqrt product
  let tokens ← s.tokens.mint c.self c.initialLpRecipient shares
  let s := { s with
    tokens, initialized := true, reservePass := passAmount, reserveUsdc := usdcAmount }
  let s := s.emit (.liquidityAdded c.initialLpRecipient passAmount usdcAmount shares)
  return (s.emit (.sync s.reservePass s.reserveUsdc), shares)

/-- `_quote`: the output for `amount` and the fee kept, the fee rounded up and the
output down. -/
def quote (initialized : Bool) (reserveIn reserveOut amount : Nat) : Result Empty (Nat × Nat) := do
  require (initialized ∧ amount ≠ 0 ∧ reserveIn ≠ 0 ∧ reserveOut ≠ 0) (.reason "LIQUIDITY")
  let fee ← mulDivCeil amount feeBps 10000
  let net ← checkedSub amount fee
  let denominator ← checkedAdd reserveIn net
  let output ← mulDiv reserveOut net denominator
  require (output ≠ 0 ∧ output < reserveOut) (.reason "ZERO_OUTPUT")
  return (output, fee)

def quoteBuy (s : State) (amount : Nat) : Result Empty (Nat × Nat) :=
  quote s.initialized s.reserveUsdc s.reservePass amount

def quoteSell (s : State) (amount : Nat) : Result Empty (Nat × Nat) :=
  quote s.initialized s.reservePass s.reserveUsdc amount

/-- `_validate`. -/
def validate (m : Msg) (recipient : Address) (deadline : Nat) (s : State) :
    Result Empty Unit := do
  require (m.chainId = testnetChainId ∧ s.initialized ∧ m.timestamp ≤ deadline)
    (.reason "NOT_LIVE_OR_EXPIRED")
  require (recipient ≠ 0 ∧ recipient ≠ c.self) (.reason "RECIPIENT")
  require (s.reservePass ≤ s.tokens.balanceOf c.pass c.self ∧
    s.reserveUsdc ≤ s.tokens.balanceOf c.usdc c.self) (.reason "RESERVE_DEFICIT")

/-- `_pull`. -/
def pull (m : Msg) (token : Address) (amount : Nat) (k : Tokens) : Result Empty Tokens :=
  k.pullExact token c.self m.sender c.self amount (.reason "TRANSFER_MISMATCH")

/-- `_send`. -/
def send (token recipient : Address) (amount : Nat) (k : Tokens) : Result Empty Tokens :=
  k.sendExactBoth token c.self recipient amount (.reason "TRANSFER_MISMATCH")

def buy (m : Msg) (amount minOut : Nat) (recipient : Address) (deadline : Nat) (s : State) :
    Result Empty (State × Nat) := do
  validate c m recipient deadline s
  let (output, fee) ← quoteBuy s amount
  require (minOut ≤ output ∧ minOut ≠ 0) (.reason "SLIPPAGE")
  let reserveUsdc ← checkedAdd s.reserveUsdc amount
  let reservePass ← checkedSub s.reservePass output
  let tokens ← pull c m c.usdc amount s.tokens
  let tokens ← send c c.pass recipient output tokens
  let s := { s with tokens, reserveUsdc, reservePass }
  let s := s.emit (.swap m.sender recipient true amount output fee)
  return (s.emit (.sync s.reservePass s.reserveUsdc), output)

def sell (m : Msg) (amount minOut : Nat) (recipient : Address) (deadline : Nat) (s : State) :
    Result Empty (State × Nat) := do
  validate c m recipient deadline s
  let (output, fee) ← quoteSell s amount
  require (minOut ≤ output ∧ minOut ≠ 0) (.reason "SLIPPAGE")
  let reservePass ← checkedAdd s.reservePass amount
  let reserveUsdc ← checkedSub s.reserveUsdc output
  let tokens ← pull c m c.pass amount s.tokens
  let tokens ← send c c.usdc recipient output tokens
  let s := { s with tokens, reserveUsdc, reservePass }
  let s := s.emit (.swap m.sender recipient false amount output fee)
  return (s.emit (.sync s.reservePass s.reserveUsdc), output)

def addLiquidity (m : Msg) (shares maxPass maxUsdc : Nat) (recipient : Address)
    (deadline : Nat) (s : State) : Result Empty (State × Nat × Nat) := do
  validate c m recipient deadline s
  require (shares ≠ 0 ∧ s.totalSupply c ≠ 0) (.reason "SHARES")
  let passAmount ← mulDivCeil shares s.reservePass (s.totalSupply c)
  let usdcAmount ← mulDivCeil shares s.reserveUsdc (s.totalSupply c)
  require (passAmount ≤ maxPass ∧ usdcAmount ≤ maxUsdc) (.reason "BUDGET")
  let reservePass ← checkedAdd s.reservePass passAmount
  let reserveUsdc ← checkedAdd s.reserveUsdc usdcAmount
  let tokens ← pull c m c.pass passAmount s.tokens
  let tokens ← pull c m c.usdc usdcAmount tokens
  let tokens ← tokens.mint c.self recipient shares
  let s := { s with tokens, reserveUsdc, reservePass }
  let s := s.emit (.liquidityAdded recipient passAmount usdcAmount shares)
  return (s.emit (.sync s.reservePass s.reserveUsdc), passAmount, usdcAmount)

def removeLiquidity (m : Msg) (shares minPass minUsdc : Nat) (recipient : Address)
    (deadline : Nat) (s : State) : Result Empty (State × Nat × Nat) := do
  validate c m recipient deadline s
  require (shares ≠ 0 ∧ shares < s.totalSupply c) (.reason "SHARES")
  let passAmount ← mulDiv shares s.reservePass (s.totalSupply c)
  let usdcAmount ← mulDiv shares s.reserveUsdc (s.totalSupply c)
  require (minPass ≤ passAmount ∧ minUsdc ≤ usdcAmount) (.reason "SLIPPAGE")
  let tokens ← s.tokens.burn c.self m.sender shares
  let reservePass ← checkedSub s.reservePass passAmount
  let reserveUsdc ← checkedSub s.reserveUsdc usdcAmount
  let tokens ← send c c.pass recipient passAmount tokens
  let tokens ← send c c.usdc recipient usdcAmount tokens
  let s := { s with tokens, reserveUsdc, reservePass }
  let s := s.emit (.liquidityRemoved recipient passAmount usdcAmount shares)
  return (s.emit (.sync s.reservePass s.reserveUsdc), passAmount, usdcAmount)

/-- What can happen to a live pool.  `outside` is any list of token calls by other
accounts: donations, LP share transfers, approvals. -/
inductive Action where
  | buy (m : Msg) (amount minOut : Nat) (recipient : Address) (deadline : Nat)
  | sell (m : Msg) (amount minOut : Nat) (recipient : Address) (deadline : Nat)
  | addLiquidity (m : Msg) (shares maxPass maxUsdc : Nat) (recipient : Address) (deadline : Nat)
  | removeLiquidity (m : Msg) (shares minPass minUsdc : Nat) (recipient : Address) (deadline : Nat)
  | outside (calls : List TokenCall)

def step : Action → State → Result Empty State
  | .buy m amount minOut recipient deadline, s =>
      callFrom [c.self] m (Prod.fst <$> buy c m amount minOut recipient deadline s)
  | .sell m amount minOut recipient deadline, s =>
      callFrom [c.self] m (Prod.fst <$> sell c m amount minOut recipient deadline s)
  | .addLiquidity m shares maxPass maxUsdc recipient deadline, s =>
      callFrom [c.self] m
        (Prod.fst <$> addLiquidity c m shares maxPass maxUsdc recipient deadline s)
  | .removeLiquidity m shares minPass minUsdc recipient deadline, s =>
      callFrom [c.self] m
        (Prod.fst <$> removeLiquidity c m shares minPass minUsdc recipient deadline s)
  | .outside calls, s => .ok { s with tokens := s.tokens.outside [c.self] calls }

end Calls

/-! ## What an accepted call did -/

section Accepted

variable {c : Config} {m : Msg} {recipient : Address} {deadline : Nat} {s s' : State}

theorem quote_ok {initialized : Bool} {reserveIn reserveOut amount output fee : Nat}
    (h : quote initialized reserveIn reserveOut amount = .ok (output, fee)) :
    initialized = true ∧ reserveIn ≠ 0 ∧ output ≠ 0 ∧ output < reserveOut ∧ fee ≤ amount ∧
      output = reserveOut * (amount - fee) / (reserveIn + (amount - fee)) := by
  simp only [quote, bind_eq_ok, require_eq_ok, checkedSub_eq_ok, checkedAdd_eq_ok, mulDiv_eq_ok,
    pure_eq_ok, Prod.mk.injEq] at h
  obtain ⟨_, ⟨hi, _, hri, _⟩, f, _, n, ⟨hle, rfl⟩, d, ⟨_, rfl⟩, o, ⟨_, _, rfl⟩, _, ⟨ho, hlt⟩,
    rfl, rfl⟩ := h
  exact ⟨hi, hri, ho, hlt, hle, rfl⟩

theorem validate_ok {u : Unit} (h : validate c m recipient deadline s = .ok u) :
    s.initialized = true ∧ recipient ≠ c.self ∧
      s.reservePass ≤ s.tokens.balanceOf c.pass c.self ∧
      s.reserveUsdc ≤ s.tokens.balanceOf c.usdc c.self := by
  simp only [validate, bind_eq_ok, require_eq_ok] at h
  obtain ⟨_, ⟨_, hi, _⟩, _, ⟨_, hr⟩, hp, hu⟩ := h
  exact ⟨hi, hr, hp, hu⟩

theorem buy_ok {amount minOut output : Nat}
    (h : buy c m amount minOut recipient deadline s = .ok (s', output)) :
    validate c m recipient deadline s = .ok () ∧
      (∃ fee, quoteBuy s amount = .ok (output, fee)) ∧ minOut ≤ output ∧ minOut ≠ 0 ∧
      (∃ k, s.tokens.Moved k c.usdc m.sender c.self amount ∧
        k.Moved s'.tokens c.pass c.self recipient output) ∧
      s'.initialized = s.initialized ∧
      s'.reserveUsdc = s.reserveUsdc + amount ∧ s'.reservePass = s.reservePass - output := by
  simp only [buy, pull, send, bind_eq_ok, require_eq_ok, checkedAdd_eq_ok, checkedSub_eq_ok,
    pure_eq_ok, Prod.mk.injEq] at h
  obtain ⟨_, hv, ⟨o, fee⟩, hq, _, ⟨hmin, hmin0⟩, _, ⟨_, rfl⟩, _, ⟨_, rfl⟩, k, hk, k', hk', rfl,
    rfl⟩ := h
  exact ⟨hv, ⟨fee, hq⟩, hmin, hmin0, ⟨k, Tokens.pullExact_ok hk, Tokens.sendExactBoth_ok hk'⟩,
    rfl, rfl, rfl⟩

theorem sell_ok {amount minOut output : Nat}
    (h : sell c m amount minOut recipient deadline s = .ok (s', output)) :
    validate c m recipient deadline s = .ok () ∧
      (∃ fee, quoteSell s amount = .ok (output, fee)) ∧ minOut ≤ output ∧ minOut ≠ 0 ∧
      (∃ k, s.tokens.Moved k c.pass m.sender c.self amount ∧
        k.Moved s'.tokens c.usdc c.self recipient output) ∧
      s'.initialized = s.initialized ∧
      s'.reservePass = s.reservePass + amount ∧ s'.reserveUsdc = s.reserveUsdc - output := by
  simp only [sell, pull, send, bind_eq_ok, require_eq_ok, checkedAdd_eq_ok, checkedSub_eq_ok,
    pure_eq_ok, Prod.mk.injEq] at h
  obtain ⟨_, hv, ⟨o, fee⟩, hq, _, ⟨hmin, hmin0⟩, _, ⟨_, rfl⟩, _, ⟨_, rfl⟩, k, hk, k', hk', rfl,
    rfl⟩ := h
  exact ⟨hv, ⟨fee, hq⟩, hmin, hmin0, ⟨k, Tokens.pullExact_ok hk, Tokens.sendExactBoth_ok hk'⟩,
    rfl, rfl, rfl⟩

theorem addLiquidity_ok {shares maxPass maxUsdc passAmount usdcAmount : Nat}
    (h : addLiquidity c m shares maxPass maxUsdc recipient deadline s =
      .ok (s', passAmount, usdcAmount)) :
    validate c m recipient deadline s = .ok () ∧ shares ≠ 0 ∧ s.totalSupply c ≠ 0 ∧
      mulDivCeil shares s.reservePass (s.totalSupply c) = (.ok passAmount : Result Empty Nat) ∧
      mulDivCeil shares s.reserveUsdc (s.totalSupply c) = (.ok usdcAmount : Result Empty Nat) ∧
      (∃ k k', s.tokens.Moved k c.pass m.sender c.self passAmount ∧
        k.Moved k' c.usdc m.sender c.self usdcAmount ∧
        k'.mint c.self recipient shares = (.ok s'.tokens : Result Empty Tokens)) ∧
      s'.initialized = s.initialized ∧
      s'.reservePass = s.reservePass + passAmount ∧
      s'.reserveUsdc = s.reserveUsdc + usdcAmount := by
  simp only [addLiquidity, pull, bind_eq_ok, require_eq_ok, checkedAdd_eq_ok, pure_eq_ok,
    Prod.mk.injEq] at h
  obtain ⟨_, hv, _, ⟨hs, hS⟩, p, hp, u, hu, _, _, _, ⟨_, rfl⟩, _, ⟨_, rfl⟩, k, hk, k', hk', k'',
    hk'', rfl, rfl, rfl⟩ := h
  exact ⟨hv, hs, hS, hp, hu, ⟨k, k', Tokens.pullExact_ok hk, Tokens.pullExact_ok hk', hk''⟩,
    rfl, rfl, rfl⟩

theorem removeLiquidity_ok {shares minPass minUsdc passAmount usdcAmount : Nat}
    (h : removeLiquidity c m shares minPass minUsdc recipient deadline s =
      .ok (s', passAmount, usdcAmount)) :
    validate c m recipient deadline s = .ok () ∧ shares ≠ 0 ∧ shares < s.totalSupply c ∧
      passAmount = shares * s.reservePass / s.totalSupply c ∧
      usdcAmount = shares * s.reserveUsdc / s.totalSupply c ∧
      (∃ k k', s.tokens.burn c.self m.sender shares = (.ok k : Result Empty Tokens) ∧
        k.Moved k' c.pass c.self recipient passAmount ∧
        k'.Moved s'.tokens c.usdc c.self recipient usdcAmount) ∧
      s'.initialized = s.initialized ∧
      passAmount ≤ s.reservePass ∧ s'.reservePass = s.reservePass - passAmount ∧
      usdcAmount ≤ s.reserveUsdc ∧ s'.reserveUsdc = s.reserveUsdc - usdcAmount := by
  simp only [removeLiquidity, send, bind_eq_ok, require_eq_ok, checkedSub_eq_ok, mulDiv_eq_ok,
    pure_eq_ok, Prod.mk.injEq] at h
  obtain ⟨_, hv, _, ⟨hs, hS⟩, _, ⟨_, _, rfl⟩, _, ⟨_, _, rfl⟩, _, _, k, hk, _, ⟨hple, rfl⟩, _,
    ⟨hule, rfl⟩, k', hk', k'', hk'', rfl, rfl, rfl⟩ := h
  exact ⟨hv, hs, hS, rfl, rfl, ⟨k, k', hk, Tokens.sendExactBoth_ok hk',
    Tokens.sendExactBoth_ok hk''⟩, rfl, hple, rfl, hule, rfl⟩

theorem initialise_ok {passAmount usdcAmount shares : Nat}
    (h : initialise c m passAmount usdcAmount s = .ok (s', shares)) :
    m.sender = c.factory ∧ s.initialized = false ∧
      passAmount = 500000 * 10 ^ 18 ∧ usdcAmount = 250000 * 10 ^ 6 ∧
      passAmount ≤ s.tokens.balanceOf c.pass c.self ∧
      usdcAmount ≤ s.tokens.balanceOf c.usdc c.self ∧
      shares = Nat.sqrt (passAmount * usdcAmount) ∧
      s.tokens.mint c.self c.initialLpRecipient shares =
        (.ok s'.tokens : Result Empty Tokens) ∧
      s'.initialized = true ∧ s'.reservePass = passAmount ∧ s'.reserveUsdc = usdcAmount := by
  simp only [initialise, bind_eq_ok, require_eq_ok, checkedMul_eq_ok, pure_eq_ok,
    Prod.mk.injEq] at h
  obtain ⟨_, ⟨hf, hi⟩, _, ⟨hp, hu⟩, _, ⟨hbp, hbu⟩, _, ⟨_, rfl⟩, k, hk, rfl, rfl⟩ := h
  exact ⟨hf, hi, hp, hu, hbp, hbu, rfl, hk, rfl, rfl, rfl⟩

/-- A funded, freshly constructed pool accepts its factory's `initialize`. -/
theorem initialise_succeeds (hm : m.sender = c.factory) (hi : s.initialized = false)
    (hp : 500000 * 10 ^ 18 ≤ s.tokens.balanceOf c.pass c.self)
    (hu : 250000 * 10 ^ 6 ≤ s.tokens.balanceOf c.usdc c.self)
    (hr : c.initialLpRecipient ≠ 0) (hs : s.totalSupply c = 0) :
    ∃ s', initialise c m (500000 * 10 ^ 18) (250000 * 10 ^ 6) s =
      .ok (s', Nat.sqrt (500000 * 10 ^ 18 * (250000 * 10 ^ 6))) := by
  have hbound : 500000 * 10 ^ 18 * (250000 * 10 ^ 6) ≤ maxUint256 := by decide
  have hsqrt : Nat.sqrt (500000 * 10 ^ 18 * (250000 * 10 ^ 6)) ≤ maxUint256 :=
    Nat.le_trans (Nat.sqrt_le_self _) hbound
  have hsupply : s.tokens.totalSupply c.self +
      Nat.sqrt (500000 * 10 ^ 18 * (250000 * 10 ^ 6)) ≤ maxUint256 := by
    have hs' : s.tokens.totalSupply c.self = 0 := hs
    rw [hs', Nat.zero_add]
    exact hsqrt
  simp only [initialise, require_of (And.intro hm hi), require_of (And.intro hp hu),
    checkedMul_of hbound, Tokens.mint_of hr hsupply, ok_bind]
  exact ⟨_, rfl⟩

end Accepted

end PassPool

end AlphaForge
