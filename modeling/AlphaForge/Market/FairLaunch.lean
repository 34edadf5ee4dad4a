/-
The fair launch, `AlphaForgeFairLaunch.sol`: a public sale whose last
subscription creates and funds the pool in the same transaction.

The state joins the launch with the factory, the conversion reserve and the token
ledgers they share.  `Environment` is everything other accounts can do to these
between two launch calls, and also while the launch hands native proceeds to
their recipient.
-/
import AlphaForge.Market.PassFactory
import AlphaForge.Market.NativeReserve

namespace AlphaForge
namespace FairLaunch

open Evm MarketTypes

def totalSupply : Nat := 1000000 * 10 ^ 18
def publicSupply : Nat := 500000 * 10 ^ 18
def lpPass : Nat := 500000 * 10 ^ 18
def lpUsdc : Nat := 250000 * 10 ^ 6
def proceedsRecipient : Address := 0x86767116cd40bf6b4f8cf88e08d11e38b04364cf

/-- `enum State`. -/
inductive Phase where
  | preparing
  | minting
  | soldOut
  | launched
  deriving DecidableEq, Repr

structure Config where
  self : Address
  owner : Address
  pass : Address
  usdc : Address
  factory : PassFactory.Config
  reserve : NativeReserve.Config
  lpRecipient : Address

inductive Event where
  | mintOpened (publicInventory lpPass lpUsdc : Nat) (lpRecipient : Address)
  | subscription (payer : Address) (passAmount usdcAmount ethAmount totalSold : Nat)
  | soldOut (totalSold : Nat)
  | launch (pool lpRecipient : Address) (passAmount usdcAmount lpShares : Nat)

structure State where
  tokens : Tokens
  factory : PassFactory.State
  /-- Its ledgers are the shared ones; see `State.reserveOn`. -/
  reserve : NativeReserve.State
  phase : Phase
  sold : Nat
  pool : Address
  lpShares : Nat
  log : List Event

/-- The reserve as it sees the shared ledgers. -/
def State.reserveOn (s : State) : NativeReserve.State := { s.reserve with tokens := s.tokens }

def State.emit (s : State) (e : Event) : State := { s with log := s.log ++ [e] }

def constructor (m : Msg) (x : View) (self owner pass usdc : Address)
    (factory : PassFactory.Config) (reserve : NativeReserve.Config) (lpRecipient : Address)
    (tokens : Tokens) (factoryState : PassFactory.State) (reserveState : NativeReserve.State) :
    Result Empty (Config × State) := do
  require (m.chainId = testnetChainId) (.reason "TESTNET_ONLY")
  require (owner ≠ 0 ∧ x.hasCode pass ∧ x.hasCode usdc ∧ x.hasCode factory.self ∧
    x.hasCode reserve.self) (.reason "IDENTITY")
  require (lpRecipient ≠ 0 ∧ lpRecipient ≠ self ∧ lpRecipient ≠ factory.self ∧
    lpRecipient ≠ reserve.self) (.reason "EXPLICIT_LP_RECIPIENT")
  require (pass ≠ usdc ∧ x.decimals pass = 18 ∧ tokens.totalSupply pass = totalSupply ∧
    x.decimals usdc = 6) (.reason "TOKEN_IDENTITY")
  require (factory.usdc = usdc ∧ reserve.usdc = usdc) (.reason "USDC_IDENTITY")
  return ({ self, owner, pass, usdc, factory, reserve, lpRecipient },
    { tokens, factory := factoryState, reserve := reserveState, phase := .preparing, sold := 0,
      pool := 0, lpShares := 0, log := [] })

section Calls

variable (c : Config) (g : Signatures)

/-- `checkedSub` in the source; `sold` never exceeds the supply. -/
def remaining (s : State) : Nat := publicSupply - s.sold

def mintCost (passAmount : Nat) : Result Empty Nat := do
  require (passAmount ≠ 0 ∧ passAmount % (2 * 10 ^ 12) = 0) (.reason "MINT_PRECISION")
  return passAmount / (2 * 10 ^ 12)

def openMint (m : Msg) (x : View) (s : State) : Result Empty State := do
  require (m.chainId = testnetChainId ∧ m.sender = c.owner ∧ s.phase = .preparing)
    (.reason "OWNER_OPEN_ONCE")
  require (s.factory.initializer c.pass = c.self ∧ s.factory.getPool c.pass = 0)
    (.reason "FACTORY_READY")
  require (totalSupply ≤ s.tokens.balanceOf c.pass c.self ∧
    lpUsdc ≤ s.tokens.balanceOf c.usdc c.self) (.reason "LP_PREFUND_REQUIRED")
  require (s.reserve.authorizedRouter c.self) (.reason "CONVERSION_NOT_READY")
  let ready ← NativeReserve.ready c.reserve m s.reserveOn
  require ready (.reason "CONVERSION_NOT_READY")
  require ((x.router s.reserve.tradingRouter).factory = c.factory.self)
    (.reason "TRADING_FACTORY_IDENTITY")
  return { s with phase := .minting }.emit (.mintOpened publicSupply lpPass lpUsdc c.lpRecipient)

/-- `_validate`. -/
def validate (m : Msg) (passAmount deadline : Nat) (s : State) : Result Empty Unit := do
  require (m.chainId = testnetChainId ∧ s.phase = .minting ∧ m.timestamp ≤ deadline)
    (.reason "MINT_CLOSED_OR_EXPIRED")
  let _ ← mintCost passAmount
  let left ← checkedSub publicSupply s.sold
  require (passAmount ≤ left) (.reason "OVERSELL")
  require (m.sender ≠ c.self) (.reason "BUYER")

/-- `_launch`. -/
def launch (m : Msg) (x : View) (s : State) : Result Empty State := do
  let s := { s with phase := .soldOut }.emit (.soldOut s.sold)
  let k ← s.tokens.approve c.pass c.self c.factory.self lpPass
  let k ← k.approve c.usdc c.self c.factory.self lpUsdc
  let inner : Msg := { m with sender := c.self, value := 0 }
  let (k, factory, pool, lpShares) ←
    PassFactory.createPool c.factory inner x c.pass c.lpRecipient k s.factory
  let k ← k.approve c.pass c.self c.factory.self 0
  let k ← k.approve c.usdc c.self c.factory.self 0
  match factory.market pool with
  | none => .error (.reason "LAUNCH_VALIDATION")
  | some market =>
    require (market.initialized ∧ market.reservePass = lpPass ∧ market.reserveUsdc = lpUsdc ∧
      k.balanceOf pool c.lpRecipient = lpShares ∧ lpShares ≠ 0 ∧
      market.config.initialLpRecipient = c.lpRecipient) (.reason "LAUNCH_VALIDATION")
    let s := { s with tokens := k, factory, pool, lpShares, phase := .launched }
    return s.emit (.launch pool c.lpRecipient market.reservePass market.reserveUsdc lpShares)

/-- `_deliver`. -/
def deliver (m : Msg) (x : View) (passAmount cost nativeAmount : Nat) (s : State) :
    Result Empty State := do
  let sold ← checkedAdd s.sold passAmount
  let tokens ← s.tokens.sendExactBoth c.pass c.self m.sender passAmount
    (.reason "DELIVERY_MISMATCH")
  let s := { s with sold, tokens }.emit
    (.subscription m.sender passAmount cost nativeAmount sold)
  if s.sold = publicSupply then launch c m x s else return s

def subscribeUsdc (m : Msg) (x : View) (passAmount deadline : Nat) (s : State) :
    Result Empty State := do
  validate c m passAmount deadline s
  let cost ← mintCost passAmount
  let tokens ← s.tokens.pullExact c.usdc c.self m.sender proceedsRecipient cost
    (.reason "PAYMENT_MISMATCH")
  deliver c m x passAmount cost 0 { s with tokens }

/-- What accounts other than the launch and the factory can do. -/
inductive Environment where
  | outside (calls : List TokenCall)
  | configureInitializer (m : Msg) (x : View) (pass launcher : Address)
  | createPool (m : Msg) (x : View) (pass lpRecipient : Address)
  | reserve (a : NativeReserve.Action)

/-- The contracts that act only through their own code. -/
def own : List Address := [c.self, c.factory.self]

def environmentStep : Environment → State → Result Empty State
  | .outside calls, s => .ok { s with tokens := s.tokens.outside (own c) calls }
  | .configureInitializer m x pass launcher, s =>
      callFrom (own c) m do
        let factory ←
          PassFactory.configureInitializer c.factory m x pass launcher s.tokens s.factory
        return { s with factory }
  | .createPool m x pass lpRecipient, s =>
      callFrom (own c) m do
        let (tokens, factory, _, _) ←
          PassFactory.createPool c.factory m x pass lpRecipient s.tokens s.factory
        return { s with tokens, factory }
  | .reserve a, s => do
      require (∀ p ∈ a.callers, p ∉ own c) .notACaller
      let reserve ← NativeReserve.step c.reserve g a s.reserveOn
      return { s with tokens := reserve.tokens, reserve }

/-- The native payment runs the recipient's code, `callback`, which may do
anything but call back into the sale, whose guard is taken. -/
def subscribeEth (m : Msg) (x : View) (passAmount : Nat) (quote : NativeQuote)
    (signature : List UInt8) (callback : List Environment) (s : State) : Result Empty State := do
  validate c m passAmount quote.deadline s
  require (quote.pass = c.pass ∧ quote.router = c.self ∧ quote.payer = m.sender ∧
    m.value = quote.ethAmount) (.reason "NATIVE_PAYMENT")
  let inner : Msg := { m with sender := c.self, value := 0 }
  let reserve ←
    NativeReserve.consumeMintQuote g inner x quote signature m.sender passAmount s.reserveOn
  let s := { s with tokens := reserve.tokens, reserve }
  require (x.acceptsValue proceedsRecipient) .sendValueFailed
  let s := Machine.exec (environmentStep c g) s callback
  let cost ← mintCost passAmount
  deliver c m x passAmount cost m.value s

inductive Action where
  | openMint (m : Msg) (x : View)
  | subscribeUsdc (m : Msg) (x : View) (passAmount deadline : Nat)
  | subscribeEth (m : Msg) (x : View) (passAmount : Nat) (quote : NativeQuote)
      (signature : List UInt8) (callback : List Environment)
  | environment (e : Environment)

def step : Action → State → Result Empty State
  | .openMint m x, s => callFrom (own c) m (openMint c m x s)
  | .subscribeUsdc m x passAmount deadline, s =>
      callFrom (own c) m (subscribeUsdc c m x passAmount deadline s)
  | .subscribeEth m x passAmount quote signature callback, s =>
      payFrom (own c) m (subscribeEth c g m x passAmount quote signature callback s)
  | .environment e, s => environmentStep c g e s

end Calls

end FairLaunch
end AlphaForge
