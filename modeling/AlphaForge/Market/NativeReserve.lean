/-
The native ETH / AF-USDC conversion reserve, `AlphaForgeNativeReserve.sol`, with
the quotes and signature rules of `MarketTypes.sol`.

Signature recovery and the EIP-712 digest are parameters: they are the
`ecrecover` precompile and a Keccak hash of the quote's encoding.
-/
import AlphaForge.Evm.Token
import AlphaForge.Machine.Run
import AlphaForge.Network

namespace AlphaForge

open Evm

namespace MarketTypes

def mint : Nat := 0
def buy : Nat := 1
def sell : Nat := 2

structure NativeQuote where
  router : Address
  payer : Address
  accountId : Bytes32
  operation : Nat
  pass : Address
  amountIn : Nat
  usdcAmount : Nat
  minOut : Nat
  ethAmount : Nat
  ethUsdPrice : Nat
  nonce : Nat
  issuedAt : Nat
  deadline : Nat
  epoch : Nat

/-- The digest of a quote and the signer recovered from a digest and `v`, `r`,
`s`, the zero address when there is none. -/
structure Signatures where
  quoteDigest : NativeQuote → Bytes32
  ecrecover : Bytes32 → Nat → Nat → Nat → Address

def bigEndian (bytes : List UInt8) : Nat :=
  bytes.foldl (fun acc b => acc * 256 + b.toNat) 0

def halfOrder : Nat := 0x7fffffffffffffffffffffffffffffff5d576e7357a4501ddfe92f46681b20a0

def signer (g : Signatures) (digest : Bytes32) (signature : List UInt8) :
    Result Empty Address := do
  require (signature.length = 65) (.reason "SIGNATURE_LENGTH")
  let r := bigEndian (signature.take 32)
  let s := bigEndian ((signature.drop 32).take 32)
  let v := bigEndian ((signature.drop 64).take 1)
  require (s ≤ halfOrder ∧ (v = 27 ∨ v = 28)) (.reason "SIGNATURE_CANONICAL")
  let result := g.ecrecover digest v r s
  require (result ≠ 0) (.reason "SIGNATURE_INVALID")
  return result

end MarketTypes

namespace NativeReserve

open MarketTypes

def maxQuoteAge : Nat := 60

structure RiskLimits where
  perTransaction : Nat
  perAccountDaily : Nat
  globalDaily : Nat
  minNativeReserve : Nat

structure Config where
  self : Address
  owner : Address
  usdc : Address
  conversionFeeBps : Nat

inductive Event where
  | reserveFunded (funder : Address) (nativeAsset : Bool) (amount : Nat)
  | reserveWithdrawn (recipient : Address) (nativeAsset : Bool) (amount : Nat)
  | routerAuthorized (router : Address)
  | tradingRouterConfigured (router : Address)
  | oracleChanged (signer : Address) (epoch : Nat)
  | conversionPaused (ethInputPaused ethOutputPaused : Bool)
  | limitsChanged (limits : RiskLimits)
  | conversion (accountId : Bytes32) (payer : Address) (operation usdcAmount ethAmount fee : Nat)
  | quoteConsumed (accountId : Bytes32) (nonce : Nat) (router : Address) (operation : Nat)

structure State where
  tokens : Tokens
  /-- `address(this).balance`. -/
  balance : Nat
  quoteSigner : Address
  quoteEpoch : Nat
  ethInputPaused : Bool
  ethOutputPaused : Bool
  authorizedRouter : Address → Bool
  tradingRouter : Address
  usedNonce : Bytes32 → Nat → Bool
  accountDaySpent : Bytes32 → Nat → Nat
  globalDaySpent : Nat → Nat
  limits : RiskLimits
  log : List Event

def State.emit (s : State) (e : Event) : State := { s with log := s.log ++ [e] }

section Calls

variable (c : Config) (g : Signatures)

def onlyOwner (m : Msg) : Result Empty Unit :=
  require (m.sender = c.owner) (.reason "OWNER_REQUIRED")

/-- `_setLimits`. -/
def applyLimits (next : RiskLimits) (s : State) : Result Empty State := do
  require (next.perTransaction ≠ 0 ∧ next.perTransaction ≤ next.perAccountDaily ∧
    next.perAccountDaily ≤ next.globalDaily ∧ next.minNativeReserve ≠ 0) (.reason "RISK_LIMITS")
  return { s with limits := next }.emit (.limitsChanged next)

/-- Construction over the token ledgers and the native balance found at the new
address. -/
def constructor (m : Msg) (x : View) (self owner usdc quoteSigner : Address) (feeBps : Nat)
    (limits : RiskLimits) (tokens : Tokens) (balance : Nat) : Result Empty (Config × State) := do
  require (m.chainId = testnetChainId) (.reason "TESTNET_ONLY")
  require (owner ≠ 0 ∧ quoteSigner ≠ 0 ∧ x.hasCode usdc ∧ x.decimals usdc = 6 ∧ feeBps ≤ 500)
    (.reason "CONFIGURATION")
  let s : State :=
    { tokens, balance, quoteSigner, quoteEpoch := 1, ethInputPaused := false,
      ethOutputPaused := false, authorizedRouter := fun _ => false, tradingRouter := 0,
      usedNonce := fun _ _ => false, accountDaySpent := fun _ _ => 0,
      globalDaySpent := fun _ => 0, limits := ⟨0, 0, 0, 0⟩, log := [] }
  let s ← applyLimits limits s
  return ({ self, owner, usdc, conversionFeeBps := feeBps }, s)

def authorizeRouter (m : Msg) (x : View) (router : Address) (s : State) : Result Empty State := do
  onlyOwner c m
  require (x.hasCode router ∧ s.authorizedRouter router = false) (.reason "ROUTER_ONCE")
  let s := { s with authorizedRouter := Function.update s.authorizedRouter router true }
  return s.emit (.routerAuthorized router)

def configureTradingRouter (m : Msg) (x : View) (router : Address) (s : State) :
    Result Empty State := do
  onlyOwner c m
  require (s.tradingRouter = 0 ∧ x.hasCode router ∧ s.authorizedRouter router)
    (.reason "TRADING_ROUTER_ONCE")
  require ((x.router router).reserve = c.self ∧ (x.router router).usdc = c.usdc)
    (.reason "TRADING_ROUTER_IDENTITY")
  return { s with tradingRouter := router }.emit (.tradingRouterConfigured router)

/-- `++quoteEpoch` is a checked `uint64` increment. -/
def setQuoteSigner (m : Msg) (signer : Address) (s : State) : Result Empty State := do
  onlyOwner c m
  require (signer ≠ 0) (.reason "SIGNER")
  require (s.quoteEpoch + 1 < 2 ^ 64) arithmeticPanic
  let s := { s with quoteSigner := signer, quoteEpoch := s.quoteEpoch + 1 }
  return s.emit (.oracleChanged signer s.quoteEpoch)

def setPaused (m : Msg) (inputPaused outputPaused : Bool) (s : State) : Result Empty State := do
  onlyOwner c m
  let s := { s with ethInputPaused := inputPaused, ethOutputPaused := outputPaused }
  return s.emit (.conversionPaused inputPaused outputPaused)

def setLimits (m : Msg) (next : RiskLimits) (s : State) : Result Empty State := do
  onlyOwner c m
  applyLimits next s

def fundNative (m : Msg) (s : State) : Result Empty State := do
  onlyOwner c m
  require (m.value ≠ 0) (.reason "AMOUNT")
  return { s with balance := s.balance + m.value }.emit (.reserveFunded m.sender true m.value)

/-- `_pullUsdc`. -/
def pullUsdc (src : Address) (amount : Nat) (k : Tokens) : Result Empty Tokens :=
  k.pullExact c.usdc c.self src c.self amount (.reason "TRANSFER_MISMATCH")

/-- `_sendUsdc`. -/
def sendUsdc (dst : Address) (amount : Nat) (k : Tokens) : Result Empty Tokens :=
  k.sendExactBoth c.usdc c.self dst amount (.reason "TRANSFER_MISMATCH")

/-- `Address.sendValue`.  The reserve has no `receive`, so it cannot pay itself.
The callers change nothing after the payment, so a call that the payee makes back
into the reserve is the same as that call made next. -/
def sendValue (x : View) (dst : Address) (amount : Nat) (s : State) : Result Empty State := do
  require (amount ≤ s.balance ∧ dst ≠ c.self ∧ x.acceptsValue dst) .sendValueFailed
  return { s with balance := s.balance - amount }

def fundUsdc (m : Msg) (amount : Nat) (s : State) : Result Empty State := do
  onlyOwner c m
  require (amount ≠ 0) (.reason "AMOUNT")
  let tokens ← pullUsdc c m.sender amount s.tokens
  return { s with tokens }.emit (.reserveFunded m.sender false amount)

def withdrawNative (m : Msg) (x : View) (recipient : Address) (amount : Nat) (s : State) :
    Result Empty State := do
  onlyOwner c m
  require (s.ethOutputPaused ∧ recipient ≠ 0 ∧ amount ≠ 0) (.reason "PAUSED_RESERVE_REQUIRED")
  let needed ← checkedAdd amount s.limits.minNativeReserve
  require (needed ≤ s.balance) (.reason "PAUSED_RESERVE_REQUIRED")
  let s ← sendValue c x recipient amount s
  return s.emit (.reserveWithdrawn recipient true amount)

def withdrawUsdc (m : Msg) (recipient : Address) (amount : Nat) (s : State) :
    Result Empty State := do
  onlyOwner c m
  require (s.ethInputPaused ∧ recipient ≠ 0 ∧ recipient ≠ c.self ∧ amount ≠ 0)
    (.reason "PAUSED_RESERVE_REQUIRED")
  let tokens ← sendUsdc c recipient amount s.tokens
  return { s with tokens }.emit (.reserveWithdrawn recipient false amount)

def ready (m : Msg) (s : State) : Result Empty Bool :=
  if m.chainId = testnetChainId ∧ s.ethInputPaused = false ∧ s.ethOutputPaused = false ∧
      s.tradingRouter ≠ 0 ∧ s.authorizedRouter s.tradingRouter ∧ s.quoteSigner ≠ 0 ∧
      s.tokens.balanceOf c.usdc c.self ≠ 0 then do
    let needed ← checkedAdd s.limits.minNativeReserve s.limits.perTransaction
    return needed ≤ s.balance
  else return false

def nativeToUsdc (nativeAmount price : Nat) : Result Empty (Nat × Nat) := do
  let gross ← mulDiv nativeAmount price (10 ^ 18)
  let fee ← mulDivCeil gross c.conversionFeeBps 10000
  let output ← checkedSub gross fee
  return (output, fee)

def usdcToNative (usdcAmount price : Nat) : Result Empty (Nat × Nat) := do
  let fee ← mulDivCeil usdcAmount c.conversionFeeBps 10000
  let net ← checkedSub usdcAmount fee
  let output ← mulDiv net (10 ^ 18) price
  return (output, fee)

/-- `_consume`. -/
def consume (m : Msg) (x : View) (quote : NativeQuote) (signature : List UInt8) (s : State) :
    Result Empty State := do
  require (m.chainId = testnetChainId ∧ s.authorizedRouter m.sender ∧ quote.router = m.sender)
    (.reason "QUOTE_ROUTER")
  require (quote.payer ≠ 0 ∧ quote.accountId ≠ 0 ∧ x.hasCode quote.pass ∧ quote.amountIn ≠ 0 ∧
    quote.ethAmount ≠ 0 ∧ quote.usdcAmount ≠ 0 ∧ quote.minOut ≠ 0 ∧ quote.ethUsdPrice ≠ 0)
    (.reason "QUOTE_IDENTITY")
  require (quote.epoch = s.quoteEpoch ∧ quote.issuedAt ≤ m.timestamp ∧
    m.timestamp - quote.issuedAt ≤ maxQuoteAge ∧ m.timestamp ≤ quote.deadline ∧
    quote.issuedAt ≤ quote.deadline ∧ quote.deadline - quote.issuedAt ≤ maxQuoteAge)
    (.reason "QUOTE_EXPIRED")
  require (s.usedNonce quote.accountId quote.nonce = false) (.reason "QUOTE_REPLAY")
  let recovered ← signer g (g.quoteDigest quote) signature
  require (recovered = s.quoteSigner) (.reason "QUOTE_SIGNATURE")
  let s := { s with usedNonce := fun a n =>
    if a = quote.accountId ∧ n = quote.nonce then true else s.usedNonce a n }
  return s.emit (.quoteConsumed quote.accountId quote.nonce m.sender quote.operation)

def day (m : Msg) : Nat := m.timestamp / 86400

/-- `_spendBudget`. -/
def spendBudget (m : Msg) (accountId : Bytes32) (amount : Nat) (s : State) :
    Result Empty State := do
  let today := day m
  require (amount ≤ s.limits.perTransaction) (.reason "ETH_BUDGET")
  let account ← checkedAdd (s.accountDaySpent accountId today) amount
  require (account ≤ s.limits.perAccountDaily) (.reason "ETH_BUDGET")
  let total ← checkedAdd (s.globalDaySpent today) amount
  require (total ≤ s.limits.globalDaily) (.reason "ETH_BUDGET")
  let needed ← checkedAdd amount s.limits.minNativeReserve
  require (needed ≤ s.balance) (.reason "ETH_LIQUIDITY")
  return { s with
    accountDaySpent := fun a d =>
      if a = accountId ∧ d = today then account else s.accountDaySpent a d
    globalDaySpent := Function.update s.globalDaySpent today total }

def consumeMintQuote (m : Msg) (x : View) (quote : NativeQuote) (signature : List UInt8)
    (payer : Address) (passAmount : Nat) (s : State) : Result Empty State := do
  require (s.ethInputPaused = false ∧ quote.operation = mint ∧ quote.payer = payer)
    (.reason "MINT_ROUTE")
  require (passAmount ≠ 0 ∧ passAmount % (2 * 10 ^ 12) = 0 ∧
    quote.usdcAmount = passAmount / (2 * 10 ^ 12) ∧ quote.minOut = passAmount)
    (.reason "MINT_AMOUNT")
  require (quote.amountIn = quote.ethAmount) (.reason "MINT_PAYMENT")
  let price ← mulDivCeil quote.usdcAmount (10 ^ 18) quote.ethUsdPrice
  require (quote.ethAmount = price) (.reason "MINT_PAYMENT")
  consume g m x quote signature s

/-- `msg.value` has already arrived when the body runs. -/
def convertBuy (m : Msg) (x : View) (quote : NativeQuote) (signature : List UInt8) (s : State) :
    Result Empty (State × Nat) := do
  let s := { s with balance := s.balance + m.value }
  require (s.ethInputPaused = false ∧ quote.operation = buy ∧ quote.amountIn = m.value ∧
    quote.ethAmount = m.value) (.reason "BUY_PAYMENT")
  let s ← consume g m x quote signature s
  let (output, fee) ← nativeToUsdc c m.value quote.ethUsdPrice
  require (output ≠ 0 ∧ output = quote.usdcAmount) (.reason "CONVERSION_AMOUNT")
  let tokens ← sendUsdc c m.sender output s.tokens
  return ({ s with tokens }.emit
    (.conversion quote.accountId quote.payer buy output m.value fee), output)

def convertSell (m : Msg) (x : View) (quote : NativeQuote) (signature : List UInt8)
    (actualUsdc : Nat) (s : State) : Result Empty (State × Nat) := do
  require (s.ethOutputPaused = false ∧ quote.operation = sell ∧ quote.usdcAmount ≤ actualUsdc)
    (.reason "SELL_ROUTE")
  let s ← consume g m x quote signature s
  let (output, fee) ← usdcToNative c actualUsdc quote.ethUsdPrice
  require (output ≠ 0 ∧ quote.minOut ≤ output) (.reason "SLIPPAGE")
  let s ← spendBudget m quote.accountId output s
  let tokens ← pullUsdc c m.sender actualUsdc s.tokens
  let s ← sendValue c x quote.payer output { s with tokens }
  return (s.emit (.conversion quote.accountId quote.payer sell actualUsdc output fee), output)

/-- Everything that can happen to the reserve.  `outside` is any token calls by
other accounts, `forced` native currency that arrives without a call. -/
inductive Action where
  | authorizeRouter (m : Msg) (x : View) (router : Address)
  | configureTradingRouter (m : Msg) (x : View) (router : Address)
  | setQuoteSigner (m : Msg) (signer : Address)
  | setPaused (m : Msg) (inputPaused outputPaused : Bool)
  | setLimits (m : Msg) (next : RiskLimits)
  | fundNative (m : Msg)
  | fundUsdc (m : Msg) (amount : Nat)
  | withdrawNative (m : Msg) (x : View) (recipient : Address) (amount : Nat)
  | withdrawUsdc (m : Msg) (recipient : Address) (amount : Nat)
  | consumeMintQuote (m : Msg) (x : View) (quote : NativeQuote) (signature : List UInt8)
      (payer : Address) (passAmount : Nat)
  | convertBuy (m : Msg) (x : View) (quote : NativeQuote) (signature : List UInt8)
  | convertSell (m : Msg) (x : View) (quote : NativeQuote) (signature : List UInt8)
      (actualUsdc : Nat)
  | outside (calls : List TokenCall)
  | forced (amount : Nat)

/-- The accounts whose calls an action is. -/
def Action.callers : Action → List Address
  | .authorizeRouter m _ _ | .configureTradingRouter m _ _ | .setQuoteSigner m _
  | .setPaused m _ _ | .setLimits m _ | .fundNative m | .fundUsdc m _
  | .withdrawNative m _ _ _ | .withdrawUsdc m _ _ | .consumeMintQuote m _ _ _ _ _
  | .convertBuy m _ _ _ | .convertSell m _ _ _ _ => [m.sender]
  | .outside calls => calls.map TokenCall.caller
  | .forced _ => []

def step : Action → State → Result Empty State
  | .authorizeRouter m x router, s => callFrom [c.self] m (authorizeRouter c m x router s)
  | .configureTradingRouter m x router, s =>
      callFrom [c.self] m (configureTradingRouter c m x router s)
  | .setQuoteSigner m signer, s => callFrom [c.self] m (setQuoteSigner c m signer s)
  | .setPaused m inputPaused outputPaused, s =>
      callFrom [c.self] m (setPaused c m inputPaused outputPaused s)
  | .setLimits m next, s => callFrom [c.self] m (setLimits c m next s)
  | .fundNative m, s => payFrom [c.self] m (fundNative c m s)
  | .fundUsdc m amount, s => callFrom [c.self] m (fundUsdc c m amount s)
  | .withdrawNative m x recipient amount, s =>
      callFrom [c.self] m (withdrawNative c m x recipient amount s)
  | .withdrawUsdc m recipient amount, s =>
      callFrom [c.self] m (withdrawUsdc c m recipient amount s)
  | .consumeMintQuote m x quote signature payer passAmount, s =>
      callFrom [c.self] m (consumeMintQuote g m x quote signature payer passAmount s)
  | .convertBuy m x quote signature, s =>
      payFrom [c.self] m (Prod.fst <$> convertBuy c g m x quote signature s)
  | .convertSell m x quote signature actualUsdc, s =>
      callFrom [c.self] m (Prod.fst <$> convertSell c g m x quote signature actualUsdc s)
  | .outside calls, s => .ok { s with tokens := s.tokens.outside [c.self] calls }
  | .forced amount, s => .ok { s with balance := s.balance + amount }

end Calls

/-! ## What an accepted call did -/

section Accepted

variable {c : Config} {g : Signatures} {m : Msg} {x : View} {quote : NativeQuote}
  {signature : List UInt8} {s s' : State}

theorem consume_ok (h : consume g m x quote signature s = .ok s') :
    s.usedNonce quote.accountId quote.nonce = false ∧ s.authorizedRouter m.sender = true ∧
      s' = { s with
        usedNonce := fun a n =>
          if a = quote.accountId ∧ n = quote.nonce then true else s.usedNonce a n
        log := s.log ++
          [.quoteConsumed quote.accountId quote.nonce m.sender quote.operation] } := by
  simp only [consume, bind_eq_ok, require_eq_ok, pure_eq_ok] at h
  obtain ⟨_, ⟨_, hr, _⟩, _, _, _, _, _, hn, _, _, _, _, rfl⟩ := h
  exact ⟨hn, hr, rfl⟩

theorem spendBudget_ok {accountId : Bytes32} {amount : Nat}
    (h : spendBudget m accountId amount s = .ok s') :
    amount ≤ s.limits.perTransaction ∧
      s.accountDaySpent accountId (day m) + amount ≤ s.limits.perAccountDaily ∧
      s.globalDaySpent (day m) + amount ≤ s.limits.globalDaily ∧
      amount + s.limits.minNativeReserve ≤ s.balance ∧
      s' = { s with
        accountDaySpent := fun a d =>
          if a = accountId ∧ d = day m then s.accountDaySpent accountId (day m) + amount
          else s.accountDaySpent a d
        globalDaySpent :=
          Function.update s.globalDaySpent (day m) (s.globalDaySpent (day m) + amount) } := by
  simp only [spendBudget, bind_eq_ok, require_eq_ok, checkedAdd_eq_ok, pure_eq_ok] at h
  obtain ⟨_, ht, _, ⟨_, rfl⟩, _, ha, _, ⟨_, rfl⟩, _, hg, _, ⟨_, rfl⟩, _, hb, rfl⟩ := h
  exact ⟨ht, ha, hg, hb, rfl⟩

theorem sendValue_ok {dst : Address} {amount : Nat} (h : sendValue c x dst amount s = .ok s') :
    amount ≤ s.balance ∧ s' = { s with balance := s.balance - amount } := by
  simp only [sendValue, bind_eq_ok, require_eq_ok, pure_eq_ok] at h
  obtain ⟨_, ⟨hb, _⟩, rfl⟩ := h
  exact ⟨hb, rfl⟩

theorem consumeMintQuote_ok {payer : Address} {passAmount : Nat}
    (h : consumeMintQuote g m x quote signature payer passAmount s = .ok s') :
    consume g m x quote signature s = .ok s' := by
  simp only [consumeMintQuote, bind_eq_ok, require_eq_ok] at h
  obtain ⟨_, _, _, _, _, _, _, _, _, _, hc⟩ := h
  exact hc

theorem convertBuy_ok {output : Nat}
    (h : convertBuy c g m x quote signature s = .ok (s', output)) :
    ∃ t, consume g m x quote signature { s with balance := s.balance + m.value } = .ok t ∧
      ∃ k e, t.tokens.Moved k c.usdc c.self m.sender output ∧
        s' = { t with tokens := k, log := t.log ++ [e] } := by
  simp only [convertBuy, sendUsdc, bind_eq_ok, require_eq_ok, pure_eq_ok, Prod.mk.injEq] at h
  obtain ⟨_, _, t, ht, ⟨o, fee⟩, _, _, _, k, hk, rfl, rfl⟩ := h
  exact ⟨t, ht, k, _, Tokens.sendExactBoth_ok hk, rfl⟩

theorem convertSell_ok {actualUsdc output : Nat}
    (h : convertSell c g m x quote signature actualUsdc s = .ok (s', output)) :
    ∃ t u, consume g m x quote signature s = .ok t ∧
      spendBudget m quote.accountId output t = .ok u ∧ output ≤ u.balance ∧
      ∃ k e, u.tokens.Moved k c.usdc m.sender c.self actualUsdc ∧
        s' = { u with tokens := k, balance := u.balance - output, log := u.log ++ [e] } := by
  simp only [convertSell, pullUsdc, bind_eq_ok, require_eq_ok, pure_eq_ok, Prod.mk.injEq] at h
  obtain ⟨_, _, t, ht, ⟨o, fee⟩, _, _, _, u, hu, k, hk, v, hv, rfl, rfl⟩ := h
  obtain ⟨hb, rfl⟩ := sendValue_ok hv
  exact ⟨t, u, ht, hu, hb, k, _, Tokens.pullExact_ok hk, rfl⟩

/-- The quote key an action consumes when it is accepted. -/
def Action.quoteKey : Action → Option (Bytes32 × Nat)
  | .consumeMintQuote _ _ quote _ _ _ => some (quote.accountId, quote.nonce)
  | .convertBuy _ _ quote _ => some (quote.accountId, quote.nonce)
  | .convertSell _ _ quote _ _ => some (quote.accountId, quote.nonce)
  | _ => none

/-- A call that consumes no quote leaves the replay guard and the budgets, and the three
that consume one are spelled out. -/
inductive Accepted (c : Config) (g : Signatures) (s : State) : Action → State → Prop where
  | plain {a : Action} {s' : State} (hkey : a.quoteKey = none)
      (hused : s'.usedNonce = s.usedNonce) (haccount : s'.accountDaySpent = s.accountDaySpent)
      (hglobal : s'.globalDaySpent = s.globalDaySpent)
      (htokens : ∀ {token account : Address}, account ≠ c.self → account ∉ a.callers →
        Tokens.Spares token account s.tokens s'.tokens) : Accepted c g s a s'
  | minted {m : Msg} {x : View} {quote : NativeQuote} {signature : List UInt8} {payer : Address}
      {passAmount : Nat} {s' : State} (h : consume g m x quote signature s = .ok s') :
      Accepted c g s (.consumeMintQuote m x quote signature payer passAmount) s'
  | bought {m : Msg} {x : View} {quote : NativeQuote} {signature : List UInt8} {output : Nat}
      {t : State} {k : Tokens} {e : Event}
      (h : consume g m x quote signature { s with balance := s.balance + m.value } = .ok t)
      (hk : t.tokens.Moved k c.usdc c.self m.sender output) :
      Accepted c g s (.convertBuy m x quote signature) { t with tokens := k, log := t.log ++ [e] }
  | sold {m : Msg} {x : View} {quote : NativeQuote} {signature : List UInt8}
      {actualUsdc output : Nat} {t u : State} {k : Tokens} {e : Event}
      (h : consume g m x quote signature s = .ok t)
      (hu : spendBudget m quote.accountId output t = .ok u) (hb : output ≤ u.balance)
      (hk : u.tokens.Moved k c.usdc m.sender c.self actualUsdc) :
      Accepted c g s (.convertSell m x quote signature actualUsdc)
        { u with tokens := k, balance := u.balance - output, log := u.log ++ [e] }

theorem step_accepted {a : Action} (h : step c g a s = .ok s') : Accepted c g s a s' := by
  cases a with
  | authorizeRouter m x router =>
      simp only [step, callFrom_eq_ok, authorizeRouter, bind_eq_ok, pure_eq_ok] at h
      obtain ⟨_, _, _, _, _, _, rfl⟩ := h
      exact .plain rfl rfl rfl rfl fun _ _ => Tokens.Spares.refl _
  | configureTradingRouter m x router =>
      simp only [step, callFrom_eq_ok, configureTradingRouter, bind_eq_ok, pure_eq_ok] at h
      obtain ⟨_, _, _, _, _, _, _, _, rfl⟩ := h
      exact .plain rfl rfl rfl rfl fun _ _ => Tokens.Spares.refl _
  | setQuoteSigner m signer =>
      simp only [step, callFrom_eq_ok, setQuoteSigner, bind_eq_ok, pure_eq_ok] at h
      obtain ⟨_, _, _, _, _, _, _, _, rfl⟩ := h
      exact .plain rfl rfl rfl rfl fun _ _ => Tokens.Spares.refl _
  | setPaused m inputPaused outputPaused =>
      simp only [step, callFrom_eq_ok, setPaused, bind_eq_ok, pure_eq_ok] at h
      obtain ⟨_, _, _, _, rfl⟩ := h
      exact .plain rfl rfl rfl rfl fun _ _ => Tokens.Spares.refl _
  | setLimits m next =>
      simp only [step, callFrom_eq_ok, setLimits, applyLimits, bind_eq_ok, pure_eq_ok] at h
      obtain ⟨_, _, _, _, _, _, rfl⟩ := h
      exact .plain rfl rfl rfl rfl fun _ _ => Tokens.Spares.refl _
  | fundNative m =>
      simp only [step, payFrom_eq_ok, fundNative, bind_eq_ok, pure_eq_ok] at h
      obtain ⟨_, _, _, _, _, rfl⟩ := h
      exact .plain rfl rfl rfl rfl fun _ _ => Tokens.Spares.refl _
  | fundUsdc m amount =>
      simp only [step, callFrom_eq_ok, fundUsdc, pullUsdc, bind_eq_ok, pure_eq_ok] at h
      obtain ⟨_, _, _, _, _, _, k, hk, rfl⟩ := h
      refine .plain rfl rfl rfl rfl fun _ hcaller => ?_
      exact Tokens.Spares.of_moved (Tokens.pullExact_ok hk) (by simpa [Action.callers] using hcaller)
  | withdrawNative m x recipient amount =>
      simp only [step, callFrom_eq_ok, withdrawNative, bind_eq_ok, pure_eq_ok] at h
      obtain ⟨_, _, _, _, _, _, _, _, _, _, t, ht, rfl⟩ := h
      obtain ⟨_, rfl⟩ := sendValue_ok ht
      exact .plain rfl rfl rfl rfl fun _ _ => Tokens.Spares.refl _
  | withdrawUsdc m recipient amount =>
      simp only [step, callFrom_eq_ok, withdrawUsdc, sendUsdc, bind_eq_ok, pure_eq_ok] at h
      obtain ⟨_, _, _, _, _, _, k, hk, rfl⟩ := h
      refine .plain rfl rfl rfl rfl fun hself _ => ?_
      exact Tokens.Spares.of_moved (Tokens.sendExactBoth_ok hk) hself
  | consumeMintQuote m x quote signature payer passAmount =>
      simp only [step, callFrom_eq_ok] at h
      exact .minted (consumeMintQuote_ok h.2.2)
  | convertBuy m x quote signature =>
      simp only [step, payFrom_eq_ok, map_eq_ok] at h
      obtain ⟨_, ⟨r, output⟩, hb, rfl⟩ := h
      obtain ⟨t, ht, k, e, hk, rfl⟩ := convertBuy_ok hb
      exact .bought ht hk
  | convertSell m x quote signature actualUsdc =>
      simp only [step, callFrom_eq_ok, map_eq_ok] at h
      obtain ⟨_, _, ⟨r, output⟩, hs, rfl⟩ := h
      obtain ⟨t, u, ht, hu, hb, k, e, hk, rfl⟩ := convertSell_ok hs
      exact .sold ht hu hb hk
  | outside calls =>
      simp only [step, Except.ok.injEq] at h
      subst h
      exact .plain rfl rfl rfl rfl fun _ hcaller => Tokens.Spares.of_outside _ hcaller
  | forced amount =>
      simp only [step, Except.ok.injEq] at h
      subst h
      exact .plain rfl rfl rfl rfl fun _ _ => Tokens.Spares.refl _

/-- The reserve moves only its own tokens and those of whoever calls it. -/
theorem step_spares {a : Action} {token account : Address} (hself : account ≠ c.self)
    (hcaller : account ∉ a.callers) (h : step c g a s = .ok s') :
    Tokens.Spares token account s.tokens s'.tokens := by
  cases step_accepted h with
  | plain _ _ _ _ htokens => exact htokens hself hcaller
  | minted ht =>
      obtain ⟨_, _, rfl⟩ := consume_ok ht
      exact Tokens.Spares.refl _
  | bought ht hk =>
      obtain ⟨_, _, rfl⟩ := consume_ok ht
      exact Tokens.Spares.of_moved hk hself
  | sold ht hu _ hk =>
      obtain ⟨_, _, rfl⟩ := consume_ok ht
      obtain ⟨_, _, _, _, rfl⟩ := spendBudget_ok hu
      exact Tokens.Spares.of_moved hk (by simpa [Action.callers] using hcaller)

end Accepted

end NativeReserve

end AlphaForge
