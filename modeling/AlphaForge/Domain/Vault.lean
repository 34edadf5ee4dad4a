/-
The local vault ledger, `packages/domain/src/vault.ts`.

An amount of the state is the integer that its text spells, which arithmetic may
take out of the range that `unsigned` and `signed` accept.  The amounts of a command
are text.  `prepare` is a command up to the state that the closing assertion looks
at, and `execute` is the whole call.
-/
import AlphaForge.Data.Canonical
import AlphaForge.Data.OrderedMap
import AlphaForge.Evm.Exec
import AlphaForge.Text.Digits

namespace AlphaForge
namespace DomainVault

open Evm

/-! ## Amounts -/

def maxInteger : Int := 2 ^ 256 - 1

def maxSafeInteger : Int := 2 ^ 53 - 1

/-- `unsigned` of an amount of the state. -/
def unsigned (value : Int) : Except String Int := do
  ensure (0 ≤ value ∧ value < 10 ^ 78) "NON_CANONICAL_AMOUNT"
  ensure (value ≤ maxInteger) "AMOUNT_OVERFLOW"
  return value

def signed (value : Int) : Except String Int := do
  ensure (-10 ^ 78 < value ∧ value < 10 ^ 78) "NON_CANONICAL_AMOUNT"
  ensure (value ≤ maxInteger ∧ -maxInteger ≤ value) "AMOUNT_OVERFLOW"
  return value

/-- `unsigned` of the text of a command. -/
def unsignedText (value : String) : Except String Int := do
  ensure (Text.isDecimal 77 value = true) "NON_CANONICAL_AMOUNT"
  ensure ((Text.ofDecimal value : Int) ≤ maxInteger) "AMOUNT_OVERFLOW"
  return Text.ofDecimal value

def isIdChar (d : Char) : Bool :=
  ('a' ≤ d && d ≤ 'z') || ('A' ≤ d && d ≤ 'Z') || ('0' ≤ d && d ≤ '9')

def isId (value : String) : Bool :=
  match value.toList with
  | [] => false
  | d :: ds => isIdChar d && ds.all (fun d => isIdChar d || d = '_' || d = '-') && ds.length ≤ 79

def validId (value : String) : Except String Unit := ensure (isId value = true) "INVALID_ID"

/-! ## State -/

inductive Role where
  | owner
  | executor
  deriving DecidableEq

structure Actor where
  id : String
  role : Role
  deriving DecidableEq

/-- The parts of a pending withdrawal. -/
structure PassPart where
  profit : Int
  principal : Int
  deriving DecidableEq

structure PassLock where
  version : Nat
  principal : Int
  closed : Bool
  withdrawals : OrderedMap String PassPart
  deriving DecidableEq

inductive Status where
  | stopped
  | running
  | stopping
  deriving DecidableEq

inductive CommandType where
  | deposit
  | allocate
  | deallocate
  | requestWithdrawal
  | confirmWithdrawal
  | cancelWithdrawal
  | start
  | stop
  | enablePassLocking
  | closeVault
  | reserveBuy
  | cancelOrder
  | fillBuy
  | markPosition
  | settlePosition
  | payFees
  deriving DecidableEq

inductive EventType where
  | command (type : CommandType)
  | automataCheckpoint
  deriving DecidableEq

structure Receipt where
  fingerprint : String
  revision : Nat
  deriving DecidableEq

structure Event where
  revision : Nat
  commandId : String
  type : EventType
  actorId : String
  deriving DecidableEq

structure VaultState where
  scope : String
  schemaVersion : Nat
  id : String
  ownerId : String
  executorId : String
  strategyId : String
  passes : Int
  passLock : Option PassLock
  revision : Nat
  status : Status
  idle : Int
  activeCash : Int
  positionCost : Int
  positionValue : Int
  feeLiability : Int
  deposits : Int
  withdrawalsPaid : Int
  realizedPnl : Int
  feesAccrued : Int
  feesPaid : Int
  orders : OrderedMap String Int
  pendingWithdrawals : OrderedMap String Int
  receipts : OrderedMap String Receipt
  events : List Event
  deriving DecidableEq

/-! ## Commands -/

inductive Body where
  | deposit (amount : String)
  | allocate (amount : String)
  | deallocate (amount : String)
  | requestWithdrawal (amount : String)
  | confirmWithdrawal (withdrawalId : String)
  | cancelWithdrawal (withdrawalId : String)
  | start
  | stop
  | enablePassLocking
  | closeVault
  | reserveBuy (orderId amount : String)
  | cancelOrder (orderId : String)
  | fillBuy (orderId : String)
  | markPosition (value : String)
  | settlePosition (proceeds : String)
  | payFees (amount : String)
  deriving DecidableEq

/-- The names of the fields that commands have. -/
def Command.names : List String :=
  ["id", "expectedRevision", "type", "orderId", "amount", "withdrawalId", "value", "proceeds"]

/-- A command, with the fields that its caller may have added under other names. -/
structure Command where
  id : String
  expectedRevision : Int
  body : Body
  metadata : List (String × Json)
  distinct : (Command.names ++ metadata.map (·.1)).Nodup
  deriving DecidableEq

def Body.type : Body → CommandType
  | .deposit _ => .deposit
  | .allocate _ => .allocate
  | .deallocate _ => .deallocate
  | .requestWithdrawal _ => .requestWithdrawal
  | .confirmWithdrawal _ => .confirmWithdrawal
  | .cancelWithdrawal _ => .cancelWithdrawal
  | .start => .start
  | .stop => .stop
  | .enablePassLocking => .enablePassLocking
  | .closeVault => .closeVault
  | .reserveBuy _ _ => .reserveBuy
  | .cancelOrder _ => .cancelOrder
  | .fillBuy _ => .fillBuy
  | .markPosition _ => .markPosition
  | .settlePosition _ => .settlePosition
  | .payFees _ => .payFees

def CommandType.text : CommandType → String
  | .deposit => "deposit"
  | .allocate => "allocate"
  | .deallocate => "deallocate"
  | .requestWithdrawal => "requestWithdrawal"
  | .confirmWithdrawal => "confirmWithdrawal"
  | .cancelWithdrawal => "cancelWithdrawal"
  | .start => "start"
  | .stop => "stop"
  | .enablePassLocking => "enablePassLocking"
  | .closeVault => "closeVault"
  | .reserveBuy => "reserveBuy"
  | .cancelOrder => "cancelOrder"
  | .fillBuy => "fillBuy"
  | .markPosition => "markPosition"
  | .settlePosition => "settlePosition"
  | .payFees => "payFees"

def CommandType.ownerAction : CommandType → Bool
  | .reserveBuy | .fillBuy | .markPosition | .settlePosition | .confirmWithdrawal | .payFees => false
  | _ => true

/-- The `amount` field, of the commands that have one. -/
def Body.amount : Body → Option String
  | .deposit amount | .allocate amount | .deallocate amount | .requestWithdrawal amount
  | .reserveBuy _ amount | .payFees amount => some amount
  | _ => none

def Body.fields : Body → List (String × Json)
  | .deposit amount | .allocate amount | .deallocate amount | .requestWithdrawal amount
  | .payFees amount => [("amount", .string amount)]
  | .confirmWithdrawal withdrawalId | .cancelWithdrawal withdrawalId =>
      [("withdrawalId", .string withdrawalId)]
  | .start | .stop | .enablePassLocking | .closeVault => []
  | .reserveBuy orderId amount => [("orderId", .string orderId), ("amount", .string amount)]
  | .cancelOrder orderId | .fillBuy orderId => [("orderId", .string orderId)]
  | .markPosition value => [("value", .string value)]
  | .settlePosition proceeds => [("proceeds", .string proceeds)]

/-- The fields of the command's type. -/
def Command.fields (command : Command) : List (String × Json) :=
  [("id", .string command.id), ("expectedRevision", .number command.expectedRevision),
    ("type", .string command.body.type.text)] ++ command.body.fields

def Command.json (command : Command) : Json := .object (command.fields ++ command.metadata)

def Role.text : Role → String
  | .owner => "owner"
  | .executor => "executor"

def Actor.json (actor : Actor) : Json :=
  .object [("id", .string actor.id), ("role", .string actor.role.text)]

structure Assessment where
  proceeds : Int
  cost : Int
  cash : Int
  existingFeeLiability : Int
  allowance : Int

structure SettlementPolicy where
  scope : String
  id : String
  /-- The fee, and the excess that goes to idle. -/
  assess : Assessment → Int × Int

/-! ## Balances -/

def sum (map : OrderedMap String Int) : Int := (map.map (·.2)).sum

structure Balances where
  reserved : Int
  pending : Int
  unrealized : Int
  activeGross : Int
  activeNet : Int
  equity : Int
  allowance : Int

def balances (s : VaultState) : Balances :=
  let reserved := sum s.orders
  let pending := sum s.pendingWithdrawals
  let activeGross := s.activeCash + reserved + s.positionValue
  let activeNet := activeGross - s.feeLiability
  { reserved, pending, unrealized := s.positionValue - s.positionCost, activeGross, activeNet,
    equity := s.idle + activeNet + pending, allowance := s.passes * 10 ^ 6 }

def capacityToPassRaw (usdcRaw : Int) : Except String Int := do
  let raw ← unsigned usdcRaw
  ensure (raw ≤ maxInteger / 1000000000000) "AMOUNT_OVERFLOW"
  return raw * 1000000000000

def passRawToCapacity (passRaw : Int) : Except String Int := do
  let raw ← unsigned passRaw
  ensure (raw % 1000000000000 = 0) "INEXACT_PASS_AMOUNT"
  return raw / 1000000000000

def PassLock.reservedProfit (lock : PassLock) : Int := (lock.withdrawals.map (·.2.profit)).sum

def PassLock.reservedPrincipal (lock : PassLock) : Int := (lock.withdrawals.map (·.2.principal)).sum

structure PassAccounting where
  totalPassRaw : Int
  lockedPassRaw : Int
  freePassRaw : Int
  withdrawable : Int
  availableProfit : Int
  reservedPrincipal : Int

def exposed (s : VaultState) : Bool :=
  0 < s.positionCost ∨ 0 < s.positionValue ∨ 0 < s.orders.length

def passAccounting (s : VaultState) (lock : PassLock) : Except String PassAccounting := do
  let total := s.passes * 1000000
  let cash := s.idle + s.activeCash + sum s.pendingWithdrawals - s.feeLiability
  let profit := if lock.principal + lock.reservedProfit < cash then
    cash - lock.principal - lock.reservedProfit else 0
  let withdrawable := if lock.closed then 0 else
    if exposed s then (if s.idle < profit then s.idle else profit) else s.idle
  let totalPassRaw ← capacityToPassRaw total
  let lockedPassRaw ← capacityToPassRaw lock.principal
  let freePassRaw ← capacityToPassRaw (total - lock.principal)
  return { totalPassRaw, lockedPassRaw, freePassRaw, withdrawable, availableProfit := profit,
           reservedPrincipal := lock.reservedPrincipal }

/-- No position and no order is open. -/
def flat (s : VaultState) : Prop :=
  s.positionCost = 0 ∧ s.positionValue = 0 ∧ s.orders = []

instance (s : VaultState) : Decidable (flat s) := by unfold flat; infer_instance

/-- The lock after a command on a vault that has an open one. -/
def lockCommand (s : VaultState) (lock : PassLock) (command : Command) : Except String PassLock := do
  let a ← passAccounting s lock
  match command.body with
  | .deposit amount => do
      let amount ← unsignedText amount
      let free ← passRawToCapacity a.freePassRaw
      let free ← unsigned free
      ensure (amount ≤ free) "INSUFFICIENT_FREE_PASS"
      return { lock with principal := lock.principal + amount }
  | .requestWithdrawal amount => do
      let amount ← unsignedText amount
      let availableProfit ← unsigned a.availableProfit
      let profit := if amount < availableProfit then amount else availableProfit
      let principalPart := amount - profit
      let reservedPrincipal ← unsigned a.reservedPrincipal
      ensure (principalPart ≤ lock.principal - reservedPrincipal) "INSUFFICIENT_PASS_PRINCIPAL"
      ensure (principalPart ≤ 0 ∨ flat s) "OPEN_PASS_POSITIONS"
      return { lock with
        withdrawals := lock.withdrawals.set command.id { profit, principal := principalPart } }
  | .confirmWithdrawal withdrawalId =>
      match lock.withdrawals.get? withdrawalId with
      | none => .error "WITHDRAWAL_NOT_PENDING"
      | some part => do
          ensure (part.principal ≤ 0 ∨ flat s) "OPEN_PASS_POSITIONS"
          return { lock with principal := lock.principal - part.principal,
                             withdrawals := lock.withdrawals.filter (fun e => e.1 ≠ withdrawalId) }
  | .cancelWithdrawal withdrawalId =>
      match lock.withdrawals.get? withdrawalId with
      | none => .error "WITHDRAWAL_NOT_PENDING"
      | some _ =>
          return { lock with withdrawals := lock.withdrawals.filter (fun e => e.1 ≠ withdrawalId) }
  | .closeVault => do
      ensure (s.status = .stopped ∧ flat s ∧ s.pendingWithdrawals = [] ∧ s.feeLiability = 0)
        "VAULT_EXIT_NOT_READY"
      return { version := 1, principal := 0, closed := true, withdrawals := [] }
  | _ => return lock

def applyPassCommand (s : VaultState) (command : Command) : Except String (Option PassLock) :=
  match command.body, s.passLock with
  | .enablePassLocking, some _ => .error "PASS_ALREADY_ENABLED"
  | .enablePassLocking, none => do
      ensure (s.status = .stopped ∧ s.withdrawalsPaid = 0 ∧ s.pendingWithdrawals = [] ∧ flat s ∧
        s.feeLiability = 0 ∧ s.deposits ≤ (balances s).allowance) "PASS_ADOPTION_UNSAFE"
      return some { version := 1, principal := s.deposits, closed := false, withdrawals := [] }
  | .closeVault, none => .error "PASS_NOT_ENABLED"
  | _, none => .ok none
  | _, some lock => do
      ensure (lock.closed = false) "VAULT_CLOSED"
      some <$> lockCommand s lock command

/-! ## The invariant -/

def assertReservation (e : String × Int) : Except String Unit := do
  validId e.1
  let amount ← unsigned e.2
  ensure (0 < amount) "EMPTY_RESERVATION"

def assertPart (s : VaultState) (e : String × PassPart) : Except String Unit :=
  match s.pendingWithdrawals.get? e.1 with
  | none => .error "INVALID_PASS_LOCK"
  | some pending => do
      let profit ← unsigned e.2.profit
      let principal ← unsigned e.2.principal
      ensure (profit + principal = pending) "INVALID_PASS_LOCK"

def assertLock (s : VaultState) (lock : PassLock) : Except String Unit := do
  let _ ← capacityToPassRaw (s.passes * 1000000)
  ensure (lock.version = 1) "INVALID_PASS_LOCK"
  let principal ← unsigned lock.principal
  ensure (principal ≤ s.passes * 1000000) "INVALID_PASS_LOCK"
  ensure (lock.withdrawals.length = s.pendingWithdrawals.length) "INVALID_PASS_LOCK"
  forM lock.withdrawals (assertPart s)
  ensure (lock.reservedPrincipal ≤ lock.principal) "INVALID_PASS_LOCK"
  ensure (lock.closed = true → lock.principal = 0 ∧ s.status = .stopped ∧ s.idle = 0 ∧
    s.activeCash = 0 ∧ flat s ∧ s.feeLiability = 0 ∧ s.pendingWithdrawals = []) "INVALID_PASS_LOCK"

def assertPassLock (s : VaultState) : Except String Unit :=
  match s.passLock with
  | none => .ok ()
  | some lock => assertLock s lock

/-- The events are numbered in order, and each has the receipt of its revision. -/
def historyMatches (s : VaultState) : Prop :=
  s.events.length = s.revision ∧ s.receipts.length = s.revision ∧
    ∀ i (h : i < s.events.length), s.events[i].revision = i + 1 ∧
      (s.receipts.get? s.events[i].commandId).map (·.revision) = some s.events[i].revision

instance (s : VaultState) : Decidable (historyMatches s) := by unfold historyMatches; infer_instance

def amounts (s : VaultState) : List Int :=
  [s.passes, s.idle, s.activeCash, s.positionCost, s.positionValue, s.feeLiability, s.deposits,
    s.withdrawalsPaid, s.feesAccrued, s.feesPaid]

def assertInvariant (s : VaultState) : Except String Unit := do
  ensure (s.scope = "TEST_ONLY" ∧ s.schemaVersion = 1) "UNSUPPORTED_SCOPE"
  forM [s.id, s.ownerId, s.executorId, s.strategyId] validId
  ensure ((s.revision : Int) ≤ maxSafeInteger) "INVALID_REVISION"
  forM (amounts s) (fun value => discard (unsigned value))
  discard (signed s.realizedPnl)
  forM s.orders assertReservation
  forM s.pendingWithdrawals assertReservation
  assertPassLock s
  let b := balances s
  discard (unsigned b.allowance)
  ensure (0 ≤ b.activeNet) "NEGATIVE_ACTIVE_EQUITY"
  ensure (s.feeLiability ≤ s.activeCash) "UNFUNDED_FEE_LIABILITY"
  ensure (s.feesAccrued = s.feesPaid + s.feeLiability) "FEE_CONSERVATION"
  ensure (b.equity = s.deposits - s.withdrawalsPaid + s.realizedPnl + b.unrealized - s.feesAccrued)
    "EQUITY_CONSERVATION"
  ensure (historyMatches s) "HISTORY_MISMATCH"

/-! ## Calls -/

structure VaultInput where
  scope : String
  id : String
  ownerId : String
  executorId : String
  strategyId : String
  passes : String
  passLock : Option PassLock

/-- The state that `createVault` asserts, once `passes` is known to spell an amount. -/
def created (input : VaultInput) (passes : Int) : VaultState :=
  { scope := input.scope, schemaVersion := 1, id := input.id, ownerId := input.ownerId,
    executorId := input.executorId, strategyId := input.strategyId, passes,
    passLock := input.passLock, revision := 0, status := .stopped, idle := 0, activeCash := 0,
    positionCost := 0, positionValue := 0, feeLiability := 0, deposits := 0, withdrawalsPaid := 0,
    realizedPnl := 0, feesAccrued := 0, feesPaid := 0, orders := [], pendingWithdrawals := [],
    receipts := [], events := [] }

def createVault (input : VaultInput) : Except String VaultState := do
  ensure (input.scope = "TEST_ONLY") "UNSUPPORTED_SCOPE"
  forM [input.id, input.ownerId, input.executorId, input.strategyId] validId
  let passes ← unsignedText input.passes
  assertInvariant (created input passes)
  return created input passes

/-- The amount of a command, which is positive if it has one. -/
def commandAmount (command : Command) : Except String Int :=
  match command.body.amount with
  | none => .ok 0
  | some text => do
      let amount ← unsignedText text
      ensure (0 < amount) "NON_POSITIVE_AMOUNT"
      return amount

/-- `settlePosition`, with the policy's answer. -/
def settlePosition (s : VaultState) (proceeds : Int) (policy : SettlementPolicy) :
    Except String VaultState := do
  let cost := s.positionCost
  let (fee, excess) := policy.assess
    { proceeds, cost, cash := s.activeCash, existingFeeLiability := s.feeLiability,
      allowance := (balances s).allowance }
  let fee ← unsigned fee
  let excess ← unsigned excess
  ensure (fee ≤ (if cost < proceeds then proceeds - cost else 0)) "INVALID_TEST_FEE"
  let cashAfter := s.activeCash + proceeds
  let liabilityAfter := s.feeLiability + fee
  ensure (excess ≤ cashAfter - liabilityAfter) "INVALID_EXCESS_ALLOCATION"
  return { s with
    activeCash := cashAfter - excess, idle := s.idle + excess, feeLiability := liabilityAfter,
    feesAccrued := s.feesAccrued + fee, realizedPnl := s.realizedPnl + proceeds - cost,
    positionCost := 0, positionValue := 0 }

/-- The `switch` of `execute`, on a state whose lock is already the next one. -/
def applyBody (s : VaultState) (command : Command) (amount : Int) (policy : Option SettlementPolicy) :
    Except String VaultState :=
  let b := balances s
  let available := s.activeCash - s.feeLiability
  match command.body with
  | .enablePassLocking => .ok s
  | .closeVault =>
      .ok { s with withdrawalsPaid := s.withdrawalsPaid + s.idle + s.activeCash, idle := 0,
                   activeCash := 0 }
  | .deposit _ => .ok { s with idle := s.idle + amount, deposits := s.deposits + amount }
  | .allocate _ => do
      ensure (amount ≤ s.idle) "INSUFFICIENT_IDLE"
      ensure (b.activeNet + amount ≤ b.allowance) "ALLOWANCE_EXCEEDED"
      return { s with idle := s.idle - amount, activeCash := s.activeCash + amount }
  | .deallocate _ => do
      ensure (amount ≤ available) "INSUFFICIENT_ACTIVE_CASH"
      return { s with activeCash := s.activeCash - amount, idle := s.idle + amount }
  | .requestWithdrawal _ => do
      ensure (amount ≤ s.idle) "INSUFFICIENT_IDLE"
      return { s with idle := s.idle - amount,
                      pendingWithdrawals := s.pendingWithdrawals.set command.id amount }
  | .confirmWithdrawal withdrawalId => do
      validId withdrawalId
      match s.pendingWithdrawals.get? withdrawalId with
      | none => .error "WITHDRAWAL_NOT_PENDING"
      | some owed =>
          return { s with
            pendingWithdrawals := s.pendingWithdrawals.filter (fun e => e.1 ≠ withdrawalId),
            withdrawalsPaid := s.withdrawalsPaid + owed }
  | .cancelWithdrawal withdrawalId => do
      validId withdrawalId
      match s.pendingWithdrawals.get? withdrawalId with
      | none => .error "WITHDRAWAL_NOT_PENDING"
      | some owed =>
          return { s with
            pendingWithdrawals := s.pendingWithdrawals.filter (fun e => e.1 ≠ withdrawalId),
            idle := s.idle + owed }
  | .start => do
      ensure (0 < b.activeNet) "NO_ACTIVE_FUNDS"
      ensure (s.status = .stopped) "INVALID_STATUS"
      return { s with status := .running }
  | .stop =>
      .ok { s with
        status := if 0 < s.positionCost ∨ 0 < s.orders.length then .stopping else .stopped }
  | .reserveBuy orderId _ => do
      validId orderId
      ensure (s.status = .running) "NOT_RUNNING"
      ensure (s.orders.get? orderId = none) "DUPLICATE_ORDER"
      ensure (amount ≤ available) "INSUFFICIENT_ACTIVE_CASH"
      return { s with activeCash := s.activeCash - amount, orders := s.orders.set orderId amount }
  | .cancelOrder orderId => do
      validId orderId
      match s.orders.get? orderId with
      | none => .error "ORDER_NOT_PENDING"
      | some reserved =>
          return { s with orders := s.orders.filter (fun e => e.1 ≠ orderId),
                          activeCash := s.activeCash + reserved }
  | .fillBuy orderId => do
      validId orderId
      match s.orders.get? orderId with
      | none => .error "ORDER_NOT_PENDING"
      | some reserved =>
          return { s with orders := s.orders.filter (fun e => e.1 ≠ orderId),
                          positionCost := s.positionCost + reserved,
                          positionValue := s.positionValue + reserved }
  | .markPosition value => do
      ensure (0 < s.positionCost) "NO_POSITION"
      let value ← unsignedText value
      return { s with positionValue := value }
  | .settlePosition proceeds => do
      ensure (0 < s.positionCost) "NO_POSITION"
      ensure (s.orders = []) "PENDING_ORDERS"
      match policy with
      | none => .error "SETTLEMENT_POLICY_REQUIRED"
      | some policy => do
          ensure (policy.scope = "TEST_ONLY") "SETTLEMENT_POLICY_REQUIRED"
          validId policy.id
          let proceeds ← unsignedText proceeds
          settlePosition s proceeds policy
  | .payFees _ => do
      ensure (amount ≤ s.feeLiability) "EXCESS_FEE_PAYMENT"
      return { s with feeLiability := s.feeLiability - amount, activeCash := s.activeCash - amount,
                      feesPaid := s.feesPaid + amount }

/-- A vault that was stopping stops when its last position and order are gone. -/
def settleStatus (s : VaultState) : VaultState :=
  if s.status = .stopping ∧ s.positionCost = 0 ∧ s.orders.length = 0 then
    { s with status := .stopped } else s

def record (s : VaultState) (id fingerprint : String) (type : EventType) (actorId : String) :
    VaultState :=
  { s with
    revision := s.revision + 1
    receipts := s.receipts.set id { fingerprint, revision := s.revision + 1 }
    events := s.events ++ [{ revision := s.revision + 1, commandId := id, type, actorId }] }

/-- A fresh command, up to the closing assertion. -/
def prepare (s : VaultState) (actor : Actor) (command : Command) (policy : Option SettlementPolicy)
    (fingerprint : String) : Except String VaultState := do
  ensure (-maxSafeInteger ≤ command.expectedRevision ∧ command.expectedRevision ≤ maxSafeInteger ∧
    command.expectedRevision = s.revision) "REVISION_CONFLICT"
  ensure (s.revision < 10000) "TEST_HISTORY_LIMIT"
  let amount ← commandAmount command
  let passLock ← applyPassCommand s command
  let next ← applyBody { s with passLock := passLock.or s.passLock } command amount policy
  return record (settleStatus next) command.id fingerprint (.command command.body.type) actor.id

def policyId (command : Command) (policy : Option SettlementPolicy) : Option String :=
  if command.body.type = .settlePosition then policy.map (·.id) else none

def policyJson (id : Option String) : Json := (id.map Json.string).getD .null

/-- What a receipt holds the text of. -/
def fingerprintJson (actor : Actor) (command : Command) (policy : Option SettlementPolicy) : Json :=
  .object [("actor", actor.json), ("command", command.json),
    ("policyId", policyJson (policyId command policy))]

section Execute

variable (localeCompare : String → String → Ordering)

def fingerprint (actor : Actor) (command : Command) (policy : Option SettlementPolicy) : String :=
  Json.canonical localeCompare (fingerprintJson actor command policy)

/-- The owner and the executor each have their own commands. -/
def permitted (s : VaultState) (actor : Actor) (type : CommandType) : Prop :=
  if type.ownerAction then actor.role = .owner ∧ actor.id = s.ownerId
  else actor.role = .executor ∧ actor.id = s.executorId

instance (s : VaultState) (actor : Actor) (type : CommandType) :
    Decidable (permitted s actor type) := by unfold permitted; infer_instance

def execute (s : VaultState) (actor : Actor) (command : Command) (policy : Option SettlementPolicy) :
    Except String VaultState := do
  assertInvariant s
  validId command.id
  ensure (permitted s actor command.body.type) "FORBIDDEN"
  let fingerprint := fingerprint localeCompare actor command policy
  match s.receipts.get? command.id with
  | some previous => do
      ensure (previous.fingerprint = fingerprint) "IDEMPOTENCY_CONFLICT"
      return s
  | none => do
      let next ← prepare s actor command policy fingerprint
      assertInvariant next
      return next

end Execute

end DomainVault
end AlphaForge
