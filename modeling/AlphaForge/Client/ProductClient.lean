/-
Ledger commands of the product client, `product-client.ts`, and their way through
`LocalStore.command`.

A command is stored as a pending envelope before it is sent, and stays until its
client has seen it applied or has dismissed it after a rejection.  Requests and
responses travel on their own: a request may reach the server after its client gave
it up, and a response that comes too late is not looked at.  A step of the machine is
one stretch of a client call between two waits, one message of the network, or a call
of someone else on the server.

What is only shown (phases, notices, error texts) is left out, and so are the calls
that change the identity or the selected vault.
-/
import AlphaForge.Automata.Store.Progress
import AlphaForge.Machine.Run

namespace AlphaForge
namespace ProductClient

open Evm Commit
open Automata (Env Db Store StoreCall besideBot localGet updateVault zeroFeeFullSettlement)
open DomainVault (VaultState Command Body CommandType Call Event isId unsignedText)

/-! ## The server -/

/-- `LocalStore.command`, with the state it returns and whether it is a repetition. -/
def localCommand (env : Env) (owner id : String) (call : Call) : Store (VaultState × Bool) :=
  transaction do
    let db ← get
    let previous ← await (localGet db id owner)
    await (ensure (db.occupied id = false ∨ besideBot call.command.body.type = true)
      "BOT_OWNS_ALLOCATION")
    let state ← await (DomainVault.step env.localeCompare call previous)
    if previous.receipts.get? call.command.id = none then do
      updateVault previous state
      return (state, false)
    else return (state, true)

/-- The call as a function of the database. -/
def submitted (env : Env) (owner id : String) (call : Call) (db : Db) :
    Except String ((VaultState × Bool) × Db) :=
  match localCommand env owner id call db with
  | .ok result db' => .ok (result, db')
  | .error e _ => .error e

/-- `submit` of `localSimulation`. -/
def submission (owner : String) (command : Command) : Call where
  actor := if command.body.type.ownerAction then ⟨owner, .owner⟩ else ⟨"local-simulator", .executor⟩
  command
  policy := if command.body.type = .settlePosition then some zeroFeeFullSettlement else none

/-- `conflictCodes`. -/
def conflictCodes : List String :=
  ["PASS_ALREADY_ENABLED", "PASS_ADOPTION_UNSAFE", "PASS_NOT_ENABLED", "VAULT_CLOSED",
    "INSUFFICIENT_FREE_PASS", "INSUFFICIENT_PASS_PRINCIPAL", "OPEN_PASS_POSITIONS",
    "VAULT_EXIT_NOT_READY", "STRATEGY_FRAME", "STRATEGY_MODE", "BOT_OWNS_ALLOCATION",
    "BOT_VAULT_NOT_READY", "BOT_RUN_LIMIT", "INSUFFICIENT_BOT_CASH", "REPLAY_COMPLETE",
    "RUN_HISTORY_LIMIT", "STALE_VALUATION", "FUNDING_NAV", "UNIT_PRECISION_LIMIT",
    "UNKNOWN_STRATEGY", "INVALID_ID", "UNKNOWN_COMMAND", "SETTLEMENT_POLICY_REQUIRED",
    "INVALID_TEST_FEE", "INVALID_EXCESS_ALLOCATION", "SESSION_LIMIT", "IDEMPOTENCY_CONFLICT",
    "REVISION_CONFLICT", "TEST_HISTORY_LIMIT", "NON_POSITIVE_AMOUNT", "INSUFFICIENT_IDLE",
    "ALLOWANCE_EXCEEDED", "INSUFFICIENT_ACTIVE_CASH", "WITHDRAWAL_NOT_PENDING", "NO_ACTIVE_FUNDS",
    "INVALID_STATUS", "NOT_RUNNING", "DUPLICATE_ORDER", "ORDER_NOT_PENDING", "NO_POSITION",
    "PENDING_ORDERS", "EXCESS_FEE_PAYMENT"]

/-- The status of an error, `apiError`.  Any code that is not public is a failed operation. -/
def apiStatus (code : String) : Nat :=
  if code ∈ ["STRATEGY_PROTOCOL", "STRATEGY_TARGETS", "INVALID_REQUEST",
    "CHAIN_SUBMISSION_INVALID"] then 400
  else if code = "SESSION_REQUIRED" then 401
  else if code ∈ ["FORBIDDEN", "HOST_REJECTED", "ORIGIN_REJECTED", "CROSS_SITE_REJECTED",
    "DEMO_HEADER_REQUIRED"] then 403
  else if code ∈ ["VAULT_NOT_FOUND", "BOT_NOT_FOUND", "CHAIN_OPERATION_NOT_FOUND",
    "CHAIN_PROJECTION_NOT_FOUND"] then 404
  else if code = "CHAIN_OPERATION_CONFLICT" then 409
  else if code = "CHAIN_PROJECTION_UNAVAILABLE" then 503
  else if code = "RATE_LIMITED" then 429
  else if code ∈ conflictCodes then 409
  else 500

/-! ## Envelopes -/

/-- `PendingCommand`, with the fields of its command. -/
structure Pending where
  owner : String
  vaultId : String
  id : String
  expectedRevision : Nat
  body : Body
  rejection : Option (String × Nat)
  deriving DecidableEq

theorem names_nodup : (Command.names ++ ([] : List (String × Json)).map (·.1)).Nodup := by
  decide

def Pending.command (p : Pending) : Command where
  id := p.id
  expectedRevision := p.expectedRevision
  body := p.body
  metadata := []
  distinct := names_nodup

def Pending.call (p : Pending) : Call := submission p.owner p.command

def fieldsValid : Body → Except String Unit
  | .deposit amount => discard (unsignedText amount)
  | .allocate amount => discard (unsignedText amount)
  | .deallocate amount => discard (unsignedText amount)
  | .requestWithdrawal amount => discard (unsignedText amount)
  | .confirmWithdrawal withdrawalId => ensure (isId withdrawalId = true) "INVALID_COMMAND_FIELDS"
  | .cancelWithdrawal withdrawalId => ensure (isId withdrawalId = true) "INVALID_COMMAND_FIELDS"
  | .start => .ok ()
  | .stop => .ok ()
  | .enablePassLocking => .ok ()
  | .closeVault => .ok ()
  | .reserveBuy orderId amount => do
      ensure (isId orderId = true) "INVALID_COMMAND_FIELDS"
      discard (unsignedText amount)
  | .cancelOrder orderId => ensure (isId orderId = true) "INVALID_COMMAND_FIELDS"
  | .fillBuy orderId => ensure (isId orderId = true) "INVALID_COMMAND_FIELDS"
  | .markPosition value => discard (unsignedText value)
  | .settlePosition proceeds => discard (unsignedText proceeds)
  | .payFees amount => discard (unsignedText amount)

def validateCommand (p : Pending) : Except String Unit := do
  ensure (isId p.id = true ∧ p.expectedRevision ≤ 10000) "INVALID_COMMAND_FIELDS"
  fieldsValid p.body

/-- The route: the schema of the body asks for the fields that the client checks. -/
def handle (env : Env) (p : Pending) (db : Db) : Except String ((VaultState × Bool) × Db) := do
  (validateCommand p).mapError (fun _ => "INVALID_REQUEST")
  submitted env p.owner p.vaultId p.call db

/-! ## The client -/

/-- What the client looks at of a vault. -/
structure ClientVault where
  id : String
  ownerId : String
  scope : String
  revision : Nat
  deriving DecidableEq

def viewOf (s : VaultState) : ClientVault := ⟨s.id, s.ownerId, s.scope, s.revision⟩

structure Page where
  user : Option String
  vaults : List ClientVault
  selectedVaultId : Option String
  audit : List Event
  needsRefresh : Bool
  rejectionRefreshed : Bool

def Page.initial : Page := ⟨none, [], none, [], true, false⟩

/-- What goes on after a `load`. -/
inductive Continuation where
  | refresh
  | retry (p : Pending)
  | readback (p : Pending) (revision : Nat) (replayed : Bool)

/-- A call of the client that waits.  A newer call of `load` supersedes an older one. -/
inductive Waiting where
  | loading (next : Continuation)
  | sending (p : Pending) (number : Nat)

/-- The answers that one `load` has read, with the detail of the selected vault in the
place of its row. -/
structure Reading where
  user : String
  vaults : List ClientVault
  audit : OrderedMap String (List Event)

structure State where
  db : Db
  storage : Option Pending
  page : Page
  waiting : Option Waiting
  requests : List (Nat × Pending)
  responses : List (Nat × Pending × Except (String × Nat) (VaultState × Bool))
  sent : Nat
  /-- The envelopes of all commands that were given. -/
  given : List Pending

inductive Action where
  | refresh
  | command (id : String) (body : Body)
  | retry
  | dismissRejected
  | reload
  /-- The answers of the live `load`. -/
  | loaded (reading : Reading)
  /-- The call that waits is given up: a lost connection, a timeout, a server error, a
  malformed answer. -/
  | failed (status : Option Nat)
  /-- The request at this place reaches the server. -/
  | deliver (place : Nat)
  /-- The response at this place reaches the client. -/
  | respond (place : Nat)
  /-- A call of a bot, of another client or of the executor. -/
  | server (call : StoreCall)

def State.busy (s : State) : Bool :=
  match s.waiting with
  | none => false
  | some (.loading .refresh) => false
  | _ => true

/-- A definitive rejection of the command itself. -/
def definitive (status : Nat) : Prop := 400 ≤ status ∧ status < 500 ∧ status ≠ 401 ∧ status ≠ 429

instance : DecidablePred definitive := fun status => by unfold definitive; infer_instance

def clearPrivate (page : Page) : Page :=
  { page with user := none, vaults := [], selectedVaultId := none, audit := [] }

/-- `fail`, at the end of a call. -/
def fail (status : Option Nat) (s : State) : State :=
  { s with
    page := { (if status = some 401 then clearPrivate s.page else s.page) with needsRefresh := true }
    waiting := none }

def beginLoad (next : Continuation) (s : State) : State :=
  { s with page := { s.page with needsRefresh := true }, waiting := some (.loading next) }

def send (p : Pending) (s : State) : State :=
  { s with
    requests := s.requests ++ [(s.sent, p)], sent := s.sent + 1, waiting := some (.sending p s.sent) }

/-- `validateVault`. -/
def validVault (vault : ClientVault) (owner : String) : Prop :=
  vault.ownerId = owner ∧ isId vault.id = true ∧ vault.scope = "TEST_ONLY"

instance (vault : ClientVault) (owner : String) : Decidable (validVault vault owner) := by
  unfold validVault; infer_instance

def Continuation.owner : Continuation → Option String
  | .refresh => none
  | .retry p => some p.owner
  | .readback p _ _ => some p.owner

/-- What a `load` makes of its answers. -/
def load (expectedOwner : Option String) (reading : Reading) (s : State) : Except String Page := do
  let owner := reading.user
  ensure (owner ∈ ["alice", "bob", "derick"]) "RESPONSE_CONTEXT_MISMATCH"
  let page := if s.page.user.any (· ≠ owner) then clearPrivate s.page else s.page
  ensure (∀ expected ∈ expectedOwner, owner = expected) "RESPONSE_CONTEXT_MISMATCH"
  ensure (∀ vault ∈ reading.vaults, validVault vault owner) "RESPONSE_CONTEXT_MISMATCH"
  let pending := s.storage.filter (fun p => p.owner = owner)
  let preferred := page.selectedVaultId.or (pending.map (·.vaultId))
  let selected := (reading.vaults.find? (fun vault => some vault.id = preferred)).or
    reading.vaults.head?
  let audit := (selected.bind (fun vault => reading.audit.get? vault.id)).getD []
  ensure (∀ event ∈ audit, isId event.commandId = true) "INVALID_AUDIT_RESPONSE"
  return { user := some owner, vaults := reading.vaults, selectedVaultId := selected.map (·.id), audit,
           needsRefresh := false
           rejectionRefreshed := pending.any (fun p => p.rejection.isSome) }

/-- `confirm`. -/
def confirm (p : Pending) (s : State) : State :=
  if s.storage = some p then { s with storage := none, waiting := none } else fail none s

/-- The vault with this id among the ones on the page. -/
def Page.vault (page : Page) (id : String) : Option ClientVault := page.vaults.find? (·.id = id)

/-- The audit event shows that this command was applied. -/
def auditMatches (p : Pending) (event : Event) (vault : Option ClientVault) : Prop :=
  event.actorId = p.call.actor.id ∧ event.type = .command p.body.type ∧
    p.expectedRevision < event.revision ∧ ∃ v ∈ vault, event.revision ≤ v.revision

instance (p : Pending) (event : Event) (vault : Option ClientVault) :
    Decidable (auditMatches p event vault) := by unfold auditMatches; infer_instance

/-- After a `load` that has succeeded. -/
def proceed (next : Continuation) (s : State) : State :=
  match next with
  | .refresh => { s with waiting := none }
  | .retry p =>
      match s.page.audit.find? (·.commandId = p.id) with
      | some event => if auditMatches p event (s.page.vault p.vaultId) then confirm p s else fail none s
      | none => send p s
  | .readback p revision _ =>
      if ∃ v ∈ s.page.vault p.vaultId, revision ≤ v.revision then confirm p s else fail none s

/-- The response of a command that was sent. -/
def answered (p : Pending) (reply : Except (String × Nat) (VaultState × Bool)) (s : State) : State :=
  match reply with
  | .error (code, status) =>
      if definitive status ∧ s.storage = some p then
        fail (some status)
          { s with
            storage := some { p with rejection := some (code, status) }
            page := { s.page with rejectionRefreshed := false } }
      else fail (some status) s
  | .ok (vault, replayed) =>
      if validVault (viewOf vault) p.owner ∧ vault.id = p.vaultId ∧
          p.expectedRevision < vault.revision then
        beginLoad (.readback p vault.revision replayed) s
      else fail none s

/-- Everything that was read has been on the server. -/
def truthful (db : Db) (reading : Reading) : Prop :=
  (∀ vault ∈ reading.vaults, ∃ s ∈ db.vaults.get? vault.id,
    s.ownerId = vault.ownerId ∧ s.scope = vault.scope ∧ vault.revision ≤ s.revision) ∧
  ∀ e ∈ reading.audit, ∃ s ∈ db.vaults.get? e.1, ∀ event ∈ e.2, event ∈ s.events

instance (db : Db) (reading : Reading) : Decidable (truthful db reading) := by
  unfold truthful; infer_instance

/-- The alphabet of `crypto.randomUUID`. -/
def isUuid (id : String) : Bool :=
  isId id && id.toList.all (fun d => ('0' ≤ d && d ≤ '9') || ('a' ≤ d && d ≤ 'f') || d = '-')

/-- What `prepare` finds: the selected vault of the user, with nothing pending. -/
def prepare (s : State) : Except String ClientVault := do
  ensure (s.storage = none) "CONFIRM_PENDING_REQUEST_FIRST"
  ensure (s.busy = false) "BUSY"
  ensure (s.page.needsRefresh = false) "REFRESH_REQUIRED"
  match s.page.selectedVaultId.bind s.page.vault with
  | none => .error "VAULT_REQUIRED"
  | some vault => do
      ensure (s.page.user = some vault.ownerId) "VAULT_REQUIRED"
      return vault

def step (env : Env) : Action → State → Except String State
  | .refresh, s => do
      ensure (s.busy = false) "BUSY"
      return beginLoad .refresh s
  | .command id body, s => do
      let vault ← prepare s
      ensure (isUuid id = true ∧ (∀ d ∈ s.given, d.id ≠ id) ∧
        ∀ e ∈ s.db.vaults, e.2.receipts.get? id = none) "UUID_IN_USE"
      let p : Pending := ⟨vault.ownerId, vault.id, id, vault.revision, body, none⟩
      match validateCommand p with
      | .error _ => return fail none s
      | .ok () => return send p { s with storage := some p, given := p :: s.given }
  | .retry, s => do
      ensure (s.busy = false) "BUSY"
      match s.storage with
      | none => .error "NO_PENDING_REQUEST"
      | some p => do
          ensure (some p.owner = s.page.user) "PENDING_OWNER_MISMATCH"
          ensure (some p.vaultId = s.page.selectedVaultId) "PENDING_VAULT_MISMATCH"
          ensure (p.rejection = none) "REVIEW_REQUIRED"
          return beginLoad (.retry p) s
  | .dismissRejected, s => do
      ensure (s.busy = false) "BUSY"
      match s.storage with
      | none => .error "UNRESOLVED_REQUEST"
      | some p => do
          ensure (p.rejection.isSome = true) "UNRESOLVED_REQUEST"
          ensure (some p.owner = s.page.user ∧ some p.vaultId = s.page.selectedVaultId)
            "PENDING_OWNER_MISMATCH"
          ensure (s.page.rejectionRefreshed = true ∧ s.page.needsRefresh = false) "REFRESH_REQUIRED"
          return { s with
            storage := none
            page := { s.page with needsRefresh := true, rejectionRefreshed := false }
            waiting := none }
  | .reload, s => .ok { s with page := .initial, waiting := none }
  | .loaded reading, s =>
      match s.waiting with
      | some (.loading next) => do
          ensure (truthful s.db reading) "NEVER_SERVED"
          match load next.owner reading s with
          | .error _ => return fail none s
          | .ok page => return proceed next { s with page }
      | _ => .error "NOT_LOADING"
  | .failed status, s =>
      match s.waiting with
      | none => .error "NOT_WAITING"
      | some (.loading _) => .ok (fail status s)
      | some (.sending _ _) => do
          ensure (∀ code ∈ status, ¬ definitive code) "ANSWERED_BY_THE_ROUTE"
          return fail status s
  | .deliver place, s =>
      match s.requests[place]? with
      | none => .error "NO_REQUEST"
      | some (number, p) =>
          let s := { s with requests := s.requests.eraseIdx place }
          match handle env p s.db with
          | .ok (result, db) =>
              .ok { s with db, responses := s.responses ++ [(number, p, .ok result)] }
          | .error code =>
              .ok { s with responses := s.responses ++ [(number, p, .error (code, apiStatus code))] }
  | .respond place, s =>
      match s.responses[place]? with
      | none => .error "NO_RESPONSE"
      | some (number, _, reply) =>
          let s := { s with responses := s.responses.eraseIdx place }
          match s.waiting with
          | some (.sending p awaited) => if number = awaited then .ok (answered p reply s) else .ok s
          | _ => .ok s
  | .server call, s => do
      ensure (∀ d ∈ s.given, call.commandId ≠ some d.id) "UUID_IN_USE"
      let db ← Automata.step env call s.db
      return { s with db }

/-- A first visit, before anyone has a vault. -/
def start : State := ⟨.empty, none, .initial, none, [], [], 0, []⟩

end ProductClient
end AlphaForge
