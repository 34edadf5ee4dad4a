/-
The two stores that share the local database: the vaults of
`apps/server/src/store.ts` and the bots of `apps/server/src/automata-store.ts`.

A row is the value that its JSON column decodes to.  Writes of a transaction are made
one by one, and a throw undoes them.  The hash function and the JSON texts that are
only hashed are parameters.
-/
import AlphaForge.Automata.Engine
import AlphaForge.Domain.Vault
import AlphaForge.Domain.Vault.Run
import AlphaForge.Machine.Commit

namespace AlphaForge
namespace Automata

open Evm Commit
open DomainVault (VaultState SettlementPolicy assertInvariant balances)

/-! ## Rows -/

structure CreateRun where
  id : String
  vaultId : String
  amount : String
  datasetId : String
  parameters : Parameters
  deriving DecidableEq

inductive CommandBody where
  | step
  | stop
  | pause
  | resume
  | fund (inward : Bool) (amount : String)
  | decision (protocol runId : String) (frameSeq : Int) (targets : OrderedMap String Int)
  deriving DecidableEq

structure RunCommand where
  id : String
  expectedRevision : Int
  body : CommandBody
  deriving DecidableEq

structure RecordState where
  state : Run
  revision : Nat
  owner : String
  vaultId : String
  datasetId : String
  baselineRealized : Int
  creation : String
  receipts : OrderedMap String String
  settlementReleased : Int

def RecordState.active (record : RecordState) : Bool := decide (record.state.status ≠ .stopped)

structure Db where
  vaults : OrderedMap String VaultState
  runs : OrderedMap String RecordState

def Db.empty : Db := { vaults := [], runs := [] }

/-- A bot runs on the vault. -/
def Db.occupied (db : Db) (vaultId : String) : Bool :=
  db.runs.any (fun e => e.2.vaultId = vaultId && e.2.active)

structure Env where
  hash : String → String
  localeCompare : String → String → Ordering
  creationJson : CreateRun → String
  commandJson : RunCommand → String
  runJson : Run → String

abbrev Store := EStateM String Db

/-! ## Vaults -/

/-- `LocalStore.get`: a row that fails its own assertion is not handed out. -/
def localGet (db : Db) (id owner : String) : Except String VaultState :=
  match db.vaults.get? id with
  | none => .error "VAULT_NOT_FOUND"
  | some s => do
      ensure (s.ownerId = owner) "VAULT_NOT_FOUND"
      ensure (assertInvariant s = .ok ()) "CORRUPT_LEDGER"
      return s

def updateVault (previous next : VaultState) : Store Unit := do
  let db ← get
  await (ensure ((db.vaults.get? next.id).any (fun s => s.ownerId = next.ownerId ∧
    s.revision = previous.revision)) "REVISION_CONFLICT")
  set { db with vaults := db.vaults.set next.id next }

def obtainTestPasses (owner strategy uuid : String) (locked : Bool) : Store Unit :=
  transaction do
    let db ← get
    match db.vaults.find? (fun e => e.2.ownerId = owner ∧ e.2.strategyId = strategy) with
    | some e => await (ensure (assertInvariant e.2 = .ok ()) "CORRUPT_LEDGER")
    | none => do
        let state ← await (DomainVault.createVault
          { scope := "TEST_ONLY", id := "vault_" ++ uuid, ownerId := owner,
            executorId := "local-simulator", strategyId := strategy, passes := "1000",
            passLock := if locked then some DomainVault.openLock else none })
        await (ensure (db.vaults.get? state.id = none) "UNIQUE constraint failed: vaults.id")
        set { db with vaults := db.vaults.set state.id state }

/-- What the owner of a vault may do while a bot runs on it. -/
def besideBot (type : DomainVault.CommandType) : Bool :=
  type = .deposit || type = .requestWithdrawal || type = .cancelWithdrawal ||
    type = .confirmWithdrawal

def vaultCommand (env : Env) (owner id : String) (call : DomainVault.Call) : Store Unit :=
  transaction do
    let db ← get
    let previous ← await (localGet db id owner)
    await (ensure (db.occupied id = false ∨ besideBot call.command.body.type = true)
      "BOT_OWNS_ALLOCATION")
    let state ← await (DomainVault.step env.localeCompare call previous)
    -- A repetition returns the state that it was given, and nothing is written.
    if previous.receipts.get? call.command.id = none then updateVault previous state else pure ()

/-! ## Bots -/

/-- `ZERO_FEE_FULL_SETTLEMENT`. -/
def zeroFeeFullSettlement : SettlementPolicy where
  scope := "TEST_ONLY"
  id := "fixture-full-settlement-zero-fee-v1"
  assess := fun a =>
    let netCash := a.cash + a.proceeds - a.existingFeeLiability
    (0, if a.allowance < netCash then netCash - a.allowance else 0)

def validRunId (id : String) : Except String Unit := ensure (isId id = true) "INVALID_ID"

def readRun (db : Db) (owner id : String) : Except String RecordState :=
  match db.runs.get? id with
  | none => .error "BOT_NOT_FOUND"
  | some record => do
      ensure (record.owner = owner) "BOT_NOT_FOUND"
      return record

structure View where
  equity : Int
  returnBps : Int
  replayComplete : Bool

def view (record : RecordState) : Except String View := do
  let equity ← equity record.state
  let returnBps ← returnBps record.state
  let frames ← datasetFrames record.datasetId
  return { equity, returnBps, replayComplete := decide ((frames.length : Int) ≤ record.state.cursor) }

def botId (env : Env) (id : String) (revision : Nat) : String :=
  "bot_" ++ String.ofList ((env.hash (id ++ ":" ++ toString revision)).toList.take 48)

def vaultStatus (run : Run) : DomainVault.Status :=
  if run.status = .stopped then .stopped else if run.trigger ≠ none then .stopping else .running

/-- The vault with the run's books in place of its own. -/
def checkpointed (env : Env) (record : RecordState) (previous : VaultState)
    (idleDelta cost worth : Int) : VaultState :=
  let commandId := botId env record.state.id record.revision
  { previous with
    revision := previous.revision + 1
    idle := previous.idle + idleDelta
    activeCash := record.state.cash
    positionCost := cost
    positionValue := worth
    realizedPnl := record.baselineRealized + record.state.realizedPnl
    status := vaultStatus record.state
    receipts := previous.receipts.set commandId
      { fingerprint := env.hash (env.runJson record.state), revision := previous.revision + 1 }
    events := previous.events ++ [{ revision := previous.revision + 1, commandId,
                                    type := .automataCheckpoint, actorId := "local-simulator" }] }

/-- The vault that a checkpoint asserts. -/
def checkpointState (env : Env) (record : RecordState) (previous : VaultState) (idleDelta : Int) :
    Except String VaultState := do
  ensure (previous.revision < 9999) "TEST_HISTORY_LIMIT"
  let cost ← positionCosts record.state
  let value ← equity record.state
  let cash ← amount record.state.cash
  return checkpointed env record previous idleDelta cost (value - cash)

def checkpoint (env : Env) (record : RecordState) (previous : VaultState) (idleDelta : Int) :
    Store Unit := do
  let next ← await (checkpointState env record previous idleDelta)
  await (assertInvariant next)
  updateVault previous next

/-- A new run and the vault that it is funded from. -/
def newRun (env : Env) (db : Db) (owner : String) (input : CreateRun) :
    Except String (RecordState × VaultState) := do
  let vault ← localGet db input.vaultId owner
  ensure (vault.status = .stopped ∧ vault.activeCash = 0 ∧ vault.positionCost = 0 ∧
    vault.feeLiability = 0 ∧ vault.orders = []) "BOT_VAULT_NOT_READY"
  let cash ← amountText input.amount
  ensure (cash ≤ vault.idle) "INSUFFICIENT_IDLE"
  ensure (cash ≤ (balances vault).allowance) "ALLOWANCE_EXCEEDED"
  ensure (db.runs.countP (fun e => e.2.owner = owner) < 50) "BOT_RUN_LIMIT"
  let initial ← (createRun input.id input.amount input.parameters).mapError
    (fun _ => "INVALID_REQUEST")
  let _ ← datasetFrames input.datasetId
  return ({ state := initial, revision := 0, owner, vaultId := input.vaultId,
            datasetId := input.datasetId, baselineRealized := vault.realizedPnl,
            creation := env.hash (env.creationJson input), receipts := [],
            settlementReleased := 0 }, vault)

def insertRun (record : RecordState) : Store Unit := do
  let db ← get
  await (ensure (db.occupied record.vaultId = false)
    "UNIQUE constraint failed: automata_runs.vault_id")
  set { db with runs := db.runs.set record.state.id record }

def create (env : Env) (owner : String) (input : CreateRun) : Store Unit := do
  await (validRunId input.id)
  await (validRunId input.vaultId)
  transaction do
    let db ← get
    match db.runs.get? input.id with
    | some found => do
        await (ensure (found.owner = owner) "BOT_NOT_FOUND")
        await (ensure (found.creation = env.hash (env.creationJson input)) "IDEMPOTENCY_CONFLICT")
        await (discard (view found))
    | none => do
        let (record, vault) ← await (newRun env db owner input)
        insertRun record
        checkpoint env record vault (-record.state.cash)
        await (discard (view record))

def strategyProtocol : String := "alphaforge-targets-v1"

def validateDecision (record : RecordState) (id : String) (command : RunCommand) :
    Except String Unit :=
  match command.body with
  | .decision protocol runId frameSeq targets => do
      ensure (protocol = strategyProtocol ∧ runId = id) "STRATEGY_PROTOCOL"
      ensure (isId command.id = true) "INVALID_ID"
      ensure (isSafeInteger command.expectedRevision ∧ 0 ≤ command.expectedRevision ∧
        isSafeInteger frameSeq ∧ 0 < frameSeq) "STRATEGY_FRAME"
      validateTargets targets record.state.parameters.weights.keys
  | _ => .ok ()

/-- The engine's action for a command, and what it takes from or gives to idle. -/
def commandAction (record : RecordState) (vault : VaultState) (command : RunCommand) :
    Except String (Action × Int) :=
  match command.body with
  | .step => do
      let frames ← datasetFrames record.datasetId
      match frames[record.state.cursor.toNat]? with
      | none => .error "REPLAY_COMPLETE"
      | some frame => return (.frame frame, 0)
  | .fund inward text => do
      let cash ← amountText text
      if inward then do
        ensure (cash ≤ vault.idle) "INSUFFICIENT_IDLE"
        let value ← equity record.state
        ensure (value + cash ≤ (balances vault).allowance) "ALLOWANCE_EXCEEDED"
        return (.fund inward text, -cash)
      else return (.fund inward text, cash)
  | .decision _ _ frameSeq targets => return (.decision command.id frameSeq targets, 0)
  | .stop => return (.stop, 0)
  | .pause => return (.pause, 0)
  | .resume => return (.resume, 0)

/-- `some`, which stops at the first that holds. -/
def someM {α : Type} (p : α → Except String Bool) : List α → Except String Bool
  | [] => .ok false
  | a :: rest => do
      let holds ← p a
      if holds then return true else someM p rest

def hadPositions (run : Run) : Except String Bool :=
  someM (fun e => do
    let quantity ← amount e.2.quantity
    return decide (0 < quantity)) run.positions

/-- The excess that goes to idle when the last position was sold. -/
def settlementExcess (record : RecordState) (vault : VaultState) (run : Run) :
    Except String (Option Int) := do
  let had ← hadPositions record.state
  if had then do
    let flat ← flatPositions run
    if flat then do
      let cash ← amount run.cash
      return some (zeroFeeFullSettlement.assess
        { cash, proceeds := 0, cost := 0, existingFeeLiability := 0,
          allowance := (balances vault).allowance }).2
    else return none
  else return none

/-- The record and the vault of a command that changes them, with what goes to idle. -/
def runCommand (env : Env) (db : Db) (owner id : String) (command : RunCommand) :
    Except String (Option (RecordState × VaultState × Int)) := do
  let record ← readRun db owner id
  validateDecision record id command
  let fingerprint := env.hash (env.commandJson command)
  match record.receipts.get? command.id with
  | some previous => do
      ensure (previous = fingerprint) "IDEMPOTENCY_CONFLICT"
      let _ ← view record
      return none
  | none => do
      ensure (isSafeInteger command.expectedRevision ∧ 0 ≤ command.expectedRevision ∧
        (command.expectedRevision = record.revision ∨
          (command.body = .stop ∧ command.expectedRevision < record.revision))) "REVISION_CONFLICT"
      if record.state.status = .stopped then do
        ensure (command.body = .stop) "INVALID_STATUS"
        let _ ← view record
        return none
      else do
        ensure (record.revision < 1000 ∨ command.body = .stop) "RUN_HISTORY_LIMIT"
        let vault ← localGet db record.vaultId owner
        let (action, idleDelta) ← commandAction record vault command
        let moved ← transition record.state action
        let excess ← settlementExcess record vault moved
        let state ← match excess with
          | none => .ok moved
          | some excess => releaseSettlementExcess moved excess
        return some ({ record with
          state, revision := record.revision + 1,
          receipts := record.receipts.set command.id fingerprint,
          settlementReleased := record.settlementReleased + excess.getD 0 }, vault,
          idleDelta + excess.getD 0)

def persist (record : RecordState) : Store Unit := do
  let db ← get
  set { db with runs := db.runs.set record.state.id record }

def command (env : Env) (owner id : String) (cmd : RunCommand) : Store Unit := do
  await (validRunId cmd.id)
  transaction do
    let db ← get
    match ← await (runCommand env db owner id cmd) with
    | none => pure ()
    | some (record, vault, idleDelta) => do
        checkpoint env record vault idleDelta
        persist record
        await (discard (view record))

/-! ## Calls -/

inductive StoreCall where
  | obtainTestPasses (owner strategy uuid : String) (locked : Bool)
  | vault (owner id : String) (call : DomainVault.Call)
  | create (owner : String) (input : CreateRun)
  | command (owner id : String) (command : RunCommand)

def perform (env : Env) : StoreCall → Store Unit
  | .obtainTestPasses owner strategy uuid locked => obtainTestPasses owner strategy uuid locked
  | .vault owner id call => vaultCommand env owner id call
  | .create owner input => create env owner input
  | .command owner id cmd => command env owner id cmd

/-- A call as a step of the database. -/
def step (env : Env) (call : StoreCall) (db : Db) : Except String Db :=
  match perform env call db with
  | .ok _ db' => .ok db'
  | .error e _ => .error e

end Automata
end AlphaForge
