/-
The executor's order journal, `order-journal.ts`.

An order is prepared, gets a nonce, is signed, is claimed for one broadcast, and
then takes outcomes from the reconciler.  A row is what the database holds, with
the value of a JSON text in place of the text; `intentText` and `outcomeText` are
the texts where their lengths and digests matter.  Parsing a transaction, checksums
of addresses and digests come from a library.
-/
import AlphaForge.Data.Canonical
import AlphaForge.Data.OrderedMap
import AlphaForge.Evm.Exec
import AlphaForge.Text.Digits

namespace AlphaForge
namespace OrderJournal

open Evm

inductive Purpose where
  | execute
  | riskCheck
  | feedUpdate
  deriving DecidableEq

def Purpose.text : Purpose → String
  | .execute => "EXECUTE"
  | .riskCheck => "RISK_CHECK"
  | .feedUpdate => "FEED_UPDATE"

structure OrderIntent where
  purpose : Option Purpose
  feed : Option String
  id : String
  chainId : Int
  owner : String
  executor : String
  vault : String
  manifestDigest : String
  sourceDigest : String
  grantVersion : String
  stateVersion : String
  snapshotHash : String
  calldata : String
  createdAt : Int
  deriving DecidableEq

inductive OrderState where
  | prepared
  | reserved
  | signed
  | broadcastUncertain
  | reconciled
  | reverted
  | reorged
  | cancelled
  deriving DecidableEq

/-- The states that the reconciler gives. -/
inductive Conclusion where
  | reconciled
  | reverted
  | reorged
  deriving DecidableEq

def Conclusion.state : Conclusion → OrderState
  | .reconciled => .reconciled
  | .reverted => .reverted
  | .reorged => .reorged

def Conclusion.text : Conclusion → String
  | .reconciled => "RECONCILED"
  | .reverted => "REVERTED"
  | .reorged => "REORGED"

/-- A transaction as the library reads it from its envelope. -/
structure ParsedTransaction where
  type : Option Nat
  isSigned : Bool
  chainId : Nat
  sender : Option String
  recipient : Option String
  value : Nat
  nonce : Nat
  data : String
  hash : Option String
  gasLimit : Nat
  maxFeePerGas : Option Nat
  maxPriorityFeePerGas : Option Nat
  deriving DecidableEq

/-- `checksum` is the spelling of an address that `getAddress` returns. -/
structure Ethers where
  checksum : String → String
  transactionFrom : String → Option ParsedTransaction
  keccak256 : String → String
  keccak256Utf8 : String → String

/-! ## Texts -/

def isHexAny (d : Char) : Bool :=
  ('0' ≤ d && d ≤ '9') || ('a' ≤ d && d ≤ 'f') || ('A' ≤ d && d ≤ 'F')

/-- `0x` and so many digits. -/
def isHexData (least most : Nat) (v : String) : Bool :=
  match v.toList with
  | '0' :: 'x' :: ds => least ≤ ds.length && ds.length ≤ most && ds.all isHexAny
  | _ => false

/-- `/^0x0+$/`. -/
def isZeroData (v : String) : Bool :=
  match v.toList with
  | '0' :: 'x' :: ds => !ds.isEmpty && ds.all (· = '0')
  | _ => false

/-- `toLowerCase` of such a text. -/
def lower (v : String) : String := String.ofList (v.toList.map Char.toLower)

def digest (v : String) : Bool := isHexData 64 64 v && !isZeroData v

def integer (v : String) : Bool := Text.isDecimal 77 v && Text.ofDecimal v < 2 ^ 256

/-- `/^0x(?:[0-9a-fA-F]{2}){least,most}$/`. -/
def isBytes (least most : Nat) (v : String) : Bool :=
  isHexData (2 * least) (2 * most) v && v.length % 2 = 0

def isLetterOrDigit (d : Char) : Bool :=
  ('a' ≤ d && d ≤ 'z') || ('A' ≤ d && d ≤ 'Z') || ('0' ≤ d && d ≤ '9')

/-- `/^[a-zA-Z0-9][a-zA-Z0-9._-]{0,95}$/`. -/
def isOrderId (v : String) : Bool :=
  match v.toList with
  | [] => false
  | d :: ds =>
      isLetterOrDigit d && ds.length ≤ 95 &&
        ds.all fun d => isLetterOrDigit d || ['.', '_', '-'].contains d

/-- The length of a string in code units. -/
def units (ds : List Char) : Nat := (ds.map fun d => if d.toNat < 0x10000 then 1 else 2).sum

def objectText (fields : List (String × List Char)) : List Char :=
  '{' :: (Json.commas (fields.map Json.field) ++ ['}'])

def optionalField {α : Type} (key : String) (text : α → List Char) : Option α → List (String × List Char)
  | none => []
  | some a => [(key, text a)]

/-- `JSON.stringify` of an intent that was validated. -/
def intentText (intent : OrderIntent) : List Char :=
  objectText (optionalField "purpose" (fun p => Json.literal p.text) intent.purpose ++
    optionalField "feed" Json.literal intent.feed ++
    [("id", Json.literal intent.id), ("chainId", (toString intent.chainId).toList),
      ("owner", Json.literal intent.owner), ("executor", Json.literal intent.executor),
      ("vault", Json.literal intent.vault), ("manifestDigest", Json.literal intent.manifestDigest),
      ("sourceDigest", Json.literal intent.sourceDigest),
      ("grantVersion", Json.literal intent.grantVersion),
      ("stateVersion", Json.literal intent.stateVersion),
      ("snapshotHash", Json.literal intent.snapshotHash),
      ("calldata", Json.literal intent.calldata),
      ("createdAt", (toString intent.createdAt).toList)])

structure Outcome where
  id : String
  state : Conclusion
  evidence : String
  deriving DecidableEq

/-- `JSON.stringify({ id, state, evidence })`. -/
def outcomeText (outcome : Outcome) : List Char :=
  objectText [("id", Json.literal outcome.id), ("state", Json.literal outcome.state.text),
    ("evidence", Json.literal outcome.evidence)]

/-! ## Intents -/

section Journal

variable (ethers : Ethers)

/-- `getAddress` refuses letters of both cases unless they are the checksum. -/
def walletAddress (value : String) : Except String String := do
  ensure (isHexData 40 40 value = true ∧ isZeroData value = false) "AUTH_ADDRESS"
  ensure (value.toList.all (fun d => !('A' ≤ d && d ≤ 'F')) = true ∨
      value.toList.all (fun d => !('a' ≤ d && d ≤ 'f')) = true ∨ ethers.checksum value = value)
    "AUTH_ADDRESS"
  return lower value

def validate (input : OrderIntent) : Except String OrderIntent :=
  Except.mapError (fun _ => "ORDER_INPUT") do
    ensure (input.feed ≠ some "" ∧ (input.purpose = some .feedUpdate ↔ input.feed ≠ none) ∧
        input.chainId = 46630 ∧ isOrderId input.id = true ∧ digest input.manifestDigest = true ∧
        digest input.sourceDigest = true ∧ digest input.snapshotHash = true ∧
        integer input.grantVersion = true ∧ integer input.stateVersion = true ∧
        isBytes 4 4096 input.calldata = true ∧ 0 ≤ input.createdAt ∧
        input.createdAt ≤ Json.maxSafeInteger) ""
    let owner ← walletAddress ethers input.owner
    let executor ← walletAddress ethers input.executor
    let vault ← walletAddress ethers input.vault
    ensure (owner ≠ executor ∧ vault ≠ executor ∧ vault ≠ owner) ""
    let feed ← input.feed.mapM (walletAddress ethers)
    return { input with
      feed, owner, executor, vault
      manifestDigest := lower input.manifestDigest, sourceDigest := lower input.sourceDigest
      snapshotHash := lower input.snapshotHash, calldata := lower input.calldata }

/-- The transaction is the one of the order: signed by the executor for the chain, the
target, the reserved nonce and the calldata. -/
def SignedFor (raw : String) (intent : OrderIntent) (nonce : Option String) (tx : ParsedTransaction) :
    Prop :=
  tx.isSigned = true ∧ tx.chainId = 46630 ∧ tx.sender.map lower = some intent.executor ∧
    tx.recipient.map lower = some (intent.feed.getD intent.vault) ∧ tx.value = 0 ∧
    some (toString tx.nonce) = nonce ∧ lower tx.data = intent.calldata ∧
    tx.hash = some (ethers.keccak256 raw)

instance (raw : String) (intent : OrderIntent) (nonce : Option String) (tx : ParsedTransaction) :
    Decidable (SignedFor ethers raw intent nonce tx) := by
  unfold SignedFor
  infer_instance

def signedHash (raw : String) (intent : OrderIntent) (nonce : Option String) : Except String String :=
  match if isBytes 1 16384 raw then ethers.transactionFrom raw else none with
  | none => .error "ORDER_SIGNED_TRANSACTION"
  | some tx => do
      ensure (SignedFor ethers raw intent nonce tx) "ORDER_SIGNED_TRANSACTION"
      return ethers.keccak256 raw

/-! ## The database -/

structure OrderRow where
  executor : String
  intent : OrderIntent
  state : OrderState
  nonce : Option String
  rawTransaction : Option String
  transactionHash : Option String
  evidence : Option String
  deriving DecidableEq

structure OutcomeRow where
  id : String
  payload : Outcome
  sha256 : String
  deriving DecidableEq

structure Journal where
  configurationHash : String
  orders : OrderedMap String OrderRow
  outcomes : List OutcomeRow
  deriving DecidableEq

/-- A row with the intent that it gives. -/
def get (j : Journal) (id : String) : Except String (Option OrderRow) :=
  match j.orders.get? id with
  | none => .ok none
  | some row => do
      let intent ← validate ethers row.intent
      return some { row with intent }

/-- The row of an order that has to be there, in one of the states. -/
def getIn (j : Journal) (id : String) (states : List OrderState) : Except String OrderRow := do
  match ← get ethers j id with
  | none => .error "ORDER_TRANSITION"
  | some order =>
      ensure (order.state ∈ states) "ORDER_TRANSITION"
      return order

def update (j : Journal) (id : String) (f : OrderRow → OrderRow) : Journal :=
  match j.orders.get? id with
  | none => j
  | some row => { j with orders := j.orders.set id (f row) }

/-- The insertion that `prepare` commits. -/
def insertOrder (j : Journal) (intent : OrderIntent) : Except String Journal :=
  match j.orders.get? intent.id with
  | some existing => do
      ensure (existing.intent = intent) "ORDER_ID_CONFLICT"
      return j
  | none =>
      return { j with orders := j.orders.set intent.id {
        executor := intent.executor, intent, state := .prepared, nonce := none
        rawTransaction := none, transactionHash := none, evidence := none } }

def prepare (j : Journal) (input : OrderIntent) : Except String (Journal × Option OrderRow) := do
  let intent ← validate ethers input
  let next ← insertOrder j intent
  return (next, ← get ethers next intent.id)

/-- The states in which an order keeps its executor from reserving another nonce. -/
def blocking : List OrderState := [.reserved, .signed, .broadcastUncertain, .reorged]

def isBlocked (j : Journal) (executor : String) : Bool :=
  j.orders.any fun e => e.2.executor = executor && blocking.contains e.2.state

def blocked (j : Journal) (executor : String) : Except String Bool := do
  return isBlocked j (← walletAddress ethers executor)

def reserve (j : Journal) (id nonce : String) : Except String Journal := do
  ensure (integer nonce = true ∧ Text.ofDecimal nonce ≤ 2147483647) "ORDER_INPUT"
  let order ← getIn ethers j id [.prepared]
  ensure (j.orders.any (fun e => e.2.executor = order.intent.executor && e.2.nonce = some nonce) = false)
    "ORDER_NONCE_CONFLICT"
  let isBlocked ← blocked ethers j order.intent.executor
  ensure (isBlocked = false) "ORDER_EXECUTOR_BLOCKED"
  return update j id fun row => { row with nonce := some nonce, state := .reserved }

def signed (j : Journal) (id raw : String) : Except String (Journal × String) := do
  let order ← getIn ethers j id [.reserved]
  let hash ← signedHash ethers raw order.intent order.nonce
  return (update j id fun row =>
    { row with rawTransaction := some raw, transactionHash := some hash, state := .signed }, hash)

def claimBroadcast (j : Journal) (id : String) : Except String (Journal × String) :=
  match (j.orders.get? id).filter (fun row => row.state = .signed) with
  | none => .error "ORDER_TRANSITION"
  | some row =>
      match row.rawTransaction with
      | none => .error "ORDER_TRANSITION"
      | some raw => do
          match ← get ethers j id with
          | none => .error "ORDER_SIGNED_TRANSACTION"
          | some order =>
              let hash ← signedHash ethers raw order.intent order.nonce
              ensure (some hash = row.transactionHash) "ORDER_SIGNED_TRANSACTION"
              return (update j id fun row => { row with state := .broadcastUncertain }, raw)

/-- The states of an order that was handed to the transport. -/
def afterBroadcast : List OrderState := [.broadcastUncertain, .reconciled, .reverted, .reorged]

def recordOutcome (j : Journal) (id : String) (state : Conclusion) (evidence : String) :
    Except String Journal := do
  ensure (evidence ≠ "" ∧ units evidence.toList ≤ 32768) "ORDER_INPUT"
  let order ← getIn ethers j id afterBroadcast
  let payload : Outcome := { id, state, evidence }
  let recorded : Journal :=
    if order.state ≠ state.state ∨ order.evidence ≠ some evidence then
      { j with outcomes := j.outcomes ++ [{
          id, payload, sha256 := ethers.keccak256Utf8 (String.ofList (outcomeText payload)) }] }
    else j
  return update recorded id fun row => { row with state := state.state, evidence := some evidence }

def cancel (j : Journal) (id : String) : Except String Journal := do
  let _ ← getIn ethers j id [.prepared]
  return update j id fun row => { row with state := .cancelled }

/-! ## Opening -/

/-- What a row of each state holds. -/
def verifyRow (id : String) (row : OrderRow) : Except String Unit :=
  Except.mapError (fun _ => "ORDER_ROW_INTEGRITY") do
    ensure (units (intentText row.intent) ≤ 32768) ""
    let intent ← validate ethers row.intent
    ensure (id = intent.id ∧ row.executor = intent.executor) ""
    if row.state = .prepared ∨ row.state = .cancelled then
      ensure (row.nonce = none ∧ row.rawTransaction = none ∧ row.transactionHash = none ∧
        row.evidence = none) ""
    else
      match row.nonce with
      | none => .error ""
      | some nonce =>
          ensure (integer nonce = true ∧ Text.ofDecimal nonce ≤ 2147483647) ""
          if row.state = .reserved then
            ensure (row.rawTransaction = none ∧ row.transactionHash = none ∧ row.evidence = none) ""
          else
            match row.rawTransaction with
            | none => .error ""
            | some raw =>
                let hash ← signedHash ethers raw intent (some nonce)
                ensure (some hash = row.transactionHash) ""
                if row.state = .signed ∨ row.state = .broadcastUncertain then
                  ensure (row.evidence = none) ""
                else
                  match row.evidence with
                  | none => .error ""
                  | some evidence => ensure (evidence ≠ "" ∧ units evidence.toList ≤ 32768) ""

def verifyRows (j : Journal) : Except String Unit := do
  j.orders.forM fun e => verifyRow ethers e.1 e.2
  ensure (j.orders.length ≤ 1000000) "ORDER_ROW_INTEGRITY"

def verifyOutcome (j : Journal) (latest : OrderedMap String (Conclusion × String)) (row : OutcomeRow) :
    Except String (OrderedMap String (Conclusion × String)) := do
  let payload := row.payload
  ensure (units (outcomeText payload) ≤ 65536 ∧
    row.sha256 = ethers.keccak256Utf8 (String.ofList (outcomeText payload))) "ORDER_OUTCOME_INTEGRITY"
  ensure (payload.id = row.id ∧ payload.evidence ≠ "" ∧ units payload.evidence.toList ≤ 32768)
    "ORDER_OUTCOME_INTEGRITY"
  let order ← get ethers j payload.id
  ensure (order ≠ none) "ORDER_OUTCOME_INTEGRITY"
  return latest.set payload.id (payload.state, payload.evidence)

def verifyOutcomes (j : Journal) : Except String Unit := do
  let latest ← j.outcomes.foldlM (verifyOutcome ethers j) []
  ensure (j.outcomes.length ≤ 1000000) "ORDER_OUTCOME_INTEGRITY"
  latest.forM fun e => do
    let order ← get ethers j e.1
    ensure (order.map (fun o => (o.state, o.evidence)) = some (e.2.1.state, some e.2.2))
      "ORDER_OUTCOME_INTEGRITY"
  j.orders.forM fun e =>
    ensure (e.2.state ∈ [.reconciled, .reverted, .reorged] → (latest.get? e.1).isSome = true)
      "ORDER_OUTCOME_INTEGRITY"

/-- The constructor on a new file. -/
def create (configurationHash : String) : Except String Journal := do
  ensure (digest configurationHash = true) "ORDER_DATABASE_IDENTITY"
  return ⟨lower configurationHash, [], []⟩

/-- The constructor on a file that a journal wrote. -/
def reopen (j : Journal) (configurationHash : String) : Except String Unit := do
  ensure (digest configurationHash = true) "ORDER_DATABASE_IDENTITY"
  ensure (j.configurationHash = lower configurationHash) "ORDER_DATABASE_IDENTITY"
  verifyRows ethers j
  verifyOutcomes ethers j

/-! ## Calls -/

inductive Call where
  | prepare (input : OrderIntent)
  | reserve (id nonce : String)
  | signed (id raw : String)
  | claimBroadcast (id : String)
  | recordOutcome (id : String) (state : Conclusion) (evidence : String)
  | cancel (id : String)
  deriving DecidableEq

def call (c : Call) (j : Journal) : Except String Journal :=
  match c with
  | .prepare input => Prod.fst <$> prepare ethers j input
  | .reserve id nonce => reserve ethers j id nonce
  | .signed id raw => Prod.fst <$> signed ethers j id raw
  | .claimBroadcast id => Prod.fst <$> claimBroadcast ethers j id
  | .recordOutcome id state evidence => recordOutcome ethers j id state evidence
  | .cancel id => cancel ethers j id

end Journal

end OrderJournal
end AlphaForge
