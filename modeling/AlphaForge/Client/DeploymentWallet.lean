/-
The administrator's deployment session, `deployment-wallet.ts`.

One call at a time sends the next action of an approved plan from a wallet, and a
journal says for each index what is known of its transaction.  The journal is saved
before the wallet is asked and after every observation of the chain, and a page that
loads starts from what was saved last.

Whatever the two providers answer is read field by field, so an answer that is not
what it should be ends the call like one that is refused.  `undefined` is
`Json.unsupported`.  `sent` and `reads` stand beside the session: the transactions a
wallet was asked to send, and the answers about the chain since the running call began.
-/
import AlphaForge.Data.Json
import AlphaForge.Evm.Exec
import AlphaForge.Indexer.ChainStore
import AlphaForge.Machine.Async
import AlphaForge.Text.Hex

namespace AlphaForge
namespace DeploymentWallet

open Evm
open ChainStore (HexData check)

/-! ## The approved plan -/

structure Unsigned where
  target : Option Address
  data : HexData
  value : Nat
  deriving DecidableEq

/-- An action that has something to sign. -/
structure DeploymentAction where
  contractAddress : Address
  unsigned : Unsigned
  deriving DecidableEq

structure DeploymentBudget where
  maxGasPerTransaction : Nat
  maxFeePerGas : Nat
  maxPriorityFeePerGas : Nat
  maxTotalGasCost : Nat
  minimumRemainingEth : Nat
  maxHeadAgeSeconds : Int

/-- What a session reads of its payload. -/
structure Payload where
  sha256 : String
  approvedWallet : Address
  approvalExpiresAt : Int
  actions : List DeploymentAction
  budget : DeploymentBudget

/-! ## The journal -/

inductive DeploymentState where
  | intent
  | submitted
  | included
  | confirmed
  | unknown
  | reverted
  | reorged
  deriving DecidableEq

structure DeploymentEntry where
  index : Nat
  state : DeploymentState
  gasLimit : Nat
  maxFeePerGas : Nat
  maxPriorityFeePerGas : Nat
  transactionHash : Option Bytes32
  blockNumber : Option Nat
  blockHash : Option Bytes32
  gasUsed : Option Nat
  effectiveGasPrice : Option Nat
  deriving DecidableEq

structure DeploymentJournal where
  payloadSha256 : String
  entries : List DeploymentEntry
  deriving DecidableEq

def entryValid (c : Payload) (index : Nat) (entry : DeploymentEntry) : Prop :=
  entry.index = index ∧ entry.gasLimit ≠ 0 ∧ entry.gasLimit ≤ c.budget.maxGasPerTransaction ∧
    entry.maxFeePerGas ≠ 0 ∧ entry.maxFeePerGas ≤ c.budget.maxFeePerGas ∧
    entry.maxPriorityFeePerGas ≤ entry.maxFeePerGas ∧
    entry.maxPriorityFeePerGas ≤ c.budget.maxPriorityFeePerGas ∧
    (entry.state = .confirmed → entry.transactionHash.isSome = true)

instance (c : Payload) (index : Nat) (entry : DeploymentEntry) :
    Decidable (entryValid c index entry) := by
  unfold entryValid; infer_instance

/-- `#validateJournal`. -/
def journalValid (c : Payload) (journal : DeploymentJournal) : Prop :=
  journal.payloadSha256 = c.sha256 ∧ journal.entries.length ≤ 41 ∧
    ∀ e ∈ journal.entries.zipIdx, entryValid c e.2 e.1

instance (c : Payload) (journal : DeploymentJournal) : Decidable (journalValid c journal) := by
  unfold journalValid; infer_instance

/-- The first entry that is not confirmed. -/
def nextIndex (journal : DeploymentJournal) : Nat :=
  journal.entries.findIdx fun entry => entry.state ≠ .confirmed

/-! ## Requests -/

structure TransactionRequest where
  sender : Address
  target : Option Address
  data : HexData
  value : Nat
  chainId : Nat
  nonce : Nat
  gas : Nat
  maxFeePerGas : Nat
  maxPriorityFeePerGas : Nat
  deriving DecidableEq

inductive BlockTag where
  | latest
  | pending
  | number (n : Nat)
  deriving DecidableEq

inductive Method where
  | chainId
  | accounts
  | requestAccounts
  | switchEthereumChain
  | addEthereumChain
  | getTransactionByHash (txHash : Bytes32)
  | getTransactionReceipt (txHash : Bytes32)
  | getBlockByNumber (tag : BlockTag)
  | getTransactionCount (tag : BlockTag)
  | getBalance (tag : BlockTag)
  | getCode (address : Address) (tag : BlockTag)
  | gasPrice
  | estimateGas (transaction : TransactionRequest)
  | executionLimit (tag : BlockTag)
  | sendTransaction (transaction : TransactionRequest)
  deriving DecidableEq

/-- A request of the chain reader or of the wallet, the clock, the storage, or the
signal that stops a sequence. -/
inductive Request where
  | read (method : Method)
  | wallet (method : Method)
  | now
  | save
  | aborted

/-- A refusal may have a code. -/
@[reducible] def Answer : Request → Type
  | .read _ => Except (Option Int) Json
  | .wallet _ => Except (Option Int) Json
  | .now => Int
  | .save => Bool
  | .aborted => Bool

/-- A transaction that a wallet was asked for, with what had been saved and read then. -/
structure Sent where
  transaction : TransactionRequest
  saved : Option DeploymentJournal
  reads : List (Method × Json)

structure Page where
  /-- There is a session. -/
  constructed : Bool
  journal : DeploymentJournal
  /-- The call that is running. -/
  busy : Option Nat
  storageFailed : Bool
  lastObservedHash : Option Bytes32
  lastBalance : Option Nat
  saved : Option DeploymentJournal
  sent : List Sent
  reads : List (Method × Json)

abbrev Session (α : Type) : Type := Async Page Request Answer String α

/-! ## Values of answers -/

def object : Json → Except String (List (String × Json))
  | .object fields => .ok fields
  | _ => .error "INVALID_DEPLOYMENT_DATA"

def field (fields : List (String × Json)) (key : String) : Json :=
  (OrderedMap.get? key fields).getD .unsupported

/-- What is wrong with a quantity. -/
def kind : Json → String
  | .unsupported => "missing"
  | .null => "null"
  | .string _ => "noncanonical"
  | _ => "non-string"

def quantity (value : Json) (field : String) : Except String Nat :=
  let read := match value with
    | .string s => Text.ofQuantity s
    | _ => none
  match read with
  | some n => .ok n
  | none => .error ("INVALID_WALLET_RPC_RESPONSE: " ++ field ++ " (" ++ kind value ++ ")")

def address (value : Json) : Except String Address :=
  let read := match value with
    | .string s => Text.ofHexText 40 s
    | _ => none
  match read with
  | some (n + 1) => .ok (BitVec.ofNat 160 (n + 1))
  | _ => .error "INVALID_DEPLOYMENT_ADDRESS"

def hash (value : Json) : Except String Bytes32 :=
  let read := match value with
    | .string s => Text.ofHexText 64 s
    | _ => none
  match read with
  | some n => .ok (BitVec.ofNat 256 n)
  | none => .error "INVALID_TRANSACTION_HASH"

def bytes (value : Json) (limit : Nat) : Except String HexData := do
  let read := match value with
    | .string s => Text.ofHexBytes s
    | _ => none
  match read with
  | none => .error "INVALID_DEPLOYMENT_CALLDATA"
  | some data => do
      check (data.length ≤ limit) "INVALID_DEPLOYMENT_CALLDATA"
      return data

/-- `!value`. -/
def falsy : Json → Bool
  | .null => true
  | .bool b => !b
  | .number n => n = 0
  | .string s => s = ""
  | .unsupported => true
  | _ => false

/-- Of a contract creation the answer has `null`, of a call the address. -/
def targetMatches (target : Option Address) (value : Json) : Except String Bool :=
  match target with
  | none => .ok (value = .null)
  | some expected => do return decide ((← address value) = expected)

end DeploymentWallet
end AlphaForge
