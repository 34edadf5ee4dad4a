/-
The calls of a deployment session, `deployment-wallet.ts`.

Each is a program that waits for the chain reader and the wallet.  Only one of
`reconcile`, `sendNext` and `recover` runs at a time; `connect` may run beside them.
-/
import AlphaForge.Client.DeploymentWallet

namespace AlphaForge
namespace DeploymentWallet

open Evm
open ChainStore (HexData check)

def ensure_ (p : Prop) [Decidable p] (error : String) : Session Unit :=
  Async.ofExcept (check p error)

/-- An answer about the chain, which is kept. -/
def read (method : Method) : Session Json := do
  match ← Async.request (ρ := Request) (.read method) with
  | .error _ => Async.throw "READ_RPC_REJECTED"
  | .ok json => do
      Async.modify fun p => { p with reads := p.reads ++ [(method, json)] }
      return json

def wallet (method : Method) : Session Json := do
  match ← Async.request (ρ := Request) (.wallet method) with
  | .error _ => Async.throw "WALLET_REJECTED"
  | .ok json => return json

def readQuantity (method : Method) (field : String) : Session Nat := do
  Async.ofExcept (quantity (← read method) field)

def walletQuantity (method : Method) (field : String) : Session Nat := do
  Async.ofExcept (quantity (← wallet method) field)

/-- The entries of an answer that has to be an object. -/
def readObject (method : Method) : Session (List (String × Json)) := do
  Async.ofExcept (object (← read method))

def throwIfAborted : Session Unit := do
  let aborted ← Async.input (ρ := Request) .aborted
  ensure_ (aborted = false) "ABORTED"

section Calls

variable (c : Payload)

def persist (journal : DeploymentJournal) : Session Unit := do
  ensure_ (journalValid c journal) "DEPLOYMENT_JOURNAL_MISMATCH"
  let stored ← Async.input (ρ := Request) .save
  if stored = true then Async.modify fun p => { p with saved := some journal, journal }
  else do
    Async.modify fun p => { p with storageFailed := true }
    Async.throw "DEPLOYMENT_RECOVERY_STORAGE_FAILED"

def adminAccount : Json → Except String Address
  | .array (first :: _) => address first
  | _ => .error "DEPLOYMENT_WRONG_WALLET"

def identity : Session Unit := do
  let readChain ← readQuantity .chainId "eth_chainId.result"
  ensure_ (readChain = 46630) "DEPLOYMENT_READ_RPC_WRONG_NETWORK"
  let before ← walletQuantity .chainId "eth_chainId.result"
  ensure_ (before = 46630) "DEPLOYMENT_WRONG_NETWORK"
  let accounts ← wallet .accounts
  let account ← Async.ofExcept (adminAccount accounts)
  ensure_ (account = c.approvedWallet) "DEPLOYMENT_WRONG_WALLET"
  let after ← walletQuantity .chainId "eth_chainId.result"
  ensure_ (after = 46630) "DEPLOYMENT_WRONG_NETWORK"

def walletNonceGuard (index : Nat) : Session Unit := do
  let latest ← walletQuantity (.getTransactionCount .latest) "eth_getTransactionCount.result"
  let pending ← walletQuantity (.getTransactionCount .pending) "eth_getTransactionCount.result"
  ensure_ (latest = index ∧ pending = latest) "DEPLOYMENT_NONCE_COMPETITION"

/-- The wallet does not know the chain. -/
def unknownChain : Int := 4902

def switchNetwork : Session (Except (Option Int) Json) :=
  Async.request (ρ := Request) (.wallet .switchEthereumChain)

def connect : Session Unit := do
  let _ ← wallet .requestAccounts
  let chain ← walletQuantity .chainId "eth_chainId.result"
  if chain ≠ 46630 then do
    match ← switchNetwork with
    | .ok _ => identity c
    | .error code => do
        ensure_ (code = some unknownChain) "WALLET_REJECTED"
        let _ ← wallet .addEthereumChain
        let _ ← wallet .switchEthereumChain
        identity c
  else identity c

def action (index : Nat) : Except String DeploymentAction :=
  match c.actions[index]? with
  | some action => .ok action
  | none => .error "TypeError"

/-- What the wallet is asked to sign for an action. -/
def transactionOf (index : Nat) (entry : DeploymentEntry) (action : DeploymentAction) :
    TransactionRequest where
  sender := c.approvedWallet
  target := action.unsigned.target
  data := action.unsigned.data
  value := action.unsigned.value
  chainId := 46630
  nonce := index
  gas := entry.gasLimit
  maxFeePerGas := entry.maxFeePerGas
  maxPriorityFeePerGas := entry.maxPriorityFeePerGas

def transaction (index : Nat) (entry : DeploymentEntry) : Except String TransactionRequest := do
  return transactionOf c index entry (← action c index)

def now : Session Int := Async.input (ρ := Request) .now

/-- The number of the latest block, its time and its base fee. -/
def head : Session (List (String × Json)) := do
  let block ← readObject (.getBlockByNumber .latest)
  let time ← now
  let timestamp ← Async.ofExcept (quantity (field block "timestamp") "eth_getBlockByNumber.timestamp")
  ensure_ (0 ≤ time - timestamp ∧ time - timestamp ≤ c.budget.maxHeadAgeSeconds)
    "DEPLOYMENT_STALE_HEAD"
  let _ ← Async.ofExcept (hash (field block "hash"))
  let _ ← Async.ofExcept (quantity (field block "number") "eth_getBlockByNumber.number")
  let _ ← Async.ofExcept (quantity (field block "gasLimit") "eth_getBlockByNumber.gasLimit")
  return block

def headNumber (block : List (String × Json)) : Except String Nat :=
  quantity (field block "number") "eth_getBlockByNumber.number"

def headHash (block : List (String × Json)) : Except String Bytes32 := hash (field block "hash")

def freshHead (block : List (String × Json)) : Session Unit := do
  let time ← now
  let timestamp ← Async.ofExcept (quantity (field block "timestamp") "eth_getBlockByNumber.timestamp")
  ensure_ (time - timestamp ≤ c.budget.maxHeadAgeSeconds) "DEPLOYMENT_STALE_HEAD"

/-- The third of the three words that the chain answers. -/
def executionLimitWord (encoded : Json) : Except String Nat :=
  let read := match encoded with
    | .string s => Text.ofHexText 192 s
    | _ => none
  match read with
  | some n => .ok (n % 2 ^ 256)
  | none => .error "DEPLOYMENT_EXECUTION_LIMIT_UNAVAILABLE"

def executionLimit (tag : BlockTag) : Session Nat := do
  let limit ← Async.ofExcept (executionLimitWord (← read (.executionLimit tag)))
  ensure_ (limit ≠ 0 ∧ limit ≤ 32000000) "DEPLOYMENT_EXECUTION_LIMIT_UNAVAILABLE"
  return limit

/-! ## Observing -/

/-- The transaction is the one the action of this entry asks for. -/
def matchesTransaction (value : Json) (index : Nat) (entry : DeploymentEntry)
    (transactionHash : Bytes32) : Except String (List (String × Json)) := do
  let transaction ← object value
  let action ← action c index
  let unsigned := action.unsigned
  let quantityOf (key : String) := quantity (field transaction key) ("eth_getTransactionByHash." ++ key)
  let found ← hash (field transaction "hash")
  check (found = transactionHash) "DEPLOYMENT_TRANSACTION_MISMATCH"
  let sender ← address (field transaction "from")
  check (sender = c.approvedWallet) "DEPLOYMENT_TRANSACTION_MISMATCH"
  let target ← targetMatches unsigned.target (field transaction "to")
  check (target = true) "DEPLOYMENT_TRANSACTION_MISMATCH"
  let chain ← quantityOf "chainId"
  check (chain = 46630) "DEPLOYMENT_TRANSACTION_MISMATCH"
  let nonce ← quantityOf "nonce"
  check (nonce = index) "DEPLOYMENT_TRANSACTION_MISMATCH"
  let input ← bytes (field transaction "input") 65536
  check (input = unsigned.data) "DEPLOYMENT_TRANSACTION_MISMATCH"
  let value ← quantityOf "value"
  check (value = unsigned.value) "DEPLOYMENT_TRANSACTION_MISMATCH"
  let type ← quantityOf "type"
  check (type = 2) "DEPLOYMENT_TRANSACTION_MISMATCH"
  let gas ← quantityOf "gas"
  check (gas = entry.gasLimit) "DEPLOYMENT_TRANSACTION_MISMATCH"
  let maxFeePerGas ← quantityOf "maxFeePerGas"
  check (maxFeePerGas = entry.maxFeePerGas) "DEPLOYMENT_TRANSACTION_MISMATCH"
  let maxPriorityFeePerGas ← quantityOf "maxPriorityFeePerGas"
  check (maxPriorityFeePerGas = entry.maxPriorityFeePerGas) "DEPLOYMENT_TRANSACTION_MISMATCH"
  let accessList := field transaction "accessList"
  check (accessList = .unsupported ∨ accessList = .array []) "DEPLOYMENT_TRANSACTION_MISMATCH"
  return transaction

/-- Neither a block number nor a block hash yet. -/
def isPending (transaction : List (String × Json)) : Bool :=
  field transaction "blockNumber" = .null ∧ field transaction "blockHash" = .null

/-- The receipt is of this transaction, in the block that the transaction names. -/
def checkReceipt (action : DeploymentAction) (transactionHash : Bytes32)
    (transaction receipt : List (String × Json)) (blockNumber : Nat) (blockHash : Bytes32) :
    Except String Unit := do
  let found ← hash (field receipt "transactionHash")
  check (found = transactionHash) "DEPLOYMENT_RECEIPT_MISMATCH"
  let sender ← address (field receipt "from")
  check (sender = c.approvedWallet) "DEPLOYMENT_RECEIPT_MISMATCH"
  let target ← targetMatches action.unsigned.target (field receipt "to")
  check (target = true) "DEPLOYMENT_RECEIPT_MISMATCH"
  if isPending transaction = true then .ok ()
  else do
    let block ← hash (field transaction "blockHash")
    check (block = blockHash) "DEPLOYMENT_RECEIPT_MISMATCH"
    let number ← quantity (field transaction "blockNumber") "eth_getTransactionByHash.blockNumber"
    check (number = blockNumber) "DEPLOYMENT_RECEIPT_MISMATCH"

/-- Whether the block of that number has this hash. -/
def canonical (blockNumber : Nat) (blockHash : Bytes32) : Session Bool := do
  let block ← readObject (.getBlockByNumber (.number blockNumber))
  let number ← Async.ofExcept (headNumber block)
  ensure_ (number = blockNumber) "DEPLOYMENT_RECEIPT_MISMATCH"
  let found ← Async.ofExcept (headHash block)
  return decide (found = blockHash)

/-- A created contract is where the plan says, a call creates none. -/
def createdMatches (action : DeploymentAction) (value : Json) : Except String Bool :=
  match action.unsigned.target with
  | none => do return decide ((← address value) = action.contractAddress)
  | some _ => .ok (value = .null)

/-- What a receipt says once it is known to be of the transaction. -/
inductive Outcome where
  | reverted
  | succeeded (gasUsed effectiveGasPrice : Nat)

def outcome (action : DeploymentAction) (entry : DeploymentEntry)
    (receipt : List (String × Json)) : Except String Outcome := do
  let status ← quantity (field receipt "status") "eth_getTransactionReceipt.status"
  if status = 0 then return .reverted
  else do
    check (status = 1) "DEPLOYMENT_RECEIPT_MISMATCH"
    let created ← createdMatches action (field receipt "contractAddress")
    check (created = true) "DEPLOYMENT_RECEIPT_MISMATCH"
    let gasUsed ← quantity (field receipt "gasUsed") "eth_getTransactionReceipt.gasUsed"
    let effectiveGasPrice ← quantity (field receipt "effectiveGasPrice")
      "eth_getTransactionReceipt.effectiveGasPrice"
    check (gasUsed ≤ entry.gasLimit ∧ effectiveGasPrice ≤ entry.maxFeePerGas)
      "DEPLOYMENT_RECEIPT_BUDGET_MISMATCH"
    return .succeeded gasUsed effectiveGasPrice

/-- With a receipt that says the transaction succeeded, in a block that was canonical. -/
def settle (entry : DeploymentEntry) (blockNumber : Nat) (blockHash : Bytes32)
    (gasUsed effectiveGasPrice : Nat) : Session DeploymentEntry := do
  let latest ← head c
  let again ← canonical blockNumber blockHash
  if again = false then return { entry with state := .reorged }
  else do
    let number ← Async.ofExcept (headNumber latest)
    return { entry with
      state := if blockNumber + 2 ≤ number then .confirmed else .included
      blockNumber := some blockNumber
      blockHash := some blockHash
      gasUsed := some gasUsed
      effectiveGasPrice := some effectiveGasPrice }

/-- With a receipt. -/
def observeReceipt (entry : DeploymentEntry) (transactionHash : Bytes32)
    (transaction : List (String × Json)) (receiptValue : Json) : Session DeploymentEntry := do
  let receipt ← Async.ofExcept (object receiptValue)
  let action ← Async.ofExcept (action c entry.index)
  let blockNumber ← Async.ofExcept
    (quantity (field receipt "blockNumber") "eth_getTransactionReceipt.blockNumber")
  let blockHash ← Async.ofExcept (hash (field receipt "blockHash"))
  Async.ofExcept (checkReceipt c action transactionHash transaction receipt blockNumber blockHash)
  let first ← canonical blockNumber blockHash
  if first = false then return { entry with state := .reorged }
  else do
    match ← Async.ofExcept (outcome action entry receipt) with
    | .reverted => return { entry with state := .reverted }
    | .succeeded gasUsed effectiveGasPrice =>
        if isPending transaction = true then return { entry with state := .submitted }
        else settle c entry blockNumber blockHash gasUsed effectiveGasPrice

def observe (entry : DeploymentEntry) : Session DeploymentEntry :=
  match entry.transactionHash with
  | none => return { entry with state := .unknown }
  | some transactionHash => do
      let transaction ← read (.getTransactionByHash transactionHash)
      let receiptValue ← read (.getTransactionReceipt transactionHash)
      if falsy transaction = true then return { entry with state := .unknown }
      else do
        let tx ← Async.ofExcept (matchesTransaction c transaction entry.index entry transactionHash)
        if falsy receiptValue = true then
          return { entry with state := if isPending tx = true then .submitted else .unknown }
        else observeReceipt c entry transactionHash tx receiptValue

/-- Behind the first entry that is not confirmed nothing is known. -/
def observeEntries : List DeploymentEntry → Session (List DeploymentEntry)
  | [] => return []
  | entry :: later => do
      let observed ← observe c entry
      if observed.state ≠ .confirmed then
        return observed :: later.map fun e => { e with state := .unknown }
      else do
        let rest ← observeEntries later
        return observed :: rest

def costOf (entry : DeploymentEntry) : Except String Nat :=
  match entry.gasUsed, entry.effectiveGasPrice with
  | some gasUsed, some effectiveGasPrice => .ok (gasUsed * effectiveGasPrice)
  | _, _ => .error "INVALID_DEPLOYMENT_INTEGER"

def spentGas (entries : List DeploymentEntry) : Except String Nat := do
  return (← entries.mapM costOf).sum

def reconcileJournal : Session Unit := do
  identity c
  let page ← Async.read
  let entries ← observeEntries c page.journal.entries
  identity c
  persist c { page.journal with entries }
  let spent ← Async.ofExcept (spentGas (entries.filter fun e => e.state = .confirmed))
  ensure_ (spent ≤ c.budget.maxTotalGasCost) "DEPLOYMENT_TOTAL_GAS_BUDGET"

end Calls

end DeploymentWallet
end AlphaForge
