/-
Sending the next action, and recovering one whose hash was lost.

`submit` is the only place at which the wallet is asked for a transaction.  What may
run is a session that was constructed from the saved journal; a page that is closed
takes its calls with it and leaves what was saved.
-/
import AlphaForge.Client.DeploymentWallet.Session

namespace AlphaForge
namespace DeploymentWallet

open Evm

section Calls

variable (c : Payload)

/-- No code where a contract is to be created, some where one is called. -/
def codeMatches (action : DeploymentAction) (code : Json) : Bool :=
  match action.unsigned.target, code with
  | none, code => code = .string "0x"
  | some _, .string s => (Text.ofHexBytes s).isSome
  | some _, _ => false

def codeError (action : DeploymentAction) : String :=
  match action.unsigned.target with
  | none => "DEPLOYMENT_CREATE_ADDRESS_OCCUPIED"
  | some _ => "DEPLOYMENT_TARGET_NOT_DEPLOYED"

/-- The base fee of a block, where it has one, leaves room for the priority fee. -/
def baseFeeFits (block : List (String × Json)) : Except String Bool :=
  match field block "baseFeePerGas" with
  | .unsupported => .ok true
  | value => do
      let fee ← quantity value "eth_getBlockByNumber.baseFeePerGas"
      return decide (fee + c.budget.maxPriorityFeePerGas ≤ c.budget.maxFeePerGas)

def readNonceGuard (index : Nat) : Session Unit := do
  let latest ← readQuantity (.getTransactionCount .latest) "eth_getTransactionCount.result"
  let pending ← readQuantity (.getTransactionCount .pending) "eth_getTransactionCount.result"
  ensure_ (latest = index ∧ pending = latest) "DEPLOYMENT_NONCE_COMPETITION"

/-- The block of the last confirmed entry is still there, two blocks below the head. -/
def checkAnchor (previous : Option DeploymentEntry) (number : Nat) : Session Unit :=
  match previous with
  | none => return ()
  | some previous =>
      match previous.blockNumber with
      | none => Async.throw "INVALID_DEPLOYMENT_INTEGER"
      | some blockNumber => do
          let anchor ← readObject (.getBlockByNumber (.number blockNumber))
          let anchorHash ← Async.ofExcept (headHash anchor)
          ensure_ (some anchorHash = previous.blockHash) "DEPLOYMENT_CONFIRMATION_ANCHOR_CHANGED"
          let anchorNumber ← Async.ofExcept (headNumber anchor)
          ensure_ (anchorNumber = blockNumber ∧ blockNumber + 2 ≤ number)
            "DEPLOYMENT_CONFIRMATION_ANCHOR_CHANGED"

/-- The head that the checks were made at is still canonical. -/
def checkHead (block : List (String × Json)) (number : Nat) : Session Unit := do
  let again ← readObject (.getBlockByNumber (.number number))
  let found ← Async.ofExcept (headHash again)
  let expected ← Async.ofExcept (headHash block)
  ensure_ (found = expected) "DEPLOYMENT_HEAD_REORGED"
  let foundNumber ← Async.ofExcept (headNumber again)
  ensure_ (foundNumber = number) "DEPLOYMENT_HEAD_REORGED"

/-- The checks of funds, fees and code at one block. -/
def checkFunds (index : Nat) (entry : DeploymentEntry) (block : List (String × Json))
    (number remainingGas remainingValue : Nat) : Session Unit := do
  let limit ← executionLimit (.number number)
  ensure_ (c.budget.maxGasPerTransaction ≤ limit ∧ entry.gasLimit ≤ limit)
    "DEPLOYMENT_EXECUTION_GAS_LIMIT"
  let code ← read (.getCode c.approvedWallet (.number number))
  ensure_ (code = .string "0x") "DEPLOYMENT_ADMIN_MUST_BE_EOA"
  let target ← Async.ofExcept (action c index)
  let targetCode ← read (.getCode target.contractAddress (.number number))
  ensure_ (codeMatches target targetCode = true) (codeError target)
  let balance ← readQuantity (.getBalance (.number number)) "eth_getBalance.result"
  Async.modify fun p => { p with lastBalance := some balance }
  ensure_ (remainingGas + remainingValue + c.budget.minimumRemainingEth ≤ balance)
    "DEPLOYMENT_INSUFFICIENT_ETH"
  let fits ← Async.ofExcept (baseFeeFits c block)
  ensure_ (fits = true) "DEPLOYMENT_FEE_CAP_TOO_LOW"
  let gasPrice ← readQuantity .gasPrice "eth_gasPrice.result"
  ensure_ (gasPrice ≤ c.budget.maxFeePerGas) "DEPLOYMENT_FEE_CAP_TOO_LOW"

/-- What is checked at the head once the journal has been observed again. -/
def checkChain (index : Nat) (entry : DeploymentEntry) (previous : Option DeploymentEntry)
    (remainingGas remainingValue : Nat) : Session Unit := do
  let block ← head c
  let number ← Async.ofExcept (headNumber block)
  checkFunds c index entry block number remainingGas remainingValue
  identity c
  readNonceGuard index
  checkAnchor previous number
  checkHead block number
  freshHead c block
  walletNonceGuard index
  identity c
  freshHead c block

def finalPreflight (index : Nat) (entry : DeploymentEntry) (remainingGas remainingValue : Nat) :
    Session Unit := do
  reconcileJournal c
  let page ← Async.read
  ensure_ (nextIndex page.journal = index ∧ page.journal.entries.length = index)
    "DEPLOYMENT_RECOVERY_REQUIRED"
  checkChain c index entry page.journal.entries.getLast? remainingGas remainingValue

/-- The journal with another entry in place of the one of this index. -/
def putEntry (journal : DeploymentJournal) (index : Nat) (f : DeploymentEntry → DeploymentEntry) :
    DeploymentJournal :=
  { journal with entries := journal.entries.map fun e => if e.index = index then f e else e }

def resultUnknown (index : Nat) : Session Unit := do
  let page ← Async.read
  persist c (putEntry page.journal index fun e => { e with state := .unknown })
  Async.throw "DEPLOYMENT_WALLET_RESULT_UNKNOWN"

def submit (index : Nat) (entry : DeploymentEntry) : Session Unit := do
  let transaction ← Async.ofExcept (transaction c index entry)
  Async.modify fun p => { p with sent := p.sent ++ [⟨transaction, p.saved, p.reads⟩] }
  match ← Async.request (ρ := Request) (.wallet (.sendTransaction transaction)) with
  | .error _ => resultUnknown c index
  | .ok returned =>
      match hash returned with
      | .error _ => resultUnknown c index
      | .ok transactionHash => do
          Async.modify fun p => { p with lastObservedHash := some transactionHash }
          let page ← Async.read
          persist c (putEntry page.journal index fun e =>
            { e with state := .submitted, transactionHash := some transactionHash })

def intentOf (index : Nat) : DeploymentEntry where
  index := index
  state := .intent
  gasLimit := c.budget.maxGasPerTransaction
  maxFeePerGas := c.budget.maxFeePerGas
  maxPriorityFeePerGas := c.budget.maxPriorityFeePerGas
  transactionHash := none
  blockNumber := none
  blockHash := none
  gasUsed := none
  effectiveGasPrice := none

/-- A fifth more than the estimate, as far as the budget allows. -/
def buffered (estimate : Nat) : Nat :=
  min ((estimate * 120 + 99) / 100) c.budget.maxGasPerTransaction

def notExpired : Session Unit := do
  let time ← now
  ensure_ (time < c.approvalExpiresAt) "DEPLOYMENT_APPROVAL_EXPIRED"

/-- The checks before the estimate, which leave the gas and the value still needed. -/
def checkBudget (index : Nat) (entries : List DeploymentEntry) : Session (Nat × Nat) := do
  readNonceGuard index
  let block ← head c
  let balance ← readQuantity (.getBalance .latest) "eth_getBalance.result"
  Async.modify fun p => { p with lastBalance := some balance }
  let remaining := c.actions.drop index
  let remainingValue := (remaining.map fun action => action.unsigned.value).sum
  let spent ← Async.ofExcept (spentGas entries)
  let remainingGas := remaining.length * c.budget.maxGasPerTransaction * c.budget.maxFeePerGas
  ensure_ (spent + remainingGas ≤ c.budget.maxTotalGasCost) "DEPLOYMENT_TOTAL_GAS_BUDGET"
  ensure_ (remainingGas + remainingValue + c.budget.minimumRemainingEth ≤ balance)
    "DEPLOYMENT_INSUFFICIENT_ETH"
  let fits ← Async.ofExcept (baseFeeFits c block)
  ensure_ (fits = true) "DEPLOYMENT_FEE_CAP_TOO_LOW"
  return (remainingGas, remainingValue)

def estimated (index : Nat) : Session DeploymentEntry := do
  let transaction ← Async.ofExcept (transaction c index (intentOf c index))
  let estimate ← readQuantity (.estimateGas transaction) "eth_estimateGas.result"
  ensure_ (estimate ≠ 0 ∧ estimate ≤ c.budget.maxGasPerTransaction) "DEPLOYMENT_GAS_LIMIT"
  return { intentOf c index with gasLimit := buffered c estimate }

/-- The intent is saved, and the wallet asked without another wait. -/
def commit (index : Nat) (entry : DeploymentEntry) : Session Unit := do
  throwIfAborted
  let page ← Async.read
  persist c { page.journal with entries := page.journal.entries ++ [entry] }
  throwIfAborted
  notExpired c
  submit c index entry

def sendNext : Session Unit := do
  throwIfAborted
  let page ← Async.read
  ensure_ (page.storageFailed = false) "DEPLOYMENT_RECOVERY_STORAGE_FAILED"
  reconcileJournal c
  let page ← Async.read
  let index := nextIndex page.journal
  ensure_ (index = page.journal.entries.length) "DEPLOYMENT_RECOVERY_REQUIRED"
  ensure_ (index < 41) "DEPLOYMENT_PLAN_FINISHED"
  notExpired c
  let (remainingGas, remainingValue) ← checkBudget c index page.journal.entries
  let entry ← estimated c index
  finalPreflight c index entry remainingGas remainingValue
  commit c index entry
  reconcileJournal c

def recover (transactionHashInput : String) : Session Unit := do
  identity c
  let transactionHash ← Async.ofExcept (hash (.string transactionHashInput))
  let page ← Async.read
  let index := nextIndex page.journal
  match page.journal.entries[index]? with
  | none => Async.throw "DEPLOYMENT_RECOVERY_INTENT_REQUIRED"
  | some entry => do
      ensure_ (entry.state ≠ .confirmed) "DEPLOYMENT_RECOVERY_INTENT_REQUIRED"
      let recovered ← observe c { entry with transactionHash := some transactionHash }
      ensure_ (recovered.state ≠ .unknown ∧ recovered.state ≠ .reorged)
        "DEPLOYMENT_RECOVERY_NOT_VERIFIED"
      identity c
      Async.modify fun p => { p with lastObservedHash := some transactionHash }
      let page ← Async.read
      persist c (putEntry page.journal index fun _ => recovered)
      reconcileJournal c

/-! ## Sessions -/

/-- The constructor. -/
def construct : Session Unit := do
  let page ← Async.read
  ensure_ (page.constructed = false) "ONE_SESSION_AT_A_TIME"
  let journal := page.saved.getD ⟨c.sha256, []⟩
  ensure_ (journalValid c journal) "DEPLOYMENT_JOURNAL_MISMATCH"
  Async.modify fun p => { p with
    constructed := true
    journal
    storageFailed := false
    lastObservedHash := none
    lastBalance := none }

def withSession (x : Session Unit) : Session Unit := do
  let page ← Async.read
  ensure_ (page.constructed = true) "NO_SESSION"
  x

/-- One call at a time. -/
def exclusive (me : Nat) (x : Session Unit) : Session Unit := withSession do
  let page ← Async.read
  ensure_ (page.busy = none) "DEPLOYMENT_REQUEST_IN_PROGRESS"
  Async.modify fun p => { p with busy := some me, reads := [] }
  x.finally_ fun p => { p with busy := none }

inductive Call where
  | construct
  | connect
  | reconcile
  | sendNext
  | recover (transactionHashInput : String)

def body (me : Nat) : Call → Session Unit
  | .construct => construct c
  | .connect => withSession (connect c)
  | .reconcile => exclusive me (reconcileJournal c)
  | .sendNext => exclusive me (sendNext c)
  | .recover transactionHashInput => exclusive me (recover c transactionHashInput)

/-- The page is closed. -/
def close (p : Page) : Page := { p with constructed := false, busy := none }

def step : Concurrent.Event Call Request Answer → Concurrent Call Page Request Answer String →
    Except String (Concurrent Call Page Request Answer String) :=
  Concurrent.step (body c) close

/-- Nothing was saved or sent before. -/
def start : Concurrent Call Page Request Answer String :=
  Concurrent.start ⟨false, ⟨c.sha256, []⟩, none, false, none, none, none, [], []⟩

end Calls

end DeploymentWallet
end AlphaForge
