/-
The reconciler of the orders, `testnet-order-reconciler.ts`.

A call takes a page of the orders that were handed to the transport, in the order of
their ids from where the last call stopped, and examines them one after another.  What
the chain answers while an order is examined is given with the call, and so is what else
is done to the journal meanwhile.  An examination throws, leaves the order alone, or ends
with one outcome.
-/
import AlphaForge.Data.Turned
import AlphaForge.Machine.Run
import AlphaForge.Testnet.OrderJournal.Rows

namespace AlphaForge
namespace OrderReconciler

open Evm Machine OrderJournal

/-! ## What the chain answers -/

structure Block where
  number : Int
  hash : String

inductive ReceiptStatus where
  | success
  | reverted
  deriving DecidableEq

def ReceiptStatus.text : ReceiptStatus → String
  | .success => "SUCCESS"
  | .reverted => "REVERTED"

structure Receipt where
  transactionHash : String
  blockNumber : Int
  blockHash : String
  transactionIndex : Int
  sender : String
  recipient : Option String
  status : ReceiptStatus
  gasUsed : Option Int
  effectiveGasPrice : Option Int

structure Transaction where
  hash : String
  chainId : Int
  sender : String
  recipient : Option String
  data : String
  value : Int
  nonce : Int
  blockHash : Option String
  blockNumber : Option Int
  transactionIndex : Option Int

/-- The answers while one order is examined.  `effects` is what reading the snapshot and
checking the fill or the feed of a successful transaction comes to; `block` is the block of
the receipt, and `canonical` is that block again at the end. -/
structure Answers where
  receipt : Except String (Option Receipt)
  block : Except String (Option Block)
  transaction : Except String (Option Transaction)
  effects : Except String Unit
  canonical : Except String (Option Block)

/-- What the reconciler reads of a deployment. -/
structure Deployment where
  contractAddress : String
  manifestDigest : String
  owner : String

structure GasPolicy where
  gasLimit : Int
  maxFeePerGas : Int
  maxGasCostWei : Int

structure Setup where
  ethers : Ethers
  deployments : List Deployment
  gasPolicy : Option GasPolicy

/-! ## One order -/

def OrderState.text : OrderState → String
  | .prepared => "PREPARED"
  | .reserved => "RESERVED"
  | .signed => "SIGNED"
  | .broadcastUncertain => "BROADCAST_UNCERTAIN"
  | .reconciled => "RECONCILED"
  | .reverted => "REVERTED"
  | .reorged => "REORGED"
  | .cancelled => "CANCELLED"

/-- `JSON.stringify({ reason, previousState: order.state })`. -/
def reorgText (reason : String) (state : OrderState) : String :=
  String.ofList (objectText [("reason", Json.literal reason),
    ("previousState", Json.literal (OrderState.text state))])

/-- `JSON.stringify(outcome)`. -/
def payloadText (hash : String) (block : Block) (receipt : Receipt) (gasUsed price : Int) : String :=
  String.ofList (objectText [("chainId", (toString (46630 : Int)).toList),
    ("transactionHash", Json.literal hash),
    ("blockNumber", Json.literal (toString block.number)), ("blockHash", Json.literal block.hash),
    ("transactionIndex", (toString receipt.transactionIndex).toList),
    ("status", Json.literal receipt.status.text), ("gasUsed", Json.literal (toString gasUsed)),
    ("effectiveGasPrice", Json.literal (toString price)),
    ("platformGasCostWei", Json.literal (toString (gasUsed * price))),
    ("l2Confirmations", Json.literal "3"), ("l1Finality", Json.literal "UNKNOWN"),
    ("scope", Json.literal "TESTNET_ONLY")])

/-- The transaction is the order's and is where its receipt says. -/
def Enveloped (order : OrderRow) (hash : String) (receipt : Receipt) (tx : Transaction) : Prop :=
  tx.hash = hash ∧ receipt.transactionHash = hash ∧ tx.chainId = 46630 ∧
    tx.sender = order.intent.executor ∧
    tx.recipient = some (order.intent.feed.getD order.intent.vault) ∧
    tx.data = order.intent.calldata ∧ tx.value = 0 ∧ some (toString tx.nonce) = order.nonce ∧
    tx.blockHash = some receipt.blockHash ∧ tx.blockNumber = some receipt.blockNumber ∧
    tx.transactionIndex = some receipt.transactionIndex ∧ receipt.sender = tx.sender ∧
    receipt.recipient = tx.recipient

instance (order : OrderRow) (hash : String) (receipt : Receipt) (tx : Transaction) :
    Decidable (Enveloped order hash receipt tx) := by
  unfold Enveloped
  infer_instance

/-- The checks of a receipt that is deep enough, and the outcome. -/
def settle (setup : Setup) (order : OrderRow) (hash : String) (receipt : Receipt) (block : Block)
    (answers : Answers) : Except String (Conclusion × String) := do
  match ← answers.transaction, receipt.gasUsed, receipt.effectiveGasPrice with
  | some tx, some gasUsed, some price => do
      ensure (Enveloped order hash receipt tx) "ORDER_RECONCILIATION_ENVELOPE"
      ensure (0 < gasUsed ∧ ∀ p ∈ setup.gasPolicy, gasUsed ≤ p.gasLimit ∧ price ≤ p.maxFeePerGas ∧
        gasUsed * price ≤ p.maxGasCostWei) "ORDER_RECONCILIATION_GAS"
      if receipt.status = .success then answers.effects
      let canonical ← answers.canonical
      ensure (canonical.map Block.hash = some block.hash) "ORDER_RECONCILIATION_REORG"
      return (if receipt.status = .success then .reconciled else .reverted,
        payloadText hash block receipt gasUsed price)
  | _, _, _ => .error "ORDER_RECONCILIATION_ENVELOPE"

/-- The body of the loop for one order, up to recording the outcome. -/
def examine (setup : Setup) (head : Block) (order : OrderRow) (answers : Answers) :
    Except String (Option (Conclusion × String)) := do
  let d := setup.deployments.find? fun d => d.contractAddress = order.intent.vault ∧
    d.manifestDigest = order.intent.manifestDigest ∧ d.owner = order.intent.owner
  let hash := order.transactionHash.getD ""
  ensure (d.isSome = true ∧ hash ≠ "") "ORDER_RECONCILIATION_IDENTITY"
  ensure (isHexData 64 64 hash = true) "INVALID_TRANSACTION_HASH"
  match ← answers.receipt with
  | none =>
      if order.state = .reconciled ∨ order.state = .reverted then
        return some (.reorged, reorgText "RECEIPT_DISAPPEARED" order.state)
      else return none
  | some receipt =>
      let block ← answers.block
      match block.filter fun block => block.hash = receipt.blockHash with
      | none => return some (.reorged, reorgText "RECEIPT_NOT_CANONICAL" order.state)
      | some block =>
          if head.number - block.number + 1 < 3 then return none
          else return some (← settle setup order hash receipt block answers)

/-! ## A page -/

/-- The ids of the orders that were handed to the transport. -/
def candidates (j : Journal) : List String :=
  (j.orders.filter fun e => e.2.state ∈ afterBroadcast).map Prod.fst

/-- The ids that the query of `reconcileCandidates` gives. -/
def pageIds (j : Journal) (after : String) : List String :=
  (((candidates j).filter fun id => after < id).mergeSort (· ≤ ·)).take 100

/-- A row that is there. -/
def getThere (ethers : Ethers) (j : Journal) (id : String) : Except String OrderRow := do
  match ← get ethers j id with
  | none => .error "TypeError"
  | some order => return order

def reconcileCandidates (ethers : Ethers) (j : Journal) (after : String) :
    Except String (List OrderRow) :=
  (pageIds j after).mapM (getThere ethers j)

/-- What happens while an order is examined: what others do to the journal, and what the
chain answers. -/
structure Look where
  others : List Call
  answers : Answers

/-- An outcome that was recorded, with the journal around it. -/
structure Recording where
  id : String
  before : Journal
  after : Journal

/-- What the loop over a page leaves: the journal, the cursor, the orders that were
examined, the one whose examination threw, and the outcomes that were recorded. -/
structure Examined where
  journal : Journal
  cursor : String
  examined : List String
  threw : Option String
  recordings : List Recording

def examinePage (setup : Setup) (head : Block) (look : String → Look) :
    List OrderRow → String → Journal → Examined
  | [], cursor, j => ⟨j, cursor, [], none, []⟩
  | order :: rest, _, j =>
      let id := order.intent.id
      let j := exec (call setup.ethers) j (look id).others
      let outcome := do
        match ← examine setup head order (look id).answers with
        | none => return (j, [])
        | some (state, evidence) =>
            let next ← recordOutcome setup.ethers j id state evidence
            return (next, [Recording.mk id j next])
      match outcome with
      | .error _ => ⟨j, id, [id], some id, []⟩
      | .ok (next, recorded) =>
          let report := examinePage setup head look rest id next
          { report with
            examined := id :: report.examined, recordings := recorded ++ report.recordings }

/-- What a call meets: what others did to the journal since the last one, up to its
query, what the chain is and its head, and what happens at each order. -/
structure Round where
  before : List Call
  chainId : Except String Int
  readsTransactions : Bool
  head : Except String (Option Block)
  look : String → Look

structure State where
  journal : Journal
  cursor : String

/-- The checks of the chain and of its head. -/
def checkHead (round : Round) : Except String Block := do
  let chainId ← round.chainId
  ensure (chainId = 46630 ∧ round.readsTransactions = true) "ORDER_RECONCILIATION_CHAIN"
  match ← round.head with
  | none => .error "ORDER_RECONCILIATION_HEAD"
  | some head => return head

/-- What a call did: whether it passed the checks, the journal that it found, and what the
loop left. -/
structure Report extends Examined where
  passed : Bool
  found : Journal

/-- The function that `restrictedOrderReconciler` returns. -/
def reconcile (setup : Setup) (round : Round) (s : State) : Report :=
  let j := exec (call setup.ethers) s.journal round.before
  match checkHead round with
  | .error _ => ⟨⟨j, s.cursor, [], none, []⟩, false, j⟩
  | .ok head =>
      match reconcileCandidates setup.ethers j s.cursor with
      | .error _ => ⟨⟨j, s.cursor, [], none, []⟩, true, j⟩
      | .ok page =>
          if page = [] then ⟨⟨j, "", [], none, []⟩, true, j⟩
          else
            let done := examinePage setup head round.look page s.cursor j
            if done.threw = none ∧ page.length < 100 then ⟨{ done with cursor := "" }, true, j⟩
            else ⟨done, true, j⟩

/-- The reports of calls that follow each other. -/
def reports (setup : Setup) : List Round → State → List Report
  | [], _ => []
  | round :: rest, s =>
      let report := reconcile setup round s
      report :: reports setup rest ⟨report.journal, report.cursor⟩

end OrderReconciler
end AlphaForge
