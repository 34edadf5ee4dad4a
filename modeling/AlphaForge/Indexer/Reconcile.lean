/-
The reconciliation of one operation with the chain, `reconcileOperation` of
`trading-vault-integration.ts`.

The transaction is bound to the operation, its events are compared with its call,
and then the vault is looked at as it is at the end of the block.
-/
import AlphaForge.Indexer.Lifecycle
import AlphaForge.Indexer.TradingReader

namespace AlphaForge
namespace Indexer

open Evm Lifecycle
open ChainStore (HexData)
open TradingVault (Swap)

/-- A call of `tradingInterface`.  `view` is any of its read-only functions. -/
inductive TradingCall where
  | deposit (amount : Nat)
  | allocate (amount : Nat)
  | deallocate (amount : Nat)
  | withdraw (amount : Nat)
  | stop
  | revokeExecutor
  | close
  | rescueUntrackedToken (token : Address)
  | rescueNative
  | checkRisk
  | authorizeExecutor (next : TradingVault.Grant)
  | setBounds (lower upper : Nat) (priceLower priceUpper : Fin 3 → Nat)
  | execute (action : Swap)
  | view (name : String)

/-- Arguments within the widths of the ABI. -/
def TradingCall.Fits : TradingCall → Prop
  | .deposit amount | .allocate amount | .deallocate amount | .withdraw amount => amount < 2 ^ 256
  | .authorizeExecutor next => next.expiresAt < 2 ^ 64 ∧ next.liquidationWindow < 2 ^ 32 ∧
      next.maxOrderUsdc < 2 ^ 256 ∧ next.maxTotalBuyUsdc < 2 ^ 256 ∧ next.maxSlippageBps < 2 ^ 16
  | .setBounds lower upper priceLower priceUpper => lower < 2 ^ 256 ∧ upper < 2 ^ 256 ∧
      (∀ i, priceLower i < 2 ^ 256) ∧ ∀ i, priceUpper i < 2 ^ 256
  | .execute action => action.amountIn < 2 ^ 256 ∧ action.minAmountOut < 2 ^ 256 ∧
      action.deadline < 2 ^ 64 ∧ action.expectedVersion < 2 ^ 256
  | _ => True

/-- What whoever is not the owner may call. -/
def TradingCall.open : TradingCall → Bool
  | .execute _ | .checkRisk => true
  | _ => false

/-- The two directions of `tradingInterface`. -/
structure Codec where
  encodeFunctionData : TradingCall → HexData
  parseTransaction : HexData → Option TradingCall

structure ChainReceipt where
  transactionHash : Bytes32
  blockNumber : Nat
  blockHash : Bytes32
  transactionIndex : Nat
  sender : Address
  recipient : Option Address
  status : ReceiptStatus

structure ChainTransaction where
  chainId : Nat
  sender : Address
  recipient : Option Address
  data : HexData
  value : Nat
  blockHash : Bytes32
  blockNumber : Nat
  transactionIndex : Nat

structure CanonicalContractEvent where
  chainId : Nat
  address : Address
  blockNumber : Nat
  blockHash : Bytes32
  transactionHash : Bytes32
  transactionIndex : Nat
  removed : Bool
  eventName : String
  normalizedData : List (String × Datum)

inductive ReconciliationResult where
  | match_
  | mismatch (errorCode : MismatchCode)
  deriving DecidableEq

def field (e : CanonicalContractEvent) (key : String) : Option Datum := e.normalizedData.lookup key

/-- `BigInt(String(value))`, which throws on what is no number. -/
def bigInt : Option Datum → Except MismatchCode Nat
  | some (.text v) =>
      if Text.isDecimal v.length v = true then .ok (Text.ofDecimal v)
      else .error .eventEvidenceMismatch
  | _ => .error .eventEvidenceMismatch

/-- The only event of that name. -/
def one (events : List CanonicalContractEvent) (name : String) : Option CanonicalContractEvent :=
  match events.filter (fun e => e.eventName = name) with
  | [e] => some e
  | _ => none

/-- There is such an event, and it has these values. -/
def carries (e : Option CanonicalContractEvent) (values : List (String × Datum)) : Bool :=
  match e with
  | none => false
  | some e => values.all fun v => field e v.1 = some v.2

def matchedExecute (inventory : TradingInventory) (events : List CanonicalContractEvent)
    (a : Swap) : Except MismatchCode Bool := do
  let buy : Bool := a.tokenIn = inventory.usdc
  let traded := if buy then a.tokenOut else a.tokenIn
  match (List.finRange 3).find? (fun i => (inventory.stocks i).token = traded) with
  | none => .error .eventEvidenceMismatch
  | some _ =>
      ensure (buy = true ∨ a.tokenOut = inventory.usdc) .eventEvidenceMismatch
      match one events "SwapExecuted", one events "RiskOrderCancelled" with
      | some fill, none =>
          if carries (some fill) [("stock", .text (addressText traded)), ("buy", .flag buy),
              ("input", .text a.amountIn.repr)] then do
            if a.minAmountOut ≤ (← bigInt (field fill "output")) then
              return (← bigInt (field fill "stateVersion")) = a.expectedVersion + 1
            else return false
          else return false
      | none, some cancel =>
          if buy then return (← bigInt (field cancel "stateVersion")) = a.expectedVersion + 1
          else return false
      | _, _ => return false

def matched (inventory : TradingInventory) (events : List CanonicalContractEvent) :
    TradingCall → Except MismatchCode Bool
  | .execute a => matchedExecute inventory events a
  | .deposit amount =>
      return carries (one events "Deposited") [("amountUsdc", .text amount.repr)]
  | .withdraw amount =>
      return carries (one events "Withdrawn") [("amountUsdc", .text amount.repr)]
  | .allocate amount =>
      return carries (one events "CapitalChanged")
        [("allocated", .flag true), ("amountUsdc", .text amount.repr)]
  | .deallocate amount =>
      return carries (one events "CapitalChanged")
        [("allocated", .flag false), ("amountUsdc", .text amount.repr)]
  | .authorizeExecutor next =>
      return carries (one events "GrantAuthorized")
        [("executor", .text (addressText next.executor)), ("expiresAt", .text next.expiresAt.repr)]
  | .close => return carries (one events "Closed") []
  | .setBounds _ _ _ _ => return carries (one events "BoundsChanged") []
  | .stop | .revokeExecutor | .checkRisk =>
      return events.all fun e => e.eventName = "LiquidationStarted"
  | .rescueUntrackedToken token =>
      return carries (one events "DustRescued") [("token", .text (addressText token))]
  | .rescueNative => return carries (one events "DustRescued") [("token", .text (addressText 0))]
  | .view _ => return false

/-- What the vault must look like at the end of the block. -/
def settled (snapshot : TradingSnapshot) : TradingCall → Prop
  | .close => snapshot.closed = true
  | .stop | .revokeExecutor => snapshot.liquidating = true
  | .execute a => a.expectedVersion + 1 ≤ Text.ofDecimal snapshot.stateVersion
  | _ => True

instance (snapshot : TradingSnapshot) (call : TradingCall) : Decidable (settled snapshot call) := by
  cases call <;> unfold settled <;> infer_instance

section Reconcile

variable (codec : Codec) (abi : AbiHashes) (node : Node)
  (transaction : Option (Bytes32 → Option ChainTransaction)) (manifest : DeploymentManifest)
  (inventory : TradingInventory) (block : Block)

def checkReceipt (op : ChainOperation) (receipt : ChainReceipt) : Except MismatchCode HexData :=
  match op.calldata with
  | none => .error .eventEvidenceMismatch
  | some calldata => do
      ensure (op.chainId = testnetChainId ∧ op.target = manifest.contractAddress ∧
        op.txHash = some receipt.transactionHash ∧ receipt.status = .success ∧
        block.number = receipt.blockNumber ∧ block.hash = receipt.blockHash ∧
        receipt.sender = op.owner ∧ receipt.recipient = some manifest.contractAddress)
        .eventEvidenceMismatch
      return calldata

def checkTransaction (op : ChainOperation) (receipt : ChainReceipt) (calldata : HexData) :
    Except MismatchCode Unit :=
  match transaction with
  | none => .error .eventEvidenceMismatch
  | some transaction =>
      match transaction receipt.transactionHash with
      | none => .error .eventEvidenceMismatch
      | some tx =>
          ensure (tx.chainId = testnetChainId ∧ tx.sender = op.owner ∧
            tx.recipient = some manifest.contractAddress ∧ tx.data = calldata ∧ tx.value = 0 ∧
            tx.blockHash = receipt.blockHash ∧ tx.blockNumber = receipt.blockNumber ∧
            tx.transactionIndex = receipt.transactionIndex) .eventEvidenceMismatch

def parseCall (op : ChainOperation) (calldata : HexData) : Except MismatchCode TradingCall :=
  match codec.parseTransaction calldata with
  | none => .error .eventEvidenceMismatch
  | some call => do
      ensure (codec.encodeFunctionData call = calldata) .eventEvidenceMismatch
      ensure (op.owner = inventory.owner ∨ call.open = true) .eventEvidenceMismatch
      return call

/-- The events of the transaction. -/
def ownEvents (receipt : ChainReceipt) (events : List CanonicalContractEvent) :
    List CanonicalContractEvent :=
  events.filter fun e => e.transactionHash = receipt.transactionHash ∧
    e.blockHash = receipt.blockHash ∧ e.address = manifest.contractAddress

def checkEvents (receipt : ChainReceipt) (events : List CanonicalContractEvent) :
    Except MismatchCode Unit :=
  ensure (∀ e ∈ events, e.removed = false ∧ e.chainId = testnetChainId ∧
    e.blockNumber = block.number ∧ e.transactionIndex = receipt.transactionIndex)
    .eventEvidenceMismatch

def reconcile (op : ChainOperation) (receipt : ChainReceipt)
    (allEvents : List CanonicalContractEvent) : Except MismatchCode Unit := do
  let calldata ← checkReceipt manifest block op receipt
  checkTransaction transaction manifest op receipt calldata
  let call ← parseCall codec inventory op calldata
  let events := ownEvents manifest receipt allEvents
  checkEvents block receipt events
  ensure ((← matched inventory events call) = true) .eventEvidenceMismatch
  match readTradingSnapshot abi node manifest inventory block with
  | .error _ => .error .eventEvidenceMismatch
  | .ok snapshot => ensure (settled snapshot call) .contractStateMismatch

def reconcileOperation (op : ChainOperation) (receipt : ChainReceipt)
    (allEvents : List CanonicalContractEvent) : ReconciliationResult :=
  match reconcile codec abi node transaction manifest inventory block op receipt allEvents with
  | .ok _ => .match_
  | .error errorCode => .mismatch errorCode

end Reconcile

end Indexer
end AlphaForge
