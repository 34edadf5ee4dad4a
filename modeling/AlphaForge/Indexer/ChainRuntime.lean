/-
The runtime of one deployed vault, `m3-chain-runtime.ts`.

A browser reports the hash of a transaction that its wallet has sent, and
`recordSubmission` keeps the report as an operation.  Nothing has been checked on the
chain by then: reports of different callers about one hash stand beside each other
until one of them is reconciled.  The synchronizers of the vault and of its strategy
pass follow the operations over the same database, each call in stretches between
its waits.
-/
import AlphaForge.Indexer.TradingRuntime
import AlphaForge.Machine.Run

namespace AlphaForge
namespace ChainRuntime

open Evm ChainStore Lifecycle Database
open ChainSync (beginTracking onReceipt onReconciled)
open Indexer (ChainReceipt ReconciliationResult)
open TradingRuntime (Tracking after)

/-! ## Calldata, `vault-abi.ts` and `pass-abi.ts` -/

def parseUintWord (word : HexData) : Nat :=
  word.foldl (fun acc b => acc * 256 + b.toNat) 0

def parseAddressWord (word : HexData) : Option Address :=
  if word.take 12 = List.replicate 12 0 then some (BitVec.ofNat 160 (parseUintWord (word.drop 12)))
  else none

inductive VaultCalldata where
  | deposit (usdcAmount : Nat)
  | withdraw (usdcAmount : Nat)
  | close
  | rescueUntrackedToken (token : Address)
  | rescueNative

def decodeM3VaultCalldata (data : HexData) : Option VaultCalldata :=
  let selector := data.take 4
  if selector = [0xb6, 0xb5, 0x5f, 0x25] ∧ data.length = 36 then
    some (.deposit (parseUintWord (data.drop 4)))
  else if selector = [0x2e, 0x1a, 0x7d, 0x4d] ∧ data.length = 36 then
    some (.withdraw (parseUintWord (data.drop 4)))
  else if selector = [0x43, 0xd7, 0x26, 0xd6] ∧ data.length = 4 then some .close
  else if selector = [0x45, 0xf5, 0x03, 0x0f] ∧ data.length = 36 then
    (parseAddressWord (data.drop 4)).map .rescueUntrackedToken
  else if selector = [0xfc, 0x82, 0xf0, 0x84] ∧ data.length = 4 then some .rescueNative
  else none

structure StrategyPassCalldata where
  recipient : Address
  amountRaw : Nat

def decodeM3StrategyPassCalldata (data : HexData) : Option StrategyPassCalldata :=
  if data.length ≠ 68 ∨ data.take 4 ≠ [0xa9, 0x05, 0x9c, 0xbb] then none
  else do
    let recipient ← parseAddressWord ((data.drop 4).take 32)
    let amountRaw := parseUintWord (data.drop 36)
    if recipient = 0 ∨ amountRaw < 1 then none else some ⟨recipient, amountRaw⟩

/-! ## The runtime -/

/-- What the runtime reads of its manifest and its policy. -/
structure Config where
  chainId : Int
  contractAddress : Address
  strategyPassAddress : Address
  ownsStrategyPassProjection : Bool
  softReadyDepth : Int

inductive Contract where
  | vault
  | strategyPass

/-- `synchronizer` and `passSynchronizer`. -/
def synchronizer (c : Config) : Contract → ChainSync.Config
  | .vault => ⟨c.chainId, c.contractAddress, c.softReadyDepth⟩
  | .strategyPass => ⟨c.chainId, c.strategyPassAddress, c.softReadyDepth⟩

structure ObservedWalletSubmission where
  operationId : String
  chainId : Int
  owner : Address
  target : Address
  calldata : HexData
  txHash : Bytes32

/-- The row is of this submission. -/
def sameSubmission (input : ObservedWalletSubmission) (row : OperationColumns) : Prop :=
  row.chainId = input.chainId ∧ row.txHash = some input.txHash ∧ row.owner = input.owner ∧
    row.target = input.target ∧ row.calldata = some input.calldata

instance (input : ObservedWalletSubmission) : DecidablePred (sameSubmission input) := fun _ => by
  unfold sameSubmission; infer_instance

/-- `ORDER BY operation_id LIMIT 1`. -/
def operationBySubmission (input : ObservedWalletSubmission) (db : Database) :
    Except String (Option ChainOperation) := do
  let _ ← chainId input.chainId
  let ids := (db.operations.filter (fun e => sameSubmission input e.2)).map Prod.fst
  match (ids.insertionSort (· ≤ ·)).head? with
  | none => return none
  | some id => db.operation id

/-- The runtime may follow it: a call of the vault, or of the pass it answers for. -/
def followable (c : Config) (input : ObservedWalletSubmission) : Prop :=
  input.chainId = c.chainId ∧
    ((input.target = c.contractAddress ∧ (decodeM3VaultCalldata input.calldata).isSome = true) ∨
      (c.ownsStrategyPassProjection = true ∧ input.target = c.strategyPassAddress ∧
        (decodeM3StrategyPassCalldata input.calldata).isSome = true))

instance (c : Config) (input : ObservedWalletSubmission) : Decidable (followable c input) := by
  unfold followable; infer_instance

/-- The operation is what was submitted. -/
def sameContent (input : ObservedWalletSubmission) (operation : ChainOperation) : Prop :=
  operation.chainId = input.chainId ∧ operation.txHash = some input.txHash ∧
    operation.owner = input.owner ∧ operation.target = input.target ∧
    operation.calldata = some input.calldata

instance (input : ObservedWalletSubmission) (operation : ChainOperation) :
    Decidable (sameContent input operation) := by
  unfold sameContent; infer_instance

structure State where
  db : Database
  tracking : List (ChainSync.Config × Tracking)

inductive Action where
  | recordSubmission (input : ObservedWalletSubmission) (now : String)
  | trackOperation (contract : Contract) (id : String) (latest : ChainBlock)
  /-- The node answers the call at this place, or fails. -/
  | receipt (place : Nat) (answer : Except Unit (Option ChainReceipt))
  | reconciled (place : Nat) (answer : Except Unit ReconciliationResult) (now : String)
  | recordCanonicalBlock (contract : Contract) (r : Recording) (ownerToken : Option String)
  | rollbackFromBlock (contract : Contract) (fromBlock : Int) (ownerToken : Option String)
  /-- Any other call of a synchronizer. -/
  | bookkeeping (checkpoints : OrderedMap (Int × Address) CheckpointRow)
      (leases : OrderedMap (Int × Address) LeaseRow)
      (projections : OrderedMap ProjectionKey ProjectionRow)

section Calls

variable (c : Config) (validTime : String → Bool)

/-- The operation that the hash or the submission already has. -/
def transactionOf (input : ObservedWalletSubmission) (db : Database) :
    Except String (Option ChainOperation) := do
  match ← db.operationByTransaction input.chainId input.txHash with
  | some transaction => return some transaction
  | none => operationBySubmission input db

def recordSubmission (input : ObservedWalletSubmission) (now : String) (db : Database) :
    Except String (ChainOperation × Database) := do
  check (followable c input) "INVALID_M3_WALLET_SUBMISSION"
  match ← db.operation input.operationId with
  | some existing => do
      check (sameContent input existing) "OPERATION_IDENTITY_CONFLICT"
      return (existing, db)
  | none => do
      let transaction ← transactionOf input db
      check (transaction = none) "OPERATION_IDENTITY_CONFLICT"
      let created ← createOperation
        ⟨input.operationId, input.chainId, input.owner, input.target, some input.calldata⟩
      let operation ← transitionOperation validTime created (.submitted input.txHash now)
      let db ← db.saveOperation validTime operation
      return (operation, db)

def step : Action → State → Except String State
  | .recordSubmission input now, s => do
      let (_, db) ← recordSubmission c validTime input now s.db
      return { s with db }
  | .trackOperation contract id latest, s => do
      let (operation, transactionHash, checkpoint) ←
        beginTracking (synchronizer c contract) id latest s.db
      let call := Tracking.receipt operation transactionHash checkpoint latest
      return { s with tracking := s.tracking ++ [(synchronizer c contract, call)] }
  | .receipt place answer, s =>
      match s.tracking[place]?, answer with
      | some (sync, .receipt operation transactionHash checkpoint latest), .ok receipt =>
          match onReceipt validTime operation transactionHash checkpoint receipt s.db with
          | .ok (db, some (operation, receipt)) =>
              let call := Tracking.reconciliation operation receipt checkpoint latest
              .ok ⟨db, s.tracking.set place (sync, call)⟩
          | .ok (db, none) => .ok ⟨db, s.tracking.eraseIdx place⟩
          | .error _ => .ok { s with tracking := s.tracking.eraseIdx place }
      | some (_, .receipt _ _ _ _), .error _ =>
          .ok { s with tracking := s.tracking.eraseIdx place }
      | _, _ => .error "NOT_TRACKING"
  | .reconciled place answer now, s =>
      match s.tracking[place]?, answer with
      | some (sync, .reconciliation operation receipt checkpoint latest), .ok result =>
          .ok {
            db := after s.db
              (onReconciled sync validTime operation receipt latest checkpoint result now s.db)
            tracking := s.tracking.eraseIdx place }
      | some (_, .reconciliation _ _ _ _), .error _ =>
          .ok { s with tracking := s.tracking.eraseIdx place }
      | _, _ => .error "NOT_TRACKING"
  | .recordCanonicalBlock contract r ownerToken, s => do
      let sync := synchronizer c contract
      let (log, _) ← ChainStore.recordCanonicalBlock sync.chainId sync.contract r.block r.events
        r.syncTargetBlock ownerToken s.db.log
      return { s with db := s.db.withLog log }
  | .rollbackFromBlock contract fromBlock ownerToken, s => do
      let sync := synchronizer c contract
      let db ← s.db.rollbackFromBlock sync.chainId sync.contract fromBlock ownerToken
      return { s with db }
  | .bookkeeping checkpoints leases projections, s =>
      .ok { s with db := { s.db with checkpoints, leases, projections } }

/-- A runtime on a database without operations. -/
def start (db : Database) : State := ⟨{ db with operations := [] }, []⟩

end Calls

end ChainRuntime
end AlphaForge
