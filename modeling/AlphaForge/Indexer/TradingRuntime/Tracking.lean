/-
What following one operation does when the synchronizer has caught up.

With the checkpoint at the head and a node that answers, `trackOperation` throws
exactly when the receipt of the hash is of another account or another contract, when
the operation was counted deeper than the head allows, or when it is reconciled
while another operation with the same hash is.  Otherwise it leaves the operation
with its identity, reconciled when the comparison found what it should.
-/
import AlphaForge.Indexer.TradingRuntime.Legal

namespace AlphaForge
namespace TradingRuntime

open Evm ChainStore Lifecycle Database Machine
open ChainSync (Rpc beginTracking applyReceipt onReceipt onReconciled receiptTransition
  receiptMatches)
open Indexer (ChainReceipt)

variable {validTime : String → Bool} {db db' db'' : Database} {operation next : ChainOperation}

/-! ## The table of operations -/

/-- The rows read back as sound operations, one for each identifier. -/
structure Table (validTime : String → Bool) (db : Database) : Prop where
  stored : Stored validTime db
  keys : db.operations.keys.Nodup

/-- The database after the row of one operation was written, or left as it was. -/
structure Rewritten (validTime : String → Bool) (operation : ChainOperation) (db db' : Database) :
    Prop where
  table : Table validTime db'
  row : db'.operation operation.operationId = .ok (some operation)
  others : ∀ id, id ≠ operation.operationId → db'.operation id = db.operation id
  blocks : db'.blocks = db.blocks
  checkpoints : db'.checkpoints = db.checkpoints
  leases : db'.leases = db.leases

theorem Rewritten.refl (h : Table validTime db)
    (hrow : db.operation operation.operationId = .ok (some operation)) :
    Rewritten validTime operation db db :=
  ⟨h, hrow, fun _ _ => rfl, rfl, rfl, rfl⟩

theorem Rewritten.trans (h : Rewritten validTime operation db db')
    (h' : Rewritten validTime next db' db'') (hid : next.operationId = operation.operationId) :
    Rewritten validTime next db db'' where
  table := h'.table
  row := h'.row
  others id hne := (h'.others id hne).trans (h.others id (hid ▸ hne))
  blocks := h'.blocks.trans h.blocks
  checkpoints := h'.checkpoints.trans h.checkpoints
  leases := h'.leases.trans h.leases

theorem rewritten_of_saved (htable : Table validTime db) (hsound : Sound validTime next)
    (h : Saved next db db') : Rewritten validTime next db db' where
  table := ⟨h.stored htable.stored hsound, by
    rw [h.operations]
    exact OrderedMap.nodup_keys_set htable.keys⟩
  row := by rw [operation_saved h, if_pos rfl]
  others id hne := by rw [operation_saved h, if_neg hne]
  blocks := h.blocks
  checkpoints := h.checkpoints
  leases := h.leases

/-- Another operation has the transaction and is reconciled. -/
def Shared (db : Database) (operation : ChainOperation) : Prop :=
  ∃ id other, id ≠ operation.operationId ∧ db.operation id = .ok (some other) ∧
    other.chainId = operation.chainId ∧ other.txHash = operation.txHash ∧ other.reconciled = true

/-- The unique index refuses a reconciled row exactly when its transaction is shared. -/
theorem reservedElsewhere_iff (h : Table validTime db) (hreconciled : next.reconciled = true)
    (hhash : next.txHash.isSome = true) :
    db.reservedElsewhere next.operationId (columnsOf next) ↔ Shared db next := by
  constructor
  · rintro ⟨_, _, ⟨id, row⟩, hmem, hne, hchain, htx, hrow⟩
    obtain ⟨other, rfl, rfl, _⟩ := h.stored id row ((OrderedMap.mem_iff_get? h.keys).mp hmem)
    exact ⟨_, other, hne, operation_of_get? ((OrderedMap.mem_iff_get? h.keys).mp hmem), hchain, htx,
      hrow⟩
  · rintro ⟨id, other, hne, hother, hchain, htx, hrow⟩
    obtain ⟨rfl, hget, _⟩ := h.stored.operation_eq_some hother
    exact ⟨hreconciled, hhash, (other.operationId, columnsOf other), OrderedMap.mem_of_get? hget, hne,
      hchain, htx, hrow⟩

/-- A guarded save over the current row goes through unless the transaction is taken. -/
theorem guarded_rewrites {checkpoint : ChainCheckpoint} (htable : Table validTime db)
    (hsettled : SettledAt operation.chainId operation.target checkpoint db)
    (hcurrent : db.operation operation.operationId = .ok (some operation))
    (hcompact : Compact operation) (hsucceeds : Succeeds validTime operation next)
    (hnext : Compact next) (hhash : next.txHash = operation.txHash)
    (hfree : ¬ db.reservedElsewhere next.operationId (columnsOf next)) :
    ∃ db', saveOperationAtCheckpoint validTime next operation checkpoint db = .ok db' ∧
      Rewritten validTime next db db' := by
  have hsound := (htable.stored.operation_eq_some hcurrent).2.2
  have hnextSound := hsucceeds.sound hsound
  obtain ⟨db', hsave⟩ := saveOperationAtCheckpoint_of htable.stored hsettled hcurrent hcompact
    hnextSound hnext (hsucceeds.identity hsound) hhash hfree
  have hsaved := (saveOperation_ok htable.stored (saveOperationAtCheckpoint_ok hsave).2.2).1
  exact ⟨db', hsave, rewritten_of_saved htable hnextSound hsaved⟩

/-! ## One operation -/

/-- The operation after its receipt. -/
def received (validTime : String → Bool) (operation : ChainOperation) (receipt : ChainReceipt) :
    ChainOperation :=
  if operation.state = .submitted ∨ operation.state = .reorged then
    (transitionOperation validTime operation (receiptTransition receipt)).toOption.getD operation
  else operation

/-- A node that answers about blocks up to the head, with numbers a client can hold. -/
structure Faithful (rpc : Rpc) (latest : ChainBlock) : Prop where
  number : ∀ hash receipt, rpc.receipt hash = some receipt →
    (receipt.blockNumber : Int) ≤ latest.number
  index : ∀ hash receipt, rpc.receipt hash = some receipt →
    (receipt.transactionIndex : Int) ≤ Json.maxSafeInteger

/-- The synchronizer has caught up with this head. -/
structure CaughtUp (c : ChainSync.Config) (latest : ChainBlock) (db : Database) : Prop where
  settled : SettledAt c.chainId c.contract ⟨latest.number, latest.hash⟩ db
  below : latest.number < Json.maxSafeInteger

/-- An operation that the loop takes up. -/
structure Followed (c : ChainSync.Config) (db : Database) (operation : ChainOperation) : Prop where
  row : db.operation operation.operationId = .ok (some operation)
  chain : operation.chainId = c.chainId
  target : operation.target = c.contract
  state : operation.state ∈ [.submitted, .mined, .confirming, .reorged, .reconciliationFailed]

/-- The receipt of an operation is in a canonical block. -/
def Included (db : Database) (operation : ChainOperation) (receipt : ChainReceipt) : Prop :=
  ∃ block, db.canonicalBlock operation.chainId operation.target receipt.blockNumber =
    .ok (some block) ∧ block.hash = receipt.blockHash

/-- The transaction of an operation succeeded, and is now compared with the chain. -/
structure Reconciling (rpc : Rpc) (db : Database) (operation : ChainOperation)
    (receipt : ChainReceipt) : Prop where
  answered : ∃ hash, operation.txHash = some hash ∧ rpc.receipt hash = some receipt
  included : Included db operation receipt
  success : receipt.status = .success

def Settles (validTime : String → Bool) (rpc : Rpc) (db : Database) (operation : ChainOperation) :
    Prop :=
  ∃ receipt, Reconciling rpc db operation receipt ∧
    rpc.reconcile (received validTime operation receipt) receipt = .match_

def Fails (validTime : String → Bool) (rpc : Rpc) (db : Database) (operation : ChainOperation) :
    Prop :=
  ∃ receipt code, Reconciling rpc db operation receipt ∧
    rpc.reconcile (received validTime operation receipt) receipt = .mismatch code

section One

variable {c : ChainSync.Config} {rpc : Rpc} {latest : ChainBlock} {now : String}
  {receipt : ChainReceipt} {hash : Bytes32}

theorem Followed.txHash (h : Followed c db operation) (htable : Table validTime db) :
    ∃ hash, operation.txHash = some hash := by
  have hevidence := (htable.stored.operation_eq_some h.row).2.2.evidence
  rw [validateOperationEvidence, ensure_eq_ok] at hevidence
  have hstate := h.state
  simp only [List.mem_cons, List.not_mem_nil, or_false] at hstate
  have hsome : operation.txHash.isSome = true := by
    rcases hstate with hs | hs | hs | hs | hs <;>
      simp_all [validEvidence, ChainOperation.submitted]
  exact Option.isSome_iff_exists.mp hsome

theorem beginTracking_of (hcaught : CaughtUp c latest db) (h : Followed c db operation)
    (htable : Table validTime db) (hhash : operation.txHash = some hash) :
    beginTracking c operation.operationId latest db =
      .ok (operation, hash, ⟨latest.number, latest.hash⟩) := by
  obtain ⟨row, hrow, hplace, hprojected, hhealthy, herror, htarget⟩ := hcaught.settled.row
  have hsound := (htable.stored.operation_eq_some h.row).2.2
  have hchain : chainId c.chainId = .ok c.chainId := h.chain ▸ chainId_of hsound
  have hcheckpoint : db.checkpoint c.chainId c.contract = .ok (some ⟨latest.number, latest.hash⟩) := by
    rw [Database.checkpoint, hchain, ok_bind, checkpointAt]
    change Except.ok ((db.checkpoints.get? (c.chainId, c.contract)).map CheckpointRow.place) = _
    rw [hrow, Option.map_some, hplace]
  have hhealth : db.syncHealth c.chainId c.contract = .ok ⟨true, none⟩ := by
    have hvalid : healthValid row = true := by
      rw [healthValid, hhealthy, herror, htarget]
      rfl
    rw [Database.syncHealth, hchain, ok_bind, hcaught.settled.free, if_neg (by decide), hrow]
    dsimp only
    rw [check_of hvalid, ok_bind, hhealthy, herror]
    rfl
  unfold beginTracking
  rw [h.row, ok_bind]
  dsimp only
  rw [hhash]
  dsimp only
  rw [check_of ⟨h.chain, h.target⟩, ok_bind, hcheckpoint, ok_bind]
  dsimp only
  rw [check_of ⟨rfl, rfl⟩, ok_bind, hhealth, ok_bind, check_of rfl, ok_bind]
  rfl

theorem transactionIndex_valid (hindex : (receipt.transactionIndex : Int) ≤ Json.maxSafeInteger) :
    transactionIndexValid (some (receipt.transactionIndex : Int)) := by
  have hzero : (0 : Int) ≤ Json.maxSafeInteger := by decide
  exact ⟨⟨by omega, hindex⟩, by omega⟩

theorem received_step (validTime : String → Bool)
    (hstate : operation.state = .submitted ∨ operation.state = .reorged)
    (hindex : (receipt.transactionIndex : Int) ≤ Json.maxSafeInteger) :
    transitionOperation validTime operation (receiptTransition receipt) =
      .ok (received validTime operation receipt) := by
  have hallowed : (receiptTransition receipt).state ∈ transitions operation.state := by
    unfold receiptTransition
    split <;> rcases hstate with hs | hs <;> rw [hs] <;>
      simp [OperationTransition.state, transitions]
  have hok : ∃ next, applyTransition validTime operation (receiptTransition receipt) = .ok next := by
    have hvalid := transactionIndex_valid hindex
    have hnumber : (0 : Int) ≤ receipt.blockNumber := by omega
    unfold receiptTransition
    split <;>
    · rw [applyTransition, ensure_of hnumber, ok_bind, ensure_of hvalid, ok_bind]
      exact ⟨_, rfl⟩
  obtain ⟨next, happly⟩ := hok
  have hnext := transitionOperation_eq_ok.mpr ⟨hallowed, happly⟩
  rw [received, if_pos hstate, hnext]
  rfl

/-- What a receipt changes of an operation: nothing of its identity, and whoever was
reconciled before was not waiting for a receipt. -/
structure Kept (operation next : ChainOperation) : Prop where
  operationId : next.operationId = operation.operationId
  chainId : next.chainId = operation.chainId
  target : next.target = operation.target
  txHash : next.txHash = operation.txHash

theorem kept_of_transition {update : OperationTransition}
    (h : transitionOperation validTime operation update = .ok next)
    (hupdate : update.state ≠ .submitted) : Kept operation next := by
  obtain ⟨_, happly⟩ := transitionOperation_eq_ok.mp h
  obtain ⟨_, hid, hchain, _, htarget, _⟩ := applyTransition_state happly
  exact ⟨hid, hchain, htarget, applyTransition_txHash happly hupdate⟩

theorem Kept.trans {last : ChainOperation} (h : Kept operation next) (h' : Kept next last) :
    Kept operation last :=
  ⟨h'.operationId.trans h.operationId, h'.chainId.trans h.chainId, h'.target.trans h.target,
    h'.txHash.trans h.txHash⟩

theorem receiptTransition_state : (receiptTransition receipt).state ≠ .submitted := by
  unfold receiptTransition
  split <;> exact fun h => by cases h

theorem received_kept (hindex : (receipt.transactionIndex : Int) ≤ Json.maxSafeInteger) :
    Kept operation (received validTime operation receipt) := by
  by_cases hstate : operation.state = .submitted ∨ operation.state = .reorged
  · exact kept_of_transition (received_step validTime hstate hindex) receiptTransition_state
  · rw [received, if_neg hstate]
    exact ⟨rfl, rfl, rfl, rfl⟩

/-- A waiting operation is not reconciled by its receipt. -/
theorem received_waiting (validTime : String → Bool)
    (hstate : operation.state = .submitted ∨ operation.state = .reorged)
    (hindex : (receipt.transactionIndex : Int) ≤ Json.maxSafeInteger) :
    (received validTime operation receipt).reconciled = false ∧
      (received validTime operation receipt).confirmedAt = none ∧
      (received validTime operation receipt).submittedAt = operation.submittedAt ∧
      (received validTime operation receipt).calldata = operation.calldata ∧
      (received validTime operation receipt).blockNumber = some (receipt.blockNumber : Int) ∧
      (received validTime operation receipt).state =
        (match receipt.status with | .success => .mined | .reverted => .reverted) ∧
      (received validTime operation receipt).confirmations = 0 := by
  have hstep := received_step validTime hstate hindex
  obtain ⟨_, happly⟩ := transitionOperation_eq_ok.mp hstep
  unfold receiptTransition at happly
  cases hs : receipt.status <;> rw [hs] at happly <;>
  · simp only [applyTransition, bind_eq_ok, ensure_eq_ok, pure_eq_ok] at happly
    obtain ⟨_, _, _, _, heq⟩ := happly
    rw [← heq]
    exact ⟨rfl, rfl, rfl, rfl, rfl, rfl, rfl⟩

theorem received_compact (hcompact : Compact operation)
    (hindex : (receipt.transactionIndex : Int) ≤ Json.maxSafeInteger)
    (hnumber : (receipt.blockNumber : Int) ≤ Json.maxSafeInteger) :
    Compact (received validTime operation receipt) := by
  by_cases hstate : operation.state = .submitted ∨ operation.state = .reorged
  · obtain ⟨_, hconfirmed, hsubmitted, hcalldata, hblock, _⟩ :=
      received_waiting validTime hstate hindex
    refine ⟨?_, ?_, ?_, ?_⟩
    · rw [hcalldata]
      exact hcompact.calldata
    · rw [hsubmitted]
      exact hcompact.submittedAt
    · rw [hconfirmed]
      intro time htime
      cases htime
    · rw [hblock]
      intro number hmem
      rw [← Option.some.inj hmem]
      exact hnumber
  · rw [received, if_neg hstate]
    exact hcompact

theorem not_reserved (h : next.reconciled = false) :
    ¬ db.reservedElsewhere next.operationId (columnsOf next) := by
  rintro ⟨hreconciled, _⟩
  have hcolumn : next.reconciled = true := hreconciled
  rw [h] at hcolumn
  cases hcolumn

theorem settledAt_kept {id : Int} {contract : Address} {checkpoint : ChainCheckpoint}
    (h : SettledAt id contract checkpoint db) (hcheckpoints : db'.checkpoints = db.checkpoints)
    (hleases : db'.leases = db.leases) : SettledAt id contract checkpoint db' :=
  ⟨hleases ▸ h.free, hcheckpoints ▸ h.row, h.number⟩

/-- The write after a receipt always goes through. -/
theorem applyReceipt_of {checkpoint : ChainCheckpoint} (htable : Table validTime db)
    (hsettled : SettledAt operation.chainId operation.target checkpoint db)
    (hcurrent : db.operation operation.operationId = .ok (some operation))
    (hcompact : Compact operation)
    (hindex : (receipt.transactionIndex : Int) ≤ Json.maxSafeInteger)
    (hnumber : (receipt.blockNumber : Int) ≤ Json.maxSafeInteger) :
    ∃ db', applyReceipt validTime operation checkpoint receipt db =
        .ok (received validTime operation receipt, db') ∧
      Rewritten validTime (received validTime operation receipt) db db' := by
  unfold applyReceipt
  by_cases hstate : operation.state = .submitted ∨ operation.state = .reorged
  · have hstep := received_step validTime hstate hindex
    obtain ⟨db', hsave, hrewritten⟩ := guarded_rewrites htable hsettled hcurrent hcompact
      (Succeeds.step hstep) (received_compact hcompact hindex hnumber)
      (received_kept hindex).txHash (not_reserved (received_waiting validTime hstate hindex).1)
    rw [if_pos hstate, hstep, ok_bind, hsave, ok_bind]
    exact ⟨db', rfl, hrewritten⟩
  · rw [if_neg hstate, received, if_neg hstate]
    exact ⟨db, rfl, Rewritten.refl htable hcurrent⟩

theorem canonicalBlock_of (db : Database) (hsound : Sound validTime operation)
    (hnumber : (receipt.blockNumber : Int) ≤ Json.maxSafeInteger) :
    ∃ found, db.canonicalBlock operation.chainId operation.target receipt.blockNumber =
      .ok found := by
  have hsafe : safeNumber (receipt.blockNumber : Int) = .ok (receipt.blockNumber : Int) := by
    rw [safeNumber, check_of ⟨by omega, hnumber⟩]
    rfl
  rw [Database.canonicalBlock, chainId_of hsound, ok_bind, hsafe, ok_bind]
  exact ⟨_, rfl⟩

/-- A receipt that is not in the canonical chain changes nothing. -/
theorem onReceipt_displaced {checkpoint : ChainCheckpoint} (hsound : Sound validTime operation)
    (hnumber : (receipt.blockNumber : Int) ≤ Json.maxSafeInteger)
    (hmatches : receiptMatches operation hash receipt) (h : ¬ Included db operation receipt) :
    onReceipt validTime operation hash checkpoint (some receipt) db = .ok (db, none) := by
  obtain ⟨found, hfound⟩ := canonicalBlock_of db hsound hnumber
  unfold onReceipt
  dsimp only
  rw [check_of hmatches, ok_bind, hfound, ok_bind]
  cases found with
  | none => rfl
  | some block =>
      have hne : block.hash ≠ receipt.blockHash := fun heq => h ⟨block, hfound, heq⟩
      dsimp only
      rw [if_pos hne]
      rfl

theorem onReceipt_included {checkpoint : ChainCheckpoint}
    (hmatches : receiptMatches operation hash receipt) (h : Included db operation receipt)
    (happly : applyReceipt validTime operation checkpoint receipt db = .ok (next, db')) :
    onReceipt validTime operation hash checkpoint (some receipt) db =
      .ok (db', if receipt.status = .reverted ∨
          next.state ∉ [.mined, .confirming, .reconciliationFailed] then none
        else some (next, receipt)) := by
  obtain ⟨block, hblock, hsame⟩ := h
  unfold onReceipt
  dsimp only
  rw [check_of hmatches, ok_bind, hblock, ok_bind]
  dsimp only
  rw [if_neg (not_not_intro hsame), happly, ok_bind]
  dsimp only
  split
  · rfl
  · rfl

/-- An operation the loop takes up is ready to be reconciled after a success. -/
theorem received_ready (validTime : String → Bool) (hfollowed : Followed c db operation)
    (hindex : (receipt.transactionIndex : Int) ≤ Json.maxSafeInteger)
    (hsuccess : receipt.status = .success) :
    (received validTime operation receipt).state ∈
      [.mined, .confirming, .reconciliationFailed] := by
  by_cases hstate : operation.state = .submitted ∨ operation.state = .reorged
  · have hmined := (received_waiting validTime hstate hindex).2.2.2.2.2.1
    rw [hsuccess] at hmined
    rw [hmined]
    exact List.mem_cons_self
  · have hfollow := hfollowed.state
    rw [received, if_neg hstate]
    simp only [List.mem_cons, List.not_mem_nil, or_false, not_or] at hfollow hstate ⊢
    tauto

/-- Evidence of an operation that is waiting says that it is not reconciled. -/
theorem waiting_unreconciled (hsound : Sound validTime operation)
    (hstate : operation.state = .submitted ∨ operation.state = .reorged ∨
      operation.state = .reconciliationFailed) : operation.reconciled = false := by
  have hevidence := hsound.evidence
  rw [validateOperationEvidence, ensure_eq_ok] at hevidence
  rcases hstate with hs | hs | hs <;>
    simp_all [validEvidence, ChainOperation.basePending]

theorem received_reconciled (hsound : Sound validTime operation)
    (hindex : (receipt.transactionIndex : Int) ≤ Json.maxSafeInteger) :
    (received validTime operation receipt).reconciled = operation.reconciled := by
  by_cases hstate : operation.state = .submitted ∨ operation.state = .reorged
  · rw [(received_waiting validTime hstate hindex).1, waiting_unreconciled hsound (by tauto)]
  · rw [received, if_neg hstate]

/-- A failed comparison is recorded, once. -/
theorem onReconciled_mismatch (c : ChainSync.Config) (latest : ChainBlock) (now : String)
    (receipt : ChainReceipt) (code : MismatchCode) {checkpoint : ChainCheckpoint}
    (htable : Table validTime db)
    (hsettled : SettledAt operation.chainId operation.target checkpoint db)
    (hcurrent : db.operation operation.operationId = .ok (some operation))
    (hcompact : Compact operation)
    (hready : operation.state ∈ [.mined, .confirming, .reconciliationFailed]) :
    ∃ db' next, onReconciled c validTime operation receipt latest checkpoint (.mismatch code) now db =
        .ok db' ∧ Rewritten validTime next db db' ∧ Kept operation next ∧ Compact next ∧
      next.reconciled = false := by
  have hsound := (htable.stored.operation_eq_some hcurrent).2.2
  unfold onReconciled
  dsimp only
  by_cases hstate : operation.state = .reconciliationFailed
  · rw [if_pos hstate]
    exact ⟨db, operation, rfl, Rewritten.refl htable hcurrent, ⟨rfl, rfl, rfl, rfl⟩, hcompact,
      waiting_unreconciled hsound (by tauto)⟩
  · have hallowed : (OperationTransition.reconciliationFailed code).state ∈
        transitions operation.state := by
      change TransactionState.reconciliationFailed ∈ _
      simp only [List.mem_cons, List.not_mem_nil, or_false] at hready
      rcases hready with hs | hs | hs
      · rw [hs]
        decide
      · rw [hs]
        decide
      · exact absurd hs hstate
    have hstep : transitionOperation validTime operation (.reconciliationFailed code) =
        .ok { operation with
          state := .reconciliationFailed, errorCode := some code.errorCode, reconciled := false,
          confirmedAt := none } := transitionOperation_eq_ok.mpr ⟨hallowed, rfl⟩
    have hcompact' : Compact
        { operation with
          state := .reconciliationFailed, errorCode := some code.errorCode, reconciled := false,
          confirmedAt := none } :=
      ⟨hcompact.calldata, hcompact.submittedAt, (fun _ htime => by cases htime),
        hcompact.blockNumber⟩
    obtain ⟨db', hsave, hrewritten⟩ := guarded_rewrites htable hsettled hcurrent hcompact
      (Succeeds.step hstep) hcompact' rfl (not_reserved rfl)
    rw [if_neg hstate, hstep, ok_bind]
    exact ⟨db', _, hsave, hrewritten, ⟨rfl, rfl, rfl, rfl⟩, hcompact', rfl⟩

/-- The blocks on top of a receipt, its own included. -/
def depth (latest : ChainBlock) (receipt : ChainReceipt) : Int :=
  latest.number - receipt.blockNumber + 1

/-- The operation after a comparison that found what it should. -/
def settled (c : ChainSync.Config) (latest : ChainBlock) (now : String) (operation : ChainOperation)
    (receipt : ChainReceipt) : ChainOperation :=
  let confirming := { operation with
    state := .confirming, confirmations := depth latest receipt, reconciled := true,
    confirmedAt := none, errorCode := none }
  if c.softReadyDepth ≤ depth latest receipt then
    { confirming with
      state := .confirmed, confirmedAt := some now, canonical := true }
  else confirming

theorem settled_fields (c : ChainSync.Config) (latest : ChainBlock) (now : String)
    (operation : ChainOperation) (receipt : ChainReceipt) :
    Kept operation (settled c latest now operation receipt) ∧
      (settled c latest now operation receipt).reconciled = true ∧
      (settled c latest now operation receipt).calldata = operation.calldata ∧
      (settled c latest now operation receipt).submittedAt = operation.submittedAt ∧
      (settled c latest now operation receipt).blockNumber = operation.blockNumber ∧
      ∀ time ∈ (settled c latest now operation receipt).confirmedAt, time = now := by
  unfold settled
  dsimp only
  split
  · exact ⟨⟨rfl, rfl, rfl, rfl⟩, rfl, rfl, rfl, rfl, fun time htime => (Option.some.inj htime).symm⟩
  · exact ⟨⟨rfl, rfl, rfl, rfl⟩, rfl, rfl, rfl, rfl, fun time htime => by cases htime⟩

theorem settled_compact (hcompact : Compact operation) (hnow : now.length ≤ 100) :
    Compact (settled c latest now operation receipt) := by
  obtain ⟨_, _, hcalldata, hsubmitted, hblock, htime⟩ :=
    settled_fields c latest now operation receipt
  refine ⟨?_, ?_, ?_, ?_⟩
  · rw [hcalldata]
    exact hcompact.calldata
  · rw [hsubmitted]
    exact hcompact.submittedAt
  · intro time hmem
    rw [htime time hmem]
    exact hnow
  · rw [hblock]
    exact hcompact.blockNumber

theorem settled_steps (hready : operation.state ∈ [.mined, .confirming, .reconciliationFailed])
    (hdepth : 0 ≤ depth latest receipt ∧ depth latest receipt ≤ Json.maxSafeInteger)
    (hcounted : operation.confirmations ≤ depth latest receipt) (hnow : validTime now = true) :
    ∃ confirming, transitionOperation validTime operation
        (.confirming (depth latest receipt) (some true)) = .ok confirming ∧
      (if c.softReadyDepth ≤ depth latest receipt then
        transitionOperation validTime confirming (.confirmed (depth latest receipt) now true)
        else .ok confirming) = .ok (settled c latest now operation receipt) := by
  have hsafe : isSafeInteger (depth latest receipt) := by
    have hmax : (0 : Int) ≤ Json.maxSafeInteger := by decide
    exact ⟨by omega, hdepth.2⟩
  have hallowed : (OperationTransition.confirming (depth latest receipt) (some true)).state ∈
      transitions operation.state := by
    change TransactionState.confirming ∈ _
    rw [mem_transitions_iff]
    exact hready
  have hconfirming : transitionOperation validTime operation
      (.confirming (depth latest receipt) (some true)) =
      .ok { operation with
        state := .confirming, confirmations := depth latest receipt, reconciled := true,
        confirmedAt := none, errorCode := none } := by
    rw [transitionOperation_eq_ok]
    refine ⟨hallowed, ?_⟩
    rw [applyTransition, ensure_of ⟨hsafe, hcounted⟩, ok_bind]
    rfl
  refine ⟨_, hconfirming, ?_⟩
  unfold settled
  dsimp only
  split
  · rw [transitionOperation_eq_ok]
    refine ⟨?_, ?_⟩
    · change TransactionState.confirmed ∈ transitions .confirming
      decide
    · rw [applyTransition, ensure_of rfl, ok_bind, ensure_of ⟨hsafe, Int.le_refl _⟩, ok_bind,
        ensure_of hnow, ok_bind]
      rfl
  · rfl

/-- Whether a successful comparison is recorded. -/
theorem onReconciled_match {checkpoint : ChainCheckpoint} (htable : Table validTime db)
    (hsettled : SettledAt operation.chainId operation.target checkpoint db)
    (hcurrent : db.operation operation.operationId = .ok (some operation))
    (hcompact : Compact operation)
    (hready : operation.state ∈ [.mined, .confirming, .reconciliationFailed])
    (hhash : operation.txHash.isSome = true)
    (hdepth : 0 ≤ depth latest receipt ∧ depth latest receipt ≤ Json.maxSafeInteger)
    (hnow : validTime now = true) (hlength : now.length ≤ 100) :
    (operation.confirmations ≤ depth latest receipt ∧ ¬ Shared db operation →
      ∃ db', onReconciled c validTime operation receipt latest checkpoint .match_ now db = .ok db' ∧
        Rewritten validTime (settled c latest now operation receipt) db db') ∧
    (∀ db', onReconciled c validTime operation receipt latest checkpoint .match_ now db = .ok db' →
      operation.confirmations ≤ depth latest receipt ∧ ¬ Shared db operation) := by
  obtain ⟨hkept, hreconciled, _⟩ := settled_fields c latest now operation receipt
  have hcount : ChainSync.toCount (latest.number - receipt.blockNumber + 1) =
      .ok (depth latest receipt) := by
    rw [ChainSync.toCount]
    change (check (0 ≤ depth latest receipt ∧ depth latest receipt ≤ Json.maxSafeInteger) _ >>= _) = _
    rw [check_of hdepth]
    rfl
  have hshared : db.reservedElsewhere (settled c latest now operation receipt).operationId
      (columnsOf (settled c latest now operation receipt)) ↔ Shared db operation := by
    rw [reservedElsewhere_iff htable hreconciled (by rw [hkept.txHash]; exact hhash)]
    unfold Shared
    rw [hkept.operationId, hkept.chainId, hkept.txHash]
  refine ⟨?_, ?_⟩
  · rintro ⟨hcounted, hfree⟩
    obtain ⟨confirming, hconfirming, hlast⟩ :=
      settled_steps (c := c) hready hdepth hcounted hnow
    have hsucceeds : Succeeds validTime operation (settled c latest now operation receipt) := by
      split at hlast
      · exact Relation.TransGen.tail (Succeeds.step hconfirming) ⟨_, hlast⟩
      · exact Except.ok.inj hlast ▸ Succeeds.step hconfirming
    obtain ⟨db', hsave, hrewritten⟩ := guarded_rewrites htable hsettled hcurrent hcompact
      hsucceeds (settled_compact hcompact hlength) hkept.txHash (fun h => hfree (hshared.mp h))
    refine ⟨db', ?_, hrewritten⟩
    unfold onReconciled
    dsimp only
    rw [hcount, ok_bind, hconfirming, ok_bind, hlast, ok_bind, hsave]
  · intro db' h
    unfold onReconciled at h
    dsimp only at h
    rw [hcount, ok_bind] at h
    obtain ⟨confirming, hconfirming, h⟩ := bind_eq_ok.mp h
    have hcounted : operation.confirmations ≤ depth latest receipt := by
      obtain ⟨_, happly⟩ := transitionOperation_eq_ok.mp hconfirming
      simp only [applyTransition, bind_eq_ok, ensure_eq_ok] at happly
      obtain ⟨_, hcounted, _⟩ := happly
      exact hcounted.2
    refine ⟨hcounted, ?_⟩
    obtain ⟨confirming', hconfirming', hlast⟩ := settled_steps (c := c) hready hdepth hcounted hnow
    rw [hconfirming] at hconfirming'
    obtain rfl := Except.ok.inj hconfirming'
    rw [hlast, ok_bind] at h
    have hfree := (saveOperation_ok htable.stored (saveOperationAtCheckpoint_ok h).2.2).2.2
    exact fun hs => hfree (hshared.mpr hs)

/-- The operation was not counted deeper than the head allows. -/
def Counted (latest : ChainBlock) (operation : ChainOperation) (receipt : ChainReceipt) : Prop :=
  operation.state = .submitted ∨ operation.state = .reorged ∨
    operation.confirmations ≤ depth latest receipt

theorem received_counted (hindex : (receipt.transactionIndex : Int) ≤ Json.maxSafeInteger)
    (hdepth : 0 ≤ depth latest receipt) :
    (received validTime operation receipt).confirmations ≤ depth latest receipt ↔
      Counted latest operation receipt := by
  unfold Counted
  by_cases hstate : operation.state = .submitted ∨ operation.state = .reorged
  · rw [(received_waiting validTime hstate hindex).2.2.2.2.2.2]
    tauto
  · rw [received, if_neg hstate]
    tauto

/-- What lets one operation through. -/
structure Passes (validTime : String → Bool) (rpc : Rpc) (latest : ChainBlock) (db : Database)
    (operation : ChainOperation) : Prop where
  evidence : ∀ hash receipt, operation.txHash = some hash → rpc.receipt hash = some receipt →
    receiptMatches operation hash receipt
  counted : ∀ receipt, Reconciling rpc db operation receipt →
    rpc.reconcile (received validTime operation receipt) receipt = .match_ →
    Counted latest operation receipt
  alone : Settles validTime rpc db operation → ¬ Shared db operation

/-- What the loop leaves of one operation. -/
structure Tracked (validTime : String → Bool) (rpc : Rpc) (operation : ChainOperation)
    (db db' : Database) (next : ChainOperation) : Prop where
  rewritten : Rewritten validTime next db db'
  kept : Kept operation next
  compact : Compact next
  reconciled : next.reconciled = true ↔ Settles validTime rpc db operation ∨
    operation.reconciled = true ∧ ¬ Fails validTime rpc db operation

theorem Reconciling.receipt_eq (h : Reconciling rpc db operation receipt)
    (hhash : operation.txHash = some hash) : rpc.receipt hash = some receipt := by
  obtain ⟨hash', hhash', hreceipt⟩ := h.answered
  rw [hhash] at hhash'
  rw [Option.some.inj hhash']
  exact hreceipt

theorem Reconciling.unique {other : ChainReceipt} (h : Reconciling rpc db operation other)
    (hhash : operation.txHash = some hash) (hreceipt : rpc.receipt hash = some receipt) :
    other = receipt :=
  Option.some.inj ((h.receipt_eq hhash).symm.trans hreceipt)

theorem evidence_of (hhash : operation.txHash = some hash)
    (hreceipt : rpc.receipt hash = some receipt) (hmatches : receiptMatches operation hash receipt) :
    ∀ hash' receipt', operation.txHash = some hash' → rpc.receipt hash' = some receipt' →
      receiptMatches operation hash' receipt' := by
  intro hash' receipt' hhash' hreceipt'
  rw [hhash] at hhash'
  obtain rfl := Option.some.inj hhash'
  rw [hreceipt] at hreceipt'
  exact Option.some.inj hreceipt' ▸ hmatches

/-- An operation that is not compared passes with its evidence, and stays as it was. -/
theorem passes_of_none (hnone : ∀ receipt, ¬ Reconciling rpc db operation receipt)
    (hevidence : ∀ hash receipt, operation.txHash = some hash → rpc.receipt hash = some receipt →
      receiptMatches operation hash receipt) : Passes validTime rpc latest db operation where
  evidence := hevidence
  counted receipt h := absurd h (hnone receipt)
  alone := fun ⟨receipt, h, _⟩ => absurd h (hnone receipt)

theorem tracked_of_none (hnone : ∀ receipt, ¬ Reconciling rpc db operation receipt)
    (hrewritten : Rewritten validTime next db db') (hkept : Kept operation next)
    (hcompact : Compact next) (hreconciled : next.reconciled = operation.reconciled) :
    Tracked validTime rpc operation db db' next where
  rewritten := hrewritten
  kept := hkept
  compact := hcompact
  reconciled := by
    have hsettles : ¬ Settles validTime rpc db operation := fun ⟨receipt, h, _⟩ => hnone receipt h
    have hfails : ¬ Fails validTime rpc db operation := fun ⟨receipt, _, h, _⟩ => hnone receipt h
    rw [hreconciled]
    tauto

theorem shared_kept (hrewritten : Rewritten validTime next db db') (hkept : Kept operation next) :
    Shared db' next ↔ Shared db operation := by
  unfold Shared
  rw [hkept.operationId, hkept.chainId, hkept.txHash]
  constructor
  · rintro ⟨id, other, hne, hother, hrest⟩
    rw [hrewritten.others id (hkept.operationId ▸ hne)] at hother
    exact ⟨id, other, hne, hother, hrest⟩
  · rintro ⟨id, other, hne, hother, hrest⟩
    rw [← hrewritten.others id (hkept.operationId ▸ hne)] at hother
    exact ⟨id, other, hne, hother, hrest⟩

theorem depth_of (hfaithful : Faithful rpc latest) (hcaught : CaughtUp c latest db)
    (hreceipt : rpc.receipt hash = some receipt) :
    0 ≤ depth latest receipt ∧ depth latest receipt ≤ Json.maxSafeInteger := by
  have hnumber := hfaithful.number hash receipt hreceipt
  have hbelow := hcaught.below
  unfold depth
  omega

/-- The call goes through and does its work, or it throws. -/
def Outcome (validTime : String → Bool) (rpc : Rpc) (latest : ChainBlock) (db : Database)
    (operation : ChainOperation) (result : Except String Database) : Prop :=
  (Passes validTime rpc latest db operation ∧
    ∃ db' next, result = .ok db' ∧ Tracked validTime rpc operation db db' next) ∨
  (¬ Passes validTime rpc latest db operation ∧ ∃ e, result = .error e)

/-- From the answer of the comparison on. -/
theorem reconciled_outcome {checkpoint : ChainCheckpoint} (hfaithful : Faithful rpc latest)
    (hcaught : CaughtUp c latest db) (hnow : validTime now = true) (hlength : now.length ≤ 100)
    (hsettled : SettledAt operation.chainId operation.target checkpoint db')
    (hhash : operation.txHash = some hash) (hmatches : receiptMatches operation hash receipt)
    (hreconciling : Reconciling rpc db operation receipt)
    (hrewritten : Rewritten validTime (received validTime operation receipt) db db')
    (hcompact : Compact (received validTime operation receipt))
    (hready : (received validTime operation receipt).state ∈
      [.mined, .confirming, .reconciliationFailed]) :
    Outcome validTime rpc latest db operation
      (onReconciled c validTime (received validTime operation receipt) receipt latest checkpoint
        (rpc.reconcile (received validTime operation receipt) receipt) now db') := by
  have hreceipt := hreconciling.receipt_eq hhash
  have hindex := hfaithful.index hash receipt hreceipt
  have hkept : Kept operation (received validTime operation receipt) := received_kept hindex
  have hdepth := depth_of hfaithful hcaught hreceipt
  have honly : ∀ other, Reconciling rpc db operation other → other = receipt := fun other h =>
    h.unique hhash hreceipt
  have hevidence := evidence_of hhash hreceipt hmatches
  rw [← hkept.chainId, ← hkept.target] at hsettled
  cases hresult : rpc.reconcile (received validTime operation receipt) receipt with
  | mismatch code =>
      have hnone : ¬ Settles validTime rpc db operation := by
        rintro ⟨other, hother, hmatch⟩
        rw [honly other hother, hresult] at hmatch
        cases hmatch
      obtain ⟨db'', next, hok, hnext, hkept', hcompact', hfalse⟩ :=
        onReconciled_mismatch c latest now receipt code hrewritten.table hsettled hrewritten.row
          hcompact hready
      refine Or.inl ⟨⟨hevidence, ?_, fun h => absurd h hnone⟩, db'', next, hok,
        hrewritten.trans hnext hkept'.operationId, hkept.trans hkept', hcompact', ?_⟩
      · intro other hother hmatch
        exact absurd ⟨other, hother, hmatch⟩ hnone
      · have hfails : Fails validTime rpc db operation := ⟨receipt, code, hreconciling, hresult⟩
        rw [hfalse]
        constructor
        · intro h
          cases h
        · rintro (h | ⟨_, h⟩)
          · exact absurd h hnone
          · exact absurd hfails h
  | match_ =>
      have hsettles : Settles validTime rpc db operation := ⟨receipt, hreconciling, hresult⟩
      have hsome : (received validTime operation receipt).txHash.isSome = true := by
        rw [hkept.txHash, hhash]
        rfl
      obtain ⟨hthrough, honlyIf⟩ := onReconciled_match (c := c) hrewritten.table hsettled
        hrewritten.row hcompact hready hsome hdepth hnow hlength
      rw [received_counted hindex hdepth.1, shared_kept hrewritten hkept] at hthrough
      simp only [received_counted hindex hdepth.1, shared_kept hrewritten hkept] at honlyIf
      by_cases hpass : Counted latest operation receipt ∧ ¬ Shared db operation
      · obtain ⟨db'', hok, hnext⟩ := hthrough hpass
        obtain ⟨hkept', htrue, _⟩ := settled_fields c latest now
          (received validTime operation receipt) receipt
        refine Or.inl ⟨⟨hevidence, ?_, fun _ => hpass.2⟩, db'', _, hok,
          hrewritten.trans hnext hkept'.operationId, hkept.trans hkept',
          settled_compact hcompact hlength, ?_⟩
        · intro other hother _
          rw [honly other hother]
          exact hpass.1
        · exact ⟨fun _ => Or.inl hsettles, fun _ => htrue⟩
      · refine Or.inr ⟨fun h => hpass ⟨h.counted receipt hreconciling hresult, h.alone hsettles⟩, ?_⟩
        cases hon : onReconciled c validTime (received validTime operation receipt) receipt latest
            checkpoint .match_ now db' with
        | error e => exact ⟨e, rfl⟩
        | ok db'' => exact absurd (honlyIf db'' hon) hpass

/-- What `trackOperation` does of an operation it takes up. -/
theorem trackOperation_outcome (htable : Table validTime db) (hcaught : CaughtUp c latest db)
    (hfaithful : Faithful rpc latest) (hfollowed : Followed c db operation)
    (hcompact : Compact operation) (hnow : validTime now = true) (hlength : now.length ≤ 100) :
    Outcome validTime rpc latest db operation
      (ChainSync.trackOperation c validTime rpc latest now db operation.operationId) := by
  obtain ⟨hash, hhash⟩ := hfollowed.txHash htable
  have hsound := (htable.stored.operation_eq_some hfollowed.row).2.2
  have hsettled := hcaught.settled
  rw [← hfollowed.chain, ← hfollowed.target] at hsettled
  unfold ChainSync.trackOperation
  rw [beginTracking_of hcaught hfollowed htable hhash, ok_bind]
  dsimp only
  cases hreceipt : rpc.receipt hash with
  | none =>
      have hnone : ∀ receipt, ¬ Reconciling rpc db operation receipt := by
        intro receipt h
        rw [h.receipt_eq hhash] at hreceipt
        cases hreceipt
      refine Or.inl ⟨passes_of_none hnone ?_, db, operation, rfl, tracked_of_none hnone
        (Rewritten.refl htable hfollowed.row) ⟨rfl, rfl, rfl, rfl⟩ hcompact rfl⟩
      intro hash' receipt hhash' hreceipt'
      rw [hhash] at hhash'
      rw [← Option.some.inj hhash', hreceipt] at hreceipt'
      cases hreceipt'
  | some receipt =>
      have hindex := hfaithful.index hash receipt hreceipt
      have hnumber : (receipt.blockNumber : Int) ≤ Json.maxSafeInteger := by
        have hle := hfaithful.number hash receipt hreceipt
        have hbelow := hcaught.below
        omega
      by_cases hmatches : receiptMatches operation hash receipt
      · have honly : ∀ other, Reconciling rpc db operation other → other = receipt := fun other h =>
          h.unique hhash hreceipt
        have hevidence := evidence_of hhash hreceipt hmatches
        by_cases hincluded : Included db operation receipt
        · obtain ⟨db', happly, hrewritten⟩ := applyReceipt_of htable hsettled hfollowed.row hcompact
            hindex hnumber
          have hcompact' : Compact (received validTime operation receipt) :=
            received_compact hcompact hindex hnumber
          rw [onReceipt_included hmatches hincluded happly, ok_bind]
          by_cases hsuccess : receipt.status = .success
          · have hready := received_ready validTime hfollowed hindex hsuccess
            rw [if_neg (by rw [hsuccess]; simp [hready])]
            exact reconciled_outcome hfaithful hcaught hnow hlength
              (settledAt_kept hsettled hrewritten.checkpoints hrewritten.leases) hhash hmatches
              ⟨⟨hash, hhash, hreceipt⟩, hincluded, hsuccess⟩ hrewritten hcompact' hready
          · have hreverted : receipt.status = .reverted := by
              cases hstatus : receipt.status with
              | success => exact absurd hstatus hsuccess
              | reverted => rfl
            have hnone : ∀ other, ¬ Reconciling rpc db operation other := fun other h =>
              hsuccess (honly other h ▸ h.success)
            rw [if_pos (Or.inl hreverted)]
            exact Or.inl ⟨passes_of_none hnone hevidence, db', _, rfl, tracked_of_none hnone
              hrewritten (received_kept hindex) hcompact' (received_reconciled hsound hindex)⟩
        · have hnone : ∀ other, ¬ Reconciling rpc db operation other := fun other h =>
            hincluded (honly other h ▸ h.included)
          rw [onReceipt_displaced hsound hnumber hmatches hincluded, ok_bind]
          exact Or.inl ⟨passes_of_none hnone hevidence, db, operation, rfl, tracked_of_none hnone
            (Rewritten.refl htable hfollowed.row) ⟨rfl, rfl, rfl, rfl⟩ hcompact rfl⟩
      · refine Or.inr ⟨fun h => hmatches (h.evidence hash receipt hhash hreceipt),
          "RECEIPT_EVIDENCE_MISMATCH", ?_⟩
        unfold onReceipt
        dsimp only
        rw [check, if_neg hmatches]
        rfl

end One

end TradingRuntime
end AlphaForge
