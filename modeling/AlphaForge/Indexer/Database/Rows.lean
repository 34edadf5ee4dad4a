/-
Rows of operations, as they are written and read back.

A row that a save wrote reads back as the operation that was saved.  The guarded
save goes through only over the operation its caller has seen, and does so when
the checkpoint is settled and no other operation has the transaction.  The plain
one looks at no more than whose operation it is.
-/
import AlphaForge.Indexer.Database.Fingerprint

namespace AlphaForge
namespace Database

open Evm ChainStore Lifecycle

variable {validTime : String → Bool} {db db' : Database} {operation next : ChainOperation}

theorem operationOf_columnsOf (operation : ChainOperation) :
    operationOf operation.operationId (columnsOf operation) = .ok operation := by
  have hreceipt : (operation.receiptStatus.map receiptStatusText).mapM
      (readName receiptStatuses receiptStatusText) = .ok operation.receiptStatus := by
    cases operation.receiptStatus with
    | none => rfl
    | some status =>
        rw [Option.map_some, Option.mapM_some, readName_receiptStatus]
        rfl
  have herror : (operation.errorCode.map errorCodeText).mapM
      (readName errorCodes errorCodeText) = .ok operation.errorCode := by
    cases operation.errorCode with
    | none => rfl
    | some code =>
        rw [Option.map_some, Option.mapM_some, readName_errorCode]
        rfl
  unfold operationOf
  rw [show (columnsOf operation).state = stateText operation.state from rfl, readName_state, ok_bind,
    show (columnsOf operation).receiptStatus = operation.receiptStatus.map receiptStatusText from rfl,
    hreceipt, ok_bind,
    show (columnsOf operation).errorCode = operation.errorCode.map errorCodeText from rfl, herror,
    ok_bind]
  rfl

/-! ## Saving -/

/-- Every row was written for a sound operation. -/
def Stored (validTime : String → Bool) (db : Database) : Prop :=
  ∀ id row, db.operations.get? id = some row →
    ∃ operation, operation.operationId = id ∧ row = columnsOf operation ∧ Sound validTime operation

theorem operation_of_get? (h : db.operations.get? operation.operationId = some (columnsOf operation)) :
    db.operation operation.operationId = .ok (some operation) := by
  rw [Database.operation, h]
  dsimp only
  rw [operationOf_columnsOf, ok_bind]
  rfl

/-- What is read is a row that was written. -/
theorem Stored.operation_eq_some (h : Stored validTime db) {id : String}
    (hread : db.operation id = .ok (some operation)) :
    operation.operationId = id ∧ db.operations.get? id = some (columnsOf operation) ∧
      Sound validTime operation := by
  cases hrow : db.operations.get? id with
  | none =>
      rw [Database.operation, hrow] at hread
      cases hread
  | some row =>
      obtain ⟨written, rfl, rfl, hsound⟩ := h id row hrow
      have hsame := operation_of_get? hrow
      rw [hread] at hsame
      obtain rfl := Option.some.inj (Except.ok.inj hsame)
      exact ⟨rfl, rfl, hsound⟩

theorem Stored.operation_eq_none (h : Stored validTime db) {id : String}
    (hread : db.operation id = .ok none) : db.operations.get? id = none := by
  cases hrow : db.operations.get? id with
  | none => rfl
  | some row =>
      obtain ⟨written, rfl, rfl, _⟩ := h id row hrow
      rw [operation_of_get? hrow] at hread
      cases hread

/-- What a save left behind: the row of the operation, and the rest as it was. -/
structure Saved (operation : ChainOperation) (db db' : Database) : Prop where
  operations : db'.operations = db.operations.set operation.operationId (columnsOf operation)
  blocks : db'.blocks = db.blocks
  checkpoints : db'.checkpoints = db.checkpoints
  events : db'.events = db.events
  leases : db'.leases = db.leases
  projections : db'.projections = db.projections

/-- Columns of an operation that say whose it is, taken from a row that agrees. -/
theorem upsertColumns_same {previous : ChainOperation} (h : ¬ identityConflict previous operation) :
    upsertColumns (some (columnsOf previous)) (columnsOf operation) = columnsOf operation := by
  simp only [identityConflict, not_or, not_not] at h
  obtain ⟨hchain, howner, htarget, hcalldata, _⟩ := h
  simp only [upsertColumns, columnsOf, hchain, howner, htarget, hcalldata]

theorem saveOperation_ok (hstored : Stored validTime db)
    (h : saveOperation validTime operation db = .ok db') :
    Saved operation db db' ∧ validateOperationEvidence validTime operation = .ok () ∧
      ¬ db.reservedElsewhere operation.operationId (columnsOf operation) := by
  simp only [saveOperation, bind_eq_ok, check_eq_ok] at h
  obtain ⟨_, hevidence, _, _, previous, hprevious, _, hidentity, h⟩ := h
  have hrow : upsertColumns (db.operations.get? operation.operationId) (columnsOf operation) =
      columnsOf operation := by
    cases previous with
    | none => rw [hstored.operation_eq_none hprevious, upsertColumns]
    | some old =>
        obtain ⟨_, hget, _⟩ := hstored.operation_eq_some hprevious
        rw [hget]
        exact upsertColumns_same (hidentity old rfl)
  split at h
  · next saved hsaved =>
    obtain rfl := Except.ok.inj h
    simp only [upsertOperation, bind_eq_ok, check_eq_ok, pure_eq_ok, hrow] at hsaved
    obtain ⟨_, _, _, _, _, _, _, hfree, rfl⟩ := hsaved
    exact ⟨⟨rfl, rfl, rfl, rfl, rfl, rfl⟩, hevidence, hfree⟩
  · cases h

theorem Saved.stored (h : Saved operation db db') (hstored : Stored validTime db)
    (hsound : Sound validTime operation) : Stored validTime db' := by
  intro id row hrow
  rw [h.operations, OrderedMap.get?_set] at hrow
  split at hrow
  · next hid => exact ⟨operation, hid.symm, (Option.some.inj hrow).symm, hsound⟩
  · exact hstored id row hrow

/-- The guarded save goes through only over the operation that was expected. -/
theorem saveOperationAtCheckpoint_ok {expectedCheckpoint : ChainCheckpoint}
    (h : saveOperationAtCheckpoint validTime next operation expectedCheckpoint db = .ok db') :
    db.operation operation.operationId = .ok (some operation) ∧
      next.operationId = operation.operationId ∧ saveOperation validTime next db = .ok db' := by
  simp only [saveOperationAtCheckpoint, bind_eq_ok, check_eq_ok] at h
  obtain ⟨_, _, _, hidentity, id, _, _, _, h⟩ := h
  split at h
  · cases h
  · simp only [bind_eq_ok, check_eq_ok] at h
    obtain ⟨_, _, _, _, current, hcurrent, h⟩ := h
    split at h
    · cases h
    · next stored =>
      simp only [bind_eq_ok, check_eq_ok] at h
      obtain ⟨json, hjson, json', hjson', _, rfl, hsave⟩ := h
      obtain rfl := operationFingerprint_injective hjson hjson'
      exact ⟨hcurrent, hidentity.1, hsave⟩

/-! ## Saves that go through -/

theorem chainId_of (h : Sound validTime operation) :
    chainId operation.chainId = .ok operation.chainId := by
  rw [chainId, check_of ⟨h.wellFormed.chainId.2, h.wellFormed.chainId.1.2⟩]
  rfl

theorem saveOperation_of {previous : ChainOperation} (hstored : Stored validTime db)
    (hprevious : db.operation next.operationId = .ok (some previous))
    (hsound : Sound validTime next) (hcompact : Compact next)
    (hidentity : ¬ identityConflict previous next)
    (hfree : ¬ db.reservedElsewhere next.operationId (columnsOf next)) :
    ∃ db', saveOperation validTime next db = .ok db' := by
  obtain ⟨_, hget, _⟩ := hstored.operation_eq_some hprevious
  have hevidence := hsound.evidence
  have hindex : ∀ index ∈ next.transactionIndex, 0 ≤ index := by
    intro index hmem
    rw [validateOperationEvidence, ensure_eq_ok] at hevidence
    have hvalid := hevidence.2
    rw [hmem] at hvalid
    exact hvalid.2
  have hnumber : ∃ number, next.blockNumber.mapM safeNumber = .ok number := by
    cases hblock : next.blockNumber with
    | none => exact ⟨none, rfl⟩
    | some n =>
        have hlow := hsound.wellFormed.blockNumber n hblock
        refine ⟨some n, ?_⟩
        rw [Option.mapM_some, safeNumber, check_of ⟨hlow, hcompact.blockNumber n hblock⟩]
        rfl
  obtain ⟨number, hnumber⟩ := hnumber
  have hupsert : upsertOperation next db =
      .ok { db with operations := db.operations.set next.operationId (columnsOf next) } := by
    unfold upsertOperation
    rw [chainId_of hsound, ok_bind, hnumber, ok_bind, hget, upsertColumns_same hidentity]
    dsimp only
    rw [check_of ⟨hsound.wellFormed.confirmations.2, hindex⟩, ok_bind, check_of hfree, ok_bind]
    rfl
  have hconflict : ∀ old ∈ some previous, ¬ identityConflict old next := by
    intro old hold
    rw [← Option.some.inj hold]
    exact hidentity
  refine ⟨{ db with operations := db.operations.set next.operationId (columnsOf next) }, ?_⟩
  unfold saveOperation
  rw [hevidence, ok_bind, check_of hsound.wellFormed.operationId, ok_bind, hprevious, ok_bind,
    check_of hconflict, ok_bind, hupsert]

/-- The synchronizer is at this checkpoint, and no one else is writing. -/
structure SettledAt (id : Int) (contract : Address) (checkpoint : ChainCheckpoint) (db : Database) :
    Prop where
  free : db.leases.get? (id, contract) = none
  row : ∃ row, db.checkpoints.get? (id, contract) = some row ∧ settledAt checkpoint row
  number : 0 ≤ checkpoint.blockNumber ∧ checkpoint.blockNumber ≤ Json.maxSafeInteger

theorem assertSyncOwner_of {id : Int} {contract : Address} (h : db.leases.get? (id, contract) = none) :
    assertSyncOwner db.log id contract none = .ok () := by
  have hnone : db.log.leases.get? (id, contract) = none := by
    have hkeys := OrderedMap.get?_eq_none_iff.mp h
    rw [OrderedMap.get?_eq_none_iff]
    intro hmem
    refine hkeys ?_
    simpa [OrderedMap.keys, log] using hmem
  rw [assertSyncOwner, check_of hnone]

theorem saveOperationAtCheckpoint_of {checkpoint : ChainCheckpoint} (hstored : Stored validTime db)
    (hsettled : SettledAt operation.chainId operation.target checkpoint db)
    (hcurrent : db.operation operation.operationId = .ok (some operation))
    (hcompact : Compact operation) (hsound : Sound validTime next) (hnext : Compact next)
    (hidentity : SameIdentity operation next) (hhash : next.txHash = operation.txHash)
    (hfree : ¬ db.reservedElsewhere next.operationId (columnsOf next)) :
    ∃ db', saveOperationAtCheckpoint validTime next operation checkpoint db = .ok db' := by
  obtain ⟨_, _, hcurrentSound⟩ := hstored.operation_eq_some hcurrent
  obtain ⟨row, hrow, hplace⟩ := hsettled.row
  obtain ⟨json, hjson⟩ := operationFingerprint_of hcurrentSound hcompact
  have hconflict : ¬ identityConflict operation next := by
    rintro (h | h | h | h | ⟨_, _, h⟩)
    · exact h hidentity.chainId.symm
    · exact h hidentity.owner.symm
    · exact h hidentity.target.symm
    · exact h hidentity.calldata.symm
    · exact h hhash.symm
  have hread : db.operation next.operationId = .ok (some operation) := by
    rw [hidentity.operationId]
    exact hcurrent
  obtain ⟨db', hsave⟩ := saveOperation_of hstored hread hsound hnext hconflict hfree
  refine ⟨db', ?_⟩
  unfold saveOperationAtCheckpoint
  rw [hsound.evidence, ok_bind, check_of ⟨hidentity.operationId, hidentity.chainId, hidentity.owner,
    hidentity.target, hidentity.calldata, hhash⟩, ok_bind, chainId_of hsound, ok_bind,
    hidentity.chainId, hidentity.target, assertSyncOwner_of hsettled.free, ok_bind, hrow]
  dsimp only
  rw [safeNumber, check_of hsettled.number]
  dsimp only [ok_bind]
  rw [show (pure checkpoint.blockNumber : Except String Int) = .ok checkpoint.blockNumber from rfl,
    ok_bind, check_of hplace, ok_bind, hcurrent, ok_bind]
  dsimp only
  rw [hjson, ok_bind, ok_bind, check_of rfl, ok_bind, hsave]

end Database
end AlphaForge
