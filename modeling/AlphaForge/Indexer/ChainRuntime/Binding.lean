/-
Which operation a transaction belongs to.

Any number of reports of one hash may wait, and the unique index lets only one of
them be reconciled.  `Bound` is the invariant: a save that would reconcile a second
one is refused, and a rollback only gives a transaction up.  The content of an
operation never changes, so a report that is repeated finds its operation again, and
one under another name finds that the hash is taken.
-/
import AlphaForge.Indexer.ChainRuntime
import AlphaForge.Indexer.TradingRuntime.Loop

namespace AlphaForge
namespace ChainRuntime

open Evm ChainStore Lifecycle Database Machine
open ChainSync (onReceipt onReconciled)
open Indexer (ChainReceipt ReconciliationResult)
open TradingRuntime (Tracking Writes Table Legal Succeeds after rewritten_of_saved table_of_same
  onReceipt_writes onReconciled_writes reorgOperations_legal operation_saved)

variable {c : Config} {validTime : String → Bool} {db db' : Database}
  {operation next : ChainOperation} {input : ObservedWalletSubmission}

/-! ## The rows of a transaction -/

/-- Reconciled rows of one transaction are the same row. -/
def Exclusive (operations : OrderedMap String OperationColumns) : Prop :=
  ∀ id id' row row', operations.get? id = some row → operations.get? id' = some row' →
    row.reconciled = true → row'.reconciled = true → row.chainId = row'.chainId →
    row.txHash = row'.txHash → id = id'

theorem reconciled_txHash (h : Sound validTime operation) (hreconciled : operation.reconciled = true) :
    operation.txHash.isSome = true := by
  have hevidence := h.evidence
  rw [validateOperationEvidence, ensure_eq_ok, validEvidence] at hevidence
  have hvalid := hevidence.1
  cases hstate : operation.state <;> rw [hstate] at hvalid <;>
    simp_all [ChainOperation.submitted, ChainOperation.basePending]

theorem exclusive_of_saved (hexclusive : Exclusive db.operations)
    (hsound : Sound validTime next) (hsaved : Saved next db db')
    (hfree : ¬ db.reservedElsewhere next.operationId (columnsOf next)) :
    Exclusive db'.operations := by
  -- another reconciled row of the transaction is what the index refuses
  have hnew : ∀ id row, id ≠ next.operationId → db.operations.get? id = some row →
      row.reconciled = true → next.reconciled = true → row.chainId = next.chainId →
      row.txHash = next.txHash → False := by
    intro id row hne hrow hreconciled hnext hchain htx
    exact hfree ⟨hnext, reconciled_txHash hsound hnext, (id, row), OrderedMap.mem_of_get? hrow, hne,
      hchain, htx, hreconciled⟩
  intro id id' row row' hrow hrow' hreconciled hreconciled' hchain htx
  rw [hsaved.operations, OrderedMap.get?_set] at hrow hrow'
  split at hrow <;> split at hrow'
  · next hid hid' => rw [hid, hid']
  · next hid hid' =>
    obtain rfl := Option.some.inj hrow
    exact (hnew id' row' hid' hrow' hreconciled' hreconciled hchain.symm htx.symm).elim
  · next hid hid' =>
    obtain rfl := Option.some.inj hrow'
    exact (hnew id row hid hrow hreconciled hreconciled' hchain htx).elim
  · exact hexclusive id id' row row' hrow hrow' hreconciled hreconciled' hchain htx

/-- A rollback leaves a row reconciled only where it leaves it alone. -/
theorem exclusive_of_reorg (id : Int) (address : Address) (number : Int)
    {operations : OrderedMap String OperationColumns} (h : Exclusive operations) :
    Exclusive (reorgOperations id address number operations) := by
  have hkept : ∀ key row, (reorgOperations id address number operations).get? key = some row →
      row.reconciled = true → operations.get? key = some row := by
    intro key row hrow hreconciled
    rw [reorgOperations, OrderedMap.get?_mapValues] at hrow
    obtain ⟨old, hold, hvalue⟩ := Option.map_eq_some_iff.mp hrow
    split at hvalue
    · rw [← hvalue] at hreconciled
      cases hreconciled
    · rw [hold, hvalue]
  intro key key' row row' hrow hrow' hreconciled hreconciled' hchain htx
  exact h key key' row row' (hkept key row hrow hreconciled) (hkept key' row' hrow' hreconciled')
    hreconciled hreconciled' hchain htx

/-! ## Reachable databases -/

/-- The operations of the runtime's chain, one row each, and at most one of them
reconciled for a transaction. -/
structure Bound (c : Config) (validTime : String → Bool) (db : Database) : Prop where
  table : Table validTime db
  exclusive : Exclusive db.operations
  chain : ∀ id row, db.operations.get? id = some row → row.chainId = c.chainId

theorem bound_of_saved (h : Bound c validTime db) (hsound : Sound validTime next)
    (hchain : next.chainId = c.chainId) (hsaved : Saved next db db')
    (hfree : ¬ db.reservedElsewhere next.operationId (columnsOf next)) : Bound c validTime db' where
  table := (rewritten_of_saved h.table hsound hsaved).table
  exclusive := exclusive_of_saved h.exclusive hsound hsaved hfree
  chain id row hrow := by
    rw [hsaved.operations, OrderedMap.get?_set] at hrow
    split at hrow
    · rw [← Option.some.inj hrow]
      exact hchain
    · exact h.chain id row hrow

theorem bound_of_same (h : Bound c validTime db) (hsame : db'.operations = db.operations) :
    Bound c validTime db' :=
  ⟨table_of_same h.table hsame, hsame ▸ h.exclusive, fun id row hrow =>
    h.chain id row (hsame ▸ hrow)⟩

/-- The stretches of `trackOperation` save, if at all, what succeeds the row they find. -/
theorem bound_of_writes (h : Bound c validTime db) (hwrites : Writes validTime db db') :
    Bound c validTime db' := by
  cases hwrites with
  | nothing hsame => exact bound_of_same h (by rw [hsame])
  | guarded operation next checkpoint hsave hsucceeds =>
      obtain ⟨hcurrent, hid, hplain⟩ := saveOperationAtCheckpoint_ok hsave
      obtain ⟨_, hget, hsound⟩ := h.table.stored.operation_eq_some hcurrent
      obtain ⟨hsaved, _, hfree⟩ := saveOperation_ok h.table.stored hplain
      refine bound_of_saved h (hsucceeds.sound hsound) ?_ hsaved hfree
      rw [(hsucceeds.identity hsound).chainId]
      exact h.chain _ _ hget

/-! ## Reports -/

/-- A report that is accepted is of an operation that is there, or saves a new one that
nothing else has. -/
theorem recordSubmission_ok {now : String} (hstored : Stored validTime db)
    (h : recordSubmission c validTime input now db = .ok (operation, db')) :
    followable c input ∧ sameContent input operation ∧ operation.operationId = input.operationId ∧
      (db' = db ∧ db.operation input.operationId = .ok (some operation) ∨
        db.operation input.operationId = .ok none ∧ transactionOf input db = .ok none ∧
          Sound validTime operation ∧ Saved operation db db' ∧
          ¬ db.reservedElsewhere operation.operationId (columnsOf operation)) := by
  simp only [recordSubmission, bind_eq_ok, check_eq_ok] at h
  obtain ⟨_, hfollow, found, hfound, h⟩ := h
  refine ⟨hfollow, ?_⟩
  cases found with
  | some existing =>
      simp only [bind_eq_ok, check_eq_ok, pure_eq_ok, Prod.mk.injEq] at h
      obtain ⟨_, hsame, rfl, rfl⟩ := h
      exact ⟨hsame, (hstored.operation_eq_some hfound).1, Or.inl ⟨rfl, hfound⟩⟩
  | none =>
      simp only [bind_eq_ok, check_eq_ok, pure_eq_ok, Prod.mk.injEq] at h
      obtain ⟨transaction, htransaction, _, rfl, created, hcreate, submitted, hstep, saved, hsave,
        rfl, rfl⟩ := h
      have hsound : Sound validTime created := created_sound hcreate
      have hidentity := transition_identity hstep hsound.evidence
      obtain ⟨hsaved, _, hfree⟩ := saveOperation_ok hstored hsave
      have hhash : submitted.txHash = some input.txHash := by
        have happly := (transitionOperation_eq_ok.mp hstep).2
        simp only [applyTransition, bind_eq_ok, ensure_eq_ok, pure_eq_ok] at happly
        obtain ⟨_, _, rfl⟩ := happly
        rfl
      simp only [createOperation, bind_eq_ok, ensure_eq_ok, pure_eq_ok] at hcreate
      obtain ⟨_, _, _, _, rfl⟩ := hcreate
      exact ⟨⟨hidentity.chainId, hhash, hidentity.owner, hidentity.target, hidentity.calldata⟩,
        hidentity.operationId, Or.inr ⟨hfound, htransaction, hsound.transition hstep, hsaved, hfree⟩⟩

/-! ## Steps -/

/-- What a step may do to the operations. -/
inductive Change (c : Config) (validTime : String → Bool) (db db' : Database) : Prop where
  | same (h : db'.operations = db.operations)
  | recorded (input : ObservedWalletSubmission) (now : String) (operation : ChainOperation)
      (h : recordSubmission c validTime input now db = .ok (operation, db'))
  | tracked (h : Writes validTime db db')
  | reorged (id : Int) (address : Address) (number : Int)
      (h : db'.operations = reorgOperations id address number db.operations)

theorem change_after {result : Except String Database}
    (h : ∀ saved, result = .ok saved → Writes validTime db saved) :
    Change c validTime db (after db result) := by
  cases result with
  | ok saved => exact .tracked (h saved rfl)
  | error e => exact .same rfl

theorem step_change {a : Action} {s s' : State} (h : step c validTime a s = .ok s') :
    Change c validTime s.db s'.db := by
  cases a with
  | recordSubmission input now =>
      simp only [step, bind_eq_ok, pure_eq_ok] at h
      obtain ⟨⟨operation, db⟩, hrecord, rfl⟩ := h
      exact .recorded input now operation hrecord
  | trackOperation contract id latest =>
      simp only [step, bind_eq_ok, pure_eq_ok] at h
      obtain ⟨⟨operation, transactionHash, checkpoint⟩, _, rfl⟩ := h
      exact .same rfl
  | receipt place answer =>
      simp only [step] at h
      split at h
      · split at h
        · next hreceipt =>
          rw [← Except.ok.inj h]
          exact .tracked (onReceipt_writes hreceipt)
        · next hreceipt =>
          rw [← Except.ok.inj h]
          exact .tracked (onReceipt_writes hreceipt)
        · rw [← Except.ok.inj h]
          exact .same rfl
      · rw [← Except.ok.inj h]
        exact .same rfl
      · cases h
  | reconciled place answer now =>
      simp only [step] at h
      split at h
      · rw [← Except.ok.inj h]
        exact change_after fun saved hsaved => onReconciled_writes hsaved
      · rw [← Except.ok.inj h]
        exact .same rfl
      · cases h
  | recordCanonicalBlock contract r ownerToken =>
      simp only [step, bind_eq_ok, pure_eq_ok] at h
      obtain ⟨⟨log, _⟩, _, rfl⟩ := h
      exact .same rfl
  | rollbackFromBlock contract fromBlock ownerToken =>
      simp only [step, Database.rollbackFromBlock, bind_eq_ok, pure_eq_ok] at h
      obtain ⟨db, ⟨id, _, number, _, ⟨log, _⟩, _, rfl⟩, rfl⟩ := h
      exact .reorged id (synchronizer c contract).contract number rfl
  | bookkeeping checkpoints leases projections =>
      rw [← Except.ok.inj h]
      exact .same rfl

theorem Change.bound (hchange : Change c validTime db db') (h : Bound c validTime db) :
    Bound c validTime db' := by
  cases hchange with
  | same hsame => exact bound_of_same h hsame
  | recorded input now operation hrecord =>
      obtain ⟨hfollow, hsame, _, hcases⟩ := recordSubmission_ok h.table.stored hrecord
      rcases hcases with ⟨rfl, _⟩ | ⟨_, _, hsound, hsaved, hfree⟩
      · exact h
      · exact bound_of_saved h hsound (hsame.1.trans hfollow.1) hsaved hfree
  | tracked hwrites => exact bound_of_writes h hwrites
  | reorged id address number hreorg =>
      refine ⟨⟨(reorgOperations_legal h.table.stored hreorg).1, ?_⟩, ?_, fun key row hrow => ?_⟩
      · rw [hreorg, reorgOperations, OrderedMap.keys_mapValues]
        exact h.table.keys
      · rw [hreorg]
        exact exclusive_of_reorg id address number h.exclusive
      · rw [hreorg, reorgOperations, OrderedMap.get?_mapValues] at hrow
        obtain ⟨old, hold, rfl⟩ := Option.map_eq_some_iff.mp hrow
        have hchain := h.chain key old hold
        split
        · exact hchain
        · exact hchain

/-- Operations stay, and only go on. -/
theorem Change.legal (hchange : Change c validTime db db') (h : Bound c validTime db) :
    Legal validTime db db' := by
  cases hchange with
  | same hsame => exact Legal.of_same hsame
  | recorded input now operation hrecord =>
      obtain ⟨_, _, hid, hcases⟩ := recordSubmission_ok h.table.stored hrecord
      rcases hcases with ⟨rfl, _⟩ | ⟨hnone, _, _, hsaved, _⟩
      · exact Legal.of_same rfl
      · refine TradingRuntime.legal_of_saved hsaved (fun before hbefore => ?_)
        rw [hid, hnone] at hbefore
        cases hbefore
  | tracked hwrites => exact (hwrites.legal h.table.stored).2
  | reorged id address number hreorg => exact (reorgOperations_legal h.table.stored hreorg).2

/-- The operation of a submission is in the database, with its content. -/
def Recorded (input : ObservedWalletSubmission) (db : Database) : Prop :=
  ∃ operation, db.operation input.operationId = .ok (some operation) ∧ sameContent input operation

theorem Change.recorded_kept (hchange : Change c validTime db db') (h : Bound c validTime db)
    (hrecorded : Recorded input db) : Recorded input db' := by
  obtain ⟨operation, hread, hchain, hhash, howner, htarget, hcalldata⟩ := hrecorded
  have hsound := (h.table.stored.operation_eq_some hread).2.2
  obtain ⟨later, hlater, rfl | hsucceeds⟩ := hchange.legal h _ operation hread
  · exact ⟨later, hlater, hchain, hhash, howner, htarget, hcalldata⟩
  · have hidentity := hsucceeds.identity hsound
    exact ⟨later, hlater, hidentity.chainId.trans hchain, hidentity.txHash _ hhash,
      hidentity.owner.trans howner, hidentity.target.trans htarget,
      hidentity.calldata.trans hcalldata⟩

theorem recordSubmission_recorded {now : String} (h : Bound c validTime db)
    (hrecord : recordSubmission c validTime input now db = .ok (operation, db')) :
    followable c input ∧ Recorded input db' := by
  obtain ⟨hfollow, hsame, hid, hcases⟩ := recordSubmission_ok h.table.stored hrecord
  refine ⟨hfollow, operation, ?_, hsame⟩
  rcases hcases with ⟨rfl, hread⟩ | ⟨_, _, _, hsaved, _⟩
  · exact hread
  · rw [operation_saved hsaved, if_pos hid.symm]

theorem run_bound (db : Database) (as : List Action) :
    Bound c validTime (exec (step c validTime) (start db) as).db := by
  refine exec_invariant (P := fun s : State => Bound c validTime s.db)
    (fun a s s' hs h => (step_change h).bound hs) ⟨⟨?_, ?_⟩, ?_, ?_⟩ as
  · intro id row hrow
    cases hrow
  · exact List.nodup_nil
  · intro id id' row row' hrow
    cases hrow
  · intro id row hrow
    cases hrow

/-! ## Transactions that are taken -/

theorem Bound.read (h : Bound c validTime db) {id : String} {row : OperationColumns}
    (hget : db.operations.get? id = some row) :
    ∃ operation, db.operation id = .ok (some operation) := by
  obtain ⟨operation, rfl, rfl, _⟩ := h.table.stored id row hget
  exact ⟨operation, operation_of_get? hget⟩

theorem operationBySubmission_isSome (h : Bound c validTime db)
    (hother : db.operation operation.operationId = .ok (some operation))
    (hsame : sameContent input operation) :
    ∃ found, operationBySubmission input db = .ok (some found) := by
  obtain ⟨_, hget, hsound⟩ := h.table.stored.operation_eq_some hother
  have hid : chainId input.chainId = .ok input.chainId := hsame.1 ▸ chainId_of hsound
  set ids := (db.operations.filter (fun e => sameSubmission input e.2)).map Prod.fst with hids
  have hmem : operation.operationId ∈ ids.insertionSort (· ≤ ·) := by
    rw [List.mem_insertionSort, hids]
    refine List.mem_map.mpr ⟨(_, columnsOf operation), List.mem_filter.mpr ⟨?_, ?_⟩, rfl⟩
    · exact OrderedMap.mem_of_get? hget
    · exact decide_eq_true hsame
  unfold operationBySubmission
  rw [hid, ok_bind]
  dsimp only
  rw [← hids]
  cases hfirst : (ids.insertionSort (· ≤ ·)).head? with
  | none =>
      rw [List.head?_eq_none_iff] at hfirst
      rw [hfirst] at hmem
      cases hmem
  | some first =>
      have hfound : first ∈ ids :=
        (List.mem_insertionSort _).mp (List.mem_of_head? hfirst)
      obtain ⟨⟨id, row⟩, hrow, rfl⟩ := List.mem_map.mp hfound
      exact h.read ((OrderedMap.mem_iff_get? h.table.keys).mp (List.mem_filter.mp hrow).1)

/-- The hash is reconciled, or the submission is there under any name. -/
def Taken (input : ObservedWalletSubmission) (db : Database) : Prop :=
  ∃ id other, db.operation id = .ok (some other) ∧ other.txHash = some input.txHash ∧
    ((other.chainId = input.chainId ∧ other.reconciled = true) ∨
      (other.owner = input.owner ∧ other.target = input.target ∧
        other.calldata = some input.calldata))

theorem transactionOf_taken (h : Bound c validTime db) (hchain : input.chainId = c.chainId)
    (htaken : Taken input db) : ∃ transaction, transactionOf input db = .ok (some transaction) := by
  obtain ⟨id, other, hother, hhash, hcases⟩ := htaken
  obtain ⟨rfl, hget, hsound⟩ := h.table.stored.operation_eq_some hother
  have hsame : other.chainId = input.chainId := (h.chain _ _ hget).trans hchain.symm
  have hid : chainId input.chainId = .ok input.chainId := hsame ▸ chainId_of hsound
  unfold transactionOf Database.operationByTransaction
  rw [hid, ok_bind]
  cases hreserved : db.reservedBy input.chainId input.txHash with
  | some e =>
      have hmem : e ∈ db.operations := List.mem_of_find?_eq_some hreserved
      obtain ⟨transaction, hread⟩ := h.read ((OrderedMap.mem_iff_get? h.table.keys).mp hmem)
      refine ⟨transaction, ?_⟩
      dsimp only
      rw [hread, ok_bind]
      rfl
  | none =>
      -- no one is reconciled, so it is the submission that is there
      rcases hcases with ⟨_, hreconciled⟩ | ⟨howner, htarget, hcalldata⟩
      · have hnone := List.find?_eq_none.mp hreserved _ (OrderedMap.mem_of_get? hget)
        exact absurd (decide_eq_true ⟨hsame, hhash, hreconciled⟩) hnone
      · exact operationBySubmission_isSome h hother ⟨hsame, hhash, howner, htarget, hcalldata⟩

theorem recordSubmission_refused (h : Bound c validTime db)
    (hnew : db.operation input.operationId = .ok none) (htaken : Taken input db) (now : String) :
    recordSubmission c validTime input now db =
      .error (if followable c input then "OPERATION_IDENTITY_CONFLICT"
        else "INVALID_M3_WALLET_SUBMISSION") := by
  unfold recordSubmission
  by_cases hfollow : followable c input
  · obtain ⟨transaction, htransaction⟩ := transactionOf_taken h hfollow.1 htaken
    have hsome : ¬ some transaction = none := Option.some_ne_none transaction
    rw [check_of hfollow, ok_bind, hnew, ok_bind, if_pos hfollow]
    dsimp only
    rw [htransaction, ok_bind, check, if_neg hsome]
    rfl
  · rw [check, if_neg hfollow, if_neg hfollow]
    rfl

theorem recordSubmission_again (hfollow : followable c input)
    (hread : db.operation input.operationId = .ok (some operation))
    (hsame : sameContent input operation) (now : String) :
    recordSubmission c validTime input now db = .ok (operation, db) := by
  unfold recordSubmission
  rw [check_of hfollow, ok_bind, hread, ok_bind]
  dsimp only
  rw [check_of hsame]
  rfl

/-! ## A second operation of a transaction -/

/-- Another operation has the transaction and is reconciled. -/
def ReconciledElsewhere (operation : ChainOperation) (db : Database) : Prop :=
  ∃ id other, id ≠ operation.operationId ∧ db.operation id = .ok (some other) ∧
    other.chainId = operation.chainId ∧ other.txHash = operation.txHash ∧ other.reconciled = true

theorem saveOperation_taken (h : Bound c validTime db) (hreconciled : next.reconciled = true)
    (htaken : ReconciledElsewhere next db) :
    ¬ ∃ saved, saveOperation validTime next db = .ok saved := by
  rintro ⟨saved, hsave⟩
  obtain ⟨id, other, hne, hother, hchain, hhash, hother'⟩ := htaken
  obtain ⟨rfl, hget, hsound⟩ := h.table.stored.operation_eq_some hother
  obtain ⟨_, _, hfree⟩ := saveOperation_ok h.table.stored hsave
  have hsome : next.txHash.isSome = true := by
    rw [← hhash]
    exact reconciled_txHash hsound hother'
  exact hfree ⟨hreconciled, hsome, (other.operationId, columnsOf other),
    OrderedMap.mem_of_get? hget, hne, hchain, hhash, hother'⟩

/-- Both steps of a comparison that found what it should leave the operation reconciled. -/
theorem reconciling_next {update : OperationTransition}
    (h : transitionOperation validTime operation update = .ok next)
    (hupdate : (∃ n, update = .confirming n (some true)) ∨ ∃ n at_, update = .confirmed n at_ true) :
    next.reconciled = true ∧ next.operationId = operation.operationId ∧
      next.chainId = operation.chainId ∧ next.txHash = operation.txHash := by
  obtain ⟨_, happly⟩ := transitionOperation_eq_ok.mp h
  rcases hupdate with ⟨n, rfl⟩ | ⟨n, time, rfl⟩
  · simp only [applyTransition, bind_eq_ok, ensure_eq_ok, pure_eq_ok] at happly
    obtain ⟨_, _, rfl⟩ := happly
    exact ⟨rfl, rfl, rfl, rfl⟩
  · simp only [applyTransition, bind_eq_ok, ensure_eq_ok, pure_eq_ok] at happly
    obtain ⟨_, _, _, _, _, _, rfl⟩ := happly
    exact ⟨rfl, rfl, rfl, rfl⟩

theorem onReconciled_taken (h : Bound c validTime db) (htaken : ReconciledElsewhere operation db)
    (sync : ChainSync.Config) (receipt : ChainReceipt) (latest : ChainBlock)
    (checkpoint : ChainCheckpoint) (now : String) :
    ∃ error, onReconciled sync validTime operation receipt latest checkpoint .match_ now db =
      .error error := by
  cases hresult : onReconciled sync validTime operation receipt latest checkpoint .match_ now db with
  | error error => exact ⟨error, rfl⟩
  | ok saved =>
      simp only [onReconciled, bind_eq_ok] at hresult
      obtain ⟨confirmations, _, confirming, hconfirming, next, hnext, hsave⟩ := hresult
      obtain ⟨hreconciled, hid, hchain, hhash⟩ :=
        reconciling_next hconfirming (Or.inl ⟨confirmations, rfl⟩)
      have hfinal : next.reconciled = true ∧ next.operationId = operation.operationId ∧
          next.chainId = operation.chainId ∧ next.txHash = operation.txHash := by
        split at hnext
        · obtain ⟨hreconciled', hid', hchain', hhash'⟩ :=
            reconciling_next hnext (Or.inr ⟨confirmations, now, rfl⟩)
          exact ⟨hreconciled', hid'.trans hid, hchain'.trans hchain, hhash'.trans hhash⟩
        · obtain rfl := Except.ok.inj hnext
          exact ⟨hreconciled, hid, hchain, hhash⟩
      obtain ⟨hreconciled, hid, hchain, hhash⟩ := hfinal
      refine absurd ⟨saved, (saveOperationAtCheckpoint_ok hsave).2.2⟩
        (saveOperation_taken h hreconciled ?_)
      obtain ⟨key, other, hne, hread, hother⟩ := htaken
      exact ⟨key, other, hid ▸ hne, hread, hchain ▸ hhash ▸ hother⟩

/-- A comparison that fails ends its call. -/
theorem reconciled_fails {s : State} {place : Nat} {sync : ChainSync.Config} {receipt : ChainReceipt}
    {checkpoint : ChainCheckpoint} {latest : ChainBlock} {result : ReconciliationResult}
    {now error : String}
    (hcall : s.tracking[place]? = some (sync, .reconciliation operation receipt checkpoint latest))
    (hfails : onReconciled sync validTime operation receipt latest checkpoint result now s.db =
      .error error) :
    step c validTime (.reconciled place (.ok result) now) s =
      .ok ⟨s.db, s.tracking.eraseIdx place⟩ := by
  simp only [step, hcall, hfails, after]

/-! ## Runs -/

/-- After any run, no two operations of one transaction are reconciled.  A report that
was accepted is answered with its operation when it comes again, and changes nothing;
one under a new name is refused when the hash is reconciled or the submission is there.
A comparison that would reconcile a second operation of a transaction fails and leaves
the database as it was. -/
theorem binding_exclusive (c : Config) (validTime : String → Bool) (db : Database)
    (as : List Action) :
    (∀ id id' a b, (exec (step c validTime) (start db) as).db.operation id = .ok (some a) →
      (exec (step c validTime) (start db) as).db.operation id' = .ok (some b) →
      a.reconciled = true → b.reconciled = true → a.chainId = b.chainId → a.txHash = b.txHash →
      id = id') ∧
    (∀ t ∈ history (step c validTime) (start db) as, ∀ input now,
      t.action = .recordSubmission input now →
      ∃ stored, (exec (step c validTime) (start db) as).db.operation input.operationId =
          .ok (some stored) ∧ sameContent input stored ∧
        ∀ later, recordSubmission c validTime input later (exec (step c validTime) (start db) as).db =
          .ok (stored, (exec (step c validTime) (start db) as).db)) ∧
    (∀ input now,
      (exec (step c validTime) (start db) as).db.operation input.operationId = .ok none →
      Taken input (exec (step c validTime) (start db) as).db →
      recordSubmission c validTime input now (exec (step c validTime) (start db) as).db =
          .error (if followable c input then "OPERATION_IDENTITY_CONFLICT"
            else "INVALID_M3_WALLET_SUBMISSION") ∧
        exec (step c validTime) (start db) (as ++ [.recordSubmission input now]) =
          exec (step c validTime) (start db) as) ∧
    ∀ place sync operation receipt checkpoint latest now,
      (exec (step c validTime) (start db) as).tracking[place]? =
        some (sync, .reconciliation operation receipt checkpoint latest) →
      ReconciledElsewhere operation (exec (step c validTime) (start db) as).db →
      (∃ error, onReconciled sync validTime operation receipt latest checkpoint .match_ now
        (exec (step c validTime) (start db) as).db = .error error) ∧
      (exec (step c validTime) (start db) (as ++ [.reconciled place (.ok .match_) now])).db =
        (exec (step c validTime) (start db) as).db := by
  have hbound : Bound c validTime (exec (step c validTime) (start db) as).db := run_bound db as
  refine ⟨?_, ?_, ?_, ?_⟩
  · intro id id' a b ha hb hreconciled hreconciled' hchain hhash
    obtain ⟨_, hget, _⟩ := hbound.table.stored.operation_eq_some ha
    obtain ⟨_, hget', _⟩ := hbound.table.stored.operation_eq_some hb
    exact hbound.exclusive id id' _ _ hget hget' hreconciled hreconciled' hchain hhash
  · intro t ht input now haction
    have hpost : followable c input ∧ Bound c validTime t.post.db ∧ Recorded input t.post.db := by
      obtain ⟨hpre, hstep, hafter⟩ := history_invariant (P := fun s : State => Bound c validTime s.db)
        (fun a s s' hs h => (step_change h).bound hs) (run_bound db []) ht
      rw [haction] at hstep
      simp only [step, bind_eq_ok, pure_eq_ok] at hstep
      obtain ⟨⟨operation, saved⟩, hrecord, hstate⟩ := hstep
      obtain ⟨hfollow, hrecorded⟩ := recordSubmission_recorded hpre hrecord
      rw [← hstate] at hafter ⊢
      exact ⟨hfollow, hafter, hrecorded⟩
    obtain ⟨hfollow, hpost⟩ := hpost
    obtain ⟨_, stored, hread, hsame⟩ := exec_since
      (P := fun s : State => Bound c validTime s.db ∧ Recorded input s.db)
      (fun a s s' hs h => ⟨(step_change h).bound hs.1, (step_change h).recorded_kept hs.1 hs.2⟩)
      ht hpost
    exact ⟨stored, hread, hsame, recordSubmission_again hfollow hread hsame⟩
  · intro input now hnew htaken
    have hrefused := recordSubmission_refused hbound hnew htaken now
    refine ⟨hrefused, ?_⟩
    rw [exec_append, exec_cons, apply_error]
    · rfl
    · rw [step, hrefused]
      rfl
  · intro place sync operation receipt checkpoint latest now hcall htaken
    obtain ⟨error, hfails⟩ := onReconciled_taken hbound htaken sync receipt latest checkpoint now
    refine ⟨⟨error, hfails⟩, ?_⟩
    rw [exec_append, exec_cons, apply_ok (reconciled_fails hcall hfails)]
    rfl

def exampleConfig : Config := ⟨46630, 7, 8, true, 3⟩

/-- Reports of one hash with different calls stand beside each other. -/
def exampleRun : List Action :=
  [.recordSubmission ⟨"a", 46630, 3, 7, [0x43, 0xd7, 0x26, 0xd6], 9⟩ TradingRuntime.exampleTime,
    .recordSubmission ⟨"b", 46630, 3, 7, [0xfc, 0x82, 0xf0, 0x84], 9⟩ TradingRuntime.exampleTime]

example :
    (exec (step exampleConfig TradingRuntime.exampleClock) (start Database.empty)
      exampleRun).db.operations.map (fun e => (e.1, e.2.state, e.2.txHash)) =
      [("a", "SUBMITTED", some 9), ("b", "SUBMITTED", some 9)] := by
  decide

end ChainRuntime
end AlphaForge
