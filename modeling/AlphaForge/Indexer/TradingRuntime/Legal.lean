/-
Which writes of the trading runtime are legal steps of an operation.

`Succeeds` is one or more accepted steps of `transitionOperation`: the guarded save
may make two at once, to `CONFIRMING` and on to `CONFIRMED`.  A write is legal when
the row it leaves succeeds the row it found.  Every write of the synchronizer and
of a rollback is, in every state.  A report's is when the row is still the one the
report has read, and only then; in a run whose reports all find their rows so, no
operation ever goes back.
-/
import AlphaForge.Indexer.TradingRuntime

namespace AlphaForge
namespace TradingRuntime

open Evm ChainStore Lifecycle Database Machine
open ChainSync (applyReceipt onReceipt onReconciled receiptTransition)
open Indexer (ChainReceipt)

variable {validTime : String → Bool} {db db' : Database} {operation next : ChainOperation}

/-! ## Successors -/

def Succeeds (validTime : String → Bool) : ChainOperation → ChainOperation → Prop :=
  Relation.TransGen fun a b => ∃ update, transitionOperation validTime a update = .ok b

theorem Succeeds.step {update : OperationTransition}
    (h : transitionOperation validTime operation update = .ok next) :
    Succeeds validTime operation next :=
  Relation.TransGen.single ⟨update, h⟩

theorem Succeeds.sound (h : Succeeds validTime operation next) (hsound : Sound validTime operation) :
    Sound validTime next := by
  induction h with
  | single hstep =>
      obtain ⟨update, hupdate⟩ := hstep
      exact hsound.transition hupdate
  | tail _ hstep ih =>
      obtain ⟨update, hupdate⟩ := hstep
      exact ih.transition hupdate

theorem Succeeds.identity (h : Succeeds validTime operation next)
    (hsound : Sound validTime operation) : SameIdentity operation next := by
  induction h with
  | single hstep =>
      obtain ⟨update, hupdate⟩ := hstep
      exact transition_identity hupdate hsound.evidence
  | tail hpath hstep ih =>
      obtain ⟨update, hupdate⟩ := hstep
      exact ih.trans (transition_identity hupdate (Succeeds.sound hpath hsound).evidence)

/-- No step leads to `AWAITING_SIGNATURE`. -/
theorem Succeeds.not_awaiting (h : Succeeds validTime operation next) :
    next.state ≠ .awaitingSignature := by
  intro hstate
  obtain ⟨before, _, update, hupdate⟩ := Relation.TransGen.tail'_iff.mp h
  obtain ⟨hallowed, happly⟩ := transitionOperation_eq_ok.mp hupdate
  rw [← (applyTransition_state happly).1, hstate, mem_transitions_iff] at hallowed
  cases hallowed

/-- `SUBMITTED` comes from `AWAITING_SIGNATURE` in a single step. -/
theorem Succeeds.submitted (h : Succeeds validTime operation next)
    (hstate : next.state = .submitted) : operation.state = .awaitingSignature := by
  obtain ⟨before, hpath, update, hupdate⟩ := Relation.TransGen.tail'_iff.mp h
  obtain ⟨hallowed, happly⟩ := transitionOperation_eq_ok.mp hupdate
  rw [← (applyTransition_state happly).1, hstate, mem_transitions_iff] at hallowed
  have hbefore : before.state = .awaitingSignature := List.mem_singleton.mp hallowed
  rcases Relation.reflTransGen_iff_eq_or_transGen.mp hpath with heq | hearlier
  · rw [← heq]
    exact hbefore
  · exact absurd hbefore (Succeeds.not_awaiting hearlier)

/-! ## Writes -/

/-- Every operation that was there still is, as it was or further on. -/
def Legal (validTime : String → Bool) (db db' : Database) : Prop :=
  ∀ id before, db.operation id = .ok (some before) →
    ∃ after, db'.operation id = .ok (some after) ∧
      (after = before ∨ Succeeds validTime before after)

theorem Legal.of_same (h : db'.operations = db.operations) : Legal validTime db db' := by
  intro id before hbefore
  refine ⟨before, ?_, Or.inl rfl⟩
  rw [Database.operation, h]
  exact hbefore

theorem stored_of_same (h : db'.operations = db.operations) (hstored : Stored validTime db) :
    Stored validTime db' := by
  intro id row hrow
  rw [h] at hrow
  exact hstored id row hrow

/-- Reading back after a save. -/
theorem operation_saved (h : Saved next db db') (id : String) :
    db'.operation id =
      if id = next.operationId then .ok (some next) else db.operation id := by
  split
  · next hid =>
    rw [hid]
    refine operation_of_get? ?_
    rw [h.operations, OrderedMap.get?_set_self]
  · next hid =>
    rw [Database.operation, Database.operation, h.operations, OrderedMap.get?_set_of_ne hid]

/-- A save over the row that the operation succeeds, or over none. -/
theorem legal_of_saved (h : Saved next db db')
    (hsucceeds : ∀ before, db.operation next.operationId = .ok (some before) →
      Succeeds validTime before next) : Legal validTime db db' := by
  intro id before hbefore
  rw [operation_saved h]
  by_cases hid : id = next.operationId
  · rw [if_pos hid]
    rw [hid] at hbefore
    exact ⟨next, rfl, Or.inr (hsucceeds before hbefore)⟩
  · rw [if_neg hid]
    exact ⟨before, hbefore, Or.inl rfl⟩

theorem saveOperation_legal (hstored : Stored validTime db)
    (h : saveOperation validTime next db = .ok db')
    (hcurrent : db.operation operation.operationId = .ok (some operation))
    (hsucceeds : Succeeds validTime operation next) :
    Stored validTime db' ∧ Legal validTime db db' := by
  have hsound := (hstored.operation_eq_some hcurrent).2.2
  have hsaved := (saveOperation_ok hstored h).1
  refine ⟨hsaved.stored hstored (hsucceeds.sound hsound), legal_of_saved hsaved ?_⟩
  intro before hbefore
  rw [(hsucceeds.identity hsound).operationId, hcurrent] at hbefore
  rw [← Option.some.inj (Except.ok.inj hbefore)]
  exact hsucceeds

/-- The guarded save finds the row that its caller has stepped from. -/
theorem guarded_legal {checkpoint : ChainCheckpoint} (hstored : Stored validTime db)
    (h : saveOperationAtCheckpoint validTime next operation checkpoint db = .ok db')
    (hsucceeds : Succeeds validTime operation next) :
    Stored validTime db' ∧ Legal validTime db db' := by
  obtain ⟨hcurrent, _, hsave⟩ := saveOperationAtCheckpoint_ok h
  exact saveOperation_legal hstored hsave hcurrent hsucceeds

/-! ## The synchronizer -/

/-- What a stretch of `trackOperation` may do: nothing, or one guarded save. -/
inductive Writes (validTime : String → Bool) (db db' : Database) : Prop where
  | nothing (h : db' = db)
  | guarded (operation next : ChainOperation) (checkpoint : ChainCheckpoint)
      (hsave : saveOperationAtCheckpoint validTime next operation checkpoint db = .ok db')
      (hsucceeds : Succeeds validTime operation next)

theorem Writes.legal (h : Writes validTime db db') (hstored : Stored validTime db) :
    Stored validTime db' ∧ Legal validTime db db' := by
  cases h with
  | nothing h =>
      rw [h]
      exact ⟨hstored, Legal.of_same rfl⟩
  | guarded operation next checkpoint hsave hsucceeds => exact guarded_legal hstored hsave hsucceeds

theorem applyReceipt_writes {checkpoint : ChainCheckpoint} {receipt : ChainReceipt}
    (h : applyReceipt validTime operation checkpoint receipt db = .ok (next, db')) :
    Writes validTime db db' := by
  unfold applyReceipt at h
  split at h
  · simp only [bind_eq_ok, pure_eq_ok, Prod.mk.injEq] at h
    obtain ⟨_, hstep, saved, hsave, rfl, rfl⟩ := h
    exact .guarded _ _ _ hsave (Succeeds.step hstep)
  · simp only [Except.ok.injEq, Prod.mk.injEq] at h
    exact .nothing h.2.symm

theorem onReceipt_writes {transactionHash : Bytes32} {checkpoint : ChainCheckpoint}
    {receipt : Option ChainReceipt} {rest : Option (ChainOperation × ChainReceipt)}
    (h : onReceipt validTime operation transactionHash checkpoint receipt db = .ok (db', rest)) :
    Writes validTime db db' := by
  unfold onReceipt at h
  split at h
  · simp only [Except.ok.injEq, Prod.mk.injEq] at h
    exact .nothing h.1.symm
  · simp only [bind_eq_ok] at h
    obtain ⟨_, _, block, _, h⟩ := h
    split at h
    · simp only [pure_eq_ok, Prod.mk.injEq] at h
      exact .nothing h.1.symm
    · split at h
      · simp only [pure_eq_ok, Prod.mk.injEq] at h
        exact .nothing h.1.symm
      · simp only [bind_eq_ok] at h
        obtain ⟨⟨applied, saved⟩, happly, h⟩ := h
        have hwrites := applyReceipt_writes happly
        split at h <;>
        · simp only [pure_eq_ok, Prod.mk.injEq] at h
          exact h.1 ▸ hwrites

theorem onReconciled_writes {c : ChainSync.Config} {receipt : ChainReceipt} {latest : ChainBlock}
    {checkpoint : ChainCheckpoint} {result : Indexer.ReconciliationResult} {now : String}
    (h : onReconciled c validTime operation receipt latest checkpoint result now db = .ok db') :
    Writes validTime db db' := by
  unfold onReconciled at h
  split at h
  · split at h
    · exact .nothing (Except.ok.inj h).symm
    · simp only [bind_eq_ok] at h
      obtain ⟨_, hstep, hsave⟩ := h
      exact .guarded _ _ _ hsave (Succeeds.step hstep)
  · simp only [bind_eq_ok] at h
    obtain ⟨confirmations, _, confirming, hconfirming, final, hfinal, hsave⟩ := h
    refine .guarded _ _ _ hsave ?_
    have hfirst : Succeeds validTime operation confirming := Succeeds.step hconfirming
    split at hfinal
    · exact Relation.TransGen.tail hfirst ⟨_, hfinal⟩
    · exact Except.ok.inj hfinal ▸ hfirst

/-! ## Rollbacks -/

/-- A displaced row is the row of the operation after its step to `REORGED`. -/
theorem displaced_reorged (validTime : String → Bool) {id number : Int} {address : Address}
    (h : displacedColumns id address number (columnsOf operation)) :
    ∃ next, transitionOperation validTime operation .reorged = .ok next ∧
      next.operationId = operation.operationId ∧
      columnsOf next = { columnsOf operation with
        state := "REORGED", canonical := false, reconciled := false, confirmedAt := none,
        errorCode := some "CHAIN_REORG" } := by
  have hallowed : TransactionState.reorged ∈ transitions operation.state := by
    have hstate := h.2.2.2
    change stateText operation.state ∈ _ at hstate
    cases hop : operation.state <;> rw [hop] at hstate <;> first | decide | exact absurd hstate (by decide)
  refine ⟨_, transitionOperation_eq_ok.mpr ⟨hallowed, rfl⟩, rfl, rfl⟩

theorem reorgOperations_legal {id number : Int} {address : Address} (hstored : Stored validTime db)
    (h : db'.operations = reorgOperations id address number db.operations) :
    Stored validTime db' ∧ Legal validTime db db' := by
  -- the row of each operation, read back
  have hrow : ∀ operation, Sound validTime operation →
      db.operations.get? operation.operationId = some (columnsOf operation) →
      ∃ next, next.operationId = operation.operationId ∧
        db'.operations.get? operation.operationId = some (columnsOf next) ∧
        (next = operation ∨ Succeeds validTime operation next) := by
    intro operation _ hget
    rw [h, reorgOperations, OrderedMap.get?_mapValues, hget, Option.map_some]
    by_cases hdisplaced : displacedColumns id address number (columnsOf operation)
    · obtain ⟨next, hstep, hid, hcolumns⟩ := displaced_reorged validTime hdisplaced
      rw [if_pos hdisplaced]
      exact ⟨next, hid, by rw [hcolumns], Or.inr (Succeeds.step hstep)⟩
    · rw [if_neg hdisplaced]
      exact ⟨operation, rfl, rfl, Or.inl rfl⟩
  refine ⟨fun key row hget => ?_, fun key before hbefore => ?_⟩
  · have hold : ∃ old, db.operations.get? key = some old := by
      rw [h, reorgOperations, OrderedMap.get?_mapValues] at hget
      obtain ⟨old, hold, _⟩ := Option.map_eq_some_iff.mp hget
      exact ⟨old, hold⟩
    obtain ⟨old, hold⟩ := hold
    obtain ⟨operation, rfl, rfl, hsound⟩ := hstored key old hold
    obtain ⟨next, hid, hnext, hkept⟩ := hrow operation hsound hold
    rw [hget, Option.some.injEq] at hnext
    refine ⟨next, hid, hnext, ?_⟩
    rcases hkept with rfl | hsucceeds
    · exact hsound
    · exact hsucceeds.sound hsound
  · obtain ⟨rfl, hget, hsound⟩ := hstored.operation_eq_some hbefore
    obtain ⟨next, hid, hnext, hkept⟩ := hrow before hsound hget
    refine ⟨next, ?_, hkept⟩
    rw [← hid] at hnext ⊢
    exact operation_of_get? hnext

/-! ## Steps -/

/-- A report that is answered finds the operation as it has read it. -/
def Current (t : Transition State Action) : Prop :=
  match t.action with
  | .transaction place (.ok _) _ => ∀ report ∈ t.pre.reports[place]?,
      t.pre.db.operation report.operation.operationId = .ok (some report.operation)
  | _ => True

theorem after_legal {result : Except String Database} (hstored : Stored validTime db)
    (h : ∀ saved, result = .ok saved → Stored validTime saved ∧ Legal validTime db saved) :
    Stored validTime (after db result) ∧ Legal validTime db (after db result) := by
  cases result with
  | ok saved => exact h saved rfl
  | error e => exact ⟨hstored, Legal.of_same rfl⟩

theorem observed_legal {c : Config} {report : Report} {tx : Option ReportedTransaction}
    {submittedAt : String} {s : State} (hstored : Stored validTime s.db)
    (hcurrent : s.db.operation report.operation.operationId = .ok (some report.operation))
    (h : observed c validTime report tx submittedAt s = .ok db') :
    Stored validTime db' ∧ Legal validTime s.db db' := by
  simp only [observed, bind_eq_ok] at h
  obtain ⟨_, _, _, _, _, _, next, hstep, hsave⟩ := h
  exact saveOperation_legal hstored hsave hcurrent (Succeeds.step hstep)

theorem step_legal {c : Config} {a : Action} {s s' : State} (hstored : Stored validTime s.db)
    (hcurrent : Current ⟨s, a, s'⟩) (h : step c validTime a s = .ok s') :
    Stored validTime s'.db ∧ Legal validTime s.db s'.db := by
  have hsame : ∀ {u : State}, u.db = s.db → Stored validTime u.db ∧ Legal validTime s.db u.db :=
    fun {u} hdb => by rw [hdb]; exact ⟨hstored, Legal.of_same rfl⟩
  cases a with
  | prepareOwnerAction operationId calldata =>
      simp only [step, prepareOwnerAction, bind_eq_ok, check_eq_ok, pure_eq_ok] at h
      obtain ⟨_, _, _, hfree, operation, hcreate, db, hsave, rfl⟩ := h
      have hid : operation.operationId = operationId := by
        simp only [createOperation, bind_eq_ok, pure_eq_ok] at hcreate
        obtain ⟨_, _, _, _, rfl⟩ := hcreate
        rfl
      have hsaved := (saveOperation_ok hstored hsave).1
      refine ⟨hsaved.stored hstored (created_sound hcreate), legal_of_saved hsaved ?_⟩
      intro before hbefore
      rw [hid, Database.operation, Option.isNone_iff_eq_none.mp hfree] at hbefore
      cases hbefore
  | observeOwnerSubmission address id txHash =>
      simp only [step, observeOwnerSubmission, bind_eq_ok] at h
      obtain ⟨_, _, _, _, found, _, h⟩ := h
      split at h
      · cases h
      · simp only [bind_eq_ok] at h
        obtain ⟨_, _, h⟩ := h
        split at h
        · simp only [bind_eq_ok, pure_eq_ok] at h
          obtain ⟨_, _, rfl⟩ := h
          exact hsame rfl
        · simp only [pure_eq_ok] at h
          exact hsame (by rw [← h])
  | transaction place answer submittedAt =>
      simp only [step] at h
      split at h
      · cases h
      · next report hreport =>
        split at h
        · exact hsame (by rw [← Except.ok.inj h])
        · next tx =>
          rw [← Except.ok.inj h]
          exact after_legal hstored (fun saved hsaved =>
            observed_legal hstored (hcurrent report hreport) hsaved)
  | trackOperation id latest =>
      simp only [step, bind_eq_ok, pure_eq_ok] at h
      obtain ⟨_, _, ⟨operation, transactionHash, checkpoint⟩, _, rfl⟩ := h
      exact hsame rfl
  | receipt answer =>
      simp only [step] at h
      split at h
      · split at h
        · next hreceipt =>
          rw [← Except.ok.inj h]
          exact (onReceipt_writes hreceipt).legal hstored
        · next hreceipt =>
          rw [← Except.ok.inj h]
          exact (onReceipt_writes hreceipt).legal hstored
        · exact hsame (by rw [← Except.ok.inj h])
      · exact hsame (by rw [← Except.ok.inj h])
      · cases h
  | reconciled answer now =>
      simp only [step] at h
      split at h
      · rw [← Except.ok.inj h]
        exact after_legal hstored (fun saved hsaved => (onReconciled_writes hsaved).legal hstored)
      · exact hsame (by rw [← Except.ok.inj h])
      · cases h
  | recordCanonicalBlock r ownerToken =>
      simp only [step, bind_eq_ok, pure_eq_ok] at h
      obtain ⟨⟨log, _⟩, _, rfl⟩ := h
      have hops : (s.db.withLog log).operations = s.db.operations := rfl
      exact ⟨stored_of_same hops hstored, Legal.of_same hops⟩
  | rollbackFromBlock fromBlock ownerToken =>
      simp only [step, Database.rollbackFromBlock, bind_eq_ok, pure_eq_ok] at h
      obtain ⟨db, ⟨id, _, number, _, ⟨log, _⟩, _, rfl⟩, rfl⟩ := h
      exact reorgOperations_legal hstored rfl
  | bookkeeping checkpoints leases projections =>
      rw [← Except.ok.inj h]
      exact ⟨stored_of_same rfl hstored, Legal.of_same rfl⟩
  | pauseWrites =>
      simp only [step, bind_eq_ok, pure_eq_ok] at h
      obtain ⟨_, _, rfl⟩ := h
      exact hsame rfl
  | resumeWrites =>
      simp only [step, bind_eq_ok, pure_eq_ok] at h
      obtain ⟨_, _, rfl⟩ := h
      exact hsame rfl
  | close =>
      rw [← Except.ok.inj h]
      exact hsame rfl

/-! ## Runs -/

/-! ## A report that comes late -/

def exampleTime : String := "2026-01-01T00:00:00.000Z"

def exampleClock (t : String) : Bool := t = exampleTime

def exampleConfig : Config := ⟨3, ⟨46630, 7, 3⟩⟩

def exampleBlock : ChainBlock := ⟨100, 5, 4, 1⟩

instance (t : Transition State Action) : Decidable (Current t) := by
  unfold Current
  split <;> infer_instance

/-- The operation before and after an action that follows some others. -/
def around (as : List Action) (a : Action) : Option (ChainOperation × ChainOperation) := do
  let s := exec (step exampleConfig exampleClock) (start Database.empty) as
  let s' ← (step exampleConfig exampleClock a s).toOption
  let before ← (s.db.operation "op").toOption.join
  let after ← (s'.db.operation "op").toOption.join
  return (before, after)

theorem around_eq_some {as : List Action} {a : Action} {before after : ChainOperation}
    (h : around as a = some (before, after)) :
    ∃ t ∈ history (step exampleConfig exampleClock) (start Database.empty) (as ++ [a]),
      t.pre.db.operation "op" = .ok (some before) ∧
        t.post.db.operation "op" = .ok (some after) := by
  simp only [around, Option.bind_eq_bind, Option.bind_eq_some_iff, Option.join_eq_some_iff,
    toOption_eq_some, Option.pure_def, Option.some.injEq, Prod.mk.injEq] at h
  obtain ⟨s', hs', _, hbefore, _, hafter, rfl, rfl⟩ := h
  exact ⟨_, mem_history hs', hbefore, hafter⟩

/-- The steps of a report up to its answer. -/
def exampleReport : List Action :=
  [.prepareOwnerAction "op" [1, 2], .observeOwnerSubmission 3 "op" 9]

/-- Two reports of one hash.  The first is answered, and the operation is mined. -/
def exampleRun : List Action :=
  [.prepareOwnerAction "op" [1, 2], .observeOwnerSubmission 3 "op" 9,
    .observeOwnerSubmission 3 "op" 9, .transaction 0 (.ok none) exampleTime,
    .recordCanonicalBlock ⟨exampleBlock, [], none⟩ none,
    .bookkeeping
      [((46630, 7), { blockNumber := 100, blockHash := 5, projected := some ⟨100, 5⟩ })] [] [],
    .trackOperation "op" exampleBlock,
    .receipt (.ok (some ⟨9, 100, 5, 0, 3, some 7, .success⟩))]

end TradingRuntime
end AlphaForge
