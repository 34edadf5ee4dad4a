/-
When the loop over the followed operations completes.

`syncToHead` ends with one `trackOperation` for each operation, and the first that
throws ends the call.  The induction is over the operations still to come, with what
the loop has done to the ones before as invariant: their rows keep chain and hash, and
are reconciled when the comparison settled them.
-/
import AlphaForge.Indexer.TradingRuntime.Tracking

namespace AlphaForge
namespace TradingRuntime

open Evm ChainStore Lifecycle Database Machine
open ChainSync (Rpc receiptMatches)
open Indexer (ChainReceipt)

variable {validTime : String → Bool} {db db' db'' : Database} {operation next : ChainOperation}

/-! ## What the loop has done -/

/-- No other operation has the transaction, as the loop comes to the operation after
the ones in `done`: one that was reconciled has failed since, and none was settled. -/
def Sole (validTime : String → Bool) (rpc : Rpc) (db : Database) (done : List String)
    (operation : ChainOperation) : Prop :=
  ∀ id other, id ≠ operation.operationId → db.operation id = .ok (some other) →
    other.chainId = operation.chainId → other.txHash = operation.txHash →
    (other.reconciled = true → id ∈ done ∧ Fails validTime rpc db other) ∧
      (id ∈ done → ¬ Settles validTime rpc db other)

/-- What lets an operation through after the ones in `done`. -/
structure Clear (validTime : String → Bool) (rpc : Rpc) (latest : ChainBlock) (db : Database)
    (done : List String) (operation : ChainOperation) : Prop where
  evidence : ∀ hash receipt, operation.txHash = some hash → rpc.receipt hash = some receipt →
    receiptMatches operation hash receipt
  counted : ∀ receipt, Reconciling rpc db operation receipt →
    rpc.reconcile (received validTime operation receipt) receipt = .match_ →
    Counted latest operation receipt
  sole : Settles validTime rpc db operation → Sole validTime rpc db done operation

/-- The database `db` after the loop has done some operations of `start`. -/
structure Progress (validTime : String → Bool) (rpc : Rpc) (start : Database) (done : List String)
    (db : Database) : Prop where
  table : Table validTime db
  blocks : db.blocks = start.blocks
  checkpoints : db.checkpoints = start.checkpoints
  leases : db.leases = start.leases
  ahead : ∀ id, id ∉ done → db.operation id = start.operation id
  behind : ∀ id ∈ done, ∃ operation next, start.operation id = .ok (some operation) ∧
    db.operation id = .ok (some next) ∧ Kept operation next ∧
    (next.reconciled = true ↔ Settles validTime rpc start operation ∨
      operation.reconciled = true ∧ ¬ Fails validTime rpc start operation)

section Loop

variable {c : ChainSync.Config} {rpc : Rpc} {latest : ChainBlock} {now : String}
  {done rest : List String} {receipt : ChainReceipt}

theorem reconciling_congr (h : db'.blocks = db.blocks) :
    Reconciling rpc db' operation receipt ↔ Reconciling rpc db operation receipt := by
  have hincluded : Included db' operation receipt ↔ Included db operation receipt := by
    unfold Included Database.canonicalBlock
    rw [h]
  exact ⟨fun hr => ⟨hr.answered, hincluded.mp hr.included, hr.success⟩,
    fun hr => ⟨hr.answered, hincluded.mpr hr.included, hr.success⟩⟩

theorem settles_congr (h : db'.blocks = db.blocks) :
    Settles validTime rpc db' operation ↔ Settles validTime rpc db operation := by
  unfold Settles
  simp only [reconciling_congr h]

theorem fails_congr (h : db'.blocks = db.blocks) :
    Fails validTime rpc db' operation ↔ Fails validTime rpc db operation := by
  unfold Fails
  simp only [reconciling_congr h]

/-- Whether an operation has its transaction alone can be read off the start. -/
theorem Progress.sole_iff (h : Progress validTime rpc db done db') :
    ¬ Shared db' operation ↔ Sole validTime rpc db done operation := by
  constructor
  · intro hfree id other hne hother hchain hhash
    by_cases hdone : id ∈ done
    · obtain ⟨first, next, hfirst, hnext, hkept, hiff⟩ := h.behind id hdone
      rw [hother] at hfirst
      obtain rfl := Option.some.inj (Except.ok.inj hfirst)
      have hfalse : ¬ next.reconciled = true := fun htrue =>
        hfree ⟨id, next, hne, hnext, hkept.chainId.trans hchain, hkept.txHash.trans hhash, htrue⟩
      rw [hiff] at hfalse
      tauto
    · have hsame := h.ahead id hdone
      rw [hother] at hsame
      have hfalse : ¬ other.reconciled = true := fun htrue =>
        hfree ⟨id, other, hne, hsame, hchain, hhash, htrue⟩
      tauto
  · rintro hsole ⟨id, next, hne, hnext, hchain, hhash, htrue⟩
    by_cases hdone : id ∈ done
    · obtain ⟨first, next', hfirst, hnext', hkept, hiff⟩ := h.behind id hdone
      rw [hnext] at hnext'
      obtain rfl := Option.some.inj (Except.ok.inj hnext')
      have hclear := hsole id first hne hfirst (hkept.chainId.symm.trans hchain)
        (hkept.txHash.symm.trans hhash)
      rw [hiff] at htrue
      tauto
    · rw [h.ahead id hdone] at hnext
      exact hdone ((hsole id next hne hnext hchain hhash).1 htrue).1

theorem Progress.passes_iff (h : Progress validTime rpc db done db') :
    Passes validTime rpc latest db' operation ↔ Clear validTime rpc latest db done operation := by
  constructor
  · intro hp
    refine ⟨hp.evidence, fun receipt hr => hp.counted receipt ((reconciling_congr h.blocks).mpr hr),
      fun hs => h.sole_iff.mp (hp.alone ((settles_congr h.blocks).mpr hs))⟩
  · intro hc
    refine ⟨hc.evidence, fun receipt hr => hc.counted receipt ((reconciling_congr h.blocks).mp hr),
      fun hs => h.sole_iff.mpr (hc.sole ((settles_congr h.blocks).mp hs))⟩

/-- One operation more. -/
theorem Progress.tracked (h : Progress validTime rpc db done db')
    (hrow : db.operation operation.operationId = .ok (some operation))
    (ht : Tracked validTime rpc operation db' db'' next) :
    Progress validTime rpc db (done ++ [operation.operationId]) db'' where
  table := ht.rewritten.table
  blocks := ht.rewritten.blocks.trans h.blocks
  checkpoints := ht.rewritten.checkpoints.trans h.checkpoints
  leases := ht.rewritten.leases.trans h.leases
  ahead id hid := by
    rw [List.mem_append, List.mem_singleton, not_or] at hid
    rw [ht.rewritten.others id (ht.kept.operationId ▸ hid.2), h.ahead id hid.1]
  behind id hid := by
    by_cases hself : id = operation.operationId
    · have hnext := ht.rewritten.row
      have hiff := ht.reconciled
      rw [ht.kept.operationId] at hnext
      rw [settles_congr h.blocks, fails_congr h.blocks] at hiff
      rw [hself]
      exact ⟨operation, next, hrow, hnext, ht.kept, hiff⟩
    · have hmem : id ∈ done := by
        rcases List.mem_append.mp hid with hmem | hmem
        · exact hmem
        · exact absurd (List.mem_singleton.mp hmem) hself
      obtain ⟨first, last, hfirst, hlast, hkept, hiff⟩ := h.behind id hmem
      rw [← ht.rewritten.others id (ht.kept.operationId ▸ hself)] at hlast
      exact ⟨first, last, hfirst, hlast, hkept, hiff⟩

theorem Progress.refl (h : Table validTime db) : Progress validTime rpc db [] db :=
  ⟨h, rfl, rfl, rfl, fun _ _ => rfl, fun _ hmem => by cases hmem⟩

/-- An identifier of an operation the loop may take up. -/
def Takes (c : ChainSync.Config) (db : Database) (id : String) : Prop :=
  ∃ operation, operation.operationId = id ∧ Followed c db operation ∧ Compact operation

theorem Progress.loop_iff (hfaithful : Faithful rpc latest) (hcaught : CaughtUp c latest db)
    (hnow : validTime now = true) (hlength : now.length ≤ 100)
    (h : Progress validTime rpc db done db') (htakes : ∀ id ∈ rest, Takes c db id)
    (hnodup : (done ++ rest).Nodup) :
    (∃ db'', rest.foldlM (ChainSync.trackOperation c validTime rpc latest now) db' = .ok db'') ↔
      ∀ before operation after, rest = before ++ operation.operationId :: after →
        db.operation operation.operationId = .ok (some operation) →
        Clear validTime rpc latest db (done ++ before) operation := by
  induction rest generalizing done db' with
  | nil =>
      refine ⟨fun _ before operation after heq => ?_, fun _ => ⟨db', rfl⟩⟩
      exact absurd heq (by simp)
  | cons id rest ih =>
      obtain ⟨operation, rfl, hfollowed, hcompact⟩ := htakes id List.mem_cons_self
      have hfresh : operation.operationId ∉ done := by
        intro hmem
        rw [List.nodup_append] at hnodup
        exact hnodup.2.2 _ hmem _ List.mem_cons_self rfl
      have hrow := (h.ahead _ hfresh).trans hfollowed.row
      have hcaught' : CaughtUp c latest db' :=
        ⟨settledAt_kept hcaught.settled h.checkpoints h.leases, hcaught.below⟩
      have houtcome := trackOperation_outcome h.table hcaught' hfaithful
        ⟨hrow, hfollowed.chain, hfollowed.target, hfollowed.state⟩ hcompact hnow hlength
      rw [List.foldlM_cons]
      rcases houtcome with ⟨hpasses, db'', next, hok, htracked⟩ | ⟨hpasses, e, herror⟩
      · have hclear := h.passes_iff.mp hpasses
        rw [hok, ok_bind, ih (h.tracked hfollowed.row htracked)
          (fun id hid => htakes id (List.mem_cons_of_mem _ hid)) (by simpa using hnodup)]
        constructor
        · intro hrest before other after heq hother
          cases before with
          | nil =>
              have hid : operation.operationId = other.operationId := (List.cons.inj heq).1
              rw [← hid, hfollowed.row] at hother
              obtain rfl := Option.some.inj (Except.ok.inj hother)
              rw [List.append_nil]
              exact hclear
          | cons first before =>
              obtain ⟨rfl, htail⟩ := List.cons.inj heq
              rw [List.append_cons]
              exact hrest before other after htail hother
        · intro hall before other after heq hother
          have hclear' := hall (operation.operationId :: before) other after (by rw [heq]; rfl) hother
          rw [List.append_cons] at hclear'
          exact hclear'
      · constructor
        · rintro ⟨db'', hok⟩
          rw [herror] at hok
          cases hok
        · intro hall
          have hclear := hall [] operation rest rfl hfollowed.row
          rw [List.append_nil] at hclear
          exact absurd (h.passes_iff.mpr hclear) hpasses

end Loop

/-! ## The operations that are followed -/

theorem trackableColumns_iff {id : Int} {address : Address} :
    trackableColumns id address (columnsOf operation) ↔
      operation.chainId = id ∧ operation.target = address ∧
        operation.state ∈
          [.submitted, .mined, .confirming, .reorged, .reconciliationFailed] := by
  have hstate : stateText operation.state ∈
      ["SUBMITTED", "MINED", "CONFIRMING", "REORGED", "RECONCILIATION_FAILED"] ↔
      operation.state ∈ [.submitted, .mined, .confirming, .reorged, .reconciliationFailed] := by
    cases operation.state <;> decide
  unfold trackableColumns
  rw [show (columnsOf operation).state = stateText operation.state from rfl, hstate]
  rfl

theorem mem_trackableIds {c : ChainSync.Config} {id : String} (htable : Table validTime db)
    (h : id ∈ trackableIds c.chainId c.contract db) :
    ∃ operation, operation.operationId = id ∧ Followed c db operation := by
  rw [trackableIds, List.mem_insertionSort] at h
  obtain ⟨⟨key, row⟩, hmem, rfl⟩ := List.mem_map.mp h
  obtain ⟨hmem, htrackable⟩ := List.mem_filter.mp hmem
  have hget := (OrderedMap.mem_iff_get? htable.keys).mp hmem
  obtain ⟨operation, rfl, rfl, _⟩ := htable.stored _ _ hget
  obtain ⟨hchain, htarget, hstate⟩ := trackableColumns_iff.mp (of_decide_eq_true htrackable)
  exact ⟨operation, rfl, operation_of_get? hget, hchain, htarget, hstate⟩

theorem trackableIds_nodup {c : ChainSync.Config} (htable : Table validTime db) :
    (trackableIds c.chainId c.contract db).Nodup := by
  rw [trackableIds, (List.perm_insertionSort _ _).nodup_iff]
  exact htable.keys.sublist (List.filter_sublist.map Prod.fst)

/-- The rows of the query are operations to follow, each once. -/
theorem trackableOperationIds_ok {c : ChainSync.Config} {limit : Nat} {cursor : Option String}
    {ids : List String} (htable : Table validTime db)
    (h : trackableOperationIds c.chainId c.contract limit cursor db = .ok ids) :
    ids.Nodup ∧ ∀ id ∈ ids, ∃ operation, operation.operationId = id ∧ Followed c db operation := by
  have hnodup := trackableIds_nodup (c := c) htable
  unfold trackableOperationIds at h
  simp only [bind_eq_ok] at h
  obtain ⟨_, _, _, _, id, hid, h⟩ := h
  have hsame : id = c.chainId := by
    simp only [ChainStore.chainId, bind_eq_ok, pure_eq_ok] at hid
    obtain ⟨_, _, rfl⟩ := hid
    rfl
  rw [hsame] at h
  split at h
  · rw [← pure_eq_ok.mp h]
    exact ⟨hnodup.sublist (List.take_sublist _ _), fun id hmem =>
      mem_trackableIds htable (List.mem_of_mem_take hmem)⟩
  · next after =>
    rw [← pure_eq_ok.mp h]
    constructor
    · rw [List.nodup_append]
      refine ⟨(hnodup.filter _).sublist (List.take_sublist _ _),
        (hnodup.filter _).sublist (List.take_sublist _ _), ?_⟩
      intro a ha b hb heq
      have hafter := of_decide_eq_true (List.mem_filter.mp (List.mem_of_mem_take ha)).2
      have hupto := of_decide_eq_true (List.mem_filter.mp (List.mem_of_mem_take hb)).2
      rw [heq] at hafter
      exact absurd hafter (String.not_lt.mpr hupto)
    · intro id hmem
      rcases List.mem_append.mp hmem with hmem | hmem <;>
        exact mem_trackableIds htable (List.mem_filter.mp (List.mem_of_mem_take hmem)).1

/-! ## Runs -/

/-- The operations of a runtime, and the ones its reports have read, are sound. -/
structure Kempt (validTime : String → Bool) (s : State) : Prop where
  table : Table validTime s.db
  reports : ∀ report ∈ s.reports, Sound validTime report.operation

theorem Writes.table (h : Writes validTime db db') (htable : Table validTime db) :
    Table validTime db' := by
  refine ⟨(h.legal htable.stored).1, ?_⟩
  cases h with
  | nothing h =>
      rw [h]
      exact htable.keys
  | guarded operation next checkpoint hsave hsucceeds =>
      rw [(saveOperation_ok htable.stored (saveOperationAtCheckpoint_ok hsave).2.2).1.operations]
      exact OrderedMap.nodup_keys_set htable.keys

theorem table_of_same (htable : Table validTime db) (h : db'.operations = db.operations) :
    Table validTime db' :=
  ⟨stored_of_same h htable.stored, h ▸ htable.keys⟩

theorem table_after {result : Except String Database} (htable : Table validTime db)
    (h : ∀ saved, result = .ok saved → Table validTime saved) :
    Table validTime (after db result) := by
  cases result with
  | ok saved => exact h saved rfl
  | error e => exact htable

/-- Also a report that comes late writes a sound operation. -/
theorem step_kempt {c : Config} {a : Action} {s s' : State} (hs : Kempt validTime s)
    (h : step c validTime a s = .ok s') : Kempt validTime s' := by
  have hsame : ∀ {u : State}, u.db = s.db → u.reports = s.reports → Kempt validTime u :=
    fun {u} hdb hreports => ⟨hdb ▸ hs.table, hreports ▸ hs.reports⟩
  cases a with
  | prepareOwnerAction operationId calldata =>
      simp only [step, prepareOwnerAction, bind_eq_ok, pure_eq_ok] at h
      obtain ⟨_, _, _, _, operation, hcreate, db, hsave, rfl⟩ := h
      have hsaved := (saveOperation_ok hs.table.stored hsave).1
      exact ⟨(rewritten_of_saved hs.table (created_sound hcreate) hsaved).table, hs.reports⟩
  | observeOwnerSubmission address id txHash =>
      simp only [step, observeOwnerSubmission, bind_eq_ok] at h
      obtain ⟨_, _, _, _, found, hfound, h⟩ := h
      split at h
      · cases h
      · next operation =>
        simp only [bind_eq_ok] at h
        obtain ⟨_, _, h⟩ := h
        split at h
        · simp only [bind_eq_ok, pure_eq_ok] at h
          obtain ⟨_, _, rfl⟩ := h
          exact hs
        · rw [← pure_eq_ok.mp h]
          refine ⟨hs.table, fun report hmem => ?_⟩
          rcases List.mem_append.mp hmem with hmem | hmem
          · exact hs.reports report hmem
          · rw [List.mem_singleton.mp hmem]
            exact (hs.table.stored.operation_eq_some hfound).2.2
  | transaction place answer submittedAt =>
      simp only [step] at h
      split at h
      · cases h
      · next report hreport =>
        have hreports : ∀ r ∈ s.reports.eraseIdx place, Sound validTime r.operation :=
          fun r hr => hs.reports r (List.mem_of_mem_eraseIdx hr)
        split at h
        · rw [← Except.ok.inj h]
          exact ⟨hs.table, hreports⟩
        · next tx =>
          rw [← Except.ok.inj h]
          refine ⟨table_after hs.table (fun saved hsaved => ?_), hreports⟩
          simp only [observed, bind_eq_ok] at hsaved
          obtain ⟨_, _, _, _, _, _, next, hstep, hsave⟩ := hsaved
          have hsound := hs.reports report (List.mem_of_getElem? hreport)
          exact (rewritten_of_saved hs.table (hsound.transition hstep)
            (saveOperation_ok hs.table.stored hsave).1).table
  | trackOperation id latest =>
      simp only [step, bind_eq_ok, pure_eq_ok] at h
      obtain ⟨_, _, ⟨operation, transactionHash, checkpoint⟩, _, rfl⟩ := h
      exact hsame rfl rfl
  | receipt answer =>
      simp only [step] at h
      split at h
      · split at h
        · next hreceipt =>
          rw [← Except.ok.inj h]
          exact ⟨(onReceipt_writes hreceipt).table hs.table, hs.reports⟩
        · next hreceipt =>
          rw [← Except.ok.inj h]
          exact ⟨(onReceipt_writes hreceipt).table hs.table, hs.reports⟩
        · rw [← Except.ok.inj h]
          exact hsame rfl rfl
      · rw [← Except.ok.inj h]
        exact hsame rfl rfl
      · cases h
  | reconciled answer now =>
      simp only [step] at h
      split at h
      · rw [← Except.ok.inj h]
        exact ⟨table_after hs.table (fun saved hsaved =>
          (onReconciled_writes hsaved).table hs.table), hs.reports⟩
      · rw [← Except.ok.inj h]
        exact hsame rfl rfl
      · cases h
  | recordCanonicalBlock r ownerToken =>
      simp only [step, bind_eq_ok, pure_eq_ok] at h
      obtain ⟨⟨log, _⟩, _, rfl⟩ := h
      exact ⟨table_of_same hs.table rfl, hs.reports⟩
  | rollbackFromBlock fromBlock ownerToken =>
      simp only [step, Database.rollbackFromBlock, bind_eq_ok, pure_eq_ok] at h
      obtain ⟨db, ⟨id, _, number, _, ⟨log, _⟩, _, rfl⟩, rfl⟩ := h
      refine ⟨⟨(reorgOperations_legal hs.table.stored rfl).1, ?_⟩, hs.reports⟩
      change (reorgOperations id c.sync.contract number s.db.operations).keys.Nodup
      rw [reorgOperations, OrderedMap.keys_mapValues]
      exact hs.table.keys
  | bookkeeping checkpoints leases projections =>
      rw [← Except.ok.inj h]
      exact ⟨table_of_same hs.table rfl, hs.reports⟩
  | pauseWrites =>
      simp only [step, bind_eq_ok, pure_eq_ok] at h
      obtain ⟨_, _, rfl⟩ := h
      exact hsame rfl rfl
  | resumeWrites =>
      simp only [step, bind_eq_ok, pure_eq_ok] at h
      obtain ⟨_, _, rfl⟩ := h
      exact hsame rfl rfl
  | close =>
      rw [← Except.ok.inj h]
      exact hsame rfl rfl

theorem run_kempt {c : Config} (db : Database) (as : List Action) :
    Kempt validTime (exec (step c validTime) (start db) as) := by
  refine exec_invariant (fun a s s' hs h => step_kempt hs h) ⟨⟨?_, ?_⟩, ?_⟩ as
  · intro id row hrow
    cases hrow
  · exact List.nodup_nil
  · intro report hmem
    cases hmem

theorem Succeeds.not_terminal (h : Succeeds validTime operation next) :
    transitions operation.state ≠ [] := by
  obtain ⟨_, ⟨update, hupdate⟩, _⟩ := Relation.TransGen.head'_iff.mp h
  intro hnone
  have hallowed := (transitionOperation_eq_ok.mp hupdate).1
  rw [hnone] at hallowed
  cases hallowed

theorem trackOperations_iff {c : Config} {rpc : Rpc} {latest : ChainBlock} {now : String} {limit : Nat}
    {cursor : Option String} {ids : List String} (htable : Table validTime db)
    (hcaught : CaughtUp c.sync latest db) (hfaithful : Faithful rpc latest)
    (hcompact : ∀ id operation, db.operation id = .ok (some operation) → Compact operation)
    (hnow : validTime now = true ∧ now.length ≤ 100)
    (hids : trackableOperationIds c.sync.chainId c.sync.contract limit cursor db = .ok ids) :
    (∃ db', trackOperations c validTime rpc latest now ids db = .ok db') ↔
      ∀ before operation after, ids = before ++ operation.operationId :: after →
        db.operation operation.operationId = .ok (some operation) →
        Clear validTime rpc latest db before operation := by
  obtain ⟨hnodup, hfollowed⟩ := trackableOperationIds_ok htable hids
  have htakes : ∀ id ∈ ids, Takes c.sync db id := by
    intro id hid
    obtain ⟨operation, rfl, hf⟩ := hfollowed id hid
    exact ⟨operation, rfl, hf, hcompact _ operation hf.row⟩
  exact (Progress.refl htable).loop_iff hfaithful hcaught hnow.1 hnow.2 htakes hnodup

/-- In a state of any run, with the synchronizer at the head, the loop over the operations
completes exactly when each is clear after the ones before it: the receipt of its hash is
its own, it was not counted deeper than the head allows, and if it settles no other
operation is reconciled with the same hash. -/
theorem tracking_completes_iff {c : Config} {validTime : String → Bool} (db : Database)
    (as : List Action) (rpc : Rpc) (latest : ChainBlock) (now : String) (limit : Nat)
    (cursor : Option String) (ids : List String)
    (hcaught : CaughtUp c.sync latest (exec (step c validTime) (start db) as).db)
    (hfaithful : Faithful rpc latest)
    (hcompact : ∀ id operation,
      (exec (step c validTime) (start db) as).db.operation id = .ok (some operation) →
        Compact operation)
    (hnow : validTime now = true ∧ now.length ≤ 100)
    (hids : trackableOperationIds c.sync.chainId c.sync.contract limit cursor
      (exec (step c validTime) (start db) as).db = .ok ids) :
    (∃ db', trackOperations c validTime rpc latest now ids
        (exec (step c validTime) (start db) as).db = .ok db') ↔
      ∀ before operation after, ids = before ++ operation.operationId :: after →
        (exec (step c validTime) (start db) as).db.operation operation.operationId =
          .ok (some operation) →
        Clear validTime rpc latest (exec (step c validTime) (start db) as).db before operation := by
  exact trackOperations_iff (run_kempt db as).table hcaught hfaithful hcompact hnow hids

/-! ## Hashes that were reported too early or twice -/

/-- Two operations, each with a hash that was reported before the node knew it, and a
head at which the synchronizer is. -/
def exampleTwo (hash hash' : Bytes32) : List Action :=
  [.prepareOwnerAction "a" [1, 2], .prepareOwnerAction "b" [3, 4],
    .observeOwnerSubmission 3 "a" hash, .observeOwnerSubmission 3 "b" hash',
    .transaction 0 (.ok none) exampleTime, .transaction 0 (.ok none) exampleTime,
    .recordCanonicalBlock ⟨exampleBlock, [], none⟩ none,
    .bookkeeping
      [((46630, 7), { blockNumber := 100, blockHash := 5, projected := some ⟨100, 5⟩ })] [] []]

/-- Both transactions are in the block and are what they should be, from these accounts. -/
def exampleNode (sender sender' : Address) : Rpc where
  receipt hash :=
    if hash = 9 then some ⟨9, 100, 5, 0, sender, some 7, .success⟩
    else if hash = 10 then some ⟨10, 100, 5, 1, sender', some 7, .success⟩
    else none
  reconcile _ _ := .match_

/-- The database after `exampleTwo`. -/
def exampleDb (hash hash' : Bytes32) : Database :=
  (exec (step exampleConfig exampleClock) (start Database.empty) (exampleTwo hash hash')).db

/-- An operation of `exampleTwo`. -/
def exampleSubmitted (id : String) (calldata : HexData) (hash : Bytes32) : ChainOperation where
  operationId := id
  chainId := 46630
  owner := 3
  target := 7
  calldata := some calldata
  state := .submitted
  txHash := some hash
  submittedAt := some exampleTime
  blockNumber := none
  blockHash := none
  transactionIndex := none
  receiptStatus := none
  confirmations := 0
  replacementTxHash := none
  canonical := false
  reconciled := false
  confirmedAt := none
  errorCode := none

theorem exampleNode_faithful (sender sender' : Address) :
    Faithful (exampleNode sender sender') exampleBlock := by
  have hnumber : ((100 : Nat) : Int) ≤ exampleBlock.number := by decide
  have hindex : ((0 : Nat) : Int) ≤ Json.maxSafeInteger ∧ ((1 : Nat) : Int) ≤ Json.maxSafeInteger := by
    decide
  constructor <;> intro hash receipt h <;> simp only [exampleNode] at h <;> split at h
  · rw [← Option.some.inj h]
    exact hnumber
  · split at h
    · rw [← Option.some.inj h]
      exact hnumber
    · cases h
  · rw [← Option.some.inj h]
    exact hindex.1
  · split at h
    · rw [← Option.some.inj h]
      exact hindex.2
    · cases h

theorem exampleDb_caughtUp (hash hash' : Bytes32) :
    CaughtUp exampleConfig.sync exampleBlock (exampleDb hash hash') := by
  refine ⟨⟨rfl, ⟨_, rfl, ?_⟩, ?_⟩, ?_⟩
  · decide
  · decide
  · decide

/-- Short texts and small numbers, column by column. -/
def compactColumns (row : OperationColumns) : Bool :=
  row.calldata.all (·.length ≤ 4096) && row.submittedAt.all (·.length ≤ 100) &&
    row.confirmedAt.all (·.length ≤ 100) && row.blockNumber.all (· ≤ Json.maxSafeInteger)

theorem compact_of_rows (htable : Table validTime db)
    (h : db.operations.all (fun e => compactColumns e.2) = true) :
    ∀ id operation, db.operation id = .ok (some operation) → Compact operation := by
  intro id operation hread
  obtain ⟨_, hget, _⟩ := htable.stored.operation_eq_some hread
  have hrow := List.all_eq_true.mp h _ (OrderedMap.mem_of_get? hget)
  simp only [compactColumns, columnsOf, Bool.and_eq_true, Option.all_eq_true,
    decide_eq_true_eq] at hrow
  exact ⟨hrow.1.1.1, hrow.1.1.2, hrow.1.2, hrow.2⟩

theorem exampleDb_table (hash hash' : Bytes32) : Table exampleClock (exampleDb hash hash') :=
  (run_kempt Database.empty (exampleTwo hash hash')).table

/-- The reports of `exampleTwo` are of the owner's transactions, one for each. -/
theorem example_clear {id : String} {calldata : HexData} {hash : Bytes32}
    (hrow : (exampleDb 9 10).operation id = .ok (some (exampleSubmitted id calldata hash)))
    (hhash : hash = 9 ∨ hash = 10) (before : List String) :
    Clear exampleClock (exampleNode 3 3) exampleBlock (exampleDb 9 10) before
      (exampleSubmitted id calldata hash) := by
  refine ⟨?_, fun _ _ _ => Or.inl rfl, ?_⟩
  · intro known receipt hknown hreceipt
    obtain rfl := Option.some.inj hknown
    rcases hhash with rfl | rfl <;>
    · obtain rfl := Option.some.inj hreceipt
      exact ⟨rfl, rfl, rfl⟩
  · intro _ other operation hne hother _ hsame
    have hdistinct : (exampleDb 9 10).operations.all (fun e => (exampleDb 9 10).operations.all
        (fun f => e.1 = f.1 || e.2.txHash ≠ f.2.txHash)) = true := by
      decide
    have hself := ((exampleDb_table 9 10).stored.operation_eq_some hrow).2.1
    have hget := ((exampleDb_table 9 10).stored.operation_eq_some hother).2.1
    have hpair := List.all_eq_true.mp (List.all_eq_true.mp hdistinct _ (OrderedMap.mem_of_get? hget)) _
      (OrderedMap.mem_of_get? hself)
    rw [Bool.or_eq_true, decide_eq_true_eq, decide_eq_true_eq] at hpair
    rcases hpair with heq | hdiffer
    · exact absurd heq hne
    · exact absurd hsame hdiffer

theorem example_tracking_completes :
    ∃ db', trackOperations exampleConfig exampleClock (exampleNode 3 3) exampleBlock exampleTime
      ["a", "b"] (exampleDb 9 10) = .ok db' := by
  have hids : trackableOperationIds exampleConfig.sync.chainId exampleConfig.sync.contract 100 none
      (exampleDb 9 10) = .ok ["a", "b"] := by
    decide
  have hrows : (exampleDb 9 10).operations.all (fun e => compactColumns e.2) = true := by
    decide
  have ha : (exampleDb 9 10).operation "a" = .ok (some (exampleSubmitted "a" [1, 2] 9)) := by
    decide
  have hb : (exampleDb 9 10).operation "b" = .ok (some (exampleSubmitted "b" [3, 4] 10)) := by
    decide
  refine (tracking_completes_iff Database.empty (exampleTwo 9 10) (exampleNode 3 3) exampleBlock
    exampleTime 100 none ["a", "b"] (exampleDb_caughtUp 9 10) (exampleNode_faithful 3 3)
    (compact_of_rows (exampleDb_table 9 10) hrows) (by decide) hids).mpr ?_
  intro before operation after heq hrow
  have hmem : operation.operationId ∈ ["a", "b"] := by
    rw [heq]
    exact List.mem_append_right _ List.mem_cons_self
  change (exampleDb 9 10).operation operation.operationId = _ at hrow
  rcases List.mem_cons.mp hmem with hid | hid
  · rw [hid, ha] at hrow
    obtain rfl := Option.some.inj (Except.ok.inj hrow)
    exact example_clear ha (Or.inl rfl) before
  · rw [List.mem_singleton.mp hid, hb] at hrow
    obtain rfl := Option.some.inj (Except.ok.inj hrow)
    exact example_clear hb (Or.inr rfl) before

theorem exampleDb_included : ∀ id calldata,
    Included (exampleDb 9 9) (exampleSubmitted id calldata 9)
      ⟨9, 100, 5, 0, 3, some 7, .success⟩ := by
  intro id calldata
  have hblock : (exampleDb 9 9).canonicalBlock 46630 7 100 = .ok (some exampleBlock) := by
    decide
  exact ⟨exampleBlock, hblock, rfl⟩

/-- A hash that another account's transaction turns out to have ends the loop at its
operation, and so does the second of two operations with one hash. -/
theorem reported_hash_stops_tracking :
    (CaughtUp exampleConfig.sync exampleBlock (exampleDb 9 10) ∧
      Faithful (exampleNode 4 3) exampleBlock ∧
      trackOperations exampleConfig exampleClock (exampleNode 4 3) exampleBlock exampleTime
        ["a", "b"] (exampleDb 9 10) = .error "RECEIPT_EVIDENCE_MISMATCH") ∧
    (CaughtUp exampleConfig.sync exampleBlock (exampleDb 9 9) ∧
      Faithful (exampleNode 3 3) exampleBlock ∧
      ¬ ∃ db', trackOperations exampleConfig exampleClock (exampleNode 3 3) exampleBlock exampleTime
        ["a", "b"] (exampleDb 9 9) = .ok db') := by
  refine ⟨⟨exampleDb_caughtUp 9 10, exampleNode_faithful 4 3, rfl⟩,
    exampleDb_caughtUp 9 9, exampleNode_faithful 3 3, ?_⟩
  have ha : (exampleDb 9 9).operation "a" = .ok (some (exampleSubmitted "a" [1, 2] 9)) := by
    decide
  have hb : (exampleDb 9 9).operation "b" = .ok (some (exampleSubmitted "b" [3, 4] 9)) := by
    decide
  have hids : trackableOperationIds exampleConfig.sync.chainId exampleConfig.sync.contract 100 none
      (exampleDb 9 9) = .ok ["a", "b"] := by
    decide
  have hrows : (exampleDb 9 9).operations.all (fun e => compactColumns e.2) = true := by
    decide
  have hsettles : ∀ id calldata, Settles exampleClock (exampleNode 3 3) (exampleDb 9 9)
      (exampleSubmitted id calldata 9) := fun id calldata =>
    ⟨_, ⟨⟨9, rfl, rfl⟩, exampleDb_included id calldata, rfl⟩, rfl⟩
  intro hcompletes
  have hclear := (trackOperations_iff (exampleDb_table 9 9) (exampleDb_caughtUp 9 9)
    (exampleNode_faithful 3 3) (compact_of_rows (exampleDb_table 9 9) hrows) (by decide) hids).mp
    hcompletes ["a"] (exampleSubmitted "b" [3, 4] 9) [] rfl hb
  have hsole := hclear.sole (hsettles "b" [3, 4]) "a" _ (by decide) ha rfl rfl
  exact hsole.2 List.mem_cons_self (hsettles "a" [1, 2])

end TradingRuntime
end AlphaForge
