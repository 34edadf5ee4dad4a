/-
What the calls of a synchronizer leave in the tables.

Each call that goes through is read back as the tables it writes, under the token it was
made with.  `Untouched` says that nothing of a contract was written: its lease, its
checkpoint, its canonical rows and its projections are as they were.
-/
import AlphaForge.Data.OrderedMap
import AlphaForge.Indexer.ChainStore.Chain
import AlphaForge.Indexer.Database.Sync

namespace AlphaForge
namespace Database

open Evm ChainStore Lifecycle

variable {id : Int} {contract : Address} {db db' : Database} {token : String}
  {key : Int × Address}

/-! ## Leases -/

theorem log_leases (key : Int × Address) :
    db.log.leases.get? key = (db.leases.get? key).map LeaseRow.ownerToken :=
  OrderedMap.get?_map _ _ _

/-- Whoever shows a token holds the lease. -/
def HeldBy (key : Int × Address) (token : String) (db : Database) : Prop :=
  ∃ lease, db.leases.get? key = some lease ∧ lease.ownerToken = token

theorem assertSyncOwner_eq_ok :
    assertSyncOwner db.log id contract (some token) = .ok () ↔ db.HeldBy (id, contract) token := by
  rw [assertSyncOwner, check_eq_ok, log_leases, Option.map_eq_some_iff]
  exact Iff.rfl

theorem get?_updateCheckpoint {other : Int × Address} {f : CheckpointRow → CheckpointRow} :
    (db.updateCheckpoint key f).get? other =
      if other = key then (db.checkpoints.get? other).map f else db.checkpoints.get? other := by
  rw [updateCheckpoint, OrderedMap.get?_mapValues]
  by_cases h : other = key
  · simp only [if_pos h]
  · simp only [if_neg h, Option.map_id']

theorem get?_updateCheckpoint_eq_some {f : CheckpointRow → CheckpointRow} {row : CheckpointRow}
    (h : (db.updateCheckpoint key f).get? key = some row) :
    ∃ old, db.checkpoints.get? key = some old ∧ f old = row := by
  rw [get?_updateCheckpoint, if_pos rfl] at h
  exact Option.map_eq_some_iff.mp h

/-- A mark that leaves the place of the checkpoint. -/
theorem checkpointAt_mark {f : CheckpointRow → CheckpointRow}
    (hplace : ∀ row, (f row).place = row.place) :
    ((db.updateCheckpoint (id, contract) f).get? (id, contract)).map CheckpointRow.place =
      checkpointAt db.log id contract := by
  rw [get?_updateCheckpoint, if_pos rfl, Option.map_map]
  exact congrArg (fun g => Option.map g (db.checkpoints.get? (id, contract))) (funext hplace)

theorem checkpointAt_row {row : CheckpointRow} (h : db.checkpoints.get? (id, contract) = some row) :
    checkpointAt db.log id contract = some row.place :=
  congrArg (Option.map CheckpointRow.place) h

/-- The holder gives the lease back. -/
theorem get?_releaseLease (hkeys : db.leases.keys.Nodup) (h : db.HeldBy key token)
    (other : Int × Address) :
    (db.releaseLease key token).get? other =
      if other = key then none else db.leases.get? other := by
  obtain ⟨lease, hlease, rfl⟩ := h
  have hsame : db.releaseLease key lease.ownerToken = db.leases.filter (fun e => e.1 ≠ key) := by
    refine List.filter_congr fun e he => decide_eq_decide.mpr (not_congr (and_iff_left_of_imp ?_))
    rintro rfl
    have hget := (OrderedMap.mem_iff_get? hkeys).mp he
    rw [hlease, Option.some.injEq] at hget
    rw [hget]
  rw [hsame]
  by_cases hother : other = key
  · rw [if_pos hother, hother, OrderedMap.get?_delete_self]
  · rw [if_neg hother, OrderedMap.get?_delete_of_ne hother]

theorem releaseLease_ne (hkeys : db.leases.keys.Nodup) (h : db.HeldBy key token)
    (lease : LeaseRow) : (db.releaseLease key token).get? key ≠ some lease := by
  rw [get?_releaseLease hkeys h, if_pos rfl]
  exact nofun

/-! ## The tables after a call -/

/-- Recording a block with a block to reach marks the row as incomplete. -/
theorem setSyncTarget_ok {checkpoints checkpoints' : OrderedMap (Int × Address) CheckpointRow}
    {target : Int} (h : setSyncTarget checkpoints id contract (some target) = .ok checkpoints') :
    ∃ row, checkpoints.get? (id, contract) = some row ∧
      checkpoints' = checkpoints.set (id, contract) (incomplete target row) := by
  simp only [setSyncTarget, bind_eq_ok, safeNumber_eq_ok] at h
  obtain ⟨_, ⟨_, rfl⟩, h⟩ := h
  cases hrow : checkpoints.get? (id, contract) with
  | none => simp only [hrow, reduceCtorEq] at h
  | some row =>
      simp only [hrow, pure_eq_ok] at h
      exact ⟨row, rfl, h.symm⟩

theorem setSyncTarget_of_ne {checkpoints checkpoints' : OrderedMap (Int × Address) CheckpointRow}
    {syncTargetBlock : Option Int} {other : Int × Address}
    (h : setSyncTarget checkpoints id contract syncTargetBlock = .ok checkpoints')
    (hne : other ≠ (id, contract)) : checkpoints'.get? other = checkpoints.get? other := by
  cases syncTargetBlock with
  | none =>
      rw [setSyncTarget, Except.ok.injEq] at h
      rw [h]
  | some target =>
      obtain ⟨row, _, rfl⟩ := setSyncTarget_ok h
      exact OrderedMap.get?_set_of_ne hne _ _

theorem raisedTarget_of_le {previous : Option Int} {target : Int}
    (h : ∀ p ∈ previous, p ≤ target) : raisedTarget previous target = target := by
  cases previous with
  | none => rfl
  | some p =>
      have hle := h p rfl
      unfold raisedTarget
      dsimp only
      split
      · rfl
      · omega

theorem le_raisedTarget {previous target : Int} :
    previous ≤ raisedTarget (some previous) target := by
  unfold raisedTarget
  dsimp only
  split
  · omega
  · exact Int.le_refl _

theorem lease_le_requiredTarget {lease : LeaseRow} (h : db.leases.get? key = some lease) :
    lease.targetBlock ≤ db.requiredTarget key := by
  rw [requiredTarget, h]
  exact le_max_left _ _

theorem row_le_requiredTarget {row : CheckpointRow} {target : Int}
    (h : db.checkpoints.get? key = some row) (htarget : row.syncTarget = some target) :
    target ≤ db.requiredTarget key := by
  have hget : (db.checkpoints.get? key).bind CheckpointRow.syncTarget = some target := by
    rw [h]
    exact htarget
  rw [requiredTarget, hget]
  exact le_max_right _ _

theorem claimSync_ok {target : Int} (h : claimSync id contract target token db = .ok db') :
    (0 < id ∧ id ≤ Json.maxSafeInteger) ∧ db.requiredTarget (id, contract) ≤ target ∧
      db' = { db with
        leases := db.leases.set (id, contract) ⟨token, target⟩
        checkpoints := db.updateCheckpoint (id, contract) (incomplete target) } := by
  simp only [claimSync, bind_eq_ok, check_eq_ok, chainId_eq_ok, safeNumber_eq_ok, pure_eq_ok] at h
  obtain ⟨_, _, _, ⟨hid, rfl⟩, _, ⟨_, rfl⟩, _, hrequired, rfl⟩ := h
  refine ⟨hid, hrequired, ?_⟩
  rw [max_eq_left hrequired]
  cases hlease : db.leases.get? (id, contract) with
  | none => rfl
  | some lease =>
      have hle := lease_le_requiredTarget hlease
      have hnot : ¬ target < lease.targetBlock := by omega
      simp only [if_neg hnot]

theorem markSyncUnhealthy_ok {error : String}
    (h : markSyncUnhealthy id contract error none (some token) db = .ok db') :
    db.HeldBy (id, contract) token ∧ (db.checkpoints.get? (id, contract)).isSome = true ∧
      db' = { db with
        leases := db.releaseLease (id, contract) token
        checkpoints := db.updateCheckpoint (id, contract) (failed error) } := by
  simp only [markSyncUnhealthy, bind_eq_ok, check_eq_ok, chainId_eq_ok, Option.mapM_none,
    pure_eq_ok, Option.isSome_none, Bool.false_eq_true, iff_false] at h
  obtain ⟨_, _, _, ⟨_, rfl⟩, _, rfl, _, howner, _, hrow, rfl⟩ := h
  exact ⟨assertSyncOwner_eq_ok.mp howner, hrow, rfl⟩

theorem markSyncHealthy_ok {completed : Int} {marked : Bool}
    (h : markSyncHealthy id contract completed (some token) db = .ok (db', marked)) :
    db.HeldBy (id, contract) token ∧
      ((∃ row ∈ db.checkpoints.get? (id, contract), caughtUp completed row ∧ marked = true ∧
        db' = { db with
          leases := db.releaseLease (id, contract) token
          checkpoints := db.updateCheckpoint (id, contract) settled }) ∨
        marked = false ∧ db' = db) := by
  simp only [markSyncHealthy, bind_eq_ok, chainId_eq_ok, safeNumber_eq_ok] at h
  obtain ⟨_, ⟨_, rfl⟩, _, ⟨_, rfl⟩, _, howner, h⟩ := h
  refine ⟨assertSyncOwner_eq_ok.mp howner, ?_⟩
  split at h
  · next hrow =>
    obtain ⟨row, hget, hcaught⟩ := hrow
    obtain ⟨rfl, rfl⟩ := Prod.mk.inj (pure_eq_ok.mp h)
    exact Or.inl ⟨row, hget, hcaught, rfl, rfl⟩
  · obtain ⟨rfl, rfl⟩ := Prod.mk.inj (pure_eq_ok.mp h)
    exact Or.inr ⟨rfl, rfl⟩

theorem releaseSyncIncomplete_ok {target : Int}
    (h : releaseSyncIncomplete id contract target token db = .ok db') :
    db.HeldBy (id, contract) token ∧ (db.checkpoints.get? (id, contract)).isSome = true ∧
      db' = { db with
        checkpoints := db.updateCheckpoint (id, contract) (incomplete target)
        leases := db.releaseLease (id, contract) token } := by
  simp only [releaseSyncIncomplete, bind_eq_ok, check_eq_ok, chainId_eq_ok, safeNumber_eq_ok,
    pure_eq_ok] at h
  obtain ⟨_, ⟨_, rfl⟩, _, ⟨_, rfl⟩, _, howner, _, hrow, rfl⟩ := h
  exact ⟨assertSyncOwner_eq_ok.mp howner, hrow, rfl⟩

theorem recordCanonicalBlock_ok {r : Recording} {ownerToken : Option String}
    (h : recordCanonicalBlock id contract r ownerToken db = .ok db') :
    ∃ log, step (.recordCanonicalBlock id contract r ownerToken) db.log = .ok log ∧
      db' = db.withLog log := by
  simp only [recordCanonicalBlock, bind_eq_ok, pure_eq_ok] at h
  obtain ⟨log, hlog, rfl⟩ := h
  exact ⟨log, hlog, rfl⟩

theorem rollbackFromBlock_ok {fromBlock : Int} {ownerToken : Option String}
    (h : rollbackFromBlock id contract fromBlock ownerToken db = .ok db') :
    ∃ log, step (.rollbackFromBlock id contract fromBlock ownerToken) db.log = .ok log ∧
      db' = { db.withLog log with
        operations := reorgOperations id contract fromBlock db.operations
        projections := db.projections.filter (fun e => ¬ ofContract id contract e) } := by
  simp only [rollbackFromBlock, bind_eq_ok, chainId_eq_ok, safeNumber_eq_ok, pure_eq_ok] at h
  obtain ⟨_, ⟨_, rfl⟩, _, ⟨_, rfl⟩, log, hlog, rfl⟩ := h
  refine ⟨log.1, ?_, rfl⟩
  simp only [step, hlog, ok_bind]
  rfl

/-! ## Committed projections -/

theorem canonicalBlock_ok {number : Int} {block : ChainBlock}
    (h : db.canonicalBlock id contract number = .ok (some block)) :
    block.number = number ∧ ∃ row, (blockKey id contract block, row) ∈ db.blocks ∧
      isCanonicalBlock id contract (blockKey id contract block, row) = true ∧
      block.parentHash = row.parentHash ∧ block.timestamp = row.timestamp := by
  simp only [canonicalBlock, bind_eq_ok, chainId_eq_ok, safeNumber_eq_ok, pure_eq_ok,
    Option.map_eq_some_iff] at h
  obtain ⟨_, ⟨_, rfl⟩, _, ⟨_, rfl⟩, ⟨key, row⟩, hfind, rfl⟩ := h
  have hprop := List.find?_some hfind
  simp only [Bool.decide_and, Bool.decide_eq_true, Bool.and_eq_true, decide_eq_true_eq] at hprop
  obtain ⟨hid, hcontract, _⟩ := isCanonicalBlock_iff.mp hprop.1
  have hkey : key = blockKey id contract ⟨key.number, key.hash, row.parentHash, row.timestamp⟩ := by
    rw [blockKey, ← hid, ← hcontract]
  exact ⟨hprop.2, row, hkey ▸ List.mem_of_find?_eq_some hfind, hkey ▸ hprop.1, rfl, rfl⟩

def CanonicalAt (id : Int) (contract : Address) (number : Int) (hash : Bytes32) (db : Database) :
    Prop :=
  ∃ row, (⟨id, contract, number, hash⟩, row) ∈ db.blocks ∧
    isCanonicalBlock id contract (⟨id, contract, number, hash⟩, row) = true

theorem admitProjections_ok {block : ChainBlock} {projections : List ProductProjection}
    {keys keys' : List (Address × String)}
    (h : projections.foldlM (admitProjection id contract block db) keys = .ok keys') :
    ∀ p ∈ projections, db.CanonicalAt id contract p.blockNumber p.blockHash := by
  induction projections generalizing keys with
  | nil => exact nofun
  | cons p rest ih =>
      simp only [List.foldlM_cons, bind_eq_ok] at h
      obtain ⟨next, hp, hrest⟩ := h
      simp only [admitProjection, bind_eq_ok, check_eq_ok] at hp
      obtain ⟨_, _, found, hfound, _, ⟨b, hb, hhash⟩, _⟩ := hp
      intro q hq
      rcases List.mem_cons.mp hq with rfl | hq
      · rw [Option.mem_def.mp hb] at hfound
        obtain ⟨hnumber, row, hmem, hcanonical, _⟩ := canonicalBlock_ok hfound
        rw [blockKey, hnumber, hhash] at hmem hcanonical
        exact ⟨row, hmem, hcanonical⟩
      · exact ih hrest q hq

theorem commitProjections_ok {block : ChainBlock} {projections : List ProductProjection}
    (h : commitProjections id contract block projections (some token) db = .ok db') :
    db.HeldBy (id, contract) token ∧
      checkpointAt db.log id contract = some ⟨block.number, block.hash⟩ ∧
      (∀ p ∈ projections, db.CanonicalAt id contract p.blockNumber p.blockHash) ∧
      ∃ entries, projections.mapM (projectionEntry id contract) = .ok entries ∧ db' = { db with
        projections := db.projections.filter (fun e => ¬ ofContract id contract e) ++ entries
        checkpoints := db.updateCheckpoint (id, contract) (projectedAt block) } := by
  simp only [commitProjections, assertCheckpoint, Database.checkpoint, bind_eq_ok, check_eq_ok,
    chainId_eq_ok, safeNumber_eq_ok, pure_eq_ok] at h
  obtain ⟨_, ⟨_, rfl⟩, _, ⟨_, rfl⟩, _, ⟨_, _, _, ⟨_, ⟨_, rfl⟩, rfl⟩, _, hplace⟩, _, hadmit, _,
    howner, entries, hentries, rfl⟩ := h
  exact ⟨assertSyncOwner_eq_ok.mp howner, hplace, admitProjections_ok hadmit, entries, hentries, rfl⟩

theorem projectionEntry_ok {p : ProductProjection} {e : ProjectionKey × ProjectionRow}
    (h : projectionEntry id contract p = .ok e) :
    e.1 = ⟨id, p.owner, contract, p.projectionKey⟩ ∧ e.2.blockNumber = p.blockNumber ∧
      e.2.blockHash = p.blockHash := by
  simp only [projectionEntry, bind_eq_ok, pure_eq_ok] at h
  obtain ⟨_, _, rfl⟩ := h
  exact ⟨rfl, rfl, rfl⟩

/-! ## Other contracts -/

/-- The primary keys do not repeat. -/
structure Keyed (db : Database) : Prop where
  blocks : db.blocks.keys.Nodup
  events : db.events.keys.Nodup
  leases : db.leases.keys.Nodup

theorem empty_keyed : Keyed empty := ⟨List.nodup_nil, List.nodup_nil, List.nodup_nil⟩

/-- Nothing of the contract is written. -/
structure Untouched (id : Int) (contract : Address) (db db' : Database) : Prop where
  lease : db'.leases.get? (id, contract) = db.leases.get? (id, contract)
  row : db'.checkpoints.get? (id, contract) = db.checkpoints.get? (id, contract)
  blocks : db'.blocks.filter (isCanonicalBlock id contract) =
    db.blocks.filter (isCanonicalBlock id contract)
  events : db'.events.filter (isCanonicalEvent id contract) =
    db.events.filter (isCanonicalEvent id contract)
  projections : db'.projections.filter (fun e => ofContract id contract e) =
    db.projections.filter (fun e => ofContract id contract e)

variable {other : Int} {otherContract : Address}

/-- The rows of one contract are not those of another. -/
theorem ofContract_ne (hne : (id, contract) ≠ (other, otherContract))
    {e : ProjectionKey × ProjectionRow} (h : ofContract other otherContract e) :
    ¬ ofContract id contract e := by
  rintro ⟨hid, hcontract⟩
  exact hne (Prod.ext (hid.symm.trans h.1) (hcontract.symm.trans h.2))

theorem filter_own (projections : OrderedMap ProjectionKey ProjectionRow) :
    (projections.filter (fun e => ¬ ofContract id contract e)).filter
      (fun e => ofContract id contract e) = [] := by
  refine List.filter_eq_nil_iff.mpr fun e he => ?_
  simpa using (List.mem_filter.mp he).2

theorem filter_others (hne : (id, contract) ≠ (other, otherContract))
    (projections : OrderedMap ProjectionKey ProjectionRow) :
    (projections.filter (fun e => ¬ ofContract other otherContract e)).filter
        (fun e => ofContract id contract e) =
      projections.filter (fun e => ofContract id contract e) := by
  rw [List.filter_filter]
  refine List.filter_congr fun e _ => ?_
  by_cases h : ofContract id contract e
  · simp [h, ofContract_ne hne.symm h]
  · simp [h]

theorem get?_updateCheckpoint_of_ne (hne : (id, contract) ≠ (other, otherContract))
    (f : CheckpointRow → CheckpointRow) :
    (db.updateCheckpoint (other, otherContract) f).get? (id, contract) =
      db.checkpoints.get? (id, contract) := by
  rw [get?_updateCheckpoint, if_neg hne]

theorem claimSync_untouched {target : Int} (hne : (id, contract) ≠ (other, otherContract))
    (h : claimSync other otherContract target token db = .ok db') :
    Untouched id contract db db' := by
  obtain ⟨_, _, rfl⟩ := claimSync_ok h
  exact ⟨OrderedMap.get?_set_of_ne hne _ _, get?_updateCheckpoint_of_ne hne (incomplete target), rfl, rfl, rfl⟩

/-- A call that gives the lease back and writes the checkpoint. -/
theorem release_untouched (hkeyed : Keyed db) (hne : (id, contract) ≠ (other, otherContract))
    (hheld : db.HeldBy (other, otherContract) token) (f : CheckpointRow → CheckpointRow) :
    Untouched id contract db { db with
      leases := db.releaseLease (other, otherContract) token
      checkpoints := db.updateCheckpoint (other, otherContract) f } := by
  refine ⟨?_, get?_updateCheckpoint_of_ne hne f, rfl, rfl, rfl⟩
  exact (get?_releaseLease hkeyed.leases hheld _).trans (if_neg hne)

theorem commitProjections_untouched {block : ChainBlock} {projections : List ProductProjection}
    (hne : (id, contract) ≠ (other, otherContract))
    (h : commitProjections other otherContract block projections (some token) db = .ok db') :
    Untouched id contract db db' := by
  obtain ⟨_, _, _, entries, hentries, rfl⟩ := commitProjections_ok h
  have hnone : entries.filter (fun e => ofContract id contract e) = [] := by
    refine List.filter_eq_nil_iff.mpr fun e he hof => ?_
    obtain ⟨p, _, hp⟩ := mapM_mem hentries he
    have hkey := (projectionEntry_ok hp).1
    refine ofContract_ne hne ⟨?_, ?_⟩ (of_decide_eq_true hof)
    · rw [hkey]
    · rw [hkey]
  refine ⟨rfl, ?_, rfl, rfl, ?_⟩
  · exact get?_updateCheckpoint_of_ne hne (projectedAt block)
  · rw [List.filter_append, hnone, List.append_nil, filter_others hne]

theorem recordEvents_untouched {n : Int} {items : List IndexedChainEvent}
    {table out : OrderedMap EventKey EventRow × Nat}
    (hne : (id, contract) ≠ (other, otherContract)) (hkeys : table.1.keys.Nodup)
    (h : items.foldlM (recordEvent other otherContract n) table = .ok out) :
    out.1.filter (isCanonicalEvent id contract) = table.1.filter (isCanonicalEvent id contract) := by
  induction items generalizing table with
  | nil =>
      simp only [List.foldlM_nil, pure_eq_ok] at h
      rw [h]
  | cons item rest ih =>
      simp only [List.foldlM_cons, bind_eq_ok] at h
      obtain ⟨mid, hitem, hrest⟩ := h
      rw [ih (recordEvent_keys hitem hkeys) hrest]
      rcases recordEvent_ok hitem with ⟨_, rfl⟩ | ⟨⟨hreusable, row, hrow, hget⟩, row', heq⟩
      · rfl
      · rw [heq, OrderedMap.get?_set_self, Option.some.injEq] at hget
        rw [heq, hget]
        refine OrderedMap.filter_set (fun old hold => ?_) ?_
        · have hfalse := (hreusable old ((OrderedMap.mem_iff_get? hkeys).mp hold)).1
          simp [isCanonicalEvent, hfalse]
        · have hcontract := (eventRow_eq_ok hrow).1
          rw [Bool.eq_false_iff]
          intro hcanonical
          obtain ⟨hid, hsame, _⟩ := isCanonicalEvent_iff.mp hcanonical
          exact hne (Prod.ext hid.symm (hsame.symm.trans hcontract))

theorem recordCanonicalBlock_untouched {r : Recording} {ownerToken : Option String}
    (hkeyed : Keyed db) (hne : (id, contract) ≠ (other, otherContract))
    (h : recordCanonicalBlock other otherContract r ownerToken db = .ok db') :
    Untouched id contract db db' := by
  obtain ⟨log, hlog, rfl⟩ := recordCanonicalBlock_ok h
  obtain ⟨_, sorted, _, _, blocks, hblocks, table, htable, checkpoints, hcheckpoints, rfl⟩ :=
    step_record.mp hlog
  refine ⟨rfl, ?_, ?_, recordEvents_untouched hne hkeyed.events htable, rfl⟩
  · have hset : checkpoints.get? (id, contract) =
        (advanceCheckpoint db.checkpoints other otherContract r.block).get? (id, contract) :=
      setSyncTarget_of_ne hcheckpoints hne
    exact hset.trans (advanceCheckpoint_of_ne hne)
  · rcases admitBlock_eq_ok hblocks with ⟨_, rfl, _⟩ | ⟨_, _, rfl⟩
    · rfl
    · have hkey : ∀ row, isCanonicalBlock id contract
          (blockKey other otherContract r.block, row) = false := by
        intro row
        rw [Bool.eq_false_iff]
        intro hcanonical
        obtain ⟨hid, hcontract, _⟩ := isCanonicalBlock_iff.mp hcanonical
        exact hne (Prod.ext hid.symm hcontract.symm)
      exact OrderedMap.filter_set (fun row _ => hkey row) (hkey _)

theorem rollbackFromBlock_untouched {fromBlock : Int} {ownerToken : Option String}
    (hne : (id, contract) ≠ (other, otherContract))
    (h : rollbackFromBlock other otherContract fromBlock ownerToken db = .ok db') :
    Untouched id contract db db' := by
  obtain ⟨log, hlog, rfl⟩ := rollbackFromBlock_ok h
  obtain ⟨hblocks, hevents, hcheckpoints⟩ := step_rollback hlog
  refine ⟨rfl, ?_, ?_, ?_, filter_others hne _⟩
  · show log.checkpoints.get? (id, contract) = db.checkpoints.get? (id, contract)
    rw [hcheckpoints]
    exact restoreCheckpoint_of_ne hne _
  · show log.blocks.filter _ = _
    rw [hblocks]
    refine OrderedMap.filter_mapValues (fun key row hcanonical => if_neg ?_) fun key row hnot => ?_
    · rintro ⟨hother, _⟩
      obtain ⟨hid, hcontract, _⟩ := isCanonicalBlock_iff.mp hcanonical
      obtain ⟨hid', hcontract', _⟩ := isCanonicalBlock_iff.mp hother
      exact hne (Prod.ext (hid.symm.trans hid') (hcontract.symm.trans hcontract'))
    · split
      · simp [isCanonicalBlock]
      · exact hnot
  · show log.events.filter _ = _
    rw [hevents]
    refine OrderedMap.filter_mapValues (fun key row hcanonical => if_neg ?_) fun key row hnot => ?_
    · rintro ⟨hother, _⟩
      obtain ⟨hid, hcontract, _⟩ := isCanonicalEvent_iff.mp hcanonical
      obtain ⟨hid', hcontract', _⟩ := isCanonicalEvent_iff.mp hother
      exact hne (Prod.ext (hid.symm.trans hid') (hcontract.symm.trans hcontract'))
    · split
      · simp [isCanonicalEvent]
      · exact hnot

end Database
end AlphaForge
