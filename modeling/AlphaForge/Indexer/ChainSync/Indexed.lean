/-
What the tables hold of one contract.

`Indexed` says it of a chain of recordings: the canonical rows are those of the chain, the
chain goes without a gap from the deployment on, a contract that is synchronized is not
healthy, and a contract whose projections are at the checkpoint shows what the integration
makes of the canonical events there.  Each write of the holder of the lease keeps it.
-/
import AlphaForge.Indexer.ChainSync
import AlphaForge.Indexer.Database.Leased
import Mathlib.Data.List.Chain

namespace AlphaForge
namespace ChainSync

open Evm ChainStore Database

variable {integration : Integration} {id : Int} {contract : Address} {chain : List Recording}
  {db db' : Database} {token : String} {r : Recording} {block : ChainBlock}

def shown (id : Int) (contract : Address) (db : Database) : List (ProjectionKey × ProjectionRow) :=
  db.projections.filter (fun e => ofContract id contract e)

def storedEvents (id : Int) (contract : Address) (db : Database) : List IndexedChainEvent :=
  (canonicalRows db.log id contract).map decodeEvent

/-- The rows that a rebuild from the canonical events inserts. -/
def rebuilt (integration : Integration) (id : Int) (contract : Address) (db : Database)
    (block : ChainBlock) : Except String (List (ProjectionKey × ProjectionRow)) :=
  (productProjections integration id contract (storedEvents id contract db) block).mapM
    (projectionEntry id contract)

/-- Block after block from the deployment on. -/
structure Linked (deploymentBlock : Int) (chain : List Recording) : Prop where
  first : ∀ r ∈ chain.head?, r.block.number = deploymentBlock
  next : chain.IsChain (fun a b =>
    b.block.number = a.block.number + 1 ∧ b.block.parentHash = a.block.hash)

/-- The health of a checkpoint, and how far its projections are. -/
structure RowSound (lease : Option LeaseRow) (row : CheckpointRow) : Prop where
  held : ∀ l ∈ lease, row.syncHealthy = false ∧ row.syncError = some "CHAIN_SYNC_INCOMPLETE" ∧
    row.syncTarget = some l.targetBlock
  health : healthValid row = true
  settled : row.syncHealthy = true → row.projected = some row.place
  behind : ∀ p ∈ row.projected, p.blockNumber ≤ row.blockNumber

structure Indexed (integration : Integration) (id : Int) (contract : Address)
    (chain : List Recording) (db : Database) : Prop where
  holds : Holds id contract db.log chain
  rows : ∀ r ∈ chain, db.blocks.get? (blockKey id contract r.block) =
    some ⟨r.block.parentHash, r.block.timestamp, r.events.length, true⟩
  linked : Linked integration.deploymentBlock chain
  valid : ∀ r ∈ chain, (∀ e ∈ r.events, validateEvent e id contract r.block = .ok ()) ∧
    (r.events.map (eventKey id)).Nodup
  row : ∀ row, db.checkpoints.get? (id, contract) = some row →
    RowSound (db.leases.get? (id, contract)) row
  built : ∀ row last, db.checkpoints.get? (id, contract) = some row →
    row.projected = some row.place → chain.getLast? = some last →
      rebuilt integration id contract db last.block = .ok (shown id contract db)
  known : ∀ e ∈ shown id contract db, ∃ r ∈ chain,
    r.block.number = e.2.blockNumber ∧ r.block.hash = e.2.blockHash

theorem empty_indexed : Indexed integration id contract [] empty where
  holds := fresh_holds [] [] []
  rows := nofun
  linked := ⟨nofun, List.IsChain.nil⟩
  valid := nofun
  row := nofun
  built := nofun
  known := nofun

/-! ## Other contracts -/

theorem canonicalBlock_iff_mem (hkeys : db.blocks.keys.Nodup) {key : BlockKey} {row : BlockRow} :
    (db.blocks.get? key = some row ∧ isCanonicalBlock id contract (key, row) = true) ↔
      (key, row) ∈ db.blocks.filter (isCanonicalBlock id contract) := by
  rw [List.mem_filter, OrderedMap.mem_iff_get? hkeys]

theorem canonicalEvent_iff_mem (hkeys : db.events.keys.Nodup) {key : EventKey} {row : EventRow} :
    (db.events.get? key = some row ∧ isCanonicalEvent id contract (key, row) = true) ↔
      (key, row) ∈ db.events.filter (isCanonicalEvent id contract) := by
  rw [List.mem_filter, OrderedMap.mem_iff_get? hkeys]

theorem storedEvents_untouched (h : Untouched id contract db db') :
    storedEvents id contract db' = storedEvents id contract db := by
  unfold storedEvents canonicalRows
  show ((db'.events.filter _).insertionSort eventOrder).map decodeEvent = _
  rw [h.events]
  rfl

theorem Indexed.untouched (h : Indexed integration id contract chain db)
    (hu : Untouched id contract db db') (hkeyed : Keyed db') :
    Indexed integration id contract chain db' := by
  have hshown : shown id contract db' = shown id contract db := hu.projections
  have hblock : ∀ key row, (db'.blocks.get? key = some row ∧
      isCanonicalBlock id contract (key, row) = true) ↔
        db.blocks.get? key = some row ∧ isCanonicalBlock id contract (key, row) = true := by
    intro key row
    rw [canonicalBlock_iff_mem hkeyed.blocks, canonicalBlock_iff_mem h.holds.blockKeys, hu.blocks]
  refine ⟨⟨hkeyed.blocks, hkeyed.events, h.holds.increasing, h.holds.numbers, fun key => ?_,
    fun key row => ?_, ?_⟩, fun r hr => ?_, h.linked, h.valid, ?_, ?_, ?_⟩
  · rw [← h.holds.blocks key]
    exact exists_congr fun row => hblock key row
  · rw [← h.holds.events key row]
    show (db'.events.get? key = some row ∧ _) ↔ _
    rw [canonicalEvent_iff_mem hkeyed.events, hu.events, ← canonicalEvent_iff_mem h.holds.eventKeys]
    exact Iff.rfl
  · rw [← h.holds.checkpoint]
    exact congrArg (Option.map CheckpointRow.place) hu.row
  · exact ((hblock _ _).mpr ⟨h.rows r hr, isCanonicalBlock_iff.mpr ⟨rfl, rfl, rfl⟩⟩).1
  · rw [hu.lease, hu.row]
    exact h.row
  · rw [hu.row, hshown]
    unfold rebuilt
    rw [storedEvents_untouched hu]
    exact h.built
  · rw [hshown]
    exact h.known

/-! ## Marks on the checkpoint -/

/-- A row with a block to reach is behind, for the target of its lease. -/
theorem RowSound.incomplete {lease lease' : Option LeaseRow} {row : CheckpointRow} {target : Int}
    (h : RowSound lease row)
    (htarget : ∀ l ∈ lease', raisedTarget row.syncTarget target = l.targetBlock) :
    RowSound lease' (incomplete target row) where
  held := fun l hl => ⟨rfl, rfl, congrArg some (htarget l hl)⟩
  health := by simp [healthValid, Database.incomplete]
  settled := nofun
  behind := h.behind

section Writes

variable (h : Indexed integration id contract chain db)

include h

/-- A new lease and a mark, which leaves the place and the projections. -/
theorem Indexed.mark {f : CheckpointRow → CheckpointRow} {leases : OrderedMap (Int × Address) LeaseRow}
    (hplace : ∀ row, (f row).place = row.place ∧ (f row).projected = row.projected)
    (hrow : ∀ row, db.checkpoints.get? (id, contract) = some row →
      RowSound (leases.get? (id, contract)) (f row)) :
    Indexed integration id contract chain
      { db with leases, checkpoints := db.updateCheckpoint (id, contract) f } := by
  refine ⟨{ h.holds with checkpoint := ?_ }, h.rows, h.linked, h.valid, fun row' hrow' => ?_,
    fun row' last hrow' hp hlast => ?_, h.known⟩
  · exact (checkpointAt_mark fun row => (hplace row).1).trans h.holds.checkpoint
  · obtain ⟨row, hold, rfl⟩ := get?_updateCheckpoint_eq_some hrow'
    exact hrow row hold
  · obtain ⟨row, hold, rfl⟩ := get?_updateCheckpoint_eq_some hrow'
    rw [(hplace row).1, (hplace row).2] at hp
    exact h.built row last hold hp hlast

theorem claimSync_indexed {target : Int}
    (hclaim : claimSync id contract target token db = .ok db') :
    Indexed integration id contract chain db' := by
  obtain ⟨_, hrequired, rfl⟩ := claimSync_ok hclaim
  refine h.mark (fun row => ⟨rfl, rfl⟩) fun row hrow => (h.row row hrow).incomplete fun l hl => ?_
  rw [OrderedMap.get?_set_self, Option.mem_def, Option.some.injEq] at hl
  subst hl
  refine raisedTarget_of_le fun p hp => ?_
  exact Int.le_trans (row_le_requiredTarget hrow hp) hrequired

/-- The holder gives the lease back with a mark. -/
theorem Indexed.release (hkeyed : Keyed db) (hheld : db.HeldBy (id, contract) token)
    {f : CheckpointRow → CheckpointRow}
    (hplace : ∀ row, (f row).place = row.place ∧ (f row).projected = row.projected)
    (hrow : ∀ row, db.checkpoints.get? (id, contract) = some row →
      RowSound (db.leases.get? (id, contract)) row → RowSound none (f row)) :
    Indexed integration id contract chain { db with
      leases := db.releaseLease (id, contract) token
      checkpoints := db.updateCheckpoint (id, contract) f } := by
  refine h.mark hplace fun row hget => ?_
  rw [get?_releaseLease hkeyed.leases hheld, if_pos rfl]
  exact hrow row hget (h.row row hget)

theorem markSyncUnhealthy_indexed {error : String} (hkeyed : Keyed db)
    (herror : error = "CHAIN_REORG_DEPTH_EXCEEDED" ∨ error = "CHAIN_REORG_NO_COMMON_ANCESTOR")
    (hmark : markSyncUnhealthy id contract error none (some token) db = .ok db') :
    Indexed integration id contract chain db' := by
  obtain ⟨hheld, _, rfl⟩ := markSyncUnhealthy_ok hmark
  refine h.release hkeyed hheld (fun row => ⟨rfl, rfl⟩) fun row _ hrow => ?_
  refine ⟨nofun, ?_, nofun, hrow.behind⟩
  simp [healthValid, Database.failed, herror]

theorem releaseSyncIncomplete_indexed {target : Int} (hkeyed : Keyed db)
    (hrelease : releaseSyncIncomplete id contract target token db = .ok db') :
    Indexed integration id contract chain db' := by
  obtain ⟨hheld, _, rfl⟩ := releaseSyncIncomplete_ok hrelease
  exact h.release hkeyed hheld (fun row => ⟨rfl, rfl⟩) fun _ _ hrow => hrow.incomplete nofun

theorem markSyncHealthy_indexed {completed : Int} {marked : Bool} (hkeyed : Keyed db)
    (hmark : markSyncHealthy id contract completed (some token) db = .ok (db', marked)) :
    Indexed integration id contract chain db' := by
  obtain ⟨hheld, ⟨row, hrow, hcaught, _, rfl⟩ | ⟨_, rfl⟩⟩ := markSyncHealthy_ok hmark
  · refine h.release hkeyed hheld (fun row => ⟨rfl, rfl⟩) fun row' hrow' hsound => ?_
    rw [Option.mem_def.mp hrow, Option.some.injEq] at hrow'
    exact ⟨nofun, rfl, fun _ => hrow' ▸ hcaught.2.2.1, hsound.behind⟩
  · exact h

/-! ## Projections -/

theorem Indexed.canonicalAt {number : Int} {hash : Bytes32}
    (hat : db.CanonicalAt id contract number hash) :
    ∃ r ∈ chain, r.block.number = number ∧ r.block.hash = hash := by
  obtain ⟨row, hmem, hcanonical⟩ := hat
  obtain ⟨r, hr, hkey⟩ := (h.holds.blocks _).mp
    ⟨row, (OrderedMap.mem_iff_get? h.holds.blockKeys).mp hmem, hcanonical⟩
  have hnumber := congrArg BlockKey.number hkey
  have hhash := congrArg BlockKey.hash hkey
  exact ⟨r, hr, hnumber.symm, hhash.symm⟩

/-- The holder commits what is rebuilt from the canonical events at the end of the chain. -/
theorem commitProjections_indexed
    (hlast : ∀ last, chain.getLast? = some last → last.block = block)
    (hcommit : commitProjections id contract block
      (productProjections integration id contract (storedEvents id contract db) block)
      (some token) db = .ok db') :
    Indexed integration id contract chain db' := by
  obtain ⟨⟨lease, hlease, _⟩, hplace, hcanonical, entries, hentries, rfl⟩ :=
    commitProjections_ok hcommit
  have hof : ∀ e ∈ entries, ofContract id contract e := by
    intro e he
    obtain ⟨p, _, hp⟩ := mapM_mem hentries he
    rw [ofContract, (projectionEntry_ok hp).1]
    exact ⟨rfl, rfl⟩
  have hshown : (db.projections.filter (fun e => ¬ ofContract id contract e) ++ entries).filter
      (fun e => ofContract id contract e) = entries := by
    rw [List.filter_append, filter_own, List.nil_append]
    exact List.filter_eq_self.mpr fun e he => decide_eq_true (hof e he)
  refine ⟨{ h.holds with checkpoint := ?_ }, h.rows, h.linked, h.valid, fun row' hrow' => ?_,
    fun row' last hrow' _ hend => ?_, fun e he => ?_⟩
  · exact (checkpointAt_mark (f := projectedAt block) fun _ => rfl).trans h.holds.checkpoint
  · obtain ⟨row, hold, rfl⟩ := get?_updateCheckpoint_eq_some hrow'
    have hsound := h.row row hold
    refine ⟨hsound.held, hsound.health, fun htrue => ?_, fun p hp => ?_⟩
    · rw [show (projectedAt block row).syncHealthy = row.syncHealthy from rfl,
        (hsound.held lease hlease).1] at htrue
      cases htrue
    · rw [checkpointAt_row hold, Option.some.injEq] at hplace
      rw [← Option.some.inj hp]
      exact Int.le_of_eq (congrArg ChainCheckpoint.blockNumber hplace).symm
  · rw [hlast last hend]
    exact hentries.trans (congrArg Except.ok hshown.symm)
  · rw [shown] at he
    rw [hshown] at he
    obtain ⟨p, hp, hentry⟩ := mapM_mem hentries he
    obtain ⟨_, hnumber, hhash⟩ := projectionEntry_ok hentry
    rw [hnumber, hhash]
    exact h.canonicalAt (hcanonical p hp)

/-! ## Blocks -/

theorem Indexed.not_there (hnext : r.block.number =
      nextNumber integration.deploymentBlock (checkpointAt db.log id contract)) :
    ¬ ∃ r' ∈ chain, r'.block.number = r.block.number := by
  rintro ⟨r', hr', hsame⟩
  obtain ⟨c, hc, hle⟩ := h.holds.checkpoint_ge hr'
  rw [Option.mem_def.mp hc] at hnext
  rw [hsame, hnext] at hle
  simp only [nextNumber] at hle
  omega

end Writes

theorem Linked.concat {deploymentBlock : Int} (h : Linked deploymentBlock chain)
    (hfirst : chain = [] → r.block.number = deploymentBlock)
    (hnext : ∀ last, chain.getLast? = some last →
      r.block.number = last.block.number + 1 ∧ r.block.parentHash = last.block.hash) :
    Linked deploymentBlock (chain ++ [r]) := by
  refine ⟨?_, List.isChain_append.mpr ⟨h.next, List.isChain_singleton r, ?_⟩⟩
  · cases chain with
    | nil =>
        intro r' hr'
        obtain rfl := Option.some.inj hr'
        exact hfirst rfl
    | cons head rest => exact h.first
  · intro last hlast r' hr'
    obtain rfl := Option.some.inj hr'
    exact hnext last hlast

theorem admitBlock_parent {s : Store} {items : List IndexedChainEvent} {c : ChainCheckpoint}
    {blocks : OrderedMap BlockKey BlockRow}
    (hnone : s.blocks.find? (fun e => isCanonicalBlock id contract e ∧ e.1.number = block.number) =
      none)
    (h : admitBlock s id contract block items = .ok blocks)
    (hc : checkpointAt s id contract = some c) :
    block.number = c.blockNumber + 1 ∧ block.parentHash = c.blockHash := by
  unfold admitBlock at h
  simp only [hnone, hc, bind_eq_ok, check_eq_ok] at h
  obtain ⟨_, hparent, _⟩ := h
  exact not_not.mp fun hnot => hparent ⟨c, rfl, hnot⟩

/-- The row of the checkpoint once a block is recorded with a block to reach: the
projections stay at a block before it. -/
theorem recordedRow {checkpoints : OrderedMap (Int × Address) CheckpointRow} {target : Int}
    (hbeyond : ∀ row, db.checkpoints.get? (id, contract) = some row →
      row.blockNumber < block.number ∧ ∀ p ∈ row.projected, p.blockNumber ≤ row.blockNumber)
    (h : setSyncTarget (advanceCheckpoint db.checkpoints id contract block) id contract
      (some target) = .ok checkpoints) :
    ∃ row, checkpoints.get? (id, contract) = some (incomplete target row) ∧
      row.place = ⟨block.number, block.hash⟩ ∧
      (∀ p ∈ row.projected, p.blockNumber < block.number) ∧
      ∀ t ∈ row.syncTarget, ∃ old, db.checkpoints.get? (id, contract) = some old ∧
        old.syncTarget = some t := by
  obtain ⟨row, hrow, rfl⟩ := setSyncTarget_ok h
  refine ⟨row, OrderedMap.get?_set_self _ _ _, ?_⟩
  unfold advanceCheckpoint at hrow
  cases hold : db.checkpoints.get? (id, contract) with
  | none =>
      simp only [hold, OrderedMap.get?_set_self, Option.some.injEq] at hrow
      subst hrow
      exact ⟨rfl, by simp, by simp⟩
  | some old =>
      obtain ⟨hlt, hbehind⟩ := hbeyond old hold
      simp only [hold, if_pos hlt, OrderedMap.get?_set_self, Option.some.injEq] at hrow
      subst hrow
      exact ⟨rfl, fun p hp => Int.lt_of_le_of_lt (hbehind p hp) hlt, fun t ht => ⟨old, rfl, ht⟩⟩

/-- The holder records the next block, with the block to reach it has claimed for. -/
theorem recordCanonicalBlock_indexed {lease : LeaseRow}
    (h : Indexed integration id contract chain db)
    (hlease : db.leases.get? (id, contract) = some lease)
    (htarget : r.syncTargetBlock = some lease.targetBlock)
    (hnext : r.block.number =
      nextNumber integration.deploymentBlock (checkpointAt db.log id contract))
    (hrecord : recordCanonicalBlock id contract r (some token) db = .ok db') :
    Indexed integration id contract (chain ++ [r]) db' ∧
      checkpointAt db'.log id contract = some ⟨r.block.number, r.block.hash⟩ := by
  obtain ⟨log, hlog, rfl⟩ := recordCanonicalBlock_ok hrecord
  have hholds := record_new h.holds hlog (h.not_there hnext)
  obtain ⟨_, sorted, hsorted, _, blocks, hblocks, table, _, checkpoints, hcheckpoints, rfl⟩ :=
    step_record.mp hlog
  rw [htarget] at hcheckpoints
  have hbeyond : ∀ row, db.checkpoints.get? (id, contract) = some row →
      row.blockNumber < r.block.number ∧ ∀ p ∈ row.projected, p.blockNumber ≤ row.blockNumber := by
    intro row hrow
    refine ⟨?_, (h.row row hrow).behind⟩
    rw [hnext, checkpointAt_row hrow]
    show row.blockNumber < row.blockNumber + 1
    omega
  obtain ⟨row, hrow, hplace, hprojected, hold⟩ := recordedRow hbeyond hcheckpoints
  obtain ⟨_, _, _, hvalid, hnodup, hperm⟩ := validateBlock_eq_ok.mp hsorted
  have hlength : sorted.length = r.events.length := by
    rw [← hperm, List.length_insertionSort]
  rcases admitBlock_eq_ok hblocks with ⟨hfound, _⟩ | ⟨hnone, _, rfl⟩
  · exact absurd ((h.holds.find r.block.number).mp hfound) (h.not_there hnext)
  have hcheckpoint : checkpointAt (db.withLog
      { db.log with
        blocks := db.blocks.set (blockKey id contract r.block)
          ⟨r.block.parentHash, r.block.timestamp, sorted.length, true⟩
        events := table.1, checkpoints }).log id contract =
      some ⟨r.block.number, r.block.hash⟩ := by
    show (checkpoints.get? (id, contract)).map CheckpointRow.place = _
    rw [hrow, ← hplace]
    rfl
  have hget : ∀ row', checkpoints.get? (id, contract) = some row' →
      row' = incomplete lease.targetBlock row := by
    intro row' hrow'
    rw [hrow, Option.some.injEq] at hrow'
    exact hrow'.symm
  refine ⟨⟨{ hholds with }, fun r' hr' => ?_, ?_, fun r' hr' => ?_, fun row' hrow' => ?_,
    fun row' last hrow' hp _ => ?_, fun e he => ?_⟩, hcheckpoint⟩
  · show (db.blocks.set _ _).get? _ = _
    rcases List.mem_append.mp hr' with hr' | hr'
    · rw [OrderedMap.get?_set_of_ne]
      · exact h.rows r' hr'
      · intro hkey
        exact h.not_there hnext ⟨r', hr', congrArg BlockKey.number hkey⟩
    · obtain rfl := List.mem_singleton.mp hr'
      rw [OrderedMap.get?_set_self, hlength]
  · refine h.linked.concat (fun hnil => ?_) fun last hlast => ?_
    · have hcheck := h.holds.checkpoint
      rw [hnil] at hcheck
      rw [hnext, hcheck]
      rfl
    · have hcheck := h.holds.checkpoint
      rw [hlast] at hcheck
      exact admitBlock_parent hnone hblocks hcheck
  · rcases List.mem_append.mp hr' with hr' | hr'
    · exact h.valid r' hr'
    · rw [List.mem_singleton.mp hr']
      exact ⟨hvalid, hnodup⟩
  · rw [hget row' hrow']
    refine ⟨fun l hl => ⟨rfl, rfl, congrArg some ?_⟩, by simp [healthValid, incomplete], nofun,
      fun p hp => ?_⟩
    · obtain rfl : lease = l := Option.some.inj (hlease.symm.trans hl)
      refine raisedTarget_of_le fun p hp => ?_
      obtain ⟨old, hget', htargets⟩ := hold p hp
      rw [((h.row old hget').held lease hlease).2.2] at htargets
      exact Int.le_of_eq (Option.some.inj htargets).symm
    · rw [show (incomplete lease.targetBlock row).blockNumber = r.block.number from
        congrArg ChainCheckpoint.blockNumber hplace]
      exact Int.le_of_lt (hprojected p hp)
  · rw [hget row' hrow'] at hp
    have hlt := hprojected _ hp
    rw [show (incomplete lease.targetBlock row).place = row.place from rfl, hplace] at hlt
    exact absurd hlt (Int.lt_irrefl _)
  · obtain ⟨r', hr', hsame⟩ := h.known e he
    exact ⟨r', List.mem_append_left _ hr', hsame⟩

/-! ## Rolling back -/

/-- In order, the blocks below a number come first. -/
theorem filter_below (n : Int)
    (h : chain.Pairwise (fun a b => a.block.number < b.block.number)) :
    chain.filter (fun r => r.block.number < n) <+: chain := by
  induction chain with
  | nil => exact List.prefix_rfl
  | cons r rest ih =>
      obtain ⟨hhead, hrest⟩ := List.pairwise_cons.mp h
      by_cases hlt : r.block.number < n
      · rw [List.filter_cons_of_pos (by simpa using hlt), List.prefix_cons_inj]
        exact ih hrest
      · rw [List.filter_cons_of_neg (by simpa using hlt), List.filter_eq_nil_iff.mpr ?_]
        · exact List.nil_prefix
        · intro later hlater
          have hbefore := hhead later hlater
          simp only [decide_eq_true_eq]
          omega

theorem Linked.below {deploymentBlock : Int} (h : Linked deploymentBlock chain)
    {lower : List Recording} (hlower : lower <+: chain) : Linked deploymentBlock lower := by
  obtain ⟨upper, rfl⟩ := hlower
  refine ⟨fun r hr => h.first r ?_, (List.isChain_append.mp h.next).1⟩
  rw [List.head?_append, Option.mem_def.mp hr]
  rfl

theorem restoreCheckpoint_row {checkpoints : OrderedMap (Int × Address) CheckpointRow}
    {blocks : OrderedMap BlockKey BlockRow} {row : CheckpointRow}
    (h : (restoreCheckpoint checkpoints id contract blocks).get? (id, contract) = some row) :
    ∃ old, checkpoints.get? (id, contract) = some old ∧ row.projected = none ∧
      row.syncHealthy = old.syncHealthy ∧ row.syncError = old.syncError ∧
        row.syncTarget = old.syncTarget := by
  unfold restoreCheckpoint at h
  split at h
  · rw [OrderedMap.get?_mapValues, Option.map_eq_some_iff] at h
    obtain ⟨old, hold, hrow⟩ := h
    rw [if_pos rfl] at hrow
    exact ⟨old, hold, hrow ▸ rfl, hrow ▸ rfl, hrow ▸ rfl, hrow ▸ rfl⟩
  · rw [OrderedMap.get?_delete_self] at h
    cases h

theorem rollbackFromBlock_indexed {fromBlock : Int} (h : Indexed integration id contract chain db)
    (hheld : db.HeldBy (id, contract) token)
    (hrollback : rollbackFromBlock id contract fromBlock (some token) db = .ok db') :
    Indexed integration id contract (chain.filter (fun r => r.block.number < fromBlock)) db' := by
  obtain ⟨log, hlog, rfl⟩ := rollbackFromBlock_ok hrollback
  have hholds := rollback_same h.holds hlog
  obtain ⟨hblocks, _, hcheckpoints⟩ := step_rollback hlog
  obtain ⟨lease, hlease, _⟩ := hheld
  have hrow : ∀ row, log.checkpoints.get? (id, contract) = some row →
      ∃ old, db.checkpoints.get? (id, contract) = some old ∧ row.projected = none ∧
        row.syncHealthy = old.syncHealthy ∧ row.syncError = old.syncError ∧
          row.syncTarget = old.syncTarget := by
    intro row hrow
    rw [hcheckpoints] at hrow
    exact restoreCheckpoint_row hrow
  refine ⟨{ hholds with }, fun r hr => ?_, ?_,
    fun r hr => h.valid r (List.mem_of_mem_filter hr), fun row hrow' => ?_,
    fun row last hrow' hp _ => ?_, fun e he => ?_⟩
  · obtain ⟨hr, hlt⟩ := List.mem_filter.mp hr
    show log.blocks.get? _ = _
    rw [hblocks, orphanBlocks, OrderedMap.get?_mapValues,
      show db.log.blocks = db.blocks from rfl, h.rows r hr, Option.map_some, if_neg]
    rintro ⟨_, hle⟩
    exact Int.not_lt.mpr hle (of_decide_eq_true hlt)
  · exact h.linked.below (filter_below fromBlock h.holds.increasing)
  · obtain ⟨old, hold, hnone, hhealthy, herror, htarget⟩ := hrow row hrow'
    have hsound := h.row old hold
    refine ⟨?_, ?_, fun htrue => ?_, fun p hp => ?_⟩
    · rw [hhealthy, herror, htarget]
      exact hsound.held
    · rw [healthValid, hhealthy, herror, htarget]
      exact hsound.health
    · rw [hhealthy, (hsound.held lease hlease).1] at htrue
      cases htrue
    · rw [hnone] at hp
      cases hp
  · obtain ⟨_, _, hnone, _⟩ := hrow row hrow'
    rw [hnone] at hp
    cases hp
  · rw [shown, filter_own] at he
    cases he

end ChainSync
end AlphaForge
