/-
What a call knows of the database between its stretches.

`Knows` says it phase by phase: which block the checkpoint is, which events are stored,
which number comes next.  It holds only while the call holds the lease of its contract,
and each stretch brings it from one phase to the next.
-/
import AlphaForge.Indexer.ChainSync.Indexed

namespace AlphaForge
namespace ChainSync

open Evm ChainStore Database

variable {integration : Integration} {id : Int} {contract : Address} {chain : List Recording}
  {db db' : Database} {block : ChainBlock} {call : SyncCall} {answer : Answer} {next : Next}

/-- The block is the checkpoint, as it was recorded. -/
def AtBlock (id : Int) (contract : Address) (block : ChainBlock) (db : Database) : Prop :=
  checkpointAt db.log id contract = some ⟨block.number, block.hash⟩ ∧
    ∃ count, db.blocks.get? (blockKey id contract block) =
      some ⟨block.parentHash, block.timestamp, count, true⟩

def Knows (integration : Integration) (id : Int) (contract : Address) (db : Database) :
    Phase → Prop
  | .recoverProjected checkpoint => checkpointAt db.log id contract = some checkpoint
  | .recoverBlock checkpoint => checkpointAt db.log id contract = some checkpoint
  | .recoverEvents block => AtBlock id contract block db
  | .recoverRebuild block events =>
      AtBlock id contract block db ∧ events = storedEvents id contract db
  | .fetch number =>
      number = nextNumber integration.deploymentBlock (checkpointAt db.log id contract)
  | .logs block =>
      block.number = nextNumber integration.deploymentBlock (checkpointAt db.log id contract)
  | .events block => AtBlock id contract block db
  | .rebuild block events => AtBlock id contract block db ∧ events = storedEvents id contract db
  | _ => True

theorem block_eq {a b : ChainBlock} (hnumber : a.number = b.number) (hhash : a.hash = b.hash)
    (hparent : a.parentHash = b.parentHash) (htime : a.timestamp = b.timestamp) : a = b := by
  cases a
  cases b
  simp only [ChainBlock.mk.injEq]
  exact ⟨hnumber, hhash, hparent, htime⟩

theorem Indexed.last (h : Indexed integration id contract chain db)
    (hat : AtBlock id contract block db) {last : Recording} (hlast : chain.getLast? = some last) :
    last.block = block := by
  obtain ⟨hplace, count, hrow⟩ := hat
  rw [h.holds.checkpoint, hlast, Option.map_some, Option.some.injEq,
    ChainCheckpoint.mk.injEq] at hplace
  have hkey : blockKey id contract last.block = blockKey id contract block := by
    rw [blockKey, blockKey, hplace.1, hplace.2]
  have hstored := h.rows last (List.mem_of_getLast? hlast)
  rw [hkey, hrow, Option.some.injEq, BlockRow.mk.injEq] at hstored
  exact block_eq hplace.1 hplace.2 hstored.1.symm hstored.2.1.symm

/-- What is known of a contract stays so while nothing of it is written. -/
theorem Knows.untouched {phase : Phase} (h : Knows integration id contract db phase)
    (hu : Untouched id contract db db') (hkeyed : Keyed db) (hkeyed' : Keyed db') :
    Knows integration id contract db' phase := by
  have hcheckpoint : checkpointAt db'.log id contract = checkpointAt db.log id contract :=
    congrArg (Option.map CheckpointRow.place) hu.row
  have hat : ∀ block, AtBlock id contract block db → AtBlock id contract block db' := by
    rintro block ⟨hplace, count, hrow⟩
    refine ⟨hcheckpoint.trans hplace, count, ?_⟩
    have hcanonical : isCanonicalBlock id contract (blockKey id contract block,
        ⟨block.parentHash, block.timestamp, count, true⟩) = true :=
      isCanonicalBlock_iff.mpr ⟨rfl, rfl, rfl⟩
    have hmem := (canonicalBlock_iff_mem hkeyed.blocks).mp ⟨hrow, hcanonical⟩
    rw [← hu.blocks] at hmem
    exact ((canonicalBlock_iff_mem hkeyed'.blocks).mpr hmem).1
  have hevents := storedEvents_untouched hu
  cases phase with
  | recoverProjected checkpoint => exact hcheckpoint.trans h
  | recoverBlock checkpoint => exact hcheckpoint.trans h
  | recoverEvents block => exact hat block h
  | recoverRebuild block events => exact ⟨hat block h.1, h.2.trans hevents.symm⟩
  | fetch number => exact h.trans (congrArg _ hcheckpoint.symm)
  | logs block => exact Eq.trans h (congrArg _ hcheckpoint.symm)
  | events block => exact hat block h
  | rebuild block events => exact ⟨hat block h.1, h.2.trans hevents.symm⟩
  | _ => trivial

/-! ## One stretch -/

/-- The row of a lease that was given back: the block to reach is kept, or it was reached,
or the chain has left the blocks that are stored. -/
def Released (target : Int) (row : CheckpointRow) : Prop :=
  (row.syncHealthy = false ∧ ∃ later ∈ row.syncTarget, target ≤ later) ∨
    (row.syncHealthy = true ∧ target ≤ row.blockNumber) ∨
      row.syncError = some "CHAIN_REORG_DEPTH_EXCEEDED" ∨
        row.syncError = some "CHAIN_REORG_NO_COMMON_ANCESTOR"

/-- A stretch of the holder that writes its contract: what is stored is sound again, and
the lease is kept or given back. -/
structure Wrote (integration : Integration) (id : Int) (contract : Address) (token : String)
    (db db' : Database) (next : Next) : Prop where
  held : db.HeldBy (id, contract) token
  indexed : ∃ chain, Indexed integration id contract chain db'
  keyed : Keyed db'
  others : ∀ other otherContract, (other, otherContract) ≠ (id, contract) →
    Untouched other otherContract db db'
  leases : ∀ lease, db'.leases.get? (id, contract) = some lease →
    db.leases.get? (id, contract) = some lease
  released : ∀ lease, db.leases.get? (id, contract) = some lease →
    db'.leases.get? (id, contract) = none →
      ∃ row, db'.checkpoints.get? (id, contract) = some row ∧ Released lease.targetBlock row
  knows : ∀ phase, next = .go phase → Knows integration id contract db' phase

/-- What a stretch does: it writes as the holder, or it leaves the database alone and
knows, if it is the holder, what its next phase needs. -/
def Advances (integration : Integration) (id : Int) (contract : Address) (token : String)
    (db db' : Database) (next : Next) : Prop :=
  Wrote integration id contract token db db' next ∨
    db' = db ∧ ∀ phase, next = .go phase → db.HeldBy (id, contract) token →
      Knows integration id contract db phase

variable {token : String} {phase : Phase}

theorem read_advances (h : db.HeldBy (id, contract) token → Knows integration id contract db phase) :
    Advances integration id contract token db db (.go phase) := by
  refine Or.inr ⟨rfl, fun phase' hphase => ?_⟩
  obtain rfl := Next.go.inj hphase
  exact h

/-- The writes that leave the table of leases alone. -/
theorem Wrote.of_leases (hheld : db.HeldBy (id, contract) token) (hkeyed : Keyed db)
    (hindexed : Indexed integration id contract chain db') (hleases : db'.leases = db.leases)
    (hothers : ∀ other otherContract, (other, otherContract) ≠ (id, contract) →
      Untouched other otherContract db db')
    (hknows : ∀ phase, next = .go phase → Knows integration id contract db' phase) :
    Wrote integration id contract token db db' next where
  held := hheld
  indexed := ⟨chain, hindexed⟩
  keyed := ⟨hindexed.holds.blockKeys, hindexed.holds.eventKeys, hleases ▸ hkeyed.leases⟩
  others := hothers
  leases := fun _ hlease => hleases ▸ hlease
  released := by
    intro lease hlease hnone
    rw [hleases, hlease] at hnone
    cases hnone
  knows := hknows

/-- The writes that give the lease back end the call. -/
theorem Wrote.of_release {f : CheckpointRow → CheckpointRow} {failure : Option String}
    (hheld : db.HeldBy (id, contract) token) (hkeyed : Keyed db)
    (hindexed : Indexed integration id contract chain { db with
      leases := db.releaseLease (id, contract) token
      checkpoints := db.updateCheckpoint (id, contract) f })
    (hreleased : ∀ lease, db.leases.get? (id, contract) = some lease →
      ∃ row, db.checkpoints.get? (id, contract) = some row ∧ Released lease.targetBlock (f row)) :
    Wrote integration id contract token db { db with
      leases := db.releaseLease (id, contract) token
      checkpoints := db.updateCheckpoint (id, contract) f } (.done failure) where
  held := hheld
  indexed := ⟨chain, hindexed⟩
  keyed := ⟨hkeyed.blocks, hkeyed.events, OrderedMap.nodup_keys_filter hkeyed.leases _⟩
  others := fun _ _ hne => release_untouched hkeyed hne hheld f
  leases := fun _ hlease => absurd hlease (releaseLease_ne hkeyed.leases hheld _)
  released := by
    intro lease hlease _
    obtain ⟨row, hrow, hreleased⟩ := hreleased lease hlease
    refine ⟨f row, ?_, hreleased⟩
    show (db.updateCheckpoint (id, contract) f).get? (id, contract) = _
    rw [get?_updateCheckpoint, if_pos rfl, hrow]
    rfl
  knows := nofun

theorem rollback_wrote {fromBlock : Int} (h : Indexed integration id contract chain db)
    (hkeyed : Keyed db)
    (hrollback : Database.rollbackFromBlock id contract fromBlock (some token) db = .ok db')
    (hknows : ∀ phase, next = .go phase → Knows integration id contract db' phase) :
    Wrote integration id contract token db db' next := by
  have hheld : db.HeldBy (id, contract) token := by
    simp only [Database.rollbackFromBlock, ChainStore.rollbackFromBlock, bind_eq_ok,
      chainId_eq_ok] at hrollback
    obtain ⟨_, ⟨_, rfl⟩, _, _, _, ⟨_, ⟨_, rfl⟩, _, _, _, howner, _⟩, _⟩ := hrollback
    exact assertSyncOwner_eq_ok.mp howner
  have hleases : db'.leases = db.leases := by
    obtain ⟨log, _, rfl⟩ := rollbackFromBlock_ok hrollback
    rfl
  exact Wrote.of_leases hheld hkeyed (rollbackFromBlock_indexed h hheld hrollback) hleases
    (fun _ _ hne => rollbackFromBlock_untouched hne hrollback) hknows

/-- What the holder commits is what is rebuilt from the events that are stored now. -/
theorem commit_wrote {events : List IndexedChainEvent}
    (h : Indexed integration id contract chain db) (hkeyed : Keyed db)
    (hknown : db.HeldBy (id, contract) token →
      AtBlock id contract block db ∧ events = storedEvents id contract db)
    (hcommit : commitProjections id contract block
      (productProjections integration id contract events block) (some token) db = .ok db')
    (hknows : ∀ phase, next = .go phase → checkpointAt db'.log id contract =
      some ⟨block.number, block.hash⟩ → Knows integration id contract db' phase) :
    Wrote integration id contract token db db' next := by
  obtain ⟨hheld, hplace, _, entries, _, hdb⟩ := commitProjections_ok hcommit
  obtain ⟨hat, rfl⟩ := hknown hheld
  have hindexed := commitProjections_indexed h (fun last hlast => h.last hat hlast) hcommit
  have hafter : checkpointAt db'.log id contract = some ⟨block.number, block.hash⟩ := by
    rw [← hplace, hdb]
    exact checkpointAt_mark (f := projectedAt block) fun _ => rfl
  exact Wrote.of_leases hheld hkeyed hindexed (by rw [hdb])
    (fun _ _ hne => commitProjections_untouched hne hcommit) fun phase hphase =>
      hknows phase hphase hafter

/-! ## The stretches of a call -/

section Stretches

def SyncCall.Advances (call : SyncCall) (integration : Integration) (db db' : Database)
    (next : Next) : Prop :=
  ChainSync.Advances integration call.chainId call.contract call.ownerToken db db' next

def SyncCall.Leads (call : SyncCall) (db : Database) : Prop :=
  db.HeldBy (call.chainId, call.contract) call.ownerToken

/-- What the call knows in a phase while it leads. -/
def SyncCall.Knows (call : SyncCall) (integration : Integration) (db : Database) (phase : Phase) :
    Prop :=
  call.Leads db → ChainSync.Knows integration call.chainId call.contract db phase

/-- A stretch that has read what its next phase needs. -/
theorem read_on {phase : Phase} (hs : (pure (db, .go phase) : Except String _) = .ok (db', next))
    (h : call.Knows integration db phase) : call.Advances integration db db' next := by
  obtain ⟨rfl, rfl⟩ := Prod.mk.inj (pure_eq_ok.mp hs)
  exact read_advances h

theorem scan_advances (hs : scan integration call db = .ok (db', next)) :
    call.Advances integration db db' next := by
  simp only [scan, Database.checkpoint, bind_eq_ok, chainId_eq_ok, pure_eq_ok] at hs
  obtain ⟨checkpoint, ⟨_, ⟨_, rfl⟩, rfl⟩, hs⟩ := hs
  split at hs
  · exact read_on hs fun _ => trivial
  · simp only [bind_eq_ok, check_eq_ok, pure_eq_ok, Prod.mk.injEq] at hs
    obtain ⟨_, _, _, _, rfl, rfl⟩ := hs
    exact read_advances fun _ => rfl

theorem fetch_advances {number : Int} (hknown : call.Knows integration db (.fetch number))
    (hs : fetch call answer db number = .ok (db', next)) :
    call.Advances integration db db' next := by
  simp only [fetch, bind_eq_ok, check_eq_ok, pure_eq_ok, Prod.mk.injEq] at hs
  obtain ⟨current, _, _, hnumber, _, _, _, _, rfl, rfl⟩ := hs
  exact read_advances fun hheld => hnumber.trans (hknown hheld)

theorem readEvents_advances {k : List IndexedChainEvent → Phase}
    (hknown : call.Knows integration db (k (storedEvents call.chainId call.contract db)))
    (hs : readEvents call db k = .ok (db', next)) :
    call.Advances integration db db' next := by
  simp only [readEvents, canonicalEvents, bind_eq_ok, chainId_eq_ok, pure_eq_ok,
    Prod.mk.injEq] at hs
  obtain ⟨_, ⟨_, ⟨_, rfl⟩, rfl⟩, rfl, rfl⟩ := hs
  exact read_advances hknown

theorem recoverBlock_advances {checkpoint : ChainCheckpoint}
    (h : Indexed integration call.chainId call.contract chain db)
    (hknown : call.Knows integration db (.recoverBlock checkpoint))
    (hs : recoverBlock call db checkpoint = .ok (db', next)) :
    call.Advances integration db db' next := by
  simp only [recoverBlock, bind_eq_ok] at hs
  obtain ⟨found, hfound, hs⟩ := hs
  cases found with
  | none => cases hs
  | some block =>
      simp only [bind_eq_ok, check_eq_ok, pure_eq_ok, Prod.mk.injEq] at hs
      obtain ⟨_, hhash, rfl, rfl⟩ := hs
      refine read_advances fun hheld => ⟨?_, ?_⟩
      · obtain ⟨hnumber, _⟩ := canonicalBlock_ok hfound
        rw [hnumber, hhash]
        exact hknown hheld
      · obtain ⟨_, row, hmem, hcanonical, hparent, htime⟩ := canonicalBlock_ok hfound
        have hget := (OrderedMap.mem_iff_get? h.holds.blockKeys).mp hmem
        have hmark := (isCanonicalBlock_iff.mp hcanonical).2.2
        refine ⟨row.logCount, hget.trans (congrArg some ?_)⟩
        rw [hparent, htime, ← show row.canonical = true from hmark]

variable (h : Indexed integration call.chainId call.contract chain db) (hkeyed : Keyed db)

include h hkeyed

theorem search_advances {candidate : Int} {searched : Nat}
    (hs : search integration call db candidate searched = .ok (db', next)) :
    call.Advances integration db db' next := by
  unfold search at hs
  split at hs
  · simp only [bind_eq_ok, pure_eq_ok, Prod.mk.injEq] at hs
    obtain ⟨_, _, rfl, rfl⟩ := hs
    exact read_advances fun _ => trivial
  · simp only [bind_eq_ok, pure_eq_ok, Prod.mk.injEq] at hs
    obtain ⟨_, hmark, rfl, rfl⟩ := hs
    have hfailure : (if integration.deploymentBlock ≤ candidate then "CHAIN_REORG_DEPTH_EXCEEDED"
        else "CHAIN_REORG_NO_COMMON_ANCESTOR") = "CHAIN_REORG_DEPTH_EXCEEDED" ∨
        (if integration.deploymentBlock ≤ candidate then "CHAIN_REORG_DEPTH_EXCEEDED"
        else "CHAIN_REORG_NO_COMMON_ANCESTOR") = "CHAIN_REORG_NO_COMMON_ANCESTOR" := by
      split
      · exact Or.inl rfl
      · exact Or.inr rfl
    have hindexed := markSyncUnhealthy_indexed h hkeyed hfailure hmark
    obtain ⟨hheld, hrow, rfl⟩ := markSyncUnhealthy_ok hmark
    obtain ⟨row, hrow⟩ := Option.isSome_iff_exists.mp hrow
    refine Or.inl (Wrote.of_release hheld hkeyed hindexed fun lease _ => ⟨row, hrow, ?_⟩)
    exact Or.inr (Or.inr (hfailure.imp (congrArg some) (congrArg some)))

theorem compareBlock_advances {candidate : Int} {searched : Nat} {local_ : Option ChainBlock}
    (hs : compareBlock call answer db candidate searched local_ = .ok (db', next)) :
    call.Advances integration db db' next := by
  simp only [compareBlock, bind_eq_ok] at hs
  obtain ⟨remote, _, hs⟩ := hs
  split at hs
  · simp only [bind_eq_ok, pure_eq_ok, Prod.mk.injEq] at hs
    obtain ⟨_, hrollback, rfl, rfl⟩ := hs
    refine Or.inl (rollback_wrote h hkeyed hrollback fun phase hphase => ?_)
    obtain rfl := Next.go.inj hphase
    trivial
  · exact read_on hs fun _ => trivial

theorem recoverRebuild_advances {events : List IndexedChainEvent}
    (hknown : call.Knows integration db (.recoverRebuild block events))
    (hs : recoverRebuild integration call answer db block events = .ok (db', next)) :
    call.Advances integration db db' next := by
  unfold recoverRebuild at hs
  split at hs
  · next committed hcommit =>
    obtain ⟨rfl, rfl⟩ := Prod.mk.inj (Except.ok.inj hs)
    simp only [commitRebuilt, bind_eq_ok] at hcommit
    obtain ⟨_, _, hcommit⟩ := hcommit
    refine Or.inl (commit_wrote h hkeyed hknown hcommit fun phase hphase _ => ?_)
    obtain rfl := Next.go.inj hphase
    trivial
  · cases hs

theorem record_advances
    (htarget : ∀ lease, db.leases.get? (call.chainId, call.contract) = some lease →
      lease.ownerToken = call.ownerToken → lease.targetBlock = call.requiredTarget)
    (hknown : call.Knows integration db (.logs block))
    (hs : record integration call answer db block = .ok (db', next)) :
    call.Advances integration db db' next := by
  simp only [record, bind_eq_ok, pure_eq_ok, Prod.mk.injEq] at hs
  obtain ⟨logs, _, events, _, after, hrecord, rfl, rfl⟩ := hs
  have hheld : call.Leads db := by
    obtain ⟨log, hlog, _⟩ := recordCanonicalBlock_ok hrecord
    obtain ⟨_, _, _, howner, _⟩ := step_record.mp hlog
    rw [log_leases, Option.map_eq_some_iff] at howner
    exact howner
  obtain ⟨lease, hlease, htoken⟩ := hheld
  have hsame : some call.requiredTarget = some lease.targetBlock :=
    congrArg some (htarget lease hlease htoken).symm
  obtain ⟨hindexed, hplace⟩ :=
    recordCanonicalBlock_indexed (r := ⟨block, events, some call.requiredTarget⟩) h hlease hsame
      (hknown ⟨lease, hlease, htoken⟩) hrecord
  have hleases : after.leases = db.leases := by
    obtain ⟨log, _, rfl⟩ := recordCanonicalBlock_ok hrecord
    rfl
  refine Or.inl (Wrote.of_leases ⟨lease, hlease, htoken⟩ hkeyed hindexed hleases
    (fun _ _ hne => recordCanonicalBlock_untouched hkeyed hne hrecord) fun phase hphase => ?_)
  obtain rfl := Next.go.inj hphase
  refine ⟨hplace, events.length, ?_⟩
  exact hindexed.rows ⟨block, events, some call.requiredTarget⟩
    (List.mem_append_right _ (List.mem_singleton_self _))

theorem rebuild_advances {events : List IndexedChainEvent}
    (hknown : call.Knows integration db (.rebuild block events))
    (hs : rebuild integration call answer db block events = (db', next)) :
    call.Advances integration db db' next := by
  unfold rebuild at hs
  split at hs
  · next committed hcommit =>
    simp only [commitRebuilt, bind_eq_ok] at hcommit
    obtain ⟨_, _, hcommit⟩ := hcommit
    split at hs
    · obtain ⟨rfl, rfl⟩ := Prod.mk.inj hs
      refine Or.inl (commit_wrote h hkeyed hknown hcommit fun phase hphase hplace => ?_)
      obtain rfl := Next.go.inj hphase
      rw [Knows, hplace]
      rfl
    · obtain ⟨rfl, rfl⟩ := Prod.mk.inj hs
      refine Or.inl (commit_wrote h hkeyed hknown hcommit fun phase hphase _ => ?_)
      obtain rfl := Next.go.inj hphase
      trivial
  · obtain ⟨rfl, rfl⟩ := Prod.mk.inj hs
    exact read_advances fun _ => trivial

theorem finish_advances (hs : finish call db = .ok (db', next)) :
    call.Advances integration db db' next := by
  unfold finish at hs
  split at hs
  · simp only [bind_eq_ok, pure_eq_ok, Prod.mk.injEq] at hs
    obtain ⟨_, hrelease, rfl, rfl⟩ := hs
    have hindexed := releaseSyncIncomplete_indexed h hkeyed hrelease
    obtain ⟨hheld, hrow, rfl⟩ := releaseSyncIncomplete_ok hrelease
    obtain ⟨row, hrow⟩ := Option.isSome_iff_exists.mp hrow
    refine Or.inl (Wrote.of_release hheld hkeyed hindexed fun lease hlease => ⟨row, hrow, ?_⟩)
    refine Or.inl ⟨rfl, _, rfl, ?_⟩
    rw [((h.row row hrow).held lease hlease).2.2]
    exact le_raisedTarget
  · simp only [bind_eq_ok, pure_eq_ok, Prod.mk.injEq] at hs
    obtain ⟨⟨_, marked⟩, hmark, rfl, rfl⟩ := hs
    have hindexed := markSyncHealthy_indexed h hkeyed hmark
    obtain ⟨hheld, ⟨row, hrow, hcaught, _, rfl⟩ | ⟨_, rfl⟩⟩ := markSyncHealthy_ok hmark
    · refine Or.inl (Wrote.of_release hheld hkeyed hindexed fun lease hlease => ⟨row, hrow, ?_⟩)
      obtain ⟨_, hcompleted, _, target, htarget, hle⟩ := hcaught
      rw [((h.row row hrow).held lease hlease).2.2, Option.mem_def, Option.some.injEq] at htarget
      rw [htarget]
      exact Or.inr (Or.inl ⟨rfl, Int.le_trans hle hcompleted⟩)
    · exact Or.inr ⟨rfl, by simp⟩

theorem resume_advances
    (htarget : ∀ lease, db.leases.get? (call.chainId, call.contract) = some lease →
      lease.ownerToken = call.ownerToken → lease.targetBlock = call.requiredTarget)
    (hknown : call.Knows integration db call.phase)
    (hs : resume integration call answer db = .ok (db', next)) :
    call.Advances integration db db' next := by
  unfold resume at hs
  generalize call.phase = phase at hs hknown
  cases phase with
  | rewind =>
      simp only [rewind, bind_eq_ok] at hs
      obtain ⟨checkpoint, _, hs⟩ := hs
      cases checkpoint with
      | none => exact read_on hs fun _ => trivial
      | some checkpoint => exact read_on hs fun _ => trivial
  | remoteCheckpoint checkpoint =>
      simp only [compareCheckpoint, bind_eq_ok] at hs
      obtain ⟨_, _, hs⟩ := hs
      split at hs
      · exact read_on hs fun _ => trivial
      · exact read_on hs fun _ => trivial
  | search candidate searched => exact search_advances h hkeyed hs
  | searchRemote candidate searched local_ => exact compareBlock_advances h hkeyed hs
  | recover =>
      simp only [recover, Database.checkpoint, bind_eq_ok, chainId_eq_ok, pure_eq_ok] at hs
      obtain ⟨checkpoint, ⟨_, ⟨_, rfl⟩, hcheckpoint⟩, hs⟩ := hs
      cases checkpoint with
      | none => exact read_on hs fun _ => trivial
      | some checkpoint => exact read_on hs fun _ => hcheckpoint
  | recoverProjected checkpoint =>
      simp only [recoverProjected, bind_eq_ok] at hs
      obtain ⟨_, _, hs⟩ := hs
      split at hs
      · exact read_on hs fun _ => trivial
      · exact read_on hs hknown
  | recoverBlock checkpoint => exact recoverBlock_advances h hknown hs
  | recoverEvents block =>
      exact readEvents_advances (k := .recoverRebuild block)
        (fun hheld => ⟨hknown hheld, rfl⟩) hs
  | recoverRebuild block events => exact recoverRebuild_advances h hkeyed hknown hs
  | scan => exact scan_advances hs
  | fetch number => exact fetch_advances hknown hs
  | logs block => exact record_advances h hkeyed htarget hknown hs
  | events block =>
      exact readEvents_advances (k := .rebuild block) (fun hheld => ⟨hknown hheld, rfl⟩) hs
  | rebuild block events => exact rebuild_advances h hkeyed hknown (Except.ok.inj hs)
  | undo number failure =>
      simp only [undo, bind_eq_ok, pure_eq_ok, Prod.mk.injEq] at hs
      obtain ⟨_, hrollback, rfl, rfl⟩ := hs
      exact Or.inl (rollback_wrote h hkeyed hrollback (by simp))
  | finish => exact finish_advances h hkeyed hs

end Stretches

end ChainSync
end AlphaForge
