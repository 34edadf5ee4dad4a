/-
When an operation is reported as ready.

On a sound index the stored blocks always lead to the checkpoint, so that the walk of
`operationEvidence` fails only where the operation's own block is not one of them, or too
far back.
-/
import AlphaForge.Indexer.ChainSync.Served
import AlphaForge.Indexer.Database.Evidence

namespace AlphaForge
namespace ChainSync

open Evm ChainStore Database Lifecycle Machine

variable {integration : Integration} {id : Int} {contract : Address} {chain : List Recording}
  {db : Database} {deployed : Int × Address → Integration} {uuid : Nat → String}
  {operation : ChainOperation} {projection : ProductProjection}

/-! ## The blocks of the walk -/

def blockEntry (id : Int) (contract : Address) (r : Recording) : BlockKey × BlockRow :=
  (blockKey id contract r.block, ⟨r.block.parentHash, r.block.timestamp, r.events.length, true⟩)

instance : Std.Total ascending := ⟨fun a b => Int.le_total a.1.number b.1.number⟩

instance : IsTrans (BlockKey × BlockRow) ascending := ⟨fun _ _ _ hab hbc => Int.le_trans hab hbc⟩

/-- In order, the blocks from a number on begin with the block of that number. -/
theorem filter_from {before after : List Recording} {r : Recording}
    (h : (before ++ r :: after).Pairwise (fun a b => a.block.number < b.block.number)) :
    (before ++ r :: after).filter (fun a => r.block.number ≤ a.block.number) = r :: after := by
  obtain ⟨_, hrest, hlower⟩ := List.pairwise_append.mp h
  rw [List.filter_append, List.filter_eq_nil_iff.mpr, List.filter_eq_self.mpr, List.nil_append]
  · intro a ha
    refine decide_eq_true ?_
    rcases List.mem_cons.mp ha with rfl | ha
    · exact Int.le_refl _
    · exact Int.le_of_lt ((List.pairwise_cons.mp hrest).1 a ha)
  · intro a ha
    have hlt := hlower a ha r List.mem_cons_self
    simp only [decide_eq_true_eq]
    omega

/-- The blocks up to the checkpoint, in order. -/
theorem Indexed.ancestryBlocks (h : Indexed integration id contract chain db) {last : Recording}
    (hlast : chain.getLast? = some last) (n : Int) :
    db.ancestryBlocks id contract n last.block.number =
      (chain.filter (fun r => n ≤ r.block.number)).map (blockEntry id contract) := by
  have hincreasing : (chain.filter (fun r => n ≤ r.block.number)).Pairwise
      (fun a b => a.block.number < b.block.number) := h.holds.increasing.filter _
  have hmem : ∀ e, e ∈ db.blocks.filter (fun e => isCanonicalBlock id contract e ∧
      n ≤ e.1.number ∧ e.1.number ≤ last.block.number) ↔
        e ∈ (chain.filter (fun r => n ≤ r.block.number)).map (blockEntry id contract) := by
    rintro ⟨key, row⟩
    simp only [List.mem_filter, List.mem_map, decide_eq_true_eq]
    constructor
    · rintro ⟨hrow, hcanonical, hlow, _⟩
      obtain ⟨r, hr, rfl, rfl⟩ := h.stored_row hrow hcanonical
      exact ⟨r, ⟨hr, hlow⟩, rfl⟩
    · rintro ⟨r, ⟨hr, hlow⟩, heq⟩
      obtain ⟨rfl, rfl⟩ := Prod.mk.inj heq.symm
      refine ⟨(OrderedMap.mem_iff_get? h.holds.blockKeys).mpr (h.rows r hr),
        isCanonicalBlock_iff.mpr ⟨rfl, rfl, rfl⟩, hlow, ?_⟩
      rcases number_le_last h.holds.increasing hlast hr with rfl | hlt
      · exact Int.le_refl _
      · exact Int.le_of_lt hlt
  have hnodup : ((chain.filter (fun r => n ≤ r.block.number)).map
      (blockEntry id contract)).Nodup := by
    refine List.pairwise_map.mpr (hincreasing.imp fun hlt heq => ?_)
    have hnumber := congrArg (fun e => BlockKey.number e.1) heq
    exact Int.ne_of_lt hlt hnumber
  have hperm := (List.perm_ext_iff_of_nodup (h.holds.blockKeys.of_map.filter _) hnodup).mpr hmem
  refine List.Perm.eq_of_pairwise (fun a b ha hb hab hba => ?_)
    (List.pairwise_insertionSort ascending _)
    (List.pairwise_map.mpr (hincreasing.imp fun hlt => Int.le_of_lt hlt))
    ((List.perm_insertionSort _ _).trans hperm)
  rw [Database.ancestryBlocks, List.mem_insertionSort, hmem] at ha
  obtain ⟨r, hr, rfl⟩ := List.mem_map.mp ha
  obtain ⟨r', hr', rfl⟩ := List.mem_map.mp hb
  rw [number_unique h.holds.increasing (List.mem_of_mem_filter hr) (List.mem_of_mem_filter hr')
    (Int.le_antisymm hab hba)]

/-- Over blocks that follow each other the walk comes to the end. -/
theorem walkBlocks_linked {first : Int} {hash : Bytes32} {walk : Walk}
    (hlinked : chain.IsChain (fun a b =>
      b.block.number = a.block.number + 1 ∧ b.block.parentHash = a.block.hash))
    (hfirst : ∀ r ∈ chain.head?, r.block.number = first + walk.observedBlockCount ∧
      (walk.observedBlockCount = 0 → r.block.hash = hash) ∧
        ∀ previous ∈ walk.previousHash, r.block.parentHash = previous)
    (hprojection : ∀ r ∈ chain, r.block.number = projection.blockNumber →
      r.block.hash = projection.blockHash) :
    ∃ done, walkBlocks first hash projection walk (chain.map (blockEntry id contract)) = some done ∧
      done.observedBlockCount = walk.observedBlockCount + chain.length ∧
      (∀ last, chain.getLast? = some last → done.previousHash = some last.block.hash) ∧
      ((walk.projectionWitnessed = true ∨ ∃ r ∈ chain, r.block.number = projection.blockNumber) →
        done.projectionWitnessed = true) := by
  induction chain generalizing walk with
  | nil => exact ⟨walk, rfl, rfl, nofun, fun h => h.elim (fun hbefore => hbefore) nofun⟩
  | cons r rest ih =>
      obtain ⟨hnumber, hhash, hparent⟩ := hfirst r rfl
      obtain ⟨hnext, hrest⟩ := List.isChain_cons.mp hlinked
      have hgo : ¬ (r.block.number ≠ first + walk.observedBlockCount ∨
          (walk.observedBlockCount = 0 ∧ r.block.hash ≠ hash) ∨
          ∃ previous ∈ walk.previousHash, r.block.parentHash ≠ previous) := by
        rintro (hne | ⟨hzero, hne⟩ | ⟨previous, hprevious, hne⟩)
        · exact hne hnumber
        · exact hne (hhash hzero)
        · exact hne (hparent previous hprevious)
      have hlater : ∀ later ∈ rest.head?, later.block.number = first +
          (walk.observe projection (blockKey id contract r.block)).observedBlockCount ∧
          ((walk.observe projection (blockKey id contract r.block)).observedBlockCount = 0 →
            later.block.hash = hash) ∧
          ∀ previous ∈ (walk.observe projection (blockKey id contract r.block)).previousHash,
            later.block.parentHash = previous := by
        intro later hlater
        obtain ⟨hsucc, hlink⟩ := hnext later hlater
        refine ⟨?_, fun hzero => absurd hzero (Nat.succ_ne_zero _), fun previous hprevious => ?_⟩
        · rw [hsucc, hnumber, Walk.observe]
          push_cast
          omega
        · rw [← Option.some.inj hprevious]
          exact hlink
      obtain ⟨done, hdone, hcount, hend, hwitnessed⟩ := ih hrest hlater
        fun later hmem => hprojection later (List.mem_cons_of_mem r hmem)
      refine ⟨done, ?_, ?_, fun last hlast => ?_, fun hsome => hwitnessed ?_⟩
      · rw [List.map_cons, blockEntry, walkBlocks]
        exact (if_neg hgo).trans hdone
      · have hone : (walk.observe projection (blockKey id contract r.block)).observedBlockCount =
            walk.observedBlockCount + 1 := rfl
        rw [hcount, List.length_cons, hone]
        omega
      · cases rest with
        | nil =>
            obtain rfl := Option.some.inj hlast
            obtain rfl := Option.some.inj hdone
            rfl
        | cons second rest => exact hend last hlast
      · by_cases hat : r.block.number = projection.blockNumber
        · refine Or.inl ?_
          rw [Walk.observe]
          exact (if_pos hat).trans (decide_eq_true (hprojection r List.mem_cons_self hat))
        · rcases hsome with hbefore | ⟨later, hlater, hsame⟩
          · refine Or.inl ?_
            rw [Walk.observe]
            exact (if_neg hat).trans hbefore
          · rcases List.mem_cons.mp hlater with rfl | hlater
            · exact absurd hsame hat
            · exact Or.inr ⟨later, hlater, hsame⟩

/-- From the operation's block, when it is stored, the blocks lead to the checkpoint. -/
theorem Indexed.walk_arrives (h : Indexed integration id contract chain db) {last : Recording}
    (hlast : chain.getLast? = some last) {n : Int} {hash : Bytes32}
    (hat : db.CanonicalAt id contract n hash)
    (hknown : ∃ r ∈ chain, r.block.number = projection.blockNumber ∧
      r.block.hash = projection.blockHash)
    (hle : n ≤ projection.blockNumber) :
    ∃ done, walkBlocks n hash projection Walk.start
        (db.ancestryBlocks id contract n last.block.number) = some done ∧
      done.observedBlockCount = last.block.number - n + 1 ∧
      done.projectionWitnessed = true ∧ done.previousHash = some last.block.hash := by
  obtain ⟨r, hr, rfl, rfl⟩ := h.canonicalAt_iff.mp hat
  obtain ⟨before, after, rfl⟩ := List.append_of_mem hr
  have hnext := (List.isChain_append.mp h.linked.next).2.1
  have hend : (r :: after).getLast? = some last := by
    rw [List.getLast?_append_of_ne_nil _ (List.cons_ne_nil r after)] at hlast
    exact hlast
  have hfirst : ∀ b ∈ (r :: after).head?, b.block.number =
      r.block.number + Walk.start.observedBlockCount ∧
      (Walk.start.observedBlockCount = 0 → b.block.hash = r.block.hash) ∧
        ∀ previous ∈ Walk.start.previousHash, b.block.parentHash = previous := by
    intro b hb
    obtain rfl := Option.some.inj hb
    exact ⟨(Int.add_zero _).symm, fun _ => rfl, nofun⟩
  obtain ⟨p, hp, hpnumber, hphash⟩ := hknown
  have hprojection : ∀ b ∈ r :: after, b.block.number = projection.blockNumber →
      b.block.hash = projection.blockHash := by
    intro b hb hsame
    rw [number_unique h.holds.increasing (List.mem_append_right before hb) hp
      (hsame.trans hpnumber.symm), hphash]
  obtain ⟨done, hdone, hcount, hprevious, hwitnessed⟩ :=
    walkBlocks_linked hnext hfirst hprojection
  refine ⟨done, ?_, ?_, hwitnessed (Or.inr ⟨p, ?_, hpnumber⟩), hprevious last hend⟩
  · rw [h.ancestryBlocks hlast, filter_from h.holds.increasing]
    exact hdone
  · have hlinked : Linked r.block.number (r :: after) := by
      refine ⟨fun b hb => ?_, hnext⟩
      rw [← Option.some.inj hb]
    rw [List.getLast?_eq_getElem?] at hend
    have hnumbers := hlinked.numbers hend
    rw [hcount, hnumbers, Walk.start, List.length_cons]
    push_cast
    omega
  · rw [← filter_from h.holds.increasing, List.mem_filter]
    exact ⟨hp, decide_eq_true (hpnumber ▸ hle)⟩

/-- A walk that comes to the projection has begun at the operation's block. -/
theorem Indexed.walk_begins (h : Indexed integration id contract chain db) {last : Recording}
    (hlast : chain.getLast? = some last) {n : Int} {hash : Bytes32} {done : Walk}
    (hwalk : walkBlocks n hash projection Walk.start
      (db.ancestryBlocks id contract n last.block.number) = some done)
    (hwitnessed : done.projectionWitnessed = true) : db.CanonicalAt id contract n hash := by
  rw [h.ancestryBlocks hlast n] at hwalk
  cases hblocks : chain.filter (fun r => n ≤ r.block.number) with
  | nil =>
      rw [hblocks] at hwalk
      obtain rfl := Option.some.inj hwalk
      cases hwitnessed
  | cons r rest =>
      have hr : r ∈ chain := by
        refine List.mem_of_mem_filter (p := fun r => n ≤ r.block.number) ?_
        rw [hblocks]
        exact List.mem_cons_self
      rw [hblocks, List.map_cons, blockEntry, Database.walkBlocks] at hwalk
      split at hwalk
      · cases hwalk
      · next hgo =>
        simp only [not_or, not_and, not_not] at hgo
        obtain ⟨hnumber, hhash, _⟩ := hgo
        refine h.canonicalAt_iff.mpr ⟨r, hr, ?_, ?_⟩
        · simpa [blockKey, Walk.start] using hnumber
        · simpa [blockKey, Walk.start] using hhash

theorem Indexed.ancestryHolds (h : Indexed integration operation.chainId operation.target chain db)
    {last : Recording} (hlast : chain.getLast? = some last) {n : Int} {hash : Bytes32}
    (hknown : ∃ r ∈ chain, r.block.number = projection.blockNumber ∧
      r.block.hash = projection.blockHash)
    (hle : n ≤ projection.blockNumber) {ready : Bool}
    (hready : ancestryHolds operation projection ⟨last.block.number, last.block.hash⟩ n hash db =
      .ok ready) :
    ready = true ↔ db.CanonicalAt operation.chainId operation.target n hash ∧
      last.block.number - n < 2000 := by
  simp only [Database.ancestryHolds, bind_eq_ok, safeNumber_eq_ok] at hready
  obtain ⟨_, ⟨_, rfl⟩, _, ⟨_, rfl⟩, hready⟩ := hready
  split at hready
  · next hfar =>
    obtain rfl := pure_eq_ok.mp hready
    refine iff_of_false Bool.false_ne_true fun hnear => ?_
    rw [maxProductEvidenceAncestryBlocks] at hfar
    omega
  · next hnear =>
    have hbound : last.block.number - n < 2000 := by
      rw [maxProductEvidenceAncestryBlocks] at hnear
      omega
    simp only [bind_eq_ok, chainId_eq_ok] at hready
    obtain ⟨_, ⟨_, rfl⟩, hready⟩ := hready
    constructor
    · intro htrue
      subst htrue
      split at hready
      · cases pure_eq_ok.mp hready
      · next done hdone =>
        obtain ⟨_, hwitnessed, _⟩ := of_decide_eq_true (pure_eq_ok.mp hready)
        exact ⟨h.walk_begins hlast hdone hwitnessed, hbound⟩
    · rintro ⟨hat, _⟩
      obtain ⟨done, hdone, hcount, hwitnessed, hprevious⟩ := h.walk_arrives hlast hat hknown hle
      simp only [hdone] at hready
      rw [← pure_eq_ok.mp hready]
      exact decide_eq_true ⟨hcount, hwitnessed, hprevious⟩

/-! ## Readiness -/

/-- What can be shown for a key: the row of a contract that is healthy and not synchronized. -/
theorem projection_some {owner : Address} {projectionKey : String}
    (h : db.projection id owner contract projectionKey = .ok (some projection)) :
    (projection.chainId = id ∧ projection.owner = owner ∧ projection.contract = contract) ∧
      db.leases.get? (id, contract) = none ∧
      (∃ checkpoint, db.checkpoints.get? (id, contract) = some checkpoint ∧
        healthValid checkpoint = true ∧ checkpoint.syncHealthy = true) ∧
      ∃ row, db.projections.get? ⟨id, owner, contract, projectionKey⟩ = some row ∧
        row.blockNumber = projection.blockNumber ∧ row.blockHash = projection.blockHash := by
  simp only [Database.projection, bind_eq_ok, chainId_eq_ok, check_eq_ok] at h
  obtain ⟨_, ⟨_, rfl⟩, _, hlease, h⟩ := h
  cases hrow : db.checkpoints.get? (id, contract) with
  | none =>
      simp only [hrow, bind_eq_ok, check_eq_ok, pure_eq_ok, reduceCtorEq, and_false, exists_false] at h
  | some checkpoint =>
      simp only [hrow, bind_eq_ok, check_eq_ok, pure_eq_ok, Option.map_eq_some_iff] at h
      obtain ⟨_, hvalid, _, hhealthy, _, _, row, hget, rfl⟩ := h
      exact ⟨⟨rfl, rfl, rfl⟩, Option.isNone_iff_eq_none.mp hlease,
        ⟨checkpoint, rfl, hvalid, hhealthy⟩, row, hget, rfl, rfl⟩

/-- What is shown is of a block that is still stored. -/
theorem Indexed.projection_known (h : Indexed integration id contract chain db) {owner : Address}
    {projectionKey : String}
    (hshown : db.projection id owner contract projectionKey = .ok (some projection)) :
    ∃ r ∈ chain, r.block.number = projection.blockNumber ∧
      r.block.hash = projection.blockHash := by
  obtain ⟨_, _, _, row, hrow, hnumber, hhash⟩ := projection_some hshown
  have hmem : (⟨id, owner, contract, projectionKey⟩, row) ∈ shown id contract db := by
    refine List.mem_filter.mpr ⟨OrderedMap.mem_of_get? hrow, decide_eq_true ⟨rfl, rfl⟩⟩
  obtain ⟨r, hr, hsame, hsame'⟩ := h.known _ hmem
  exact ⟨r, hr, hsame.trans hnumber, hsame'.trans hhash⟩

/-- The block of an operation is stored and not too far back, and a projection was made at
it or later. -/
def Covers (operation : ChainOperation) (checkpoint : ChainCheckpoint)
    (projection : ProductProjection) (db : Database) : Prop :=
  ∃ number hash, operation.blockNumber = some number ∧ operation.blockHash = some hash ∧
    db.CanonicalAt operation.chainId operation.target number hash ∧
    checkpoint.blockNumber - number < 2000 ∧ number ≤ projection.blockNumber

/-- At the checkpoint the projection that is shown covers the operation. -/
def Shown (operation : ChainOperation) (projectionKey : String) (db : Database) : Prop :=
  ∃ checkpoint projection,
    checkpointAt db.log operation.chainId operation.target = some checkpoint ∧
    db.projection operation.chainId operation.owner operation.target projectionKey =
      .ok (some projection) ∧ Covers operation checkpoint projection db

structure Ready (operation : ChainOperation) (projectionKey : String) (db : Database) : Prop where
  confirmed : operation.state = .confirmed
  canonical : operation.canonical = true
  reconciled : operation.reconciled = true
  shown : Shown operation projectionKey db

theorem Indexed.canonicalAncestry
    (h : Indexed integration operation.chainId operation.target chain db)
    {checkpoint : ChainCheckpoint} {projectionKey : String} (hcanonical : operation.canonical = true)
    (hcheckpoint : checkpointAt db.log operation.chainId operation.target = some checkpoint)
    (hshown : db.projection operation.chainId operation.owner operation.target projectionKey =
      .ok (some projection)) {ready : Bool}
    (hready : canonicalAncestry operation projection (some checkpoint) db = .ok ready) :
    ready = true ↔ Covers operation checkpoint projection db := by
  have hlast := hcheckpoint
  rw [h.holds.checkpoint, Option.map_eq_some_iff] at hlast
  obtain ⟨last, hlast, rfl⟩ := hlast
  obtain ⟨p, hp, hnumber, hhash⟩ := h.projection_known hshown
  have hbehind : projection.blockNumber ≤ last.block.number := by
    rw [← hnumber]
    rcases number_le_last h.holds.increasing hlast hp with rfl | hlt
    · exact Int.le_refl _
    · exact Int.le_of_lt hlt
  obtain ⟨hid, howner, hcontract⟩ := (projection_some hshown).1
  unfold Database.canonicalAncestry at hready
  split at hready
  · next number hash _ hat hmined hsame =>
    obtain rfl := Option.some.inj hsame
    split at hready
    · next hasked =>
      have hle : number ≤ projection.blockNumber := hasked.2.2.2.2.1
      rw [h.ancestryHolds hlast ⟨p, hp, hnumber, hhash⟩ hle hready]
      constructor
      · rintro ⟨hstored, hnear⟩
        exact ⟨number, hash, hat, hmined, hstored, hnear, hle⟩
      · rintro ⟨number', hash', hat', hmined', hstored, hnear, _⟩
        obtain rfl := Option.some.inj (hat.symm.trans hat')
        obtain rfl := Option.some.inj (hmined.symm.trans hmined')
        exact ⟨hstored, hnear⟩
    · next hasked =>
      obtain rfl := Except.ok.inj hready
      refine iff_of_false nofun ?_
      rintro ⟨number', _, hat', _, _, _, hle⟩
      obtain rfl := Option.some.inj (hat.symm.trans hat')
      exact hasked ⟨hcanonical, hid, howner, hcontract, hle, hbehind⟩
  · next hnone =>
    obtain rfl := Except.ok.inj hready
    refine iff_of_false nofun ?_
    rintro ⟨number, hash, hat, hmined, _⟩
    exact hnone number hash _ hat hmined rfl

/-- A projection is shown of a healthy contract only. -/
theorem indexerStatus_shown {owner : Address} {projectionKey : String} {health : ChainSyncHealth}
    (hshown : db.projection id owner contract projectionKey = .ok (some projection))
    (hhealth : db.syncHealth id contract = .ok health) :
    (∃ checkpoint, checkpointAt db.log id contract = some checkpoint) ∧ health = ⟨true, none⟩ := by
  obtain ⟨_, hlease, ⟨row, hrow, hvalid, hhealthy⟩, _⟩ := projection_some hshown
  refine ⟨⟨row.place, checkpointAt_row hrow⟩, ?_⟩
  · have hid : chainId id = .ok id := by
      simp only [Database.projection, bind_eq_ok, chainId_eq_ok] at hshown
      obtain ⟨_, ⟨hid, rfl⟩, _⟩ := hshown
      exact chainId_eq_ok.mpr ⟨hid, rfl⟩
    have herror : row.syncError = none ∧ row.syncTarget = none := by
      simpa [healthValid, hhealthy] using hvalid
    rw [syncHealth, hid, ok_bind, hlease, hrow, if_neg (by decide)] at hhealth
    dsimp only at hhealth
    rw [check_of hvalid, ok_bind, hhealthy, herror.1] at hhealth
    exact (Except.ok.inj hhealth).symm

/-- The milestone of a confirmed operation is reached on a healthy index only. -/
theorem Indexed.milestone (h : Indexed integration operation.chainId operation.target chain db)
    {projectionKey : String} (hconfirmed : operation.state = .confirmed)
    (hcanonical : operation.canonical = true) {health : ChainSyncHealth}
    (hhealth : db.syncHealth operation.chainId operation.target = .ok health)
    {milestone : ProjectionMilestone}
    (hmilestone : projectionMilestone operation projectionKey
      (checkpointAt db.log operation.chainId operation.target)
      (indexerStatus (checkpointAt db.log operation.chainId operation.target) health) db =
        .ok milestone) :
    (milestone = .ready ∧
      indexerStatus (checkpointAt db.log operation.chainId operation.target) health = .healthy) ↔
    Shown operation projectionKey db := by
  unfold projectionMilestone at hmilestone
  constructor
  · rintro ⟨rfl, hstatus⟩
    rw [hconfirmed, hstatus, if_neg (by decide), if_pos rfl, bind_eq_ok] at hmilestone
    obtain ⟨found, hshown, hmilestone⟩ := hmilestone
    cases found with
    | none => cases pure_eq_ok.mp hmilestone
    | some projection =>
        obtain ⟨⟨checkpoint, hcheckpoint⟩, _⟩ := indexerStatus_shown hshown hhealth
        simp only [hcheckpoint, bind_eq_ok, pure_eq_ok] at hmilestone
        obtain ⟨ready, hready, hmilestone⟩ := hmilestone
        cases ready with
        | false => cases hmilestone
        | true =>
            exact ⟨checkpoint, projection, hcheckpoint, hshown,
              (h.canonicalAncestry hcanonical hcheckpoint hshown hready).mp rfl⟩
  · rintro ⟨checkpoint, projection, hcheckpoint, hshown, hcovers⟩
    obtain ⟨_, rfl⟩ := indexerStatus_shown hshown hhealth
    have hstatus : indexerStatus (checkpointAt db.log operation.chainId operation.target)
        ⟨true, none⟩ = .healthy := by
      rw [hcheckpoint]
      rfl
    rw [hconfirmed, hstatus, if_neg (by decide), if_pos rfl, hshown, ok_bind] at hmilestone
    simp only [hcheckpoint, bind_eq_ok, pure_eq_ok] at hmilestone
    obtain ⟨ready, hready, rfl⟩ := hmilestone
    rw [(h.canonicalAncestry hcanonical hcheckpoint hshown hready).mpr hcovers]
    exact ⟨rfl, hstatus⟩

theorem Indexed.operationEvidence
    (h : ∀ id contract, ∃ chain, Indexed (deployed (id, contract)) id contract chain db)
    {operationId projectionKey : String} {evidence : ProductOperationEvidence}
    (hevidence : db.operationEvidence operationId projectionKey = .ok (some evidence)) :
    ∃ operation, db.operation operationId = .ok (some operation) ∧
      (evidence.productReady = true ↔ Ready operation projectionKey db) := by
  simp only [Database.operationEvidence, bind_eq_ok] at hevidence
  obtain ⟨found, hfound, hevidence⟩ := hevidence
  cases found with
  | none => cases pure_eq_ok.mp hevidence
  | some operation =>
      refine ⟨operation, hfound, ?_⟩
      simp only [bind_eq_ok, pure_eq_ok, Option.some.injEq] at hevidence
      obtain ⟨health, hhealth, checkpoint, hcheckpoint, milestone, hmilestone, rfl⟩ := hevidence
      obtain ⟨chain, hindexed⟩ := h operation.chainId operation.target
      simp only [Database.checkpoint, bind_eq_ok, chainId_eq_ok, pure_eq_ok] at hcheckpoint
      obtain ⟨_, ⟨_, rfl⟩, rfl⟩ := hcheckpoint
      dsimp only
      rw [decide_eq_true_iff]
      constructor
      · rintro ⟨hconfirmed, hcanonical, hmatched, hready, hhealthy⟩
        refine ⟨hconfirmed, hcanonical, ?_,
          (hindexed.milestone hconfirmed hcanonical hhealth hmilestone).mp ⟨hready, hhealthy⟩⟩
        simpa [reconciliationStatus, hconfirmed] using hmatched
      · rintro ⟨hconfirmed, hcanonical, hreconciled, hincluded⟩
        obtain ⟨hready, hhealthy⟩ :=
          (hindexed.milestone hconfirmed hcanonical hhealth hmilestone).mpr hincluded
        refine ⟨hconfirmed, hcanonical, ?_, hready, hhealthy⟩
        simp [reconciliationStatus, hconfirmed, hreconciled]

/-- A confirmed operation of a contract that is synchronized. -/
def confirmedOnce : List Action :=
  [.operations [("a", ⟨46630, some 3, 9, 7, none, "CONFIRMED", none, some 5, some 2, some 0, none,
    1, none, true, true, none, none⟩)], .syncTo (headRequest 5)]

end ChainSync
end AlphaForge
