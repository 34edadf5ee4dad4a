/-
The chain a store holds.

Whatever was recorded and rolled back, the canonical rows of one contract are
exactly those of a list of recordings: one is added at the end by each new block,
and those from a block on are dropped by a rollback.  `Holds` is that relation and
`canonicalChain` computes the list from the calls that were accepted.
-/
import AlphaForge.Indexer.ChainStore.Steps

namespace AlphaForge
namespace ChainStore

open Evm Machine

variable {id : Int} {contract : Address} {s s' : Store} {chain : List Recording} {r : Recording}
  {ownerToken : Option String} {item : IndexedChainEvent} {block : ChainBlock}
  {checkpoints : OrderedMap (Int × Address) CheckpointRow}

/-- The canonical rows are those of the chain, and the checkpoint is its end. -/
structure Holds (id : Int) (contract : Address) (s : Store) (chain : List Recording) : Prop where
  blockKeys : s.blocks.keys.Nodup
  eventKeys : s.events.keys.Nodup
  increasing : chain.Pairwise (fun a b => a.block.number < b.block.number)
  numbers : ∀ r ∈ chain, 0 ≤ r.block.number
  blocks : ∀ key, (∃ row, s.blocks.get? key = some row ∧
    isCanonicalBlock id contract (key, row) = true) ↔
      ∃ r ∈ chain, key = blockKey id contract r.block
  events : ∀ key row, (s.events.get? key = some row ∧
    isCanonicalEvent id contract (key, row) = true) ↔
      ∃ r ∈ chain, ∃ e ∈ r.events, key = eventKey id e ∧
        eventRow contract r.block.number e = .ok row
  checkpoint : checkpointAt s id contract =
    chain.getLast?.map (fun r => ⟨r.block.number, r.block.hash⟩)

theorem fresh_holds (leases : OrderedMap (Int × Address) String) (transactions : List OperationRow)
    (projections : List (Int × Address)) :
    Holds id contract (fresh leases transactions projections) [] := by
  refine ⟨List.nodup_nil, List.nodup_nil, List.Pairwise.nil, nofun, fun key => ?_,
    fun key row => ?_, rfl⟩
  · simp [fresh, OrderedMap.get?]
  · simp [fresh, OrderedMap.get?]

/-- No block of the chain is beyond its end. -/
theorem number_le_last (hincreasing : chain.Pairwise (fun a b => a.block.number < b.block.number))
    {last : Recording} (hlast : chain.getLast? = some last) (hr : r ∈ chain) :
    r = last ∨ r.block.number < last.block.number := by
  obtain ⟨init, rfl⟩ := List.getLast?_eq_some_iff.mp hlast
  rw [List.pairwise_append] at hincreasing
  rcases List.mem_append.mp hr with hinit | hend
  · exact Or.inr (hincreasing.2.2 r hinit last (List.mem_singleton_self last))
  · exact Or.inl (List.mem_singleton.mp hend)

/-- Blocks of the chain with one number are one block. -/
theorem number_unique (hincreasing : chain.Pairwise (fun a b => a.block.number < b.block.number))
    {a b : Recording} (ha : a ∈ chain) (hb : b ∈ chain) (h : a.block.number = b.block.number) :
    a = b := by
  have hnodup : (chain.map (fun r => r.block.number)).Nodup :=
    List.pairwise_map.mpr (hincreasing.imp Int.ne_of_lt)
  exact List.inj_on_of_nodup_map hnodup ha hb h

theorem Holds.checkpoint_ge (h : Holds id contract s chain) (hr : r ∈ chain) :
    ∃ c ∈ checkpointAt s id contract, r.block.number ≤ c.blockNumber := by
  rw [h.checkpoint]
  obtain ⟨last, hlast⟩ := Option.isSome_iff_exists.mp
    (List.getLast?_isSome.mpr (List.ne_nil_of_mem hr))
  refine ⟨⟨last.block.number, last.block.hash⟩, by rw [hlast]; rfl, ?_⟩
  rcases number_le_last h.increasing hlast hr with rfl | hlt
  · exact Int.le_refl _
  · exact Int.le_of_lt hlt

/-- Where the store looks for a canonical block of a number. -/
theorem Holds.find (h : Holds id contract s chain) (number : Int) :
    (∃ e, s.blocks.find? (fun e => isCanonicalBlock id contract e ∧ e.1.number = number) = some e) ↔
      ∃ r ∈ chain, r.block.number = number := by
  constructor
  · rintro ⟨⟨key, row⟩, hfind⟩
    have hprop := List.find?_some hfind
    have hmem := (OrderedMap.mem_iff_get? h.blockKeys).mp (List.mem_of_find?_eq_some hfind)
    simp only [Bool.decide_and, Bool.decide_eq_true, Bool.and_eq_true, decide_eq_true_eq] at hprop
    obtain ⟨r, hr, rfl⟩ := (h.blocks key).mp ⟨row, hmem, hprop.1⟩
    exact ⟨r, hr, hprop.2⟩
  · rintro ⟨r, hr, rfl⟩
    obtain ⟨row, hrow, hcanonical⟩ := (h.blocks (blockKey id contract r.block)).mpr ⟨r, hr, rfl⟩
    refine Option.isSome_iff_exists.mp (List.find?_isSome.mpr
      ⟨_, (OrderedMap.mem_iff_get? h.blockKeys).mpr hrow, ?_⟩)
    simp only [Bool.decide_and, Bool.decide_eq_true, Bool.and_eq_true, decide_eq_true_eq]
    exact ⟨hcanonical, rfl⟩

/-! ## Recording keeps the relation -/

variable {other : Int} {otherContract : Address}

/-- A call for another contract or chain. -/
theorem record_other (h : Holds id contract s chain)
    (hne : (id, contract) ≠ (other, otherContract))
    (hs : step (.recordCanonicalBlock other otherContract r ownerToken) s = .ok s') :
    Holds id contract s' chain := by
  have hentered := record_entered hs
  obtain ⟨_, sorted, _, _, blocks, hblocks, table, _, checkpoints, hcheckpoints, rfl⟩ :=
    step_record.mp hs
  have hblock : ∀ key : BlockKey, key.chainId = id → key.contract = contract →
      blocks.get? key = s.blocks.get? key := by
    intro key hid hcontract
    rcases admitBlock_eq_ok hblocks with ⟨_, rfl, _⟩ | ⟨_, _, rfl⟩
    · rfl
    · refine OrderedMap.get?_set_of_ne (fun heq => hne ?_) _ _
      rw [← hid, ← hcontract, heq]
      rfl
  have hkeys : blocks.keys.Nodup := by
    rcases admitBlock_eq_ok hblocks with ⟨_, rfl, _⟩ | ⟨_, _, rfl⟩
    · exact h.blockKeys
    · exact OrderedMap.nodup_keys_set h.blockKeys
  refine ⟨hkeys, hentered.keys h.eventKeys, h.increasing, h.numbers, fun key => ?_,
    fun key row => ?_, ?_⟩
  · rw [← h.blocks key]
    refine exists_congr fun row => and_congr_left fun hcanonical => ?_
    rw [isCanonicalBlock_iff] at hcanonical
    rw [hblock key hcanonical.1 hcanonical.2.1]
  · rw [← h.events key row]
    refine and_congr_left fun hcanonical => ⟨fun hrow => ?_, fun hrow => ?_⟩
    · rw [isCanonicalEvent_iff] at hcanonical
      rcases hentered.comes hrow with hbefore | ⟨e, _, rfl, _, hwritten⟩
      · exact hbefore
      · refine absurd ?_ hne
        rw [← hcanonical.1, ← hcanonical.2.1, (eventRow_eq_ok hwritten).1]
        rfl
    · exact hentered.stays hrow (isCanonicalEvent_iff.mp hcanonical).2.2
  · rw [← h.checkpoint, checkpointAt, checkpointAt, setSyncTarget_place hcheckpoints,
      advanceCheckpoint_of_ne hne]

/-- A block that is there already. -/
theorem record_again (h : Holds id contract s chain)
    (hs : step (.recordCanonicalBlock id contract r ownerToken) s = .ok s')
    (hthere : ∃ r' ∈ chain, r'.block.number = r.block.number) : Holds id contract s' chain := by
  have hentered := record_entered hs
  obtain ⟨_, sorted, hsorted, _, blocks, hblocks, table, _, checkpoints, hcheckpoints, rfl⟩ :=
    step_record.mp hs
  obtain ⟨_, _, _, _, _, rfl⟩ := validateBlock_eq_ok.mp hsorted
  have hfind := (h.find r.block.number).mpr hthere
  rcases admitBlock_eq_ok hblocks with ⟨_, rfl, hrows⟩ | ⟨hnone, _⟩
  · refine ⟨h.blockKeys, hentered.keys h.eventKeys, h.increasing, h.numbers, h.blocks,
      fun key row => ?_, ?_⟩
    · rw [← h.events key row]
      refine and_congr_left fun hcanonical => ⟨fun hrow => ?_, fun hrow => ?_⟩
      · rcases hentered.comes hrow with hbefore | ⟨e, he, rfl, hreusable, _⟩
        · exact hbefore
        · obtain ⟨old, hold, htrue⟩ := hrows e ((List.mem_insertionSort suppliedOrder).mpr he)
          have hfalse := (hreusable old ((OrderedMap.mem_iff_get? h.eventKeys).mp hold)).1
          rw [htrue] at hfalse
          cases hfalse
      · exact hentered.stays hrow (isCanonicalEvent_iff.mp hcanonical).2.2
    · obtain ⟨r', hr', hnumber⟩ := hthere
      obtain ⟨c, hc, hle⟩ := h.checkpoint_ge hr'
      rw [hnumber] at hle
      rw [← h.checkpoint, checkpointAt, checkpointAt, setSyncTarget_place hcheckpoints,
        advanceCheckpoint_behind hc hle]
  · obtain ⟨e, he⟩ := hfind
    rw [hnone] at he
    cases he

/-- A canonical row cannot stand for an event of a block that is not there. -/
theorem Holds.not_kept (h : Holds id contract s chain) {table : OrderedMap EventKey EventRow}
    (hvalid : validateEvent item id contract block = .ok ()) (hnumber : 0 ≤ block.number)
    (hnew : ¬ ∃ r ∈ chain, r.block.number = block.number) : ¬ Kept s.events table id item := by
  rintro ⟨row, hrow, hcanonical, hsame, _⟩
  obtain ⟨haddress, hitem, _⟩ := validateEvent_eq_ok hvalid
  have hcontract : row.contract = contract := (same_address hsame).trans haddress
  obtain ⟨r, hr, e, _, _, heventRow⟩ := (h.events _ row).mp
    ⟨hrow, isCanonicalEvent_iff.mpr ⟨rfl, hcontract, hcanonical⟩⟩
  have hrowNumber : row.blockNumber = r.block.number := (eventRow_eq_ok heventRow).2.1
  have hrowPositive : 0 ≤ row.blockNumber := by
    rw [hrowNumber]
    exact h.numbers r hr
  have hplace : row.blockNumber = item.blockNumber :=
    same_blockNumber hsame hrowPositive (hitem ▸ hnumber)
  exact hnew ⟨r, hr, by rw [← hrowNumber, hplace, hitem]⟩

/-- A new block goes to the end of the chain. -/
theorem record_new (h : Holds id contract s chain)
    (hs : step (.recordCanonicalBlock id contract r ownerToken) s = .ok s')
    (hnew : ¬ ∃ r' ∈ chain, r'.block.number = r.block.number) :
    Holds id contract s' (chain ++ [r]) := by
  have hentered := record_entered hs
  obtain ⟨_, sorted, hsorted, _, blocks, hblocks, table, _, checkpoints, hcheckpoints, rfl⟩ :=
    step_record.mp hs
  obtain ⟨hnumber, _, _, _, _, rfl⟩ := validateBlock_eq_ok.mp hsorted
  have hwritten : ∀ e ∈ r.events, Written s.events table.1 id contract r.block.number e := by
    intro e he
    rcases hentered.entered e he with hkept | hwritten
    · exact absurd hkept (h.not_kept (hentered.valid e he) hnumber.1 hnew)
    · exact hwritten
  rcases admitBlock_eq_ok hblocks with ⟨hfound, _⟩ | ⟨_, hbeyond, rfl⟩
  · exact absurd ((h.find r.block.number).mp hfound) hnew
  refine ⟨OrderedMap.nodup_keys_set h.blockKeys, hentered.keys h.eventKeys, ?_, ?_, fun key => ?_,
    fun key row => ?_, ?_⟩
  · refine List.pairwise_append.mpr ⟨h.increasing, List.pairwise_singleton _ _, ?_⟩
    intro a ha b hb
    rw [List.mem_singleton.mp hb]
    obtain ⟨c, hc, hle⟩ := h.checkpoint_ge ha
    exact Int.lt_of_le_of_lt hle (hbeyond c hc)
  · intro a ha
    rcases List.mem_append.mp ha with ha | ha
    · exact h.numbers a ha
    · rw [List.mem_singleton.mp ha]
      exact hnumber.1
  · simp only [List.mem_append, List.mem_singleton, or_and_right, exists_or, exists_eq_left]
    by_cases hkey : key = blockKey id contract r.block
    · rw [hkey, OrderedMap.get?_set_self]
      exact iff_of_true ⟨_, rfl, isCanonicalBlock_iff.mpr ⟨rfl, rfl, rfl⟩⟩ (Or.inr rfl)
    · rw [OrderedMap.get?_set_of_ne hkey, h.blocks key]
      exact (or_iff_left hkey).symm
  · simp only [List.mem_append, List.mem_singleton, or_and_right, exists_or, exists_eq_left]
    constructor
    · rintro ⟨hrow, hcanonical⟩
      rcases hentered.comes hrow with hbefore | ⟨e, he, hkey, _, heventRow⟩
      · exact Or.inl ((h.events key row).mp ⟨hbefore, hcanonical⟩)
      · exact Or.inr ⟨e, he, hkey, heventRow⟩
    · rintro (hold | ⟨e, he, rfl, heventRow⟩)
      · obtain ⟨hrow, hcanonical⟩ := (h.events key row).mpr hold
        exact ⟨hentered.stays hrow (isCanonicalEvent_iff.mp hcanonical).2.2, hcanonical⟩
      · obtain ⟨_, row', heventRow', hget⟩ := hwritten e he
        rw [heventRow, Except.ok.injEq] at heventRow'
        obtain ⟨hcontract, _, _, hcanonical⟩ := eventRow_eq_ok heventRow
        exact ⟨heventRow' ▸ hget, isCanonicalEvent_iff.mpr ⟨rfl, hcontract, hcanonical⟩⟩
  · rw [checkpointAt, setSyncTarget_place hcheckpoints, advanceCheckpoint_beyond hbeyond,
      List.getLast?_concat]
    rfl

/-! ## Rolling back keeps the relation -/

variable {fromBlock : Int}

instance : Std.Total blockOrder := ⟨fun a b => Int.le_total b.1.number a.1.number⟩

instance : IsTrans (BlockKey × BlockRow) blockOrder := ⟨fun _ _ _ hab hbc => Int.le_trans hbc hab⟩

theorem restoreCheckpoint_place {blocks : OrderedMap BlockKey BlockRow}
    (hkeys : blocks.keys.Nodup)
    (hincreasing : chain.Pairwise (fun a b => a.block.number < b.block.number))
    (hblocks : ∀ key, (∃ row, blocks.get? key = some row ∧
      isCanonicalBlock id contract (key, row) = true) ↔
        ∃ r ∈ chain, key = blockKey id contract r.block)
    (hrow : chain ≠ [] → checkpoints.get? (id, contract) ≠ none) :
    ((restoreCheckpoint checkpoints id contract blocks).get? (id, contract)).map
        CheckpointRow.place = chain.getLast?.map (fun r => ⟨r.block.number, r.block.hash⟩) := by
  have hmem : ∀ e ∈ blocks.filter (isCanonicalBlock id contract),
      ∃ r ∈ chain, e.1 = blockKey id contract r.block := by
    intro e he
    rw [List.mem_filter] at he
    exact (hblocks e.1).mp ⟨e.2, (OrderedMap.mem_iff_get? hkeys).mp he.1, he.2⟩
  have hthere : ∀ r ∈ chain, ∃ e ∈ blocks.filter (isCanonicalBlock id contract),
      e.1 = blockKey id contract r.block := by
    intro r hr
    obtain ⟨row, hget, hcanonical⟩ := (hblocks _).mpr ⟨r, hr, rfl⟩
    exact ⟨_, List.mem_filter.mpr ⟨(OrderedMap.mem_iff_get? hkeys).mpr hget, hcanonical⟩, rfl⟩
  unfold restoreCheckpoint
  cases hsorted : (blocks.filter (isCanonicalBlock id contract)).insertionSort blockOrder with
  | nil =>
      have hnil : chain = [] := by
        refine List.eq_nil_iff_forall_not_mem.mpr fun r hr => ?_
        obtain ⟨e, he, _⟩ := hthere r hr
        rw [← List.mem_insertionSort blockOrder, hsorted] at he
        cases he
      simp only [List.head?_nil]
      rw [OrderedMap.get?_delete_self, hnil]
      rfl
  | cons previous lower =>
      have hprevious : previous ∈ blocks.filter (isCanonicalBlock id contract) := by
        rw [← List.mem_insertionSort blockOrder, hsorted]
        exact List.mem_cons_self
      obtain ⟨r, hr, hkey⟩ := hmem previous hprevious
      obtain ⟨last, hlast⟩ := Option.isSome_iff_exists.mp
        (List.getLast?_isSome.mpr (List.ne_nil_of_mem hr))
      obtain ⟨e, he, hlastKey⟩ := hthere last (List.mem_of_getLast? hlast)
      have hle : e.1.number ≤ previous.1.number := by
        have hpairwise := List.pairwise_insertionSort blockOrder
          (blocks.filter (isCanonicalBlock id contract))
        rw [hsorted, List.pairwise_cons] at hpairwise
        rw [← List.mem_insertionSort blockOrder, hsorted, List.mem_cons] at he
        rcases he with rfl | hlower
        · exact Int.le_refl _
        · exact hpairwise.1 e hlower
      rw [hkey, hlastKey] at hle
      have hsame : r = last := by
        rcases number_le_last hincreasing hlast hr with heq | hlt
        · exact heq
        · exact absurd hlt (Int.not_lt.mpr hle)
      obtain ⟨row, hget⟩ := Option.ne_none_iff_exists'.mp (hrow (List.ne_nil_of_mem hr))
      simp only [List.head?_cons, OrderedMap.get?_mapValues, hget, hlast, hkey, hsame,
        Option.map_some, if_true]
      rfl

theorem rollback_other (h : Holds id contract s chain)
    (hne : (id, contract) ≠ (other, otherContract))
    (hs : step (.rollbackFromBlock other otherContract fromBlock ownerToken) s = .ok s') :
    Holds id contract s' chain := by
  obtain ⟨hblocks, hevents, hcheckpoints⟩ := step_rollback hs
  refine ⟨?_, ?_, h.increasing, h.numbers, fun key => ?_, fun key row => ?_, ?_⟩
  · rw [hblocks, orphanBlocks, OrderedMap.keys_mapValues]
    exact h.blockKeys
  · rw [hevents, orphanEvents, OrderedMap.keys_mapValues]
    exact h.eventKeys
  · rw [← h.blocks key, hblocks]
    refine exists_congr fun row => orphanBlocks_canonical.trans (and_iff_left fun heq => ?_)
    exact absurd heq hne
  · rw [← h.events key row, hevents]
    exact orphanEvents_canonical.trans (and_iff_left fun heq => absurd heq hne)
  · rw [← h.checkpoint, checkpointAt, checkpointAt, hcheckpoints, restoreCheckpoint_of_ne hne]

/-- A rollback drops the blocks from its number on. -/
theorem rollback_same (h : Holds id contract s chain)
    (hs : step (.rollbackFromBlock id contract fromBlock ownerToken) s = .ok s') :
    Holds id contract s' (chain.filter (fun r => r.block.number < fromBlock)) := by
  obtain ⟨hblocks, hevents, hcheckpoints⟩ := step_rollback hs
  have hkeys : s'.blocks.keys.Nodup := by
    rw [hblocks, orphanBlocks, OrderedMap.keys_mapValues]
    exact h.blockKeys
  have hrows : ∀ key, (∃ row, s'.blocks.get? key = some row ∧
      isCanonicalBlock id contract (key, row) = true) ↔
        ∃ r ∈ chain.filter (fun r => r.block.number < fromBlock),
          key = blockKey id contract r.block := by
    intro key
    simp only [hblocks, orphanBlocks_canonical, exists_and_right, h.blocks key, true_imp_iff,
      List.mem_filter, decide_eq_true_eq]
    constructor
    · rintro ⟨⟨r, hr, rfl⟩, hlt⟩
      exact ⟨r, ⟨hr, hlt⟩, rfl⟩
    · rintro ⟨r, ⟨hr, hlt⟩, rfl⟩
      exact ⟨⟨r, hr, rfl⟩, hlt⟩
  refine ⟨hkeys, ?_, h.increasing.filter _, ?_, hrows, fun key row => ?_, ?_⟩
  · rw [hevents, orphanEvents, OrderedMap.keys_mapValues]
    exact h.eventKeys
  · exact fun r hr => h.numbers r (List.mem_of_mem_filter hr)
  · rw [hevents, orphanEvents_canonical, h.events key row]
    simp only [true_imp_iff, List.mem_filter, decide_eq_true_eq]
    constructor
    · rintro ⟨⟨r, hr, e, he, hkey, heventRow⟩, hlt⟩
      rw [(eventRow_eq_ok heventRow).2.1] at hlt
      exact ⟨r, ⟨hr, hlt⟩, e, he, hkey, heventRow⟩
    · rintro ⟨r, ⟨hr, hlt⟩, e, he, hkey, heventRow⟩
      refine ⟨⟨r, hr, e, he, hkey, heventRow⟩, ?_⟩
      rw [(eventRow_eq_ok heventRow).2.1]
      exact hlt
  · rw [checkpointAt, hcheckpoints]
    refine restoreCheckpoint_place hkeys (h.increasing.filter _) hrows fun hne hnone => hne ?_
    have hempty : chain = [] := by
      have hcheckpoint := h.checkpoint
      rw [checkpointAt, hnone, Option.map_none, eq_comm, Option.map_eq_none_iff] at hcheckpoint
      exact List.getLast?_eq_none_iff.mp hcheckpoint
    rw [hempty]
    rfl

/-! ## Runs -/

/-- What an accepted call does to the chain. -/
def follow (id : Int) (contract : Address) (chain : List Recording) : Call → List Recording
  | .recordCanonicalBlock valueChainId other r _ =>
      if (id, contract) = (valueChainId, other) ∧
        ¬ ∃ r' ∈ chain, r'.block.number = r.block.number then chain ++ [r]
      else chain
  | .rollbackFromBlock valueChainId other fromBlock _ =>
      if (id, contract) = (valueChainId, other) then
        chain.filter (fun r => r.block.number < fromBlock)
      else chain

/-- The recordings that are canonical after the accepted calls. -/
def canonicalChain (id : Int) (contract : Address) (calls : List (Transition Store Call)) :
    List Recording :=
  calls.foldl (fun chain t => follow id contract chain t.action) []

theorem step_holds {call : Call} (h : Holds id contract s chain) (hs : step call s = .ok s') :
    Holds id contract s' (follow id contract chain call) := by
  cases call with
  | recordCanonicalBlock valueChainId otherContract r ownerToken =>
      by_cases hsame : (id, contract) = (valueChainId, otherContract)
      · obtain ⟨rfl, rfl⟩ := Prod.mk.inj hsame
        by_cases hthere : ∃ r' ∈ chain, r'.block.number = r.block.number
        · rw [follow, if_neg (fun hboth => hboth.2 hthere)]
          exact record_again h hs hthere
        · rw [follow, if_pos ⟨rfl, hthere⟩]
          exact record_new h hs hthere
      · rw [follow, if_neg (fun hboth => hsame hboth.1)]
        exact record_other h hsame hs
  | rollbackFromBlock valueChainId otherContract fromBlock ownerToken =>
      by_cases hsame : (id, contract) = (valueChainId, otherContract)
      · obtain ⟨rfl, rfl⟩ := Prod.mk.inj hsame
        rw [follow, if_pos rfl]
        exact rollback_same h hs
      · rw [follow, if_neg hsame]
        exact rollback_other h hsame hs

theorem run_holds (leases : OrderedMap (Int × Address) String) (transactions : List OperationRow)
    (projections : List (Int × Address)) (calls : List Call) :
    Holds id contract (exec step (fresh leases transactions projections) calls)
      (canonicalChain id contract
        (history step (fresh leases transactions projections) calls)) :=
  exec_follows (R := Holds id contract) (f := follow id contract)
    (fun _ _ _ _ h hs => step_holds h hs) (fresh_holds leases transactions projections) calls

theorem run_stored (leases : OrderedMap (Int × Address) String) (transactions : List OperationRow)
    (projections : List (Int × Address)) (calls : List Call) :
    Stored (exec step (fresh leases transactions projections) calls).events := by
  have hfresh : Stored (fresh leases transactions projections).events :=
    fun _ _ hrow => nomatch hrow
  exact exec_invariant (P := fun s => Stored s.events) (fun _ _ _ hs h => step_stored hs h)
    hfresh calls

end ChainStore
end AlphaForge
