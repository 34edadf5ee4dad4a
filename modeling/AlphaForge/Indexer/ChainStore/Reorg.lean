/-
Recording a chain after a history of forks.

The rows that rolled back blocks left behind stay in the table of events, under
their transaction and log index.  A transaction that is mined again in another block
may have its logs at other indexes, and then the rows of its first inclusion stand
under keys that now belong to other events.  Recording such a chain stops there,
although a store that never saw the fork takes it.  Where every row in the way is
orphaned and has the payload of the event, recording goes through and the events
are those of a fresh store.
-/
import AlphaForge.Indexer.ChainStore.Chain
import Mathlib.Data.List.Chain

namespace AlphaForge
namespace ChainStore

open Evm Machine

variable {id : Int} {contract : Address} {s s' t : Store} {chain rest : List Recording}
  {r : Recording}

/-- A chain from one block on, each with the contract's events. -/
structure WellFormed (id : Int) (contract : Address) (chain : List Recording) : Prop where
  network : 0 < id ∧ id ≤ Json.maxSafeInteger
  blocks : ∀ r ∈ chain, (0 ≤ r.block.number ∧ r.block.number ≤ Json.maxSafeInteger) ∧
    (0 ≤ r.block.timestamp ∧ r.events.length ≤ 10000)
  targets : ∀ r ∈ chain, ∀ target ∈ r.syncTargetBlock,
    r.block.number ≤ target ∧ target ≤ Json.maxSafeInteger
  linked : chain.IsChain (fun a b =>
    b.block.number = a.block.number + 1 ∧ b.block.parentHash = a.block.hash)
  events : ∀ r ∈ chain, ∀ e ∈ r.events, validateEvent e id contract r.block = .ok ()
  /-- Log indexes count the logs of a whole block. -/
  logIndexes : ∀ r ∈ chain, (r.events.map (fun e => e.logIndex)).Nodup
  keys : (chain.flatMap (fun r => r.events.map (eventKey id))).Nodup

/-- Whoever holds the lease records the blocks one after the other. -/
def recordChain (id : Int) (contract : Address) : List Recording → Store → Except String Store
  | [], s => .ok s
  | r :: rest, s => do
      let next ← step (.recordCanonicalBlock id contract r (s.leases.get? (id, contract))) s
      recordChain id contract rest next

/-! ## One block -/

theorem WellFormed.block_keys (h : WellFormed id contract (chain ++ r :: rest)) :
    (r.events.map (eventKey id)).Nodup := by
  have hkeys := h.keys
  rw [List.flatMap_append, List.flatMap_cons, List.nodup_append, List.nodup_append] at hkeys
  exact hkeys.2.1.1

/-- The events of a later block have other keys. -/
theorem WellFormed.later_keys (h : WellFormed id contract (chain ++ r :: rest)) {later : Recording}
    (hlater : later ∈ rest) {e : IndexedChainEvent} (he : e ∈ later.events) :
    eventKey id e ∉ r.events.map (eventKey id) := by
  have hkeys := h.keys
  rw [List.flatMap_append, List.flatMap_cons, List.nodup_append, List.nodup_append] at hkeys
  intro hmem
  exact hkeys.2.1.2.2 _ hmem _
    (List.mem_flatMap.mpr ⟨later, hlater, List.mem_map_of_mem he⟩) rfl

theorem WellFormed.parent (h : WellFormed id contract (chain ++ r :: rest)) {last : Recording}
    (hlast : chain.getLast? = some last) :
    r.block.number = last.block.number + 1 ∧ r.block.parentHash = last.block.hash :=
  (List.isChain_append.mp h.linked).2.2 last hlast r rfl

theorem WellFormed.not_there (hwf : WellFormed id contract (chain ++ r :: rest))
    (h : Holds id contract s chain) : ¬ ∃ r' ∈ chain, r'.block.number = r.block.number := by
  rintro ⟨r', hr', heq⟩
  obtain ⟨last, hlast⟩ := Option.isSome_iff_exists.mp
    (List.getLast?_isSome.mpr (List.ne_nil_of_mem hr'))
  have hnumber := (hwf.parent hlast).1
  rcases number_le_last h.increasing hlast hr' with rfl | hlt
  · omega
  · omega

/-- Up to the events nothing stands in the way of the next block. -/
theorem record_admitted (h : Holds id contract s chain)
    (hwf : WellFormed id contract (chain ++ r :: rest)) :
    validateBlock id contract r.block r.events r.syncTargetBlock =
        .ok (r.events.insertionSort suppliedOrder) ∧
      (∀ c ∈ checkpointAt s id contract, c.blockNumber < r.block.number) ∧
      ∃ blocks, admitBlock s id contract r.block (r.events.insertionSort suppliedOrder) =
        .ok blocks := by
  have hr : r ∈ chain ++ r :: rest := List.mem_append_right _ List.mem_cons_self
  have hnone : s.blocks.find?
      (fun e => isCanonicalBlock id contract e ∧ e.1.number = r.block.number) = none := by
    cases hfind : s.blocks.find?
        (fun e => isCanonicalBlock id contract e ∧ e.1.number = r.block.number) with
    | none => rfl
    | some e => exact absurd ((h.find _).mp ⟨e, hfind⟩) (hwf.not_there h)
  have hparent : ∀ c ∈ checkpointAt s id contract,
      r.block.number = c.blockNumber + 1 ∧ r.block.parentHash = c.blockHash := by
    intro c hc
    rw [h.checkpoint] at hc
    obtain ⟨last, hlast, rfl⟩ := Option.map_eq_some_iff.mp hc
    exact hwf.parent hlast
  refine ⟨validateBlock_eq_ok.mpr ⟨(hwf.blocks r hr).1, (hwf.blocks r hr).2, fun target htarget =>
    (hwf.targets r hr target htarget).1, hwf.events r hr, hwf.block_keys, rfl⟩, fun c hc => ?_,
    admitBlock_of hnone hparent _⟩
  have hnumber := (hparent c hc).1
  omega

theorem record_of_table (h : Holds id contract s chain)
    (hwf : WellFormed id contract (chain ++ r :: rest)) {table : OrderedMap EventKey EventRow × Nat}
    (htable : (r.events.insertionSort suppliedOrder).foldlM
      (recordEvent id contract r.block.number) (s.events, 0) = .ok table) :
    ∃ s', step (.recordCanonicalBlock id contract r (s.leases.get? (id, contract))) s = .ok s' := by
  have hr : r ∈ chain ++ r :: rest := List.mem_append_right _ List.mem_cons_self
  obtain ⟨hsorted, hbeyond, blocks, hblocks⟩ := record_admitted h hwf
  have hrow : (advanceCheckpoint s.checkpoints id contract r.block).get? (id, contract) ≠ none := by
    intro hnot
    have hplace := advanceCheckpoint_beyond hbeyond
    rw [hnot] at hplace
    cases hplace
  have htarget : ∀ target ∈ r.syncTargetBlock, 0 ≤ target ∧ target ≤ Json.maxSafeInteger := by
    intro target hmem
    obtain ⟨hle, hsafe⟩ := hwf.targets r hr target hmem
    exact ⟨Int.le_trans (hwf.blocks r hr).1.1 hle, hsafe⟩
  obtain ⟨checkpoints, hcheckpoints⟩ := setSyncTarget_of htarget hrow
  exact ⟨_, step_record.mpr ⟨hwf.network, _, hsorted, rfl, blocks, hblocks, table, htable,
    checkpoints, hcheckpoints, rfl⟩⟩

theorem record_of_reusable (h : Holds id contract s chain)
    (hwf : WellFormed id contract (chain ++ r :: rest))
    (hreusable : ∀ e ∈ r.events, Reusable s.events id e) :
    ∃ s', step (.recordCanonicalBlock id contract r (s.leases.get? (id, contract))) s = .ok s' := by
  have hr : r ∈ chain ++ r :: rest := List.mem_append_right _ List.mem_cons_self
  have hperm := (List.perm_insertionSort suppliedOrder r.events).map (eventKey id)
  have hitems : ∀ e ∈ r.events.insertionSort suppliedOrder, Reusable (s.events, 0).1 id e ∧
      ∃ row, eventRow contract r.block.number e = .ok row := by
    intro e he
    rw [List.mem_insertionSort] at he
    obtain ⟨_, _, json, hjson⟩ := validateEvent_eq_ok (hwf.events r hr e he)
    exact ⟨hreusable e he, eventRow_of_fingerprint hjson contract r.block.number⟩
  obtain ⟨table, htable⟩ := recordEvents_of (hperm.nodup_iff.mpr hwf.block_keys) hitems
  exact record_of_table h hwf htable

/-- The next block is only refused for an event in conflict. -/
theorem record_refused (h : Holds id contract s chain)
    (hwf : WellFormed id contract (chain ++ r :: rest)) (hstored : Stored s.events) {e : String}
    (hs : step (.recordCanonicalBlock id contract r (s.leases.get? (id, contract))) s = .error e) :
    e = "CHAIN_EVENT_CONFLICT" := by
  have hr : r ∈ chain ++ r :: rest := List.mem_append_right _ List.mem_cons_self
  obtain ⟨hsorted, _, blocks, hblocks⟩ := record_admitted h hwf
  cases htable : (r.events.insertionSort suppliedOrder).foldlM
      (recordEvent id contract r.block.number) (s.events, 0) with
  | ok table =>
      obtain ⟨s', hs'⟩ := record_of_table h hwf htable
      rw [hs'] at hs
      cases hs
  | error e' =>
      rw [step_record_error hwf.network hsorted rfl hblocks htable] at hs
      obtain rfl := Except.error.inj hs
      refine recordEvents_refused hstored (fun item hitem => hwf.events r hr item ?_) htable
      exact (List.mem_insertionSort suppliedOrder).mp hitem

theorem record_iff (h : Holds id contract s chain)
    (hwf : WellFormed id contract (chain ++ r :: rest)) :
    (∃ s', step (.recordCanonicalBlock id contract r (s.leases.get? (id, contract))) s = .ok s') ↔
      ∀ e ∈ r.events, Reusable s.events id e := by
  refine ⟨fun ⟨s', hs⟩ e he => ?_, record_of_reusable h hwf⟩
  have hr : r ∈ chain ++ r :: rest := List.mem_append_right _ List.mem_cons_self
  rcases (record_entered hs).entered e he with hkept | hwritten
  · exact absurd hkept
      (h.not_kept (hwf.events r hr e he) (hwf.blocks r hr).1.1 (hwf.not_there h))
  · exact hwritten.1

/-! ## A chain of blocks -/

theorem recordChain_holds (h : Holds id contract s chain)
    (hwf : WellFormed id contract (chain ++ rest)) (hs : recordChain id contract rest s = .ok s') :
    Holds id contract s' (chain ++ rest) := by
  induction rest generalizing chain s with
  | nil =>
      rw [recordChain, Except.ok.injEq] at hs
      rw [List.append_nil, ← hs]
      exact h
  | cons r rest ih =>
      rw [recordChain, bind_eq_ok] at hs
      obtain ⟨next, hnext, hrest⟩ := hs
      have hholds := record_new h hnext (hwf.not_there h)
      rw [List.append_cons] at hwf ⊢
      exact ih hholds hwf hrest

theorem recordChain_iff (h : Holds id contract s chain)
    (hwf : WellFormed id contract (chain ++ rest)) :
    (∃ s', recordChain id contract rest s = .ok s') ↔
      ∀ r ∈ rest, ∀ e ∈ r.events, Reusable s.events id e := by
  induction rest generalizing chain s with
  | nil => exact iff_of_true ⟨s, rfl⟩ nofun
  | cons r rest ih =>
      -- The rows a later block meets are not those the first one writes.
      have hlater : ∀ next, step
            (.recordCanonicalBlock id contract r (s.leases.get? (id, contract))) s = .ok next →
          ((∃ s', recordChain id contract rest next = .ok s') ↔
            ∀ later ∈ rest, ∀ e ∈ later.events, Reusable s.events id e) := by
        intro next hnext
        rw [ih (record_new h hnext (hwf.not_there h)) (by rwa [← List.append_cons])]
        refine forall₂_congr fun later hin => forall₂_congr fun e he => ?_
        exact reusable_congr ((record_entered hnext).frame _ (hwf.later_keys hin he))
      rw [List.forall_mem_cons, ← record_iff h hwf]
      constructor
      · rintro ⟨s', hs'⟩
        rw [recordChain, bind_eq_ok] at hs'
        obtain ⟨next, hnext, hrest⟩ := hs'
        exact ⟨⟨next, hnext⟩, (hlater next hnext).mp ⟨s', hrest⟩⟩
      · rintro ⟨⟨next, hnext⟩, hreusable⟩
        obtain ⟨s', hrest⟩ := (hlater next hnext).mpr hreusable
        exact ⟨s', by rw [recordChain, hnext, ok_bind, hrest]⟩

theorem recordChain_refused (h : Holds id contract s chain)
    (hwf : WellFormed id contract (chain ++ rest)) (hstored : Stored s.events) {e : String}
    (hs : recordChain id contract rest s = .error e) : e = "CHAIN_EVENT_CONFLICT" := by
  induction rest generalizing chain s with
  | nil => cases hs
  | cons r rest ih =>
      rw [recordChain] at hs
      cases hnext : step (.recordCanonicalBlock id contract r (s.leases.get? (id, contract))) s with
      | error e' =>
          rw [hnext] at hs
          obtain rfl := Except.error.inj hs
          exact record_refused h hwf hstored hnext
      | ok next =>
          rw [hnext, ok_bind] at hs
          have hholds := record_new h hnext (hwf.not_there h)
          rw [List.append_cons] at hwf
          exact ih hholds hwf (step_stored hstored hnext) hs

theorem recordChain_conflict (h : Holds id contract s chain)
    (hwf : WellFormed id contract (chain ++ rest)) (hstored : Stored s.events)
    (hnot : ¬ ∀ r ∈ rest, ∀ e ∈ r.events, Reusable s.events id e) :
    recordChain id contract rest s = .error "CHAIN_EVENT_CONFLICT" := by
  cases hs : recordChain id contract rest s with
  | ok s' => exact absurd ((recordChain_iff h hwf).mp ⟨s', hs⟩) hnot
  | error e => rw [recordChain_refused h hwf hstored hs]

/-! ## Reading the chain back -/

instance : Std.Total eventOrder := ⟨fun a b => by unfold eventOrder; omega⟩

instance : IsTrans (EventKey × EventRow) eventOrder :=
  ⟨fun a b c hab hbc => by unfold eventOrder at *; omega⟩

theorem Holds.mem_rows (h : Holds id contract s chain) {e : EventKey × EventRow} :
    e ∈ s.events.filter (isCanonicalEvent id contract) ↔
      ∃ r ∈ chain, ∃ item ∈ r.events, e.1 = eventKey id item ∧
        eventRow contract r.block.number item = .ok e.2 := by
  rw [List.mem_filter, ← h.events e.1 e.2, ← OrderedMap.mem_iff_get? h.eventKeys]

/-- Two canonical rows in the same place are one row. -/
theorem eventOrder_antisymm (h : Holds id contract s chain) (hwf : WellFormed id contract chain)
    {a b : EventKey × EventRow} (ha : a ∈ s.events.filter (isCanonicalEvent id contract))
    (hb : b ∈ s.events.filter (isCanonicalEvent id contract)) (hab : eventOrder a b)
    (hba : eventOrder b a) : a = b := by
  obtain ⟨r, hr, e, he, hkey, hrow⟩ := h.mem_rows.mp ha
  obtain ⟨r', hr', e', he', hkey', hrow'⟩ := h.mem_rows.mp hb
  have hplace : a.2.blockNumber = b.2.blockNumber ∧ a.1.logIndex = b.1.logIndex := by
    unfold eventOrder at hab hba
    omega
  rw [(eventRow_eq_ok hrow).2.1, (eventRow_eq_ok hrow').2.1, hkey, hkey'] at hplace
  obtain rfl := number_unique h.increasing hr hr' hplace.1
  obtain rfl := List.inj_on_of_nodup_map (hwf.logIndexes r hr) he he' hplace.2
  rw [hrow, Except.ok.injEq] at hrow'
  exact Prod.ext (hkey.trans hkey'.symm) hrow'

theorem canonicalRows_eq (hs : Holds id contract s chain) (ht : Holds id contract t chain)
    (hwf : WellFormed id contract chain) :
    canonicalRows s id contract = canonicalRows t id contract := by
  have hsame : (s.events.filter (isCanonicalEvent id contract)).Perm
      (t.events.filter (isCanonicalEvent id contract)) := by
    refine (List.perm_ext_iff_of_nodup (hs.eventKeys.of_map.filter _)
      (ht.eventKeys.of_map.filter _)).mpr fun e => ?_
    rw [hs.mem_rows, ht.mem_rows]
  refine List.Perm.eq_of_pairwise (fun a b ha hb hab hba => ?_)
    (List.pairwise_insertionSort eventOrder _) (List.pairwise_insertionSort eventOrder _) ?_
  · rw [canonicalRows, List.mem_insertionSort] at ha hb
    exact eventOrder_antisymm hs hwf ha (hsame.mem_iff.mpr hb) hab hba
  · exact (List.perm_insertionSort _ _).trans (hsame.trans (List.perm_insertionSort _ _).symm)

/-! ## Forks -/

/-- After the calls the rest of the chain can be recorded, and the events are then those
of a store that only saw the chain. -/
def HistoryIndependent (id : Int) (contract : Address) (start : Store) (calls : List Call)
    (rest : List Recording) : Prop :=
  ∃ s' f', recordChain id contract rest (exec step start calls) = .ok s' ∧
    recordChain id contract (canonicalChain id contract (history step start calls) ++ rest) start =
      .ok f' ∧
    canonicalEvents s' id contract = canonicalEvents f' id contract

theorem reorg_history_independent_iff (leases : OrderedMap (Int × Address) String)
    (transactions : List OperationRow) (projections : List (Int × Address)) (calls : List Call)
    (hwf : WellFormed id contract (canonicalChain id contract
      (history step (fresh leases transactions projections) calls) ++ rest)) :
    (HistoryIndependent id contract (fresh leases transactions projections) calls rest ↔
      ∀ r ∈ rest, ∀ e ∈ r.events,
        Reusable (exec step (fresh leases transactions projections) calls).events id e) ∧
    ((¬ ∀ r ∈ rest, ∀ e ∈ r.events,
        Reusable (exec step (fresh leases transactions projections) calls).events id e) →
      recordChain id contract rest (exec step (fresh leases transactions projections) calls) =
        .error "CHAIN_EVENT_CONFLICT") := by
  have hholds : Holds id contract (exec step (fresh leases transactions projections) calls) _ :=
    run_holds leases transactions projections calls
  have hfresh : Holds id contract (fresh leases transactions projections) [] :=
    fresh_holds leases transactions projections
  refine ⟨?_, recordChain_conflict hholds hwf (run_stored leases transactions projections calls)⟩
  rw [← recordChain_iff hholds hwf]
  constructor
  · rintro ⟨s', _, hs', _⟩
    exact ⟨s', hs'⟩
  · rintro ⟨s', hs'⟩
    obtain ⟨f', hf'⟩ := (recordChain_iff hfresh hwf).mpr (fun _ _ _ _ _ hrow => nomatch hrow)
    have hchain := recordChain_holds hholds hwf hs'
    have hchain' := recordChain_holds hfresh hwf hf'
    have hrows := canonicalRows_eq hchain hchain' hwf
    have hid : chainId id = .ok id := chainId_eq_ok.mpr ⟨hwf.network, rfl⟩
    exact ⟨s', f', hs', hf', by rw [canonicalEvents, canonicalEvents, hid, ok_bind, ok_bind, hrows]⟩

/-! ## A transaction mined twice

A transaction with two logs is mined in block 100, the block is rolled back, and the
transaction is mined again in another block 100. -/

def depositLog (hash : Bytes32) (logIndex : Int) (data : HexData) : IndexedChainEvent :=
  { chainId := 46630, address := 7, blockNumber := 100, blockHash := hash, transactionHash := 77,
    transactionIndex := 0, logIndex, data, topics := [[1]], removed := false,
    eventSignature := [1], eventName := "Deposited",
    normalizedData := [("amountUsdc", .string "5")] }

def minedAt (hash : Bytes32) (first : Int) : Recording :=
  ⟨⟨100, hash, 99, 1000⟩, [depositLog hash first [1], depositLog hash (first + 1) [2]], none⟩

def forkCalls : List Call :=
  [.recordCanonicalBlock 46630 7 (minedAt 1 0) none, .rollbackFromBlock 46630 7 100 none]

theorem depositLog_fingerprint (hash : Bytes32) {logIndex : Int}
    (hlog : 0 ≤ logIndex ∧ logIndex ≤ 2) {data : HexData} (hdata : data = [1] ∨ data = [2]) :
    ∃ json, eventFingerprint (depositLog hash logIndex data) = .ok json := by
  obtain ⟨hlow, hhigh⟩ := hlog
  have hindex : (toString logIndex).length = 1 := by
    interval_cases logIndex <;> rfl
  have hbytes : Json.literalLength (hexDataText data) = 6 := by
    rcases hdata with rfl | rfl <;> rfl
  have hzero : (0 : Int) ≤ Json.maxSafeInteger := by decide
  have hsafe : (2 : Int) ≤ Json.maxSafeInteger := by decide
  refine fingerprint_of_size ⟨Int.le_refl 0, hzero⟩ ⟨hlow, Int.le_trans hhigh hsafe⟩ rfl ?_
  simp only [placeFields, payloadFields, depositLog, List.cons_append, List.nil_append,
    List.length_cons, List.length_nil, Json.byteLength, Json.fieldsLength, digestText, addressText,
    literalLength_hexText, hindex, hbytes]
  decide

theorem depositLog_valid (hash : Bytes32) {logIndex : Int} (hlog : 0 ≤ logIndex ∧ logIndex ≤ 2)
    {data : HexData} (hdata : data = [1] ∨ data = [2]) (first : Int) :
    validateEvent (depositLog hash logIndex data) 46630 7 (minedAt hash first).block = .ok () := by
  obtain ⟨json, hjson⟩ := depositLog_fingerprint hash hlog hdata
  have hzero : (0 : Int) ≤ Json.maxSafeInteger := by decide
  have hsafe : (2 : Int) ≤ Json.maxSafeInteger := by decide
  have hname : isName "Deposited" = true := by decide
  simp only [validateEvent, bind_eq_ok, check_eq_ok, pure_eq_ok]
  exact ⟨(), ⟨rfl, rfl, rfl, rfl, rfl, ⟨Int.le_refl 0, hzero⟩,
    ⟨hlog.1, Int.le_trans hlog.2 hsafe⟩, hname, rfl⟩, json, hjson, trivial⟩

theorem mem_minedAt {hash : Bytes32} {first : Int} {e : IndexedChainEvent} :
    e ∈ (minedAt hash first).events ↔
      e = depositLog hash first [1] ∨ e = depositLog hash (first + 1) [2] := by
  simp [minedAt]

theorem minedAt_wellFormed (hash : Bytes32) {first : Int} (hfirst : 0 ≤ first ∧ first ≤ 1) :
    WellFormed 46630 7 [minedAt hash first] := by
  refine ⟨by decide, ?_, ?_, List.isChain_singleton _, ?_, ?_, ?_⟩
  · simp [minedAt, Json.maxSafeInteger]
  · simp [minedAt]
  · simp only [List.forall_mem_singleton]
    intro e he
    rcases mem_minedAt.mp he with rfl | rfl
    · exact depositLog_valid hash ⟨hfirst.1, by omega⟩ (Or.inl rfl) first
    · exact depositLog_valid hash ⟨by omega, by omega⟩ (Or.inr rfl) first
  · simp [minedAt, depositLog]
  · simp [minedAt, depositLog, eventKey]

/-- After the fork nothing is canonical, and the rows of the first inclusion are there. -/
theorem fork_rows : canonicalChain 46630 7 (history step (fresh [] [] []) forkCalls) = [] ∧
    ∀ e ∈ (minedAt 1 0).events, ∃ row,
      (exec step (fresh [] [] []) forkCalls).events.get? (eventKey 46630 e) = some row ∧
        row.canonical = false ∧
        eventPayloadFingerprint (decodeEvent (eventKey 46630 e, row)) =
          eventPayloadFingerprint e := by
  have hfresh : Holds 46630 7 (fresh [] [] []) [] := fresh_holds [] [] []
  have hwf : WellFormed 46630 7 [minedAt 1 0] := minedAt_wellFormed 1 (by decide)
  obtain ⟨s₁, hrecord⟩ : ∃ s₁,
      step (.recordCanonicalBlock 46630 7 (minedAt 1 0) none) (fresh [] [] []) = .ok s₁ :=
    record_of_reusable hfresh hwf (fun _ _ _ hrow => nomatch hrow)
  have hholds : Holds 46630 7 s₁ [minedAt 1 0] := record_new hfresh hrecord nofun
  have hleases : s₁.leases = [] := step_leases hrecord
  obtain ⟨s₂, hrollback⟩ : ∃ s₂, step (.rollbackFromBlock 46630 7 100 none) s₁ = .ok s₂ :=
    step_rollback_of (by decide) (by decide) (by rw [hleases]; rfl)
  have hexec : exec step (fresh [] [] []) forkCalls = s₂ := by
    rw [forkCalls, exec_cons, apply_ok hrecord, exec_cons, apply_ok hrollback]
    rfl
  have hchain : canonicalChain 46630 7 (history step (fresh [] [] []) forkCalls) = [] := by
    simp only [forkCalls, history, hrecord, hrollback]
    rfl
  rw [hexec]
  obtain ⟨_, hevents, _⟩ := step_rollback hrollback
  refine ⟨hchain, fun e he => ?_⟩
  have hvalid := hwf.events _ List.mem_cons_self e he
  obtain ⟨_, _, json, hjson⟩ := validateEvent_eq_ok hvalid
  obtain ⟨row, hrow⟩ := eventRow_of_fingerprint hjson 7 100
  obtain ⟨hget, hcanonical⟩ := (hholds.events (eventKey 46630 e) row).mpr
    ⟨_, List.mem_cons_self, e, he, rfl, hrow⟩
  have hnumber := (eventRow_eq_ok hrow).2.1
  refine ⟨{ row with canonical := false }, ?_, rfl, (decodeEvent_fingerprint hvalid hrow false).2⟩
  rw [hevents]
  exact orphanEvents_displaced hget ⟨hcanonical, Int.le_of_eq hnumber.symm⟩

/-- Mined again with its logs at the same indexes. -/
theorem same_logs_independent :
    WellFormed 46630 7
        (canonicalChain 46630 7 (history step (fresh [] [] []) forkCalls) ++ [minedAt 2 0]) ∧
      HistoryIndependent 46630 7 (fresh [] [] []) forkCalls [minedAt 2 0] := by
  obtain ⟨hchain, hrows⟩ := fork_rows
  have hwf : WellFormed 46630 7
      (canonicalChain 46630 7 (history step (fresh [] [] []) forkCalls) ++ [minedAt 2 0]) := by
    rw [hchain]
    exact minedAt_wellFormed 2 (by decide)
  refine ⟨hwf, (reorg_history_independent_iff [] [] [] forkCalls hwf).1.mpr
    fun r hr e he row hrow => ?_⟩
  rw [List.mem_singleton.mp hr] at he
  obtain ⟨_, _, json, hjson⟩ := validateEvent_eq_ok
    ((minedAt_wellFormed 2 (by decide)).events _ List.mem_cons_self e he)
  obtain ⟨payload, hpayload⟩ := payload_fingerprint hjson
  -- The log of the first inclusion at the same index has the same payload.
  obtain ⟨first, hfirst, hkey, hsame⟩ : ∃ first ∈ (minedAt 1 0).events,
      eventKey 46630 first = eventKey 46630 e ∧
        eventPayloadFingerprint first = eventPayloadFingerprint e := by
    rcases mem_minedAt.mp he with rfl | rfl
    · exact ⟨depositLog 1 0 [1], mem_minedAt.mpr (Or.inl rfl), rfl, rfl⟩
    · exact ⟨depositLog 1 1 [2], mem_minedAt.mpr (Or.inr rfl), rfl, rfl⟩
  obtain ⟨row', hrow', horphan, hread⟩ := hrows first hfirst
  rw [hkey] at hrow' hread
  obtain rfl := Option.some.inj (hrow.symm.trans hrow')
  exact ⟨horphan, payload, by rw [hread, hsame, hpayload], hpayload⟩

/-- Mined again with its logs one index later: the first log meets the row of what was
the second. -/
theorem shifted_logs_conflict :
    WellFormed 46630 7
        (canonicalChain 46630 7 (history step (fresh [] [] []) forkCalls) ++ [minedAt 2 1]) ∧
      recordChain 46630 7 [minedAt 2 1] (exec step (fresh [] [] []) forkCalls) =
        .error "CHAIN_EVENT_CONFLICT" ∧
      ¬ HistoryIndependent 46630 7 (fresh [] [] []) forkCalls [minedAt 2 1] := by
  obtain ⟨hchain, hrows⟩ := fork_rows
  have hholds : Holds 46630 7 (exec step (fresh [] [] []) forkCalls) _ :=
    run_holds [] [] [] forkCalls
  rw [hchain] at hholds ⊢
  have hwf : WellFormed 46630 7 [minedAt 2 1] := minedAt_wellFormed 2 (by decide)
  have hnot : ¬ ∀ r ∈ [minedAt 2 1], ∀ e ∈ r.events,
      Reusable (exec step (fresh [] [] []) forkCalls).events 46630 e := by
    intro hreusable
    obtain ⟨row, hrow, _, hread⟩ := hrows (depositLog 1 1 [2]) (mem_minedAt.mpr (Or.inr rfl))
    obtain ⟨_, payload, hstored, hsupplied⟩ := hreusable _ List.mem_cons_self
      (depositLog 2 1 [1]) (mem_minedAt.mpr (Or.inl rfl)) row hrow
    have hdata := same_field (f := payloadFields) (a := depositLog 1 1 [2])
      ⟨payload, hread.symm.trans hstored, hsupplied⟩ (payload_keys _) (k := "data")
      (v := .string (hexDataText [2])) (w := .string (hexDataText [1]))
      (by simp [payloadFields, depositLog]) (by simp [payloadFields, depositLog])
    revert hdata
    decide
  have hconflict := recordChain_conflict hholds hwf (run_stored [] [] [] forkCalls) hnot
  refine ⟨hwf, hconflict, ?_⟩
  rintro ⟨_, _, hok, _⟩
  rw [hconflict] at hok
  cases hok

end ChainStore
end AlphaForge
