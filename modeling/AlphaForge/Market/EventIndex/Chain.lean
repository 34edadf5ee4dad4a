/-
The chain that the event index holds.

The canonical block rows are the blocks of one chain from the deployment block to
the cursor, and the canonical event rows and discovered addresses name blocks of
it.  A rewind keeps the lower part of the chain, and a scan puts the blocks whose
links it checked on top.  The answers may come from forks that change between two
requests: all that is used of them is that a hash belongs to one block.
-/
import AlphaForge.Data.LinkedChain
import AlphaForge.Market.EventIndex

namespace AlphaForge
namespace EventIndex

open Evm Market
open LinkedChain (Linked)

/-- The blocks that exist, of which a hash names one. -/
structure BlockTree where
  genuine : IndexBlock → Prop
  unique : ∀ b c, genuine b → genuine c → b.hash = c.hash → b = c

abbrev LinkedBlocks (chain : List IndexBlock) : Prop :=
  Linked IndexBlock.number IndexBlock.hash IndexBlock.parentHash chain

/-- A place is that of a block. -/
def At (number : Nat) (hash : Bytes32) (b : IndexBlock) : Prop := b.number = number ∧ b.hash = hash

/-- The block rows, of which the canonical ones are those of the chain. -/
structure BlockRows (t : BlockTree) (table : OrderedMap (Nat × Bytes32) BlockRow)
    (chain : List IndexBlock) : Prop where
  keys : table.keys.Nodup
  genuine : ∀ n h row, table.get? (n, h) = some row → t.genuine ⟨n, h, row.parentHash, row.timestamp⟩
  canonical : ∀ n h, (∃ row, table.get? (n, h) = some row ∧ row.canonical = true) ↔
    ∃ b ∈ chain, At n h b

/-- A row about a block that exists, canonical only if the block is in the chain. -/
def Placed (t : BlockTree) (chain : List IndexBlock) (number : Nat) (hash : Bytes32)
    (canonical : Bool) : Prop :=
  (∃ b, t.genuine b ∧ At number hash b) ∧ (canonical = true → ∃ b ∈ chain, At number hash b)

structure ChainOf (t : BlockTree) (m : Manifest) (s : Index) (chain : List IndexBlock) : Prop where
  linked : LinkedBlocks chain
  bottom : ∀ b ∈ chain.getLast?, b.number = m.deploymentBlock
  genuine : ∀ b ∈ chain, t.genuine b
  blocks : BlockRows t s.blocks chain
  cursor : s.cursorRow = chain.head?.map (fun b => (b.number, b.hash))
  events : ∀ key row, s.events.get? key = some row →
    Placed t chain row.blockNumber key.blockHash row.canonical
  watch : ∀ a h row, s.watch.get? (a, some h) = some row →
    Placed t chain row.number h row.canonical

section

variable {t : BlockTree} {m : Manifest} {c : Config} {s : Index} {chain : List IndexBlock}

/-! ## Reading the chain -/

/-- The row of a block of the chain tells the block. -/
theorem ChainOf.row_of_mem (h : ChainOf t m s chain) {b : IndexBlock} (hb : b ∈ chain) :
    ∃ row, s.blocks.get? (b.number, b.hash) = some row ∧ row.canonical = true ∧
      b = ⟨b.number, b.hash, row.parentHash, row.timestamp⟩ := by
  obtain ⟨row, hrow, hcanonical⟩ := (h.blocks.canonical b.number b.hash).mpr ⟨b, hb, rfl, rfl⟩
  exact ⟨row, hrow, hcanonical,
    t.unique _ _ (h.genuine b hb) (h.blocks.genuine _ _ row hrow) rfl⟩

theorem ChainOf.cursor_eq (h : ChainOf t m s chain) : s.cursor = chain.head? := by
  rw [Index.cursor, h.cursor]
  cases hchain : chain with
  | nil => rfl
  | cons b rest =>
      obtain ⟨row, hrow, hcanonical, hb⟩ := h.row_of_mem (b := b) (by simp [hchain])
      simp only [List.head?_cons, Option.map_some, Option.bind_some, hrow, hcanonical, if_true]
      rw [← hb]

theorem ChainOf.canonicalAt (h : ChainOf t m s chain) {n : Nat} {hash : Bytes32}
    (hat : s.canonicalAt n = some hash) : ∃ b ∈ chain, At n hash b := by
  obtain ⟨e, he, rfl⟩ := Option.map_eq_some_iff.mp hat
  have hmem := List.mem_of_find?_eq_some he
  have hfound := List.find?_some he
  simp only [decide_eq_true_eq] at hfound
  have hget := (OrderedMap.mem_iff_get? h.blocks.keys).mp hmem
  rw [← hfound.1]
  exact (h.blocks.canonical e.1.1 e.1.2).mp ⟨e.2, hget, hfound.2⟩

/-- The chain starts at the deployment block. -/
theorem ChainOf.deployment_le (h : ChainOf t m s chain) {b : IndexBlock} (hb : b ∈ chain) :
    m.deploymentBlock ≤ b.number := by
  obtain ⟨low, hlow⟩ : ∃ low, chain.getLast? = some low :=
    ⟨_, List.getLast?_eq_some_getLast (List.ne_nil_of_mem hb)⟩
  rw [← h.bottom low hlow]
  exact h.linked.ge_last hb hlow

/-! ## A new database -/

theorem watch_eq_ok {target : Address} {kind : WatchKind} {strategy : Option StrategyId}
    {height : Nat} {blockHash : Option Bytes32} {table table' : WatchTable}
    (h : EventIndex.watch target kind strategy height blockHash table = .ok table') :
    target ≠ 0 ∧ ∃ row, table' = table.set (target, blockHash) row ∧ row.canonical = true ∧
      row.strategy = strategy ∧ row.kind = kind ∧
      (table.get? (target, blockHash) = none → row.number = height) ∧
      ∀ old, table.get? (target, blockHash) = some old → row.number = old.number := by
  simp only [EventIndex.watch, bind_eq_ok, address_eq_ok, pure_eq_ok] at h
  obtain ⟨_, ⟨hne, rfl⟩, rfl⟩ := h
  refine ⟨hne, _, rfl, ?_⟩
  cases table.get? (target, blockHash) <;> simp

/-- The rows a database starts with name no block. -/
def NoBlocks (table : WatchTable) : Prop := ∀ a h, table.get? (a, some h) = none

theorem watch_noBlocks {target : Address} {kind : WatchKind} {strategy : Option StrategyId}
    {height : Nat} {table table' : WatchTable} (hs : NoBlocks table)
    (h : EventIndex.watch target kind strategy height none table = .ok table') :
    NoBlocks table' := by
  obtain ⟨_, row, rfl, _⟩ := watch_eq_ok h
  intro a hash
  rw [OrderedMap.get?_set_of_ne (by simp)]
  exact hs a hash

theorem create_noBlocks (h : staticWatch m = .ok table) : NoBlocks table := by
  simp only [staticWatch, bind_eq_ok] at h
  obtain ⟨keys, hkeys, tsla, htsla, tslaPool, htslaPool, amzn, hamzn, hamznPool⟩ := h
  have hloop : ∀ {kind : WatchKind} {strategy : Address → Option StrategyId}
      {targets : List Address} {table table' : WatchTable}, NoBlocks table →
      targets.foldlM (fun table target =>
        EventIndex.watch target kind (strategy target) m.deploymentBlock none table) table =
          .ok table' → NoBlocks table' := by
    intro kind strategy targets table table' htable hfold
    exact foldlM_keeps (fun x item _ y hx hy => watch_noBlocks hx hy) htable hfold
  have hstart : NoBlocks ([] : WatchTable) := fun _ _ => rfl
  exact hloop (watch_noBlocks (hloop (watch_noBlocks (hloop hstart hkeys) htsla) htslaPool) hamzn)
    hamznPool

theorem create_chainOf (t : BlockTree) (h : Index.create m = .ok s) : ChainOf t m s [] := by
  simp only [Index.create, bind_eq_ok, pure_eq_ok] at h
  obtain ⟨table, htable, rfl⟩ := h
  have hrows : BlockRows t [] [] := by
    refine ⟨List.nodup_nil, ?_, ?_⟩
    · intro n h row hrow
      cases hrow
    · intro n h
      simp [OrderedMap.get?]
  refine ⟨List.IsChain.nil, ?_, ?_, hrows, rfl, ?_, ?_⟩
  · intro b hb
    cases hb
  · intro b hb
    cases hb
  · intro key row hrow
    cases hrow
  · intro a h row hrow
    rw [create_noBlocks htable a h] at hrow
    cases hrow

/-! ## Rewinding -/

theorem BlockRows.below {table : OrderedMap (Nat × Bytes32) BlockRow} (h : BlockRows t table chain)
    (start : Nat) :
    BlockRows t (table.mapValues fun key row =>
        if start ≤ key.1 then { row with canonical := false } else row)
      (chain.filter (fun b => b.number < start)) := by
  refine ⟨?_, ?_, ?_⟩
  · rw [OrderedMap.keys_mapValues]
    exact h.keys
  · intro n hash row hrow
    rw [OrderedMap.get?_mapValues] at hrow
    obtain ⟨old, hold, rfl⟩ := Option.map_eq_some_iff.mp hrow
    have hgenuine := h.genuine n hash old hold
    split <;> exact hgenuine
  · intro n hash
    have hiff := h.canonical n hash
    constructor
    · rintro ⟨row, hrow, hcanonical⟩
      obtain ⟨hold, hflag, hstart⟩ := (OrderedMap.get?_clear BlockRow.canonical (fun _ => rfl)
        (fun (key : Nat × Bytes32) (_ : BlockRow) => start ≤ key.1) table).mp ⟨hrow, hcanonical⟩
      obtain ⟨b, hb, hat⟩ := hiff.mp ⟨row, hold, hflag⟩
      refine ⟨b, List.mem_filter.mpr ⟨hb, ?_⟩, hat⟩
      have := hat.1
      simp only [decide_eq_true_eq]
      omega
    · rintro ⟨b, hb, hat⟩
      obtain ⟨hmem, hlt⟩ := List.mem_filter.mp hb
      simp only [decide_eq_true_eq] at hlt
      obtain ⟨row, hrow, hcanonical⟩ := hiff.mpr ⟨b, hmem, hat⟩
      refine ⟨row, (OrderedMap.get?_clear BlockRow.canonical (fun _ => rfl)
        (fun (key : Nat × Bytes32) (_ : BlockRow) => start ≤ key.1) table).mpr
          ⟨hrow, hcanonical, ?_⟩⟩
      have := hat.1
      omega

/-- A row that a rewind may have cleared. -/
theorem Placed.below {number : Nat} {hash : Bytes32} {canonical canonical' : Bool} {start : Nat}
    (h : Placed t chain number hash canonical)
    (hkept : canonical' = true → canonical = true ∧ number < start) :
    Placed t (chain.filter (fun b => b.number < start)) number hash canonical' := by
  refine ⟨h.1, fun hcanonical => ?_⟩
  obtain ⟨hold, hlt⟩ := hkept hcanonical
  obtain ⟨b, hb, hat⟩ := h.2 hold
  refine ⟨b, List.mem_filter.mpr ⟨hb, ?_⟩, hat⟩
  have := hat.1
  simp only [decide_eq_true_eq]
  omega

/-- Where a rewind of this chain may start. -/
def RewindsTo (m : Manifest) (chain : List IndexBlock) (start : Nat)
    (ancestor : Option IndexBlock) : Prop :=
  (ancestor = none ∧ start = m.deploymentBlock) ∨
    ∃ b ∈ chain, start = b.number + 1 ∧ ∃ remote, ancestor = some remote ∧ At b.number b.hash remote

theorem rewound_chainOf (h : ChainOf t m s chain) {start : Nat} {ancestor : Option IndexBlock}
    (hto : RewindsTo m chain start ancestor) :
    ChainOf t m (s.rewound start ancestor) (chain.filter (fun b => b.number < start)) := by
  refine ⟨h.linked.below start, fun b hb => h.bottom b (h.linked.below_getLast? start b hb),
    fun b hb => h.genuine b (List.mem_filter.mp hb).1, h.blocks.below start, ?_, ?_, ?_⟩
  · rcases hto with ⟨rfl, rfl⟩ | ⟨b, hb, rfl, remote, rfl, hnumber, hhash⟩
    · have hempty : chain.filter (fun b => b.number < m.deploymentBlock) = [] := by
        rw [List.filter_eq_nil_iff]
        intro b hb
        have := h.deployment_le hb
        simp only [decide_eq_true_eq]
        omega
      rw [hempty]
      rfl
    · rw [h.linked.below_head? hb]
      simp only [Index.rewound, Option.map_some, hnumber, hhash]
  · intro key row hrow
    simp only [Index.rewound, OrderedMap.get?_mapValues] at hrow
    obtain ⟨old, hold, rfl⟩ := Option.map_eq_some_iff.mp hrow
    by_cases hstart : start ≤ old.blockNumber
    · simp only [if_pos hstart]
      exact (h.events key old hold).below (fun hfalse => by cases hfalse)
    · simp only [if_neg hstart]
      exact (h.events key old hold).below (fun hcanonical => ⟨hcanonical, by omega⟩)
  · intro a hash row hrow
    simp only [Index.rewound, OrderedMap.get?_mapValues] at hrow
    obtain ⟨old, hold, rfl⟩ := Option.map_eq_some_iff.mp hrow
    by_cases hstart : start ≤ old.number
    · rw [if_pos ⟨hstart, by simp⟩]
      exact (h.watch a hash old hold).below (fun hfalse => by cases hfalse)
    · rw [if_neg (fun hboth => hstart hboth.1)]
      exact (h.watch a hash old hold).below (fun hcanonical => ⟨hcanonical, by omega⟩)

theorem header_eq_ok {answer : Nat → Except String IndexBlock} {height : Nat} {b : IndexBlock} :
    header answer height = .ok b ↔ answer height = .ok b ∧ b.number = height ∧
      b.number ≤ maxSafeInteger ∧ b.timestamp ≤ maxSafeInteger := by
  simp only [header, block, bind_eq_ok, ensure_eq_ok, pure_eq_ok]
  constructor
  · rintro ⟨raw, hraw, _, ⟨_, hrange, rfl⟩, _, hnumber, rfl⟩
    exact ⟨hraw, hnumber, hrange⟩
  · rintro ⟨hraw, hnumber, hrange⟩
    exact ⟨b, hraw, b, ⟨(), hrange, rfl⟩, (), hnumber, rfl⟩

theorem findAncestor_sound (h : ChainOf t m s chain) {answer : Nat → Except String IndexBlock}
    {head cursor : Nat} {offsets : List Nat} {ancestor : IndexBlock}
    (hfound : findAncestor m s answer head cursor offsets = .ok (some ancestor)) :
    ∃ b ∈ chain, At b.number b.hash ancestor := by
  induction offsets with
  | nil => cases hfound
  | cons offset rest ih =>
      rw [findAncestor] at hfound
      split at hfound
      · cases hfound
      · split at hfound
        · exact ih hfound
        · split at hfound
          · exact ih hfound
          · next hash hat =>
              rw [bind_eq_ok] at hfound
              obtain ⟨remote, hremote, hrest⟩ := hfound
              split at hrest
              · next hhash =>
                  cases hrest
                  obtain ⟨b, hb, hnumber, hbhash⟩ := h.canonicalAt hat
                  refine ⟨b, hb, ?_, hhash.trans hbhash.symm⟩
                  exact (header_eq_ok.mp hremote).2.1.trans hnumber.symm
              · exact ih hrest

theorem rewindFrom_sound (h : ChainOf t m s chain) {answer : Nat → Except String IndexBlock}
    {head : IndexBlock} {start : Nat} {ancestor : Option IndexBlock}
    (hfrom : rewindFrom m s answer head = .ok (some (start, ancestor))) :
    RewindsTo m chain start ancestor := by
  unfold rewindFrom at hfrom
  split at hfrom
  · cases hfrom
  · next cursor hcursor =>
      rw [bind_eq_ok] at hfrom
      obtain ⟨stands, _, hfrom⟩ := hfrom
      split at hfrom
      · cases hfrom
      · simp only [bind_eq_ok, pure_eq_ok] at hfrom
        obtain ⟨found, hfound, _, _, heq⟩ := hfrom
        cases heq
        cases ancestor with
        | none => exact Or.inl ⟨rfl, rfl⟩
        | some remote =>
            obtain ⟨b, hb, hat⟩ := findAncestor_sound h hfound
            refine Or.inr ⟨b, hb, ?_, remote, rfl, hat⟩
            show remote.number + 1 = b.number + 1
            rw [hat.1]

/-! ## Scanning -/

theorem decodeParsed_eq_ok {table : WatchTable} {header : IndexBlock} {head : Nat} {raw : RawLog}
    {parsed : ParsedLog} {event : IndexedMarketEvent} :
    decodeParsed c table header head raw parsed = .ok event ↔ raw.address ≠ 0 ∧
      ∃ strategyId,
        attribution c.manifest table raw.address parsed.name parsed.fields = .ok strategyId ∧
        event = { name := parsed.name, emitter := raw.address, strategyId, fields := parsed.fields,
                  timestamp := header.timestamp,
                  location :=
                    { chainId := c.manifest.chainId, blockNumber := raw.blockNumber,
                      blockHash := header.hash, transactionHash := some raw.transactionHash,
                      logIndex := some raw.logIndex, version := 0,
                      confirmations := (head : Int) - raw.blockNumber + 1 } } := by
  simp only [decodeParsed, bind_eq_ok, address_eq_ok, pure_eq_ok]
  constructor
  · rintro ⟨_, ⟨hne, rfl⟩, strategyId, hstrategy, rfl⟩
    exact ⟨hne, strategyId, hstrategy, rfl⟩
  · rintro ⟨hne, strategyId, hstrategy, rfl⟩
    exact ⟨_, ⟨hne, rfl⟩, strategyId, hstrategy, rfl⟩

/-- A log is taken only in the block of its height among those scanned. -/
theorem decode_eq_ok {table : WatchTable} {headers : List IndexBlock} {head : Nat} {raw : RawLog}
    {result : Option IndexedMarketEvent} :
    decode c table headers head raw = .ok result ↔ ∃ header,
      headers.find? (fun b => b.number = raw.blockNumber) = some header ∧
      (raw.blockHash = header.hash ∧ raw.removed = false ∧ raw.logIndex ≤ maxSafeInteger) ∧
      ((c.parseLog raw.topics raw.data = none ∧ result = none) ∨
        ∃ parsed event, c.parseLog raw.topics raw.data = some parsed ∧ result = some event ∧
          decodeParsed c table header head raw parsed = .ok event) := by
  unfold decode
  cases headers.find? (fun b => b.number = raw.blockNumber) with
  | none => simp
  | some header =>
      simp only [bind_eq_ok, ensure_eq_ok, Option.some.injEq, exists_eq_left']
      cases c.parseLog raw.topics raw.data with
      | none =>
          simp only [pure_eq_ok, reduceCtorEq, false_and, exists_false, or_false, true_and,
            exists_and_left, exists_const]
          exact and_congr_right fun _ => eq_comm
      | some parsed =>
          simp only [bind_eq_ok, pure_eq_ok, reduceCtorEq, false_and, false_or,
            Option.some.injEq, exists_eq_left', exists_and_left, exists_const]
          refine and_congr_right fun _ => ?_
          constructor
          · rintro ⟨event, hevent, rfl⟩
            exact ⟨event, rfl, hevent⟩
          · rintro ⟨event, rfl, hevent⟩
            exact ⟨event, hevent, rfl⟩

theorem decode_place {table : WatchTable} {headers : List IndexBlock} {head : Nat} {raw : RawLog}
    {event : IndexedMarketEvent} (h : decode c table headers head raw = .ok (some event)) :
    ∃ b ∈ headers, At event.location.blockNumber event.location.blockHash b := by
  obtain ⟨header, hfind, _, ⟨_, hnone⟩ | ⟨parsed, event', _, hsome, hparsed⟩⟩ := decode_eq_ok.mp h
  · cases hnone
  · cases hsome
    obtain ⟨_, strategyId, _, rfl⟩ := decodeParsed_eq_ok.mp hparsed
    refine ⟨header, List.mem_of_find?_eq_some hfind, ?_, rfl⟩
    exact of_decide_eq_true (List.find?_some (p := fun b : IndexBlock =>
      decide (b.number = raw.blockNumber)) hfind)

theorem dynamicOf_event {a : ScanAnswers} {until_ : Nat} {event : IndexedMarketEvent}
    {items : List Dynamic} (h : dynamicOf a until_ event = .ok items) :
    ∀ item ∈ items, item.event = event := by
  unfold dynamicOf at h
  split at h
  · simp only [bind_eq_ok, pure_eq_ok] at h
    obtain ⟨target, _, rfl⟩ := h
    intro item hitem
    rw [List.mem_singleton.mp hitem]
  · simp only [bind_eq_ok, pure_eq_ok] at h
    obtain ⟨target, _, _, _, locker, _, stock, _, rfl⟩ := h
    intro item hitem
    simp only [List.mem_cons, List.not_mem_nil, or_false] at hitem
    rcases hitem with rfl | rfl | rfl <;> rfl
  · cases h
    intro item hitem
    cases hitem

theorem discovery_eq_ok {table : WatchTable} {headers : List IndexBlock} {head : Nat}
    {raw : RawLog} {event : IndexedMarketEvent}
    (h : discovery c table headers head raw = .ok (some event)) :
    raw.address ∈ discoveryTargets c.manifest ∧
      decode c table headers head raw = .ok (some event) ∧
      isDiscovery c.manifest event = .ok true := by
  simp only [discovery, bind_eq_ok, address_eq_ok, ensure_eq_ok] at h
  obtain ⟨_, ⟨_, rfl⟩, _, htarget, decoded, hdecoded, h⟩ := h
  refine ⟨htarget, ?_⟩
  cases decoded with
  | none => cases h
  | some found =>
      simp only [bind_eq_ok, pure_eq_ok] at h
      obtain ⟨known, hknown, hevent⟩ := h
      cases known with
      | false => cases hevent
      | true =>
          cases hevent
          exact ⟨hdecoded, hknown⟩

/-- What a scan gathered. -/
structure Gathered (c : Config) (s : Index) (a : ScanAnswers) (start until_ head : Nat)
    (batch : Batch) : Prop where
  headers : scanHeaders a.header start until_ = .ok batch.headers
  links : checkLinks s.cursor batch.headers = .ok ()
  dynamic : ∃ raw found items,
    a.discoveryLogs (discoveryTargets c.manifest) start until_ = .ok raw ∧
    raw.mapM (discovery c s.watch batch.headers head) = .ok found ∧
    (found.filterMap id).mapM (dynamicOf a until_) = .ok items ∧ batch.dynamic = items.flatten
  targets : ∃ known, batch.dynamic.mapM (fun item => address item.target) = .ok known ∧
    a.logs (canonicalAddresses s.watch ++ known).eraseDups start until_ = .ok batch.rawEvents
  again : ∃ remote, header a.headerAgain until_ = .ok remote ∧
    ∀ b ∈ batch.headers.getLast?, remote.hash = b.hash

theorem gather_eq_ok {a : ScanAnswers} {start until_ head : Nat} {batch : Batch}
    (h : gather c s a start until_ head = .ok batch) : Gathered c s a start until_ head batch := by
  simp only [gather, rows, bind_eq_ok, ensure_eq_ok, pure_eq_ok] at h
  obtain ⟨headers, hheaders, _, hlinks, raw, hraw, _, ⟨_, _, rfl⟩, found, hfound, items, hitems,
    known, hknown, events, hevents, _, ⟨_, _, rfl⟩, _, _, remote, hremote, _, hagain, rfl⟩ := h
  exact ⟨hheaders, hlinks, ⟨_, found, items, hraw, hfound, hitems, rfl⟩, ⟨known, hknown, hevents⟩,
    ⟨remote, hremote, hagain⟩⟩

theorem Gathered.item_place {a : ScanAnswers} {start until_ head : Nat} {batch : Batch}
    (h : Gathered c s a start until_ head batch) {item : Dynamic} (hitem : item ∈ batch.dynamic) :
    ∃ b ∈ batch.headers,
      At item.event.location.blockNumber item.event.location.blockHash b := by
  obtain ⟨raw, found, items, _, hfound, hitems, hdynamic⟩ := h.dynamic
  rw [hdynamic] at hitem
  obtain ⟨group, hgroup, hin⟩ := List.mem_flatten.mp hitem
  obtain ⟨event, hevent, hof⟩ := mapM_mem hitems hgroup
  rw [dynamicOf_event hof item hin]
  obtain ⟨_, hmem, rfl⟩ := List.mem_filterMap.mp hevent
  obtain ⟨log, _, hlog⟩ := mapM_mem hfound hmem
  exact decode_place (discovery_eq_ok hlog).2.1

theorem scanHeaders_numbers {answer : Nat → Except String IndexBlock} {start until_ : Nat}
    {headers : List IndexBlock} (h : scanHeaders answer start until_ = .ok headers) :
    headers.map IndexBlock.number = List.range' start headers.length := by
  have hnumbers := mapM_map_eq (fun n b hb => (header_eq_ok.mp hb).2.1) h
  rw [hnumbers, mapM_length h, List.length_range']

/-- The headers of a scan follow each other and the block before them. -/
theorem checkLinks_follows {previous : Option IndexBlock} {headers : List IndexBlock} {start : Nat}
    (hlinks : checkLinks previous headers = .ok ())
    (hnumbers : headers.map IndexBlock.number = List.range' start headers.length) :
    headers.IsChain (fun below b =>
      LinkedChain.Follows IndexBlock.number IndexBlock.hash IndexBlock.parentHash b below) ∧
    ∀ b ∈ headers.head?, b.number = start ∧ ∀ p ∈ previous, b.parentHash = p.hash := by
  induction headers generalizing previous start with
  | nil => exact ⟨List.IsChain.nil, fun b hb => by cases hb⟩
  | cons current rest ih =>
      simp only [checkLinks, bind_eq_ok, ensure_eq_ok] at hlinks
      obtain ⟨_, hparent, hrest⟩ := hlinks
      rw [List.map_cons, List.length_cons, List.range'_succ, List.cons.injEq] at hnumbers
      obtain ⟨hchain, hhead⟩ := ih hrest hnumbers.2
      refine ⟨hchain.cons fun b hb => ?_, ?_⟩
      · obtain ⟨hnumber, hlink⟩ := hhead b hb
        refine ⟨?_, hlink current rfl⟩
        rw [hnumber, hnumbers.1]
      · intro b hb
        cases hb
        exact ⟨hnumbers.1, hparent⟩

theorem insertBlock_rows {table table' : OrderedMap (Nat × Bytes32) BlockRow} {b : IndexBlock}
    (h : BlockRows t table chain) (hb : t.genuine b) (hinsert : insertBlock table b = .ok table') :
    BlockRows t table' (b :: chain) := by
  simp only [insertBlock, bind_eq_ok, pure_eq_ok] at hinsert
  obtain ⟨_, _, rfl⟩ := hinsert
  refine ⟨OrderedMap.nodup_keys_set h.keys, ?_, ?_⟩
  · intro n hash row hrow
    rw [OrderedMap.get?_set] at hrow
    split at hrow
    · next hkey =>
        cases hkey
        cases hold : table.get? (b.number, b.hash) with
        | none =>
            rw [hold, Option.some.injEq] at hrow
            subst hrow
            exact hb
        | some old =>
            rw [hold, Option.some.injEq] at hrow
            subst hrow
            exact h.genuine _ _ old hold
    · exact h.genuine n hash row hrow
  · intro n hash
    rw [OrderedMap.get?_set]
    by_cases hkey : (n, hash) = (b.number, b.hash)
    · cases hkey
      rw [if_pos rfl]
      refine iff_of_true ⟨_, rfl, ?_⟩ ⟨b, List.mem_cons_self, rfl, rfl⟩
      cases table.get? (b.number, b.hash) <;> rfl
    · rw [if_neg hkey, h.canonical n hash]
      constructor
      · rintro ⟨x, hx, hat⟩
        exact ⟨x, List.mem_cons_of_mem b hx, hat⟩
      · rintro ⟨x, hx, hat⟩
        rcases List.mem_cons.mp hx with rfl | hx
        · exact absurd (Prod.ext hat.1.symm hat.2.symm) hkey
        · exact ⟨x, hx, hat⟩

theorem insertBlocks_rows {headers : List IndexBlock}
    {table table' : OrderedMap (Nat × Bytes32) BlockRow} (h : BlockRows t table chain)
    (hgenuine : ∀ b ∈ headers, t.genuine b)
    (hinsert : headers.foldlM insertBlock table = .ok table') :
    BlockRows t table' (headers.reverse ++ chain) := by
  induction headers generalizing table chain with
  | nil =>
      rw [List.foldlM_nil, pure_eq_ok] at hinsert
      exact hinsert ▸ h
  | cons b rest ih =>
      rw [List.foldlM_cons, bind_eq_ok] at hinsert
      obtain ⟨middle, hb, hrest⟩ := hinsert
      rw [List.reverse_cons, List.append_assoc]
      exact ih (insertBlock_rows h (hgenuine b List.mem_cons_self) hb)
        (fun x hx => hgenuine x (List.mem_cons_of_mem b hx)) hrest

/-- A row written for a block of the batch. -/
theorem Placed.written {headers : List IndexBlock} (hgenuine : ∀ b ∈ headers, t.genuine b)
    {number number' : Nat} {hash : Bytes32} {canonical : Bool}
    (hplace : ∃ b ∈ headers, At number hash b)
    (hrow : number' = number ∨ ∃ b, t.genuine b ∧ At number' hash b) :
    Placed t (headers.reverse ++ chain) number' hash canonical := by
  obtain ⟨b, hb, hat⟩ := hplace
  have hnumber : number' = number := by
    rcases hrow with heq | ⟨x, hx, hxat⟩
    · exact heq
    · have hsame : x = b := t.unique x b hx (hgenuine b hb) (hxat.2.trans hat.2.symm)
      rw [← hxat.1, hsame, hat.1]
  subst hnumber
  refine ⟨⟨b, hgenuine b hb, hat⟩, fun _ => ⟨b, ?_, hat⟩⟩
  exact List.mem_append_left _ (List.mem_reverse.mpr hb)

theorem Placed.above {headers : List IndexBlock} {number : Nat} {hash : Bytes32} {canonical : Bool}
    (h : Placed t chain number hash canonical) :
    Placed t (headers.reverse ++ chain) number hash canonical := by
  refine ⟨h.1, fun hcanonical => ?_⟩
  obtain ⟨b, hb, hat⟩ := h.2 hcanonical
  exact ⟨b, List.mem_append_right _ hb, hat⟩

theorem insertEvent_placed {headers : List IndexBlock} (hgenuine : ∀ b ∈ headers, t.genuine b)
    {table : OrderedMap EventKey EventRow} {event : IndexedMarketEvent}
    (h : ∀ key row, table.get? key = some row →
      Placed t (headers.reverse ++ chain) row.blockNumber key.blockHash row.canonical)
    (hplace : ∃ b ∈ headers, At event.location.blockNumber event.location.blockHash b) :
    ∀ key row, (insertEvent table event).get? key = some row →
      Placed t (headers.reverse ++ chain) row.blockNumber key.blockHash row.canonical := by
  intro key row hrow
  unfold insertEvent at hrow
  cases hkey : event.key with
  | none =>
      rw [hkey] at hrow
      exact h key row hrow
  | some written =>
      rw [hkey] at hrow
      have hhash : written.blockHash = event.location.blockHash := by
        obtain ⟨transactionHash, _, hlog⟩ := Option.bind_eq_some_iff.mp hkey
        obtain ⟨logIndex, _, rfl⟩ := Option.map_eq_some_iff.mp hlog
        rfl
      rw [OrderedMap.get?_set] at hrow
      split at hrow
      · next hsame =>
          subst hsame
          rw [hhash]
          refine Placed.written hgenuine hplace ?_
          cases hold : table.get? key with
          | none =>
              rw [hold, Option.some.injEq] at hrow
              exact Or.inl (by rw [← hrow])
          | some old =>
              rw [hold, Option.some.injEq] at hrow
              have hplaced := (h key old hold).1
              rw [hhash] at hplaced
              rw [← hrow]
              exact Or.inr hplaced
      · exact h key row hrow

theorem watchDynamic_placed {headers : List IndexBlock} (hgenuine : ∀ b ∈ headers, t.genuine b)
    {table table' : WatchTable} {item : Dynamic}
    (h : ∀ a hash row, table.get? (a, some hash) = some row →
      Placed t (headers.reverse ++ chain) row.number hash row.canonical)
    (hplace : ∃ b ∈ headers,
      At item.event.location.blockNumber item.event.location.blockHash b)
    (hwatch : watchDynamic table item = .ok table') :
    ∀ a hash row, table'.get? (a, some hash) = some row →
      Placed t (headers.reverse ++ chain) row.number hash row.canonical := by
  intro a hash row hrow
  obtain ⟨_, written, rfl, _, _, _, hnew, hold⟩ := watch_eq_ok hwatch
  rw [OrderedMap.get?_set] at hrow
  split at hrow
  · next hkey =>
      simp only [Prod.mk.injEq, Option.some.injEq] at hkey
      obtain ⟨rfl, rfl⟩ := hkey
      rw [Option.some.injEq] at hrow
      subst hrow
      refine Placed.written hgenuine hplace ?_
      cases hget : table.get? (item.target, some item.event.location.blockHash) with
      | none => exact Or.inl (hnew hget)
      | some old =>
          rw [hold old hget]
          exact Or.inr (h _ _ old hget).1
  · exact h a hash row hrow

theorem Index.scanned_eq_ok {s' : Index} {head : Nat} {batch : Batch}
    (h : s.scanned c head batch = .ok s') :
    ∃ decoded, batch.dynamic.foldlM watchDynamic s.watch = .ok s'.watch ∧
      batch.rawEvents.mapM (decode c s'.watch batch.headers head) = .ok decoded ∧
      batch.headers.foldlM insertBlock s.blocks = .ok s'.blocks ∧
      s'.events = (decoded.filterMap id).foldl insertEvent s.events ∧
      s'.cursorRow = batch.headers.getLast?.map fun b => (b.number, b.hash) := by
  simp only [Index.scanned, bind_eq_ok, pure_eq_ok] at h
  obtain ⟨table, htable, decoded, hdecoded, blocks, hblocks, rfl⟩ := h
  exact ⟨decoded, htable, hdecoded, hblocks, rfl, rfl⟩

theorem scan_chainOf (h : ChainOf t c.manifest s chain) {a : ScanAnswers} {until_ head : Nat}
    {s' : Index} {batch : Batch} (hle : s.next c.manifest ≤ until_)
    (hgenuine : ∀ n b, a.header n = .ok b → t.genuine b)
    (hgather : gather c s a (s.next c.manifest) until_ head = .ok batch)
    (hscanned : s.scanned c head batch = .ok s') :
    ChainOf t c.manifest s' (batch.headers.reverse ++ chain) := by
  have hgathered := gather_eq_ok hgather
  obtain ⟨decoded, hwatch, hdecoded, hblocks, hevents, hcursor⟩ := Index.scanned_eq_ok hscanned
  have hnumbers := scanHeaders_numbers hgathered.headers
  have hreal : ∀ b ∈ batch.headers, t.genuine b := by
    intro b hb
    obtain ⟨n, _, hn⟩ := mapM_mem hgathered.headers hb
    exact hgenuine n b (header_eq_ok.mp hn).1
  have hnonempty : batch.headers ≠ [] := by
    have hlength := mapM_length hgathered.headers
    rw [List.length_range'] at hlength
    intro hempty
    rw [hempty, List.length_nil] at hlength
    omega
  obtain ⟨hfollow, hfirst⟩ := checkLinks_follows hgathered.links hnumbers
  rw [h.cursor_eq] at hfirst
  have hjoin : ∀ top ∈ chain.head?, ∀ b ∈ batch.headers.head?,
      LinkedChain.Follows IndexBlock.number IndexBlock.hash IndexBlock.parentHash b top := by
    intro top htop b hb
    obtain ⟨hnumber, hparent⟩ := hfirst b hb
    refine ⟨?_, hparent top htop⟩
    rw [hnumber, Index.next, h.cursor_eq, Option.mem_def.mp htop]
    rfl
  refine ⟨h.linked.extend hfollow hjoin, ?_, ?_, insertBlocks_rows h.blocks hreal hblocks, ?_, ?_, ?_⟩
  · intro low hlow
    cases hchain : chain with
    | nil =>
        rw [hchain, List.append_nil, List.getLast?_reverse] at hlow
        rw [(hfirst low hlow).1, Index.next, h.cursor_eq, hchain]
        rfl
    | cons top rest =>
        rw [List.getLast?_append_of_ne_nil _ (by rw [hchain]; exact List.cons_ne_nil top rest)]
          at hlow
        exact h.bottom low hlow
  · intro b hb
    rcases List.mem_append.mp hb with hb | hb
    · exact hreal b (List.mem_reverse.mp hb)
    · exact h.genuine b hb
  · rw [hcursor, List.head?_append_of_ne_nil _ (by simpa using hnonempty), List.head?_reverse]
  · rw [hevents]
    have hplaces : ∀ event ∈ decoded.filterMap id,
        ∃ b ∈ batch.headers, At event.location.blockNumber event.location.blockHash b := by
      intro event hevent
      obtain ⟨_, hmem, rfl⟩ := List.mem_filterMap.mp hevent
      obtain ⟨raw, _, hraw⟩ := mapM_mem hdecoded hmem
      exact decode_place hraw
    have hstart : ∀ key row, s.events.get? key = some row →
        Placed t (batch.headers.reverse ++ chain) row.blockNumber key.blockHash row.canonical :=
      fun key row hrow => (h.events key row hrow).above
    clear hevents
    generalize s.events = table at hstart ⊢
    generalize decoded.filterMap id = events at hplaces ⊢
    induction events generalizing table with
    | nil => exact hstart
    | cons event rest ih =>
        exact ih _ (insertEvent_placed hreal hstart (hplaces event List.mem_cons_self))
          (fun e he => hplaces e (List.mem_cons_of_mem _ he))
  · refine foldlM_keeps (P := fun table : WatchTable => ∀ a hash row,
      table.get? (a, some hash) = some row →
        Placed t (batch.headers.reverse ++ chain) row.number hash row.canonical)
      (fun table item hitem table' htable hput =>
        watchDynamic_placed hreal htable (hgathered.item_place hitem) hput) ?_ hwatch
    intro a hash row hrow
    exact (h.watch a hash row hrow).above

end

end EventIndex
end AlphaForge
