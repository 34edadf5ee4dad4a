/-
Versions and atomicity of the market projection over every run.

A commit and a rollback each take the next version.  The unique columns of the
snapshot table turn into an invariant, from which the latest snapshot is the one
canonical row of the greatest height.  A claim row is canonical from the commit
that observes it to the first rollback at or below its height.
-/
import AlphaForge.Machine.Run
import AlphaForge.Market.Projector

namespace AlphaForge
namespace Projector

open Evm Market
open MarketStore (IndexedMarketClaim)

inductive Call where
  | commit (snapshot : MarketSnapshot) (parentHash : Bytes32)
      (previousCanonicalHash : Option Bytes32) (claims : List IndexedMarketClaim)
  | rollbackFrom (start : Nat)

def step (chainId : Nat) : Call → Store → Except String Store
  | .commit snapshot parentHash previousCanonicalHash claims, s => do
      let written ← commit chainId snapshot parentHash previousCanonicalHash claims s
      return written.getD s
  | .rollbackFrom start, s => rollbackFrom start s

/-- A store in which nothing was projected yet. -/
def fresh (market : MarketStore.Store) : Store :=
  { snapshots := [], version := 0, market := { market with claims := [] } }

/-- The store after a run. -/
def reached (chainId : Nat) (market : MarketStore.Store) (calls : List Call) : Store :=
  Machine.exec (step chainId) (fresh market) calls

/-! ## What a call does -/

/-- A commit that is accepted returns the stored snapshot, or writes. -/
theorem commit_cases {chainId : Nat} {snapshot : MarketSnapshot} {parentHash : Bytes32}
    {previousCanonicalHash : Option Bytes32} {claims : List IndexedMarketClaim} {s s' : Store}
    (h : step chainId (.commit snapshot parentHash previousCanonicalHash claims) s = .ok s') :
    (s' = s ∧ claims = []) ∨ s.committed chainId snapshot parentHash claims = .ok s' := by
  simp only [step, commit, bind_eq_ok, pure_eq_ok] at h
  obtain ⟨written, ⟨_, _, hwritten⟩, rfl⟩ := h
  cases hlatest : s.latest with
  | none =>
      rw [hlatest] at hwritten
      obtain ⟨s', hs', rfl⟩ := map_eq_ok.mp hwritten
      exact Or.inr hs'
  | some previous =>
      rw [hlatest] at hwritten
      simp only [bind_eq_ok] at hwritten
      obtain ⟨_, _, hwritten⟩ := hwritten
      by_cases hrepeats : repeats snapshot previous claims = true
      · rw [if_pos hrepeats, pure_eq_ok] at hwritten
        subst hwritten
        simp only [repeats, decide_eq_true_eq] at hrepeats
        exact Or.inl ⟨rfl, List.isEmpty_iff.mp hrepeats.2.2⟩
      · rw [if_neg hrepeats] at hwritten
        obtain ⟨s', hs', rfl⟩ := map_eq_ok.mp hwritten
        exact Or.inr hs'

/-- The row a commit writes. -/
def committedRow (s : Store) (snapshot : MarketSnapshot) (parentHash : Bytes32) : SnapshotRow :=
  { parentHash := ((s.snapshots.get? (snapshot.location.blockNumber, snapshot.location.blockHash)).map
      (·.parentHash)).getD parentHash
    version := s.version + 1
    payload := versioned snapshot (s.version + 1)
    canonical := true }

theorem committed_eq_ok {chainId : Nat} {snapshot : MarketSnapshot} {parentHash : Bytes32}
    {claims : List IndexedMarketClaim} {s s' : Store}
    (h : s.committed chainId snapshot parentHash claims = .ok s') :
    (∀ e ∈ s.snapshots, e.1 = (snapshot.location.blockNumber, snapshot.location.blockHash) ∨
      e.1.1 ≠ snapshot.location.blockNumber ∨ e.2.canonical = false) ∧
    s'.snapshots = s.snapshots.set (snapshot.location.blockNumber, snapshot.location.blockHash)
      (committedRow s snapshot parentHash) ∧
    claims.foldlM (commitClaim chainId snapshot.location.blockNumber) s.market = .ok s'.market ∧
    s'.version = s.version + 1 := by
  simp only [Store.committed, insertSnapshot, bind_eq_ok, ensure_eq_ok, pure_eq_ok] at h
  obtain ⟨table, ⟨_, hunique, htable⟩, market, hmarket, rfl⟩ := h
  refine ⟨fun e he => ?_, ?_, hmarket, rfl⟩
  · have hrow := List.all_eq_true.mp hunique e he
    simp only [decide_eq_true_eq] at hrow
    rcases hrow with hkey | ⟨_, hfree⟩
    · exact Or.inl hkey
    · exact Or.inr hfree
  · rw [← htable, committedRow]
    cases hget : s.snapshots.get? (snapshot.location.blockNumber, snapshot.location.blockHash) with
    | none => rfl
    | some row => rfl

def orphaned (start : Nat) (key : Nat × Bytes32) (row : SnapshotRow) : SnapshotRow :=
  if start ≤ key.1 then { row with canonical := false } else row

/-- The row of a snapshot after a rollback, in which `latest` takes the new version. -/
def rolledRow (start version : Nat) (latest : Option MarketSnapshot) (key : Nat × Bytes32)
    (row : SnapshotRow) : SnapshotRow :=
  if latest.map (fun p => (p.location.blockNumber, p.location.blockHash)) = some key then
    { orphaned start key row with
      payload := (latest.map (versioned · version)).getD row.payload, version }
  else orphaned start key row

/-- The snapshot that is latest once a rollback has marked its rows. -/
def latestBelow (start : Nat) (s : Store) : Option MarketSnapshot :=
  (latestRow (orphanSnapshots start s.snapshots)).map (fun e => e.2.payload)

theorem rollbackFrom_eq_ok {start : Nat} {s s' : Store} (h : rollbackFrom start s = .ok s') :
    (∀ k, s'.snapshots.get? k =
      (s.snapshots.get? k).map (rolledRow start (s.version + 1) (latestBelow start s) k)) ∧
    s'.snapshots.keys = s.snapshots.keys ∧
    s'.market = MarketStore.rollbackClaims start s.market ∧ s'.version = s.version + 1 := by
  simp only [rollbackFrom, bind_eq_ok, pure_eq_ok] at h
  obtain ⟨_, _, table, htable, rfl⟩ := h
  refine ⟨fun k => ?_, ?_, rfl, rfl⟩
  · show table.get? k = _
    rw [latestBelow]
    cases hlatest : latestRow (orphanSnapshots start s.snapshots) with
    | none =>
        simp only [hlatest, Option.map_none, Except.ok.injEq] at htable
        rw [← htable, orphanSnapshots, OrderedMap.get?_mapValues]
        rfl
    | some e =>
        simp only [hlatest, Option.map_some, renumber, bind_eq_ok, pure_eq_ok] at htable
        obtain ⟨_, _, rfl⟩ := htable
        rw [OrderedMap.get?_mapValues, orphanSnapshots, OrderedMap.get?_mapValues, Option.map_map]
        congr 1
        funext row
        simp only [Function.comp, rolledRow, orphaned, Option.map_some, Option.some.injEq,
          eq_comm (a := k), Option.getD_some]
  · show table.keys = _
    cases hlatest : latestRow (orphanSnapshots start s.snapshots) with
    | none =>
        simp only [hlatest, Option.map_none, Except.ok.injEq] at htable
        rw [← htable, orphanSnapshots, OrderedMap.keys_mapValues]
    | some e =>
        simp only [hlatest, Option.map_some, renumber, bind_eq_ok, pure_eq_ok] at htable
        obtain ⟨_, _, rfl⟩ := htable
        rw [OrderedMap.keys_mapValues, orphanSnapshots, OrderedMap.keys_mapValues]

/-! ## The invariant -/

structure Holds (s : Store) : Prop where
  keys : s.snapshots.keys.Nodup
  bounded : ∀ k row, s.snapshots.get? k = some row → row.version ≤ s.version
  versions : ∀ k k' row row', s.snapshots.get? k = some row → s.snapshots.get? k' = some row' →
    row.version = row'.version → k = k'
  heights : ∀ k k' row row', s.snapshots.get? k = some row → s.snapshots.get? k' = some row' →
    row.canonical = true → row'.canonical = true → k.1 = k'.1 → k = k'
  places : ∀ k row, s.snapshots.get? k = some row →
    (row.payload.location.blockNumber, row.payload.location.blockHash) = k

theorem fresh_holds (market : MarketStore.Store) : Holds (fresh market) where
  keys := List.nodup_nil
  bounded := fun _ _ h => by cases h
  versions := fun _ _ _ _ h => by cases h
  heights := fun _ _ _ _ h => by cases h
  places := fun _ _ h => by cases h

theorem committed_holds {chainId : Nat} {snapshot : MarketSnapshot} {parentHash : Bytes32}
    {claims : List IndexedMarketClaim} {s s' : Store} (hs : Holds s)
    (h : s.committed chainId snapshot parentHash claims = .ok s') : Holds s' := by
  obtain ⟨hfree, htable, _, hversion⟩ := committed_eq_ok h
  -- A row of the new table is the written one or an old one under another key.
  have hrows : ∀ k row, s'.snapshots.get? k = some row →
      (k = (snapshot.location.blockNumber, snapshot.location.blockHash) ∧
        row = committedRow s snapshot parentHash) ∨
      (k ≠ (snapshot.location.blockNumber, snapshot.location.blockHash) ∧
        s.snapshots.get? k = some row) := by
    intro k row hget
    rw [htable, OrderedMap.get?_set] at hget
    split at hget
    · next hkey => exact Or.inl ⟨hkey, (Option.some.inj hget).symm⟩
    · next hkey => exact Or.inr ⟨hkey, hget⟩
  have hblocked : ∀ k row, s.snapshots.get? k = some row → row.canonical = true →
      k.1 = snapshot.location.blockNumber →
      k = (snapshot.location.blockNumber, snapshot.location.blockHash) := by
    intro k row hget hcanonical hheight
    rcases hfree (k, row) (OrderedMap.mem_of_get? hget) with hkey | hne | hnot
    · exact hkey
    · exact absurd hheight hne
    · rw [hcanonical] at hnot
      cases hnot
  refine ⟨?_, ?_, ?_, ?_, ?_⟩
  · rw [htable]
    exact OrderedMap.nodup_keys_set hs.keys
  · intro k row hget
    rcases hrows k row hget with ⟨_, rfl⟩ | ⟨_, hold⟩
    · exact hversion.ge
    · have := hs.bounded k row hold
      omega
  · intro k k' row row' hget hget' hsame
    rcases hrows k row hget with ⟨rfl, rfl⟩ | ⟨_, hold⟩ <;>
      rcases hrows k' row' hget' with ⟨rfl, rfl⟩ | ⟨_, hold'⟩
    · rfl
    · have hle := hs.bounded k' row' hold'
      have hnew : (committedRow s snapshot parentHash).version = s.version + 1 := rfl
      omega
    · have hle := hs.bounded k row hold
      have hnew : (committedRow s snapshot parentHash).version = s.version + 1 := rfl
      omega
    · exact hs.versions k k' row row' hold hold' hsame
  · intro k k' row row' hget hget' hcanonical hcanonical' hheight
    rcases hrows k row hget with ⟨rfl, rfl⟩ | ⟨_, hold⟩ <;>
      rcases hrows k' row' hget' with ⟨rfl, rfl⟩ | ⟨_, hold'⟩
    · rfl
    · exact (hblocked k' row' hold' hcanonical' hheight.symm).symm
    · exact hblocked k row hold hcanonical hheight
    · exact hs.heights k k' row row' hold hold' hcanonical hcanonical' hheight
  · intro k row hget
    rcases hrows k row hget with ⟨rfl, rfl⟩ | ⟨_, hold⟩
    · rfl
    · exact hs.places k row hold

theorem latestRow_mem {table : OrderedMap (Nat × Bytes32) SnapshotRow}
    {e : (Nat × Bytes32) × SnapshotRow} (h : latestRow table = some e) :
    e ∈ table ∧ e.2.canonical = true := by
  have hmem := List.argmax_mem (Option.mem_def.mpr h)
  exact ⟨(List.mem_filter.mp hmem).1, (List.mem_filter.mp hmem).2⟩

theorem latestRow_ge {table : OrderedMap (Nat × Bytes32) SnapshotRow}
    {e : (Nat × Bytes32) × SnapshotRow} (h : latestRow table = some e)
    {e' : (Nat × Bytes32) × SnapshotRow} (he' : e' ∈ table) (hcanonical : e'.2.canonical = true) :
    e'.1.1 ≤ e.1.1 := by
  have hmem : e' ∈ table.filter (fun e => e.2.canonical) := List.mem_filter.mpr ⟨he', hcanonical⟩
  exact List.le_of_mem_argmax (f := fun e : (Nat × Bytes32) × SnapshotRow => e.1.1) hmem h

theorem orphaned_canonical (start : Nat) (key : Nat × Bytes32) (row : SnapshotRow) :
    (orphaned start key row).canonical = true ↔ row.canonical = true ∧ key.1 < start := by
  unfold orphaned
  split
  · next hstart => simp [Nat.not_lt.mpr hstart]
  · next hstart => simp [Nat.lt_of_not_le hstart]

theorem orphaned_version (start : Nat) (key : Nat × Bytes32) (row : SnapshotRow) :
    (orphaned start key row).version = row.version := by
  unfold orphaned
  split <;> rfl

theorem orphaned_payload (start : Nat) (key : Nat × Bytes32) (row : SnapshotRow) :
    (orphaned start key row).payload = row.payload := by
  unfold orphaned
  split <;> rfl

theorem rolledRow_canonical (start version : Nat) (latest : Option MarketSnapshot)
    (key : Nat × Bytes32) (row : SnapshotRow) :
    (rolledRow start version latest key row).canonical = true ↔
      row.canonical = true ∧ key.1 < start := by
  unfold rolledRow
  split <;> exact orphaned_canonical start key row

/-- A rollback writes the new version into one row at most. -/
theorem rolledRow_version (start version : Nat) (latest : Option MarketSnapshot)
    (key : Nat × Bytes32) (row : SnapshotRow) :
    ((rolledRow start version latest key row).version = version ∧
      latest.map (fun p => (p.location.blockNumber, p.location.blockHash)) = some key) ∨
    (rolledRow start version latest key row).version = row.version := by
  unfold rolledRow
  split
  · next hkey => exact Or.inl ⟨rfl, hkey⟩
  · exact Or.inr (orphaned_version start key row)

theorem rolledRow_place (start version : Nat) (latest : Option MarketSnapshot)
    (key : Nat × Bytes32) (row : SnapshotRow)
    (hrow : (row.payload.location.blockNumber, row.payload.location.blockHash) = key) :
    ((rolledRow start version latest key row).payload.location.blockNumber,
      (rolledRow start version latest key row).payload.location.blockHash) = key := by
  unfold rolledRow
  split
  · next hkey =>
      cases latest with
      | none => cases hkey
      | some p => exact Option.some.inj hkey
  · rw [orphaned_payload]
    exact hrow

theorem rollback_holds {start : Nat} {s s' : Store} (hs : Holds s)
    (h : rollbackFrom start s = .ok s') : Holds s' := by
  obtain ⟨hget, hkeys, _, hversion⟩ := rollbackFrom_eq_ok h
  have hrows : ∀ k row, s'.snapshots.get? k = some row → ∃ old, s.snapshots.get? k = some old ∧
      rolledRow start (s.version + 1) (latestBelow start s) k old = row := by
    intro k row hrow
    rw [hget k] at hrow
    exact Option.map_eq_some_iff.mp hrow
  refine ⟨hkeys ▸ hs.keys, ?_, ?_, ?_, ?_⟩
  · intro k row hrow
    obtain ⟨old, hold, rfl⟩ := hrows k row hrow
    have hle := hs.bounded k old hold
    rcases rolledRow_version start (s.version + 1) (latestBelow start s) k old with ⟨hnew, _⟩ | hkept
    · omega
    · omega
  · intro k k' row row' hrow hrow' hsame
    obtain ⟨old, hold, rfl⟩ := hrows k row hrow
    obtain ⟨old', hold', rfl⟩ := hrows k' row' hrow'
    have hle := hs.bounded k old hold
    have hle' := hs.bounded k' old' hold'
    rcases rolledRow_version start (s.version + 1) (latestBelow start s) k old with
      ⟨hnew, hkey⟩ | hkept <;>
      rcases rolledRow_version start (s.version + 1) (latestBelow start s) k' old' with
        ⟨hnew', hkey'⟩ | hkept'
    · exact Option.some.inj (hkey.symm.trans hkey')
    · omega
    · omega
    · exact hs.versions k k' old old' hold hold' (by omega)
  · intro k k' row row' hrow hrow' hcanonical hcanonical' hheight
    obtain ⟨old, hold, rfl⟩ := hrows k row hrow
    obtain ⟨old', hold', rfl⟩ := hrows k' row' hrow'
    exact hs.heights k k' old old' hold hold' ((rolledRow_canonical _ _ _ _ _).mp hcanonical).1
      ((rolledRow_canonical _ _ _ _ _).mp hcanonical').1 hheight
  · intro k row hrow
    obtain ⟨old, hold, rfl⟩ := hrows k row hrow
    exact rolledRow_place _ _ _ _ _ (hs.places k old hold)

theorem step_holds {chainId : Nat} {call : Call} {s s' : Store} (hs : Holds s)
    (h : step chainId call s = .ok s') : Holds s' := by
  cases call with
  | commit snapshot parentHash previousCanonicalHash claims =>
      rcases commit_cases h with ⟨rfl, _⟩ | hwritten
      · exact hs
      · exact committed_holds hs hwritten
  | rollbackFrom start => exact rollback_holds hs h

/-- The latest snapshot is that of the canonical row of the greatest height. -/
theorem latest_eq_some_iff {s : Store} (hs : Holds s) {p : MarketSnapshot} :
    s.latest = some p ↔ ∃ k row, s.snapshots.get? k = some row ∧ row.canonical = true ∧
      row.payload = p ∧ ∀ k' row', s.snapshots.get? k' = some row' → row'.canonical = true →
        k'.1 ≤ k.1 := by
  constructor
  · intro h
    obtain ⟨e, he, hpayload⟩ := Option.map_eq_some_iff.mp h
    obtain ⟨hmem, hcanonical⟩ := latestRow_mem he
    refine ⟨e.1, e.2, (OrderedMap.mem_iff_get? hs.keys).mp hmem, hcanonical, hpayload, ?_⟩
    intro k' row' hget' hcanonical'
    exact latestRow_ge he (OrderedMap.mem_of_get? hget') hcanonical'
  · rintro ⟨k, row, hget, hcanonical, rfl, hmax⟩
    cases he : latestRow s.snapshots with
    | none =>
        have hempty := List.argmax_eq_none.mp he
        have hmem : (k, row) ∈ s.snapshots.filter (fun e => e.2.canonical) :=
          List.mem_filter.mpr ⟨OrderedMap.mem_of_get? hget, hcanonical⟩
        rw [hempty] at hmem
        cases hmem
    | some e =>
        obtain ⟨hmem, hcanonical'⟩ := latestRow_mem he
        have hget' := (OrderedMap.mem_iff_get? hs.keys).mp hmem
        have hle := latestRow_ge he (OrderedMap.mem_of_get? hget) hcanonical
        have hge := hmax e.1 e.2 hget' hcanonical'
        have hkey := hs.heights k e.1 row e.2 hget hget' hcanonical hcanonical'
          (Nat.le_antisymm hle hge)
        rw [← hkey, hget] at hget'
        rw [Store.latest, he, Option.map_some, Option.some.inj hget']

/-! ## Claims -/

/-- A commit that carries the claim. -/
def Call.observes (key : EventKey) : Call → Prop
  | .commit _ _ _ claims => key ∈ claims.filterMap MarketStore.claimKey
  | .rollbackFrom _ => False

/-- A rollback that reaches down to the height. -/
def Call.rollsBack (height : Nat) : Call → Prop
  | .commit _ _ _ _ => False
  | .rollbackFrom start => start ≤ height

/-- After these calls, the claim was observed and no rollback has reached its height
since. -/
def Standing (calls : List Call) (key : EventKey) (height : Nat) : Prop :=
  calls.foldl (fun standing call => call.observes key ∨ (standing ∧ ¬ call.rollsBack height)) False

/-- What a call does to the claim rows. -/
structure ClaimStep (observed : EventKey → Prop) (rolledBack : Nat → Prop)
    (claims claims' : OrderedMap EventKey MarketStore.ClaimRow) : Prop where
  kept : ∀ key row, claims.get? key = some row →
    ∃ row', claims'.get? key = some row' ∧ row'.blockNumber = row.blockNumber ∧
      (row'.canonical = true ↔
        observed key ∨ (row.canonical = true ∧ ¬ rolledBack row.blockNumber))
  new : ∀ key row', claims.get? key = none → claims'.get? key = some row' →
    observed key ∧ row'.canonical = true

theorem observe_claimStep {chainId blockNumber : Nat} {claim : IndexedMarketClaim}
    {market market' : MarketStore.Store}
    (h : commitClaim chainId blockNumber market claim = .ok market') :
    ClaimStep (fun key => MarketStore.claimKey claim = some key) (fun _ => False)
      market.claims market'.claims := by
  simp only [commitClaim, bind_eq_ok] at h
  obtain ⟨_, _, hobserve⟩ := h
  obtain ⟨key, claims, hkey, _, hput, rfl⟩ := MarketStore.observeClaim_eq_ok hobserve
  obtain ⟨row, rfl, hcanonical, hnew, hold, _⟩ := MarketStore.putClaim_eq_ok hput
  constructor
  · intro key' old hget
    rw [OrderedMap.get?_set]
    by_cases hsame : key' = key
    · subst hsame
      refine ⟨row, if_pos rfl, ?_, by simp [hcanonical, hkey]⟩
      rw [hold old hget]
    · refine ⟨old, (if_neg hsame).trans hget, rfl, ?_⟩
      simp [hkey, Ne.symm hsame]
  · intro key' row' hnone hget
    rw [OrderedMap.get?_set] at hget
    by_cases hsame : key' = key
    · subst hsame
      rw [if_pos rfl, Option.some.injEq] at hget
      exact ⟨hkey, hget ▸ hcanonical⟩
    · rw [if_neg hsame, hnone] at hget
      cases hget

theorem observeAll_claimStep {chainId blockNumber : Nat} {claims : List IndexedMarketClaim}
    {market market' : MarketStore.Store}
    (h : claims.foldlM (commitClaim chainId blockNumber) market = .ok market') :
    ClaimStep (fun key => key ∈ claims.filterMap MarketStore.claimKey) (fun _ => False)
      market.claims market'.claims := by
  induction claims generalizing market with
  | nil =>
      rw [List.foldlM_nil, pure_eq_ok] at h
      subst h
      refine ⟨fun key row hget => ⟨row, hget, rfl, by simp⟩, fun key row' hnone hget => ?_⟩
      rw [hnone] at hget
      cases hget
  | cons claim rest ih =>
      rw [List.foldlM_cons, bind_eq_ok] at h
      obtain ⟨middle, hclaim, hrest⟩ := h
      have hfirst := observe_claimStep hclaim
      have hlater := ih hrest
      have hmem : ∀ key, key ∈ (claim :: rest).filterMap MarketStore.claimKey ↔
          MarketStore.claimKey claim = some key ∨ key ∈ rest.filterMap MarketStore.claimKey := by
        intro key
        rw [List.mem_filterMap, List.mem_filterMap]
        simp only [List.mem_cons, exists_eq_or_imp]
      constructor
      · intro key row hget
        obtain ⟨row₁, hget₁, hnumber₁, hcanonical₁⟩ := hfirst.kept key row hget
        obtain ⟨row₂, hget₂, hnumber₂, hcanonical₂⟩ := hlater.kept key row₁ hget₁
        refine ⟨row₂, hget₂, hnumber₂.trans hnumber₁, ?_⟩
        rw [hcanonical₂, hcanonical₁, hmem]
        tauto
      · intro key row' hnone hget
        rw [hmem]
        cases hmiddle : middle.claims.get? key with
        | none =>
            obtain ⟨hobserved, hcanonical⟩ := hlater.new key row' hmiddle hget
            exact ⟨Or.inr hobserved, hcanonical⟩
        | some row₁ =>
            obtain ⟨hobserved, hcanonical⟩ := hfirst.new key row₁ hnone hmiddle
            obtain ⟨row₂, hget₂, _, hiff⟩ := hlater.kept key row₁ hmiddle
            rw [hget₂, Option.some.injEq] at hget
            subst hget
            exact ⟨Or.inl hobserved, hiff.mpr (Or.inr ⟨hcanonical, not_false⟩)⟩

theorem rollback_claimStep (start : Nat) (market : MarketStore.Store) :
    ClaimStep (fun _ => False) (fun height => start ≤ height) market.claims
      (MarketStore.rollbackClaims start market).claims := by
  constructor
  · intro key row hget
    rw [MarketStore.rollbackClaims]
    refine ⟨_, by rw [OrderedMap.get?_mapValues, hget, Option.map_some], ?_, ?_⟩
    · split <;> rfl
    · by_cases hstart : start ≤ row.blockNumber
      · simp [hstart]
      · simp [hstart]
  · intro key row' hnone hget
    rw [MarketStore.rollbackClaims, OrderedMap.get?_mapValues, hnone] at hget
    cases hget

theorem step_claimStep {chainId : Nat} {call : Call} {s s' : Store}
    (h : step chainId call s = .ok s') :
    ClaimStep (fun key => call.observes key) (fun height => call.rollsBack height)
      s.market.claims s'.market.claims := by
  cases call with
  | commit snapshot parentHash previousCanonicalHash claims =>
      rcases commit_cases h with ⟨rfl, rfl⟩ | hwritten
      · have hnone : [].foldlM (commitClaim chainId 0) s'.market = .ok s'.market := rfl
        exact observeAll_claimStep hnone
      · exact observeAll_claimStep (committed_eq_ok hwritten).2.2.1
  | rollbackFrom start =>
      rw [(rollbackFrom_eq_ok h).2.2.1]
      exact rollback_claimStep start s.market

/-- In every run a claim row is canonical exactly while it stands. -/
theorem claim_canonical_iff (chainId : Nat) (market : MarketStore.Store) (calls : List Call)
    (key : EventKey) (row : MarketStore.ClaimRow)
    (hrow : (reached chainId market calls).market.claims.get? key = some row) :
    row.canonical = true ↔
      Standing ((Machine.history (step chainId) (fresh market) calls).map (·.action)) key
        row.blockNumber := by
  have hfollows := Machine.exec_follows
    (R := fun s g => ∀ key row, s.market.claims.get? key = some row →
      (row.canonical = true ↔ g key row.blockNumber))
    (f := fun g call key height => call.observes key ∨ (g key height ∧ ¬ call.rollsBack height))
    (fun call s s' g hg (hstep : step chainId call s = .ok s') key row' hget' => by
      have hclaims := step_claimStep hstep
      cases hget : s.market.claims.get? key with
      | none =>
          obtain ⟨hobserved, hcanonical⟩ := hclaims.new key row' hget hget'
          exact iff_of_true hcanonical (Or.inl hobserved)
      | some row =>
          obtain ⟨row₁, hget₁, hnumber, hiff⟩ := hclaims.kept key row hget
          rw [hget', Option.some.injEq] at hget₁
          subst hget₁
          rw [hiff, hg key row hget, hnumber])
    (s := fresh market) (g := fun _ _ => False) (fun key row hget => by cases hget) calls
  rw [hfollows key row hrow, Standing, List.foldl_map]
  generalize Machine.history (step chainId) (fresh market) calls = history
  have hfold : ∀ (g : EventKey → Nat → Prop),
      history.foldl (fun g t key height =>
        t.action.observes key ∨ (g key height ∧ ¬ t.action.rollsBack height)) g key row.blockNumber =
      history.foldl (fun standing t =>
        t.action.observes key ∨ (standing ∧ ¬ t.action.rollsBack row.blockNumber))
        (g key row.blockNumber) := by
    induction history with
    | nil => intro g; rfl
    | cons t rest ih => intro g; exact ih _
  rw [hfold]

/-! ## Every run -/

/-- A call that changes anything takes the next version. -/
theorem step_version {chainId : Nat} {call : Call} {s s' : Store}
    (h : step chainId call s = .ok s') (hchange : s' ≠ s) : s.version < s'.version := by
  cases call with
  | commit snapshot parentHash previousCanonicalHash claims =>
      rcases commit_cases h with ⟨rfl, _⟩ | hwritten
      · exact absurd rfl hchange
      · have := (committed_eq_ok hwritten).2.2.2
        omega
  | rollbackFrom start =>
      have := (rollbackFrom_eq_ok h).2.2.2
      omega

/-- In every state that commits and rollbacks reach, a call that changes anything
raises the version, versions and canonical heights are unique, the latest snapshot
is the canonical one of the greatest height, claims stand from their observation to
a rollback, and a call that throws changes nothing. -/
theorem projection_in_every_run (chainId : Nat) (market : MarketStore.Store) (calls : List Call) :
    (∀ call s', step chainId call (reached chainId market calls) = .ok s' →
      s' ≠ reached chainId market calls → (reached chainId market calls).version < s'.version) ∧
    (∀ k k' row row', (reached chainId market calls).snapshots.get? k = some row →
      (reached chainId market calls).snapshots.get? k' = some row' →
      row.version = row'.version → k = k') ∧
    (∀ k k' row row', (reached chainId market calls).snapshots.get? k = some row →
      (reached chainId market calls).snapshots.get? k' = some row' →
      row.canonical = true → row'.canonical = true → k.1 = k'.1 → k = k') ∧
    (∀ p, (reached chainId market calls).latest = some p ↔
      ∃ k row, (reached chainId market calls).snapshots.get? k = some row ∧
        row.canonical = true ∧ row.payload = p ∧
        ∀ k' row', (reached chainId market calls).snapshots.get? k' = some row' →
          row'.canonical = true → k'.1 ≤ k.1) ∧
    (∀ key row, (reached chainId market calls).market.claims.get? key = some row →
      (row.canonical = true ↔
        Standing ((Machine.history (step chainId) (fresh market) calls).map (·.action)) key
          row.blockNumber)) ∧
    (∀ call e, step chainId call (reached chainId market calls) = .error e →
      reached chainId market (calls ++ [call]) = reached chainId market calls) := by
  have hholds : Holds (reached chainId market calls) :=
    Machine.exec_invariant (fun _ _ _ hP hstep => step_holds hP hstep) (fresh_holds market) calls
  refine ⟨fun call s' hstep hchange => step_version hstep hchange, hholds.versions,
    hholds.heights, fun p => latest_eq_some_iff hholds,
    fun key row hrow => claim_canonical_iff chainId market calls key row hrow, ?_⟩
  intro call e he
  rw [reached, Machine.exec_append]
  exact Machine.apply_error he

end Projector
end AlphaForge
