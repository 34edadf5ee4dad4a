/-
What readers of the index can rely on.

Whatever calls there were, what is shown of a contract is what the integration makes of
the events that are stored now, the stored blocks go from the deployment to the checkpoint
without a gap, a call whose lease was taken over never writes again, and a block that a
call has to reach is not forgotten.
-/
import AlphaForge.Indexer.ChainSync.Fenced

namespace AlphaForge
namespace ChainSync

open Evm ChainStore Database Machine

variable {integration : Integration} {id : Int} {contract : Address} {chain : List Recording}
  {db db' : Database} {deployed : Int × Address → Integration} {uuid : Nat → String}
  {s s' : State}

/-! ## Projections -/

theorem Indexed.atBlock (h : Indexed integration id contract chain db) {row : CheckpointRow}
    (hrow : db.checkpoints.get? (id, contract) = some row) :
    ∃ last, chain.getLast? = some last ∧ row.place = ⟨last.block.number, last.block.hash⟩ ∧
      AtBlock id contract last.block db := by
  have hcheckpoint := h.holds.checkpoint
  have hplace := checkpointAt_row hrow
  rw [hplace, eq_comm, Option.map_eq_some_iff] at hcheckpoint
  obtain ⟨last, hlast, heq⟩ := hcheckpoint
  refine ⟨last, hlast, heq.symm, ?_, last.events.length, h.rows last (List.mem_of_getLast? hlast)⟩
  rw [hplace, ← heq]

theorem get?_shown (owner : Address) (projectionKey : String) :
    OrderedMap.get? ⟨id, owner, contract, projectionKey⟩ (shown id contract db) =
      db.projections.get? ⟨id, owner, contract, projectionKey⟩ :=
  OrderedMap.get?_filter (p := fun key => decide (key.chainId = id ∧ key.contract = contract))
    (decide_eq_true ⟨rfl, rfl⟩) db.projections

/-- What is shown for a key of a contract. -/
def shownFor (id : Int) (contract owner : Address) (projectionKey : String)
    (entries : OrderedMap ProjectionKey ProjectionRow) : Option ProductProjection :=
  (entries.get? ⟨id, owner, contract, projectionKey⟩).map fun row =>
    ⟨id, owner, contract, projectionKey, row.blockNumber, row.blockHash, row.state⟩

theorem Indexed.projection (h : Indexed integration id contract chain db)
    (hid : 0 < id ∧ id ≤ Json.maxSafeInteger) (owner : Address) (projectionKey : String) :
    db.projection id owner contract projectionKey = .error "CHAIN_SYNC_UNHEALTHY" ∨
      db.projection id owner contract projectionKey = .ok none ∧
        db.checkpoints.get? (id, contract) = none ∨
      ∃ block entries, AtBlock id contract block db ∧
        rebuilt integration id contract db block = .ok entries ∧
        db.projection id owner contract projectionKey =
          .ok (shownFor id contract owner projectionKey entries) := by
  have hchain : chainId id = .ok id := chainId_eq_ok.mpr ⟨hid, rfl⟩
  unfold Database.projection
  rw [hchain, ok_bind]
  dsimp only
  cases hlease : db.leases.get? (id, contract) with
  | some lease => exact Or.inl rfl
  | none =>
      rw [check_of Option.isNone_none, ok_bind]
      cases hrow : db.checkpoints.get? (id, contract) with
      | none =>
          refine Or.inr (Or.inl ⟨?_, rfl⟩)
          have hnil : chain = [] := by
            have hcheckpoint := h.holds.checkpoint
            rw [checkpointAt, show db.log.checkpoints = db.checkpoints from rfl, hrow,
              Option.map_none, eq_comm, Option.map_eq_none_iff] at hcheckpoint
            exact List.getLast?_eq_none_iff.mp hcheckpoint
          have hnone : db.projections.get? ⟨id, owner, contract, projectionKey⟩ = none := by
            have hempty : shown id contract db = [] := by
              refine List.eq_nil_iff_forall_not_mem.mpr fun e he => ?_
              obtain ⟨r, hr, _⟩ := h.known e he
              rw [hnil] at hr
              cases hr
            rw [← get?_shown, hempty]
            rfl
          rw [hnone]
          rfl
      | some row =>
          dsimp only
          rw [check_of ((h.row row hrow).health), ok_bind]
          cases hhealthy : row.syncHealthy with
          | false => exact Or.inl rfl
          | true =>
              have hprojected := (h.row row hrow).settled hhealthy
              obtain ⟨last, hlast, _, hat⟩ := h.atBlock hrow
              refine Or.inr (Or.inr ⟨last.block, shown id contract db, hat,
                h.built row last hrow hprojected hlast, ?_⟩)
              rw [check_of (show true = true from rfl), ok_bind, check_of hprojected, ok_bind, shownFor, get?_shown]
              rfl

/-- After any calls, nothing is shown of a contract that is behind or synchronized, and
what is shown is exactly what a rebuild from the stored events at the checkpoint gives. -/
theorem projection_rebuilt (huuid : Function.Injective uuid) (actions : List Action)
    (hid : 0 < id ∧ id ≤ Json.maxSafeInteger) (contract owner : Address) (projectionKey : String) :
    let db := (exec (step deployed uuid) start actions).db
    db.projection id owner contract projectionKey = .error "CHAIN_SYNC_UNHEALTHY" ∨
      db.projection id owner contract projectionKey = .ok none ∧
        db.checkpoints.get? (id, contract) = none ∨
      ∃ block entries, AtBlock id contract block db ∧
        rebuilt (deployed (id, contract)) id contract db block = .ok entries ∧
        db.projection id owner contract projectionKey =
          .ok (shownFor id contract owner projectionKey entries) := by
  intro db
  obtain ⟨chain, hchain⟩ := (run_fenced huuid actions).indexed id contract
  exact hchain.projection hid owner projectionKey

/-- A process is stopped while it waits for the block, and another one stores it. -/
def stoppedOnce : List Action :=
  [.syncTo (headRequest 5), .turn 0 .rebuilt, .turn 0 .rebuilt, .turn 0 .rebuilt,
    .syncTo (headRequest 5), .turn 1 .rebuilt, .turn 0 (.block (some ⟨5, 2, 1, 0⟩)), .crash 0,
    .turn 0 .rebuilt, .turn 0 .rebuilt, .turn 0 (.block (some ⟨5, 2, 1, 0⟩)), .turn 0 (.logs []),
    .turn 0 .rebuilt, .turn 0 .rebuilt, .turn 0 .rebuilt]

theorem projection_rebuilt_stopped :
    let db := (exec (step silent countedToken) start stoppedOnce).db
    db.projection 46630 9 7 "vault" = .error "CHAIN_SYNC_UNHEALTHY" ∨
      db.projection 46630 9 7 "vault" = .ok none ∧ db.checkpoints.get? (46630, 7) = none ∨
      ∃ block entries, AtBlock 46630 7 block db ∧
        rebuilt (silent (46630, 7)) 46630 7 db block = .ok entries ∧
        db.projection 46630 9 7 "vault" = .ok (shownFor 46630 7 9 "vault" entries) :=
  projection_rebuilt countedToken_injective stoppedOnce (by decide) 7 9 "vault"

/-! ## The stored chain -/

/-- What is canonical of a contract, without a gap up to the checkpoint. -/
structure Gapless (deploymentBlock : Int) (id : Int) (contract : Address) (db : Database) : Prop where
  /-- At each height there is one block, from the deployment to the checkpoint. -/
  blocks : ∀ c ∈ checkpointAt db.log id contract,
    db.CanonicalAt id contract c.blockNumber c.blockHash ∧
      ∀ n, deploymentBlock ≤ n → n ≤ c.blockNumber → ∃! hash, db.CanonicalAt id contract n hash
  bounds : ∀ n hash, db.CanonicalAt id contract n hash → deploymentBlock ≤ n ∧
    ∃ c ∈ checkpointAt db.log id contract, n ≤ c.blockNumber
  parents : ∀ key row, (key, row) ∈ db.blocks → isCanonicalBlock id contract (key, row) = true →
    deploymentBlock < key.number → db.CanonicalAt id contract (key.number - 1) row.parentHash
  events : ∀ key row, (key, row) ∈ db.events → isCanonicalEvent id contract (key, row) = true →
    db.CanonicalAt id contract row.blockNumber row.blockHash
  logCounts : ∀ key row, (key, row) ∈ db.blocks → isCanonicalBlock id contract (key, row) = true →
    (db.events.filter (fun e => isCanonicalEvent id contract e ∧
      e.2.blockNumber = key.number)).length = row.logCount

/-- A block of the chain is the canonical one of its number. -/
theorem Indexed.canonicalAt_iff (h : Indexed integration id contract chain db) {number : Int}
    {hash : Bytes32} :
    db.CanonicalAt id contract number hash ↔
      ∃ r ∈ chain, r.block.number = number ∧ r.block.hash = hash := by
  refine ⟨h.canonicalAt, ?_⟩
  rintro ⟨r, hr, rfl, rfl⟩
  obtain ⟨row, hrow, hcanonical⟩ := (h.holds.blocks _).mpr ⟨r, hr, rfl⟩
  exact ⟨row, (OrderedMap.mem_iff_get? h.holds.blockKeys).mpr hrow, hcanonical⟩

theorem Indexed.stored_row (h : Indexed integration id contract chain db) {key : BlockKey}
    {row : BlockRow} (hmem : (key, row) ∈ db.blocks)
    (hcanonical : isCanonicalBlock id contract (key, row) = true) :
    ∃ r ∈ chain, key = blockKey id contract r.block ∧
      row = ⟨r.block.parentHash, r.block.timestamp, r.events.length, true⟩ := by
  have hget : db.blocks.get? key = some row := (OrderedMap.mem_iff_get? h.holds.blockKeys).mp hmem
  obtain ⟨r, hr, rfl⟩ := (h.holds.blocks key).mp ⟨row, hget, hcanonical⟩
  exact ⟨r, hr, rfl, Option.some.inj (hget.symm.trans (h.rows r hr))⟩

/-- The blocks of a linked chain have the numbers from the first to the last, each once. -/
theorem Linked.numbers {deploymentBlock : Int} {chain : List Recording}
    (h : Linked deploymentBlock chain) {i : Nat} {r : Recording} (hr : chain[i]? = some r) :
    r.block.number = deploymentBlock + i := by
  induction i generalizing r with
  | zero =>
      rw [← List.head?_eq_getElem?] at hr
      rw [h.first r hr]
      simp
  | succ i ih =>
      have hlt : i + 1 < chain.length := (List.getElem?_eq_some_iff.mp hr).1
      have hprevious : chain[i]? = some chain[i] := List.getElem?_eq_getElem (by omega)
      have hnext := List.isChain_iff_getElem.mp h.next i hlt
      have hnumber := ih hprevious
      have hsame : chain[i + 1] = r := (List.getElem?_eq_some_iff.mp hr).2
      rw [hsame] at hnext
      rw [hnext.1, hnumber]
      push_cast
      omega

theorem Linked.find {deploymentBlock n : Int} {chain : List Recording}
    (h : Linked deploymentBlock chain) {last : Recording} (hlast : chain.getLast? = some last)
    (hlow : deploymentBlock ≤ n) (hhigh : n ≤ last.block.number) :
    ∃ (i : Nat) (r : Recording), chain[i]? = some r ∧ r.block.number = n := by
  have hne : chain ≠ [] := by
    rintro rfl
    cases hlast
  have hpos : 0 < chain.length := List.length_pos_iff.mpr hne
  rw [List.getLast?_eq_getElem?] at hlast
  have hnumber := h.numbers hlast
  obtain ⟨i, hi⟩ := Int.le.dest hlow
  have hbound : i < chain.length := by omega
  have hget : chain[i]? = some chain[i] := List.getElem?_eq_getElem hbound
  exact ⟨i, chain[i], hget, (h.numbers hget).trans hi⟩

theorem Indexed.logCount (h : Indexed integration id contract chain db) {r : Recording}
    (hr : r ∈ chain) :
    (db.events.filter (fun e => isCanonicalEvent id contract e ∧
      e.2.blockNumber = r.block.number)).length = r.events.length := by
  have hmem : ∀ key, key ∈ (db.events.filter (fun e => isCanonicalEvent id contract e ∧
      e.2.blockNumber = r.block.number)).map Prod.fst ↔ key ∈ r.events.map (eventKey id) := by
    intro key
    simp only [List.mem_map, List.mem_filter, decide_eq_true_eq, Prod.exists, exists_and_right,
      exists_eq_right]
    constructor
    · rintro ⟨row, hrow, hcanonical, hnumber⟩
      obtain ⟨r', hr', e, he, hkey, hwritten⟩ := (h.holds.events key row).mp
        ⟨(OrderedMap.mem_iff_get? h.holds.eventKeys).mp hrow, hcanonical⟩
      have hsame : r'.block.number = r.block.number :=
        (eventRow_eq_ok hwritten).2.1.symm.trans hnumber
      obtain rfl := number_unique h.holds.increasing hr' hr hsame
      exact ⟨e, he, hkey.symm⟩
    · rintro ⟨e, he, rfl⟩
      obtain ⟨_, _, json, hjson⟩ := validateEvent_eq_ok ((h.valid r hr).1 e he)
      obtain ⟨row, hwritten⟩ := eventRow_of_fingerprint hjson contract r.block.number
      obtain ⟨hget, hcanonical⟩ := (h.holds.events _ row).mpr ⟨r, hr, e, he, rfl, hwritten⟩
      exact ⟨row, (OrderedMap.mem_iff_get? h.holds.eventKeys).mpr hget, hcanonical,
        (eventRow_eq_ok hwritten).2.1⟩
  have hkeys : ((db.events.filter (fun e => isCanonicalEvent id contract e ∧
      e.2.blockNumber = r.block.number)).map Prod.fst).Nodup :=
    OrderedMap.nodup_keys_filter h.holds.eventKeys _
  have hperm := (List.perm_ext_iff_of_nodup hkeys (h.valid r hr).2).mpr hmem
  rw [← List.length_map (f := Prod.fst), hperm.length_eq, List.length_map]

theorem Indexed.gapless (h : Indexed integration id contract chain db) :
    Gapless integration.deploymentBlock id contract db := by
  refine ⟨fun c hc => ⟨?_, fun n hlow hhigh => ?_⟩, fun n hash hat => ?_,
    fun key row hmem hcanonical hlow => ?_, fun key row hmem hcanonical => ?_,
    fun key row hmem hcanonical => ?_⟩
  · rw [h.holds.checkpoint, Option.mem_def, Option.map_eq_some_iff] at hc
    obtain ⟨last, hlast, rfl⟩ := hc
    exact h.canonicalAt_iff.mpr ⟨last, List.mem_of_getLast? hlast, rfl, rfl⟩
  · rw [h.holds.checkpoint, Option.mem_def, Option.map_eq_some_iff] at hc
    obtain ⟨last, hlast, rfl⟩ := hc
    obtain ⟨i, r, hi, hnumber⟩ := h.linked.find hlast hlow hhigh
    have hr := List.mem_of_getElem? hi
    refine ⟨r.block.hash, h.canonicalAt_iff.mpr ⟨r, hr, hnumber, rfl⟩, fun hash hat => ?_⟩
    obtain ⟨r', hr', hnumber', rfl⟩ := h.canonicalAt_iff.mp hat
    rw [number_unique h.holds.increasing hr' hr (hnumber'.trans hnumber.symm)]
  · obtain ⟨r, hr, rfl, _⟩ := h.canonicalAt_iff.mp hat
    refine ⟨?_, h.holds.checkpoint_ge hr⟩
    obtain ⟨i, hi⟩ := List.mem_iff_getElem?.mp hr
    rw [h.linked.numbers hi]
    omega
  · obtain ⟨r, hr, hkey, hrow⟩ := h.stored_row hmem hcanonical
    obtain ⟨i, hi⟩ := List.mem_iff_getElem?.mp hr
    have hnumber : key.number = r.block.number := congrArg BlockKey.number hkey
    cases i with
    | zero =>
        have hfirst := h.linked.numbers hi
        simp only [Nat.cast_zero] at hfirst
        omega
    | succ i =>
        have hlt : i + 1 < chain.length := (List.getElem?_eq_some_iff.mp hi).1
        have hprevious : chain[i] ∈ chain := List.getElem_mem (by omega)
        have hnext := List.isChain_iff_getElem.mp h.linked.next i hlt
        have hsame : chain[i + 1] = r := (List.getElem?_eq_some_iff.mp hi).2
        rw [hsame] at hnext
        refine h.canonicalAt_iff.mpr ⟨chain[i], hprevious, ?_, ?_⟩
        · rw [hnumber, hnext.1]
          omega
        · rw [hrow]
          exact hnext.2.symm
  · obtain ⟨r, hr, e, he, _, hwritten⟩ := (h.holds.events key row).mp
      ⟨(OrderedMap.mem_iff_get? h.holds.eventKeys).mp hmem, hcanonical⟩
    refine h.canonicalAt_iff.mpr ⟨r, hr, (eventRow_eq_ok hwritten).2.1.symm, ?_⟩
    have hvalid := (h.valid r hr).1 e he
    simp only [validateEvent, bind_eq_ok, check_eq_ok] at hvalid
    obtain ⟨_, ⟨_, _, _, hhash, _⟩, _⟩ := hvalid
    simp only [eventRow, bind_eq_ok, pure_eq_ok] at hwritten
    obtain ⟨_, _, _, _, rfl⟩ := hwritten
    exact hhash.symm
  · obtain ⟨r, hr, rfl, rfl⟩ := h.stored_row hmem hcanonical
    exact h.logCount hr

/-- After any calls, the canonical blocks of a contract go from its deployment to its
checkpoint, each on its parent and with the events it was recorded with. -/
theorem stored_chain_gapless (huuid : Function.Injective uuid) (actions : List Action) (id : Int)
    (contract : Address) :
    Gapless (deployed (id, contract)).deploymentBlock id contract
      (exec (step deployed uuid) start actions).db := by
  obtain ⟨chain, hchain⟩ := (run_fenced huuid actions).indexed id contract
  exact hchain.gapless

theorem stored_chain_gapless_stopped :
    Gapless (silent (46630, 7)).deploymentBlock 46630 7
      (exec (step silent countedToken) start stoppedOnce).db :=
  stored_chain_gapless countedToken_injective stoppedOnce 46630 7

end ChainSync
end AlphaForge
