/-
What a claim means for the calls before it, and for those after.

A call whose lease was claimed by another one goes on until it notices, and writes nothing
in the meantime.  The block that a claim asked for stays the block to reach, whoever
claims next, until a call has reached it or has found that the chain left the stored
blocks.
-/
import AlphaForge.Indexer.ChainSync.Fenced

namespace AlphaForge
namespace ChainSync

open Evm ChainStore Database Machine

variable {deployed : Int × Address → Integration} {uuid : Nat → String} {s s' : State}
  {key : Int × Address} {token : String} {target : Int} {db : Database}

theorem syncTo_leases {request : SyncRequest} (hs : syncTo deployed uuid request s = .ok s')
    (key : Int × Address) : s'.db.leases.get? key =
      if key = (request.chainId, request.contract) then
        some ⟨uuid s.drawn, request.requiredTarget⟩ else s.db.leases.get? key := by
  obtain ⟨_, hclaim, rfl⟩ := syncTo_ok hs
  exact claimSync_leases hclaim key

theorem syncTo_calls {request : SyncRequest} (hs : syncTo deployed uuid request s = .ok s')
    {call : SyncCall} (hcall : call ∈ s'.calls) :
    call ∈ s.calls ∨ call.ownerToken = uuid s.drawn := by
  obtain ⟨_, _, rfl⟩ := syncTo_ok hs
  rcases List.mem_append.mp hcall with hold | hself
  · exact Or.inl hold
  · rw [List.mem_singleton.mp hself]
    exact Or.inr rfl

/-- The database after a turn, and the calls that are left. -/
theorem turn_advances (h : Fenced deployed uuid s) {place : Nat} {answer : Answer}
    (hs : step deployed uuid (.turn place answer) s = .ok s') :
    (∃ call ∈ s.calls, ∃ next,
        call.Advances (deployed (call.chainId, call.contract)) s.db s'.db next) ∧
      s'.drawn = s.drawn ∧ ∀ call ∈ s'.calls, ∃ old ∈ s.calls,
        call.ownerToken = old.ownerToken ∧
          (call.chainId, call.contract) = (old.chainId, old.contract) := by
  simp only [step] at hs
  split at hs
  · cases hs
  · next call hcall =>
    have hmem := List.mem_of_getElem? hcall
    split at hs
    · next db phase hresume =>
      obtain rfl := Except.ok.inj hs
      refine ⟨⟨call, hmem, _, h.resumed hmem hresume⟩, rfl, fun c hc => ?_⟩
      rcases List.mem_or_eq_of_mem_set hc with hold | rfl
      · exact ⟨c, hold, rfl, rfl⟩
      · exact ⟨call, hmem, rfl, rfl⟩
    · next db failure hresume =>
      obtain rfl := Except.ok.inj hs
      exact ⟨⟨call, hmem, _, h.resumed hmem hresume⟩, rfl,
        fun c hc => ⟨c, List.mem_of_mem_eraseIdx hc, rfl, rfl⟩⟩
    · obtain rfl := Except.ok.inj hs
      exact ⟨⟨call, hmem, .done none, Or.inr ⟨rfl, by simp⟩⟩, rfl,
        fun c hc => ⟨c, List.mem_of_mem_eraseIdx hc, rfl, rfl⟩⟩

/-! ## The calls before -/

/-- The token was drawn for a call of the contract that does not hold the lease. -/
structure Lost (uuid : Nat → String) (key : Int × Address) (token : String) (s : State) : Prop where
  drawn : ∃ n < s.drawn, token = uuid n
  free : ¬ s.db.HeldBy key token
  calls : ∀ call ∈ s.calls, call.ownerToken = token → (call.chainId, call.contract) = key

theorem step_lost (huuid : Function.Injective uuid) {action : Action} (h : Fenced deployed uuid s)
    (hlost : Lost uuid key token s) (hs : step deployed uuid action s = .ok s') :
    Lost uuid key token s' := by
  obtain ⟨n, hn, htoken⟩ := hlost.drawn
  cases action with
  | syncTo request =>
      have hne : uuid s.drawn ≠ token := by
        intro hsame
        exact absurd (huuid (hsame.trans htoken)) (Nat.ne_of_gt hn)
      have hdrawn : s'.drawn = s.drawn + 1 := by
        obtain ⟨_, _, rfl⟩ := syncTo_ok hs
        rfl
      refine ⟨⟨n, by omega, htoken⟩, ?_, fun call hcall hsame => ?_⟩
      · rintro ⟨lease, hlease, hheld⟩
        rw [syncTo_leases hs] at hlease
        split at hlease
        · rw [← Option.some.inj hlease] at hheld
          exact hne hheld
        · exact hlost.free ⟨lease, hlease, hheld⟩
      · rcases syncTo_calls hs hcall with hold | hself
        · exact hlost.calls call hold hsame
        · exact absurd (hself.symm.trans hsame) hne
  | turn place answer =>
      obtain ⟨⟨call, _, next, hadvances⟩, hdrawn, hcalls⟩ := turn_advances h hs
      refine ⟨⟨n, by omega, htoken⟩, ?_, fun c hc hsame => ?_⟩
      · rintro ⟨lease, hlease, hheld⟩
        exact hlost.free ⟨lease, hadvances.leases hlease, hheld⟩
      · obtain ⟨old, hold, htokens, hkeys⟩ := hcalls c hc
        rw [hkeys]
        exact hlost.calls old hold (htokens ▸ hsame)
  | crash place =>
      obtain rfl := Except.ok.inj hs
      exact ⟨hlost.drawn, hlost.free, fun c hc => hlost.calls c (List.mem_of_mem_eraseIdx hc)⟩
  | operations operations =>
      obtain rfl := Except.ok.inj hs
      exact ⟨hlost.drawn, hlost.free, hlost.calls⟩

/-- A call that does not hold the lease only reads. -/
theorem Lost.reads (h : Fenced deployed uuid s) (hlost : Lost uuid key token s) {call : SyncCall}
    (hcall : call ∈ s.calls) (htoken : call.ownerToken = token) {answer : Answer} {next : Next}
    (hs : resume (deployed (call.chainId, call.contract)) call answer s.db = .ok (db, next)) :
    db = s.db := by
  rcases h.resumed hcall hs with hwrote | ⟨hdb, _⟩
  · have hheld := hwrote.held
    rw [hlost.calls call hcall htoken, htoken] at hheld
    exact absurd hheld hlost.free
  · exact hdb

/-- The calls that were there when another one claimed their contract leave the database
alone from then on, whatever they are answered. -/
theorem superseded_never_writes (huuid : Function.Injective uuid) {before : List Action}
    {request : SyncRequest} {claimed : State} {call : SyncCall}
    (hcall : call ∈ (exec (step deployed uuid) start before).calls)
    (hkey : (call.chainId, call.contract) = (request.chainId, request.contract))
    (hclaimed : syncTo deployed uuid request (exec (step deployed uuid) start before) =
      .ok claimed) (later : List Action) :
    let s := exec (step deployed uuid) start (before ++ .syncTo request :: later)
    ∀ other ∈ s.calls, other.ownerToken = call.ownerToken → ∀ answer db next,
      resume (deployed (other.chainId, other.contract)) other answer s.db = .ok (db, next) →
        db = s.db := by
  intro s other hother htoken answer db next hresume
  have hbefore : Fenced deployed uuid (exec (step deployed uuid) start before) :=
    run_fenced huuid before
  have hnew : ∀ n < (exec (step deployed uuid) start before).drawn,
      uuid n ≠ uuid (exec (step deployed uuid) start before).drawn :=
    fun n hn hsame => absurd (huuid hsame) (Nat.ne_of_lt hn)
  obtain ⟨n, hn, hcalltoken⟩ := hbefore.calls call hcall
  have hlost : Lost uuid (call.chainId, call.contract) call.ownerToken claimed := by
    obtain ⟨db, hclaim, hdb⟩ := syncTo_ok hclaimed
    refine ⟨⟨n, hdb ▸ Nat.lt_succ_of_lt hn, hcalltoken⟩, ?_, fun c hc hsame => ?_⟩
    · rintro ⟨lease, hlease, hheld⟩
      rw [syncTo_leases hclaimed, if_pos hkey] at hlease
      rw [← Option.some.inj hlease, hcalltoken] at hheld
      exact hnew n hn hheld.symm
    · rcases syncTo_calls hclaimed hc with hold | hself
      · have heq := List.inj_on_of_nodup_map hbefore.distinct hold hcall hsame
        rw [heq]
      · rw [hself, hcalltoken] at hsame
        exact absurd hsame.symm (hnew n hn)
  have hrun : s = exec (step deployed uuid) claimed later := by
    show exec (step deployed uuid) start (before ++ .syncTo request :: later) = _
    have hstep : step deployed uuid (.syncTo request) (exec (step deployed uuid) start before) =
        .ok claimed := hclaimed
    rw [exec_append, exec_cons, apply_ok hstep]
  have hkept : Fenced deployed uuid (exec (step deployed uuid) claimed later) ∧
      Lost uuid (call.chainId, call.contract) call.ownerToken
        (exec (step deployed uuid) claimed later) :=
    exec_invariant (P := fun s => Fenced deployed uuid s ∧
        Lost uuid (call.chainId, call.contract) call.ownerToken s)
      (fun _ _ _ h hs => ⟨step_fenced huuid h.1 hs, step_lost huuid h.1 h.2 hs⟩)
      ⟨hbefore.claimed huuid hclaimed, hlost⟩ later
  rw [← hrun] at hkept
  exact hkept.2.reads hkept.1 hother htoken hresume

def firstCall : SyncCall := ⟨46630, 7, 5, 5, 10, 3, countedToken 0, .rewind⟩

/-- A second call claims for a later head. -/
theorem second_claims : firstCall ∈
      (exec (step silent countedToken) start [.syncTo (headRequest 5)]).calls ∧
    ∃ claimed, syncTo silent countedToken (headRequest 6)
      (exec (step silent countedToken) start [.syncTo (headRequest 5)]) = .ok claimed :=
  ⟨List.mem_singleton_self firstCall, _, rfl⟩

theorem superseded_never_writes_second : ∃ claimed,
    syncTo silent countedToken (headRequest 6)
      (exec (step silent countedToken) start [.syncTo (headRequest 5)]) = .ok claimed ∧
    let s := exec (step silent countedToken) start
      ([.syncTo (headRequest 5)] ++ .syncTo (headRequest 6) :: [.turn 0 .rebuilt])
    ∀ other ∈ s.calls, other.ownerToken = firstCall.ownerToken → ∀ answer db next,
      resume (silent (other.chainId, other.contract)) other answer s.db = .ok (db, next) →
        db = s.db := by
  obtain ⟨hcall, claimed, hclaimed⟩ := second_claims
  exact ⟨claimed, hclaimed,
    superseded_never_writes countedToken_injective hcall rfl hclaimed [.turn 0 .rebuilt]⟩

/-! ## The block to reach -/

/-- The contract still has to reach the block: its lease says so, or what a call that gave
the lease back has left. -/
def Pending (key : Int × Address) (target : Int) (db : Database) : Prop :=
  (∃ lease, db.leases.get? key = some lease ∧ target ≤ lease.targetBlock) ∨
    db.leases.get? key = none ∧ ∃ row, db.checkpoints.get? key = some row ∧
      row.syncHealthy = false ∧ ∃ later ∈ row.syncTarget, target ≤ later

/-- A call has reached the block, or found that the chain left the stored ones. -/
def Settled (key : Int × Address) (target : Int) (db : Database) : Prop :=
  db.leases.get? key = none ∧ ∃ row, db.checkpoints.get? key = some row ∧
    ((row.syncHealthy = true ∧ target ≤ row.blockNumber) ∨
      row.syncError = some "CHAIN_REORG_DEPTH_EXCEEDED" ∨
        row.syncError = some "CHAIN_REORG_NO_COMMON_ANCESTOR")

theorem Pending.untouched {db' : Database} (h : Pending key target db)
    (hu : Untouched key.1 key.2 db db') : Pending key target db' := by
  unfold Pending
  rw [hu.lease, hu.row]
  exact h

theorem Advances.pending {integration : Integration} {id : Int} {contract : Address} {next : Next}
    {db' : Database} (h : Advances integration id contract token db db' next)
    (hpending : Pending key target db) : Pending key target db' ∨ Settled key target db' := by
  rcases h with hwrote | ⟨rfl, _⟩
  · by_cases hkey : key = (id, contract)
    · subst hkey
      obtain ⟨held, hheld, _⟩ := hwrote.held
      have htarget : target ≤ held.targetBlock := by
        rcases hpending with ⟨lease, hlease, hle⟩ | ⟨hnone, _⟩
        · rw [hheld, Option.some.injEq] at hlease
          exact hlease ▸ hle
        · rw [hheld] at hnone
          cases hnone
      cases hlease : db'.leases.get? (id, contract) with
      | some lease =>
          have hold := hwrote.leases lease hlease
          rw [hheld, Option.some.injEq] at hold
          exact Or.inl (Or.inl ⟨lease, hlease, hold ▸ htarget⟩)
      | none =>
          obtain ⟨row, hrow, hreleased⟩ := hwrote.released held hheld hlease
          rcases hreleased with ⟨hfalse, later, hlater, hle⟩ | ⟨htrue, hle⟩ | hreorg
          · exact Or.inl (Or.inr ⟨hlease, row, hrow, hfalse, later, hlater,
              Int.le_trans htarget hle⟩)
          · exact Or.inr ⟨hlease, row, hrow, Or.inl ⟨htrue, Int.le_trans htarget hle⟩⟩
          · exact Or.inr ⟨hlease, row, hrow, Or.inr hreorg⟩
    · exact Or.inl (hpending.untouched (hwrote.others key.1 key.2 hkey))
  · exact Or.inl hpending

/-- Who claims has to claim for no lower block. -/
theorem syncTo_pending {request : SyncRequest} (hs : syncTo deployed uuid request s = .ok s')
    (hpending : Pending key target s.db) : Pending key target s'.db := by
  by_cases hkey : key = (request.chainId, request.contract)
  · have hle : target ≤ request.requiredTarget := by
      obtain ⟨_, hclaim, _⟩ := syncTo_ok hs
      obtain ⟨_, hrequired, _⟩ := claimSync_ok hclaim
      subst hkey
      rcases hpending with ⟨lease, hlease, hle⟩ | ⟨_, row, hrow, _, later, hlater, hle⟩
      · exact Int.le_trans hle (Int.le_trans (lease_le_requiredTarget hlease) hrequired)
      · exact Int.le_trans hle (Int.le_trans (row_le_requiredTarget hrow hlater) hrequired)
    refine Or.inl ⟨⟨uuid s.drawn, request.requiredTarget⟩, ?_, hle⟩
    rw [syncTo_leases hs, if_pos hkey]
  · refine hpending.untouched ?_
    obtain ⟨_, hclaim, rfl⟩ := syncTo_ok hs
    exact claimSync_untouched hkey hclaim

theorem step_pending {action : Action} (h : Fenced deployed uuid s)
    (hpending : Pending key target s.db) (hs : step deployed uuid action s = .ok s') :
    Pending key target s'.db ∨ Settled key target s'.db := by
  cases action with
  | syncTo request => exact Or.inl (syncTo_pending hs hpending)
  | turn place answer =>
      obtain ⟨⟨call, _, next, hadvances⟩, _⟩ := turn_advances h hs
      exact ChainSync.Advances.pending hadvances hpending
  | crash place =>
      obtain rfl := Except.ok.inj hs
      exact Or.inl hpending
  | operations operations =>
      obtain rfl := Except.ok.inj hs
      exact Or.inl hpending

/-- Until then the contract is not healthy, and its target is no lower. -/
theorem Pending.reported {id : Int} {contract : Address} (h : Fenced deployed uuid s)
    (hid : 0 < id ∧ id ≤ Json.maxSafeInteger) (hpending : Pending (id, contract) target s.db) :
    s.db.syncHealth id contract = .ok ⟨false, some "CHAIN_SYNC_INCOMPLETE"⟩ ∧
      ∃ later, s.db.syncTarget id contract = .ok (some later) ∧ target ≤ later := by
  have hchain : chainId id = .ok id := chainId_eq_ok.mpr ⟨hid, rfl⟩
  rw [syncHealth, syncTarget, hchain, ok_bind, ok_bind]
  rcases hpending with ⟨lease, hlease, hle⟩ | ⟨hnone, row, hrow, hfalse, later, hlater, hle⟩
  · rw [hlease]
    exact ⟨rfl, lease.targetBlock, rfl, hle⟩
  · obtain ⟨chain, hindexed⟩ := h.indexed id contract
    have hvalid := (hindexed.row row hrow).health
    rw [hnone, hrow]
    refine ⟨?_, later, congrArg Except.ok hlater, hle⟩
    have herror : row.syncError = some "CHAIN_SYNC_INCOMPLETE" := by
      rw [Option.mem_def] at hlater
      simpa [healthValid, hfalse, hlater] using hvalid
    show (do check (healthValid row = true) "CORRUPT_CHAIN_DATABASE"
             return ⟨row.syncHealthy, row.syncError⟩ : Except String ChainSyncHealth) = _
    rw [check_of hvalid, hfalse, herror]
    rfl

/-- After a claim the contract is reported as incomplete, with a target that is no lower,
until some step has settled the claim. -/
theorem target_kept (huuid : Function.Injective uuid) {before : List Action}
    {request : SyncRequest} {claimed : State}
    (hclaimed : syncTo deployed uuid request (exec (step deployed uuid) start before) =
      .ok claimed) (later : List Action) :
    let db := (exec (step deployed uuid) claimed later).db
    (db.syncHealth request.chainId request.contract = .ok ⟨false, some "CHAIN_SYNC_INCOMPLETE"⟩ ∧
      ∃ target, db.syncTarget request.chainId request.contract = .ok (some target) ∧
        request.requiredTarget ≤ target) ∨
    ∃ t ∈ history (step deployed uuid) claimed later,
      Settled (request.chainId, request.contract) request.requiredTarget t.post.db := by
  have hfenced : Fenced deployed uuid claimed :=
    (run_fenced huuid before).claimed huuid hclaimed
  have hid : 0 < request.chainId ∧ request.chainId ≤ Json.maxSafeInteger := by
    obtain ⟨_, hclaim, _⟩ := syncTo_ok hclaimed
    exact (claimSync_ok hclaim).1
  by_cases hsettled : ∃ t ∈ history (step deployed uuid) claimed later,
      Settled (request.chainId, request.contract) request.requiredTarget t.post.db
  · exact Or.inr hsettled
  · have hfirst : Pending (request.chainId, request.contract) request.requiredTarget
        claimed.db := by
      have hlease := syncTo_leases hclaimed (request.chainId, request.contract)
      rw [if_pos rfl] at hlease
      exact Or.inl ⟨_, hlease, Int.le_refl request.requiredTarget⟩
    have hkept : ∀ t ∈ history (step deployed uuid) claimed later,
        Fenced deployed uuid t.pre ∧
            Pending (request.chainId, request.contract) request.requiredTarget t.pre.db →
          Fenced deployed uuid t.post ∧
            Pending (request.chainId, request.contract) request.requiredTarget t.post.db := by
      intro t ht hpre
      have hstep := history_step ht
      refine ⟨step_fenced huuid hpre.1 hstep, ?_⟩
      rcases step_pending hpre.1 hpre.2 hstep with hpending | hdone
      · exact hpending
      · exact absurd ⟨t, ht, hdone⟩ hsettled
    obtain ⟨hend, hpending⟩ := exec_kept (P := fun s => Fenced deployed uuid s ∧
      Pending (request.chainId, request.contract) request.requiredTarget s.db)
      hkept ⟨hfenced, hfirst⟩
    exact Or.inl (hpending.reported hend hid)

theorem target_kept_second : ∃ claimed, syncTo silent countedToken (headRequest 6)
      (exec (step silent countedToken) start [.syncTo (headRequest 5)]) = .ok claimed ∧
    let request := headRequest 6
    let later : List Action := [.crash 1, .syncTo (headRequest 5)]
    let db := (exec (step silent countedToken) claimed later).db
    (db.syncHealth request.chainId request.contract = .ok ⟨false, some "CHAIN_SYNC_INCOMPLETE"⟩ ∧
      ∃ target, db.syncTarget request.chainId request.contract = .ok (some target) ∧
        request.requiredTarget ≤ target) ∨
    ∃ t ∈ history (step silent countedToken) claimed later,
      Settled (request.chainId, request.contract) request.requiredTarget t.post.db := by
  obtain ⟨_, claimed, hclaimed⟩ := second_claims
  exact ⟨claimed, hclaimed, target_kept countedToken_injective hclaimed _⟩

end ChainSync
end AlphaForge
