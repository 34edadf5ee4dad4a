/-
Any number of calls on one database.

Each call draws a token that no other call has, so a call that finds its own token in the
lease is the last one that claimed it, and what it knew when it last looked still holds.
`Fenced` is that invariant, and `run_fenced` gives it after any calls, in any order, cut
and stopped anywhere.
-/
import AlphaForge.Indexer.ChainSync.Knowledge
import AlphaForge.Machine.Run

namespace AlphaForge
namespace ChainSync

open Evm ChainStore Database Machine

variable {deployed : Int × Address → Integration} {uuid : Nat → String} {s s' : State}
  {db db' : Database} {call other : SyncCall} {next : Next}

/-- What the call knows if it holds the lease, which is then for its own target. -/
def SyncCall.Informed (integration : Integration) (call : SyncCall) (db : Database) : Prop :=
  ∀ lease, db.leases.get? (call.chainId, call.contract) = some lease →
    lease.ownerToken = call.ownerToken →
      lease.targetBlock = call.requiredTarget ∧
        ChainSync.Knows integration call.chainId call.contract db call.phase

structure Fenced (deployed : Int × Address → Integration) (uuid : Nat → String) (s : State) :
    Prop where
  keyed : Keyed s.db
  indexed : ∀ id contract, ∃ chain, Indexed (deployed (id, contract)) id contract chain s.db
  calls : ∀ call ∈ s.calls, ∃ n < s.drawn, call.ownerToken = uuid n
  leases : ∀ key lease, s.db.leases.get? key = some lease →
    ∃ n < s.drawn, lease.ownerToken = uuid n
  distinct : (s.calls.map SyncCall.ownerToken).Nodup
  informed : ∀ call ∈ s.calls, call.Informed (deployed (call.chainId, call.contract)) s.db

theorem start_fenced : Fenced deployed uuid start where
  keyed := empty_keyed
  indexed := fun _ _ => ⟨[], empty_indexed⟩
  calls := nofun
  leases := nofun
  distinct := List.nodup_nil
  informed := nofun

theorem SyncCall.Informed.untouched {integration : Integration} (h : call.Informed integration db)
    (hu : Untouched call.chainId call.contract db db') (hkeyed : Keyed db) (hkeyed' : Keyed db') :
    call.Informed integration db' := by
  intro lease hlease htoken
  rw [hu.lease] at hlease
  obtain ⟨htarget, hknows⟩ := h lease hlease htoken
  exact ⟨htarget, hknows.untouched hu hkeyed hkeyed'⟩

/-! ## A stretch among the others -/

section Stretch

variable {integration : Integration} {chain : List Recording} {id : Int} {contract : Address}
  {token : String}

theorem Advances.keyed (h : Advances integration id contract token db db' next)
    (hkeyed : Keyed db) : Keyed db' := by
  rcases h with hwrote | ⟨rfl, _⟩
  · exact hwrote.keyed
  · exact hkeyed

theorem Advances.leases (h : Advances integration id contract token db db' next)
    {key : Int × Address} {lease : LeaseRow} (hlease : db'.leases.get? key = some lease) :
    db.leases.get? key = some lease := by
  rcases h with hwrote | ⟨rfl, _⟩
  · by_cases hkey : key = (id, contract)
    · subst hkey
      exact hwrote.leases lease hlease
    · rw [← (hwrote.others key.1 key.2 hkey).lease]
      exact hlease
  · exact hlease

theorem Advances.indexed (h : Advances (deployed (id, contract)) id contract token db db' next)
    (hindexed : ∀ id contract, ∃ chain, Indexed (deployed (id, contract)) id contract chain db)
    (key : Int) (address : Address) :
    ∃ chain, Indexed (deployed (key, address)) key address chain db' := by
  rcases h with hwrote | ⟨rfl, _⟩
  · by_cases hkey : (key, address) = (id, contract)
    · obtain ⟨rfl, rfl⟩ := Prod.mk.inj hkey
      exact hwrote.indexed
    · obtain ⟨chain, hchain⟩ := hindexed key address
      exact ⟨chain, hchain.untouched (hwrote.others key address hkey) hwrote.keyed⟩
  · exact hindexed key address

/-- Another call keeps what it knows, or does not hold the lease. -/
theorem Advances.others (h : Advances integration id contract token db db' next)
    (hkeyed : Keyed db) {integration' : Integration} (hother : other.Informed integration' db)
    (hne : other.ownerToken ≠ token) : other.Informed integration' db' := by
  rcases h with hwrote | ⟨rfl, _⟩
  · by_cases hkey : (other.chainId, other.contract) = (id, contract)
    · intro lease hlease htoken
      rw [hkey] at hlease
      obtain ⟨held, hheld, hsame⟩ := hwrote.held
      rw [hwrote.leases lease hlease, Option.some.injEq] at hheld
      exact absurd (htoken.symm.trans ((congrArg _ hheld).trans hsame)) hne
    · exact hother.untouched (hwrote.others _ _ hkey) hkeyed hwrote.keyed
  · exact hother

theorem SyncCall.Advances.goes {phase : Phase}
    (h : call.Advances integration db db' (.go phase))
    (hcall : call.Informed integration db) :
    ({ call with phase } : SyncCall).Informed integration db' := by
  intro lease hlease htoken
  have hold := h.leases hlease
  refine ⟨(hcall lease hold htoken).1, ?_⟩
  rcases h with hwrote | ⟨rfl, hknows⟩
  · exact hwrote.knows phase rfl
  · exact hknows phase rfl ⟨lease, hold, htoken⟩

end Stretch

/-! ## Steps -/

theorem Fenced.resumed (h : Fenced deployed uuid s) (hcall : call ∈ s.calls) {answer : Answer}
    (hs : resume (deployed (call.chainId, call.contract)) call answer s.db = .ok (db', next)) :
    call.Advances (deployed (call.chainId, call.contract)) s.db db' next := by
  obtain ⟨chain, hchain⟩ := h.indexed call.chainId call.contract
  refine resume_advances hchain h.keyed (fun lease hlease htoken => ?_) ?_ hs
  · exact (h.informed call hcall lease hlease htoken).1
  · rintro ⟨lease, hlease, htoken⟩
    exact (h.informed call hcall lease hlease htoken).2

theorem Fenced.token_ne (h : Fenced deployed uuid s) {place i : Nat}
    (hcall : s.calls[place]? = some call) (hother : s.calls[i]? = some other) (hne : i ≠ place) :
    other.ownerToken ≠ call.ownerToken := by
  intro hsame
  have hi : (s.calls.map SyncCall.ownerToken)[i]? = some call.ownerToken := by
    rw [List.getElem?_map, hother, Option.map_some, hsame]
  have hplace : (s.calls.map SyncCall.ownerToken)[place]? = some call.ownerToken := by
    rw [List.getElem?_map, hcall, Option.map_some]
  have hbound : i < (s.calls.map SyncCall.ownerToken).length :=
    (List.getElem?_eq_some_iff.mp hi).1
  exact hne (List.getElem?_inj hbound h.distinct |>.mp (hi.trans hplace.symm))

/-- The calls after a stretch: those in other places, and the call itself if it knows what
its phase needs. -/
theorem Fenced.turned (h : Fenced deployed uuid s) {place : Nat}
    (hcall : s.calls[place]? = some call)
    (hadvances : call.Advances (deployed (call.chainId, call.contract)) s.db db' next)
    {calls : List SyncCall}
    (htokens : (calls.map SyncCall.ownerToken).Sublist (s.calls.map SyncCall.ownerToken))
    (hcalls : ∀ c ∈ calls, c.Informed (deployed (c.chainId, c.contract)) db' ∨
      ∃ i, i ≠ place ∧ s.calls[i]? = some c) :
    Fenced deployed uuid { s with db := db', calls } where
  keyed := hadvances.keyed h.keyed
  indexed := hadvances.indexed h.indexed
  calls := by
    intro c hc
    obtain ⟨old, hold, hsame⟩ := List.mem_map.mp (htokens.subset (List.mem_map_of_mem hc))
    rw [← hsame]
    exact h.calls old hold
  leases := fun key lease hlease => h.leases key lease (hadvances.leases hlease)
  distinct := h.distinct.sublist htokens
  informed := by
    intro c hc
    rcases hcalls c hc with hinformed | ⟨i, hne, hi⟩
    · exact hinformed
    · exact hadvances.others h.keyed (h.informed c (List.mem_of_getElem? hi))
        (h.token_ne hcall hi hne)

theorem Fenced.goes (h : Fenced deployed uuid s) {place : Nat} {phase : Phase}
    (hcall : s.calls[place]? = some call)
    (hadvances : call.Advances (deployed (call.chainId, call.contract)) s.db db' (.go phase)) :
    Fenced deployed uuid { s with db := db', calls := s.calls.set place { call with phase } } := by
  have hsame : (s.calls.set place { call with phase }).map SyncCall.ownerToken =
      s.calls.map SyncCall.ownerToken := by
    refine List.ext_getElem? fun i => ?_
    rw [List.getElem?_map, List.getElem?_map, List.getElem?_set]
    split
    · next heq =>
      rw [← heq, if_pos (List.getElem?_eq_some_iff.mp hcall).1, hcall]
      rfl
    · rfl
  refine h.turned hcall hadvances (hsame ▸ List.Sublist.refl _) fun c hc => ?_
  obtain ⟨i, hi⟩ := List.mem_iff_getElem?.mp hc
  by_cases hplace : place = i
  · rw [List.getElem?_set, if_pos hplace] at hi
    split at hi
    · obtain rfl := Option.some.inj hi
      exact Or.inl (hadvances.goes (h.informed call (List.mem_of_getElem? hcall)))
    · cases hi
  · rw [List.getElem?_set, if_neg hplace] at hi
    exact Or.inr ⟨i, Ne.symm hplace, hi⟩

theorem Fenced.ends (h : Fenced deployed uuid s) {place : Nat}
    (hcall : s.calls[place]? = some call)
    (hadvances : call.Advances (deployed (call.chainId, call.contract)) s.db db' next) :
    Fenced deployed uuid { s with db := db', calls := s.calls.eraseIdx place } :=
  h.turned hcall hadvances ((List.eraseIdx_sublist s.calls place).map _) fun _ hc =>
    Or.inr (List.mem_eraseIdx_iff_getElem?.mp hc)

theorem Fenced.dropped (h : Fenced deployed uuid s) (place : Nat) :
    Fenced deployed uuid { s with calls := s.calls.eraseIdx place } where
  keyed := h.keyed
  indexed := h.indexed
  calls := fun call hcall => h.calls call (List.mem_of_mem_eraseIdx hcall)
  leases := h.leases
  distinct := h.distinct.sublist ((List.eraseIdx_sublist s.calls place).map _)
  informed := fun call hcall => h.informed call (List.mem_of_mem_eraseIdx hcall)

theorem syncTo_ok {request : SyncRequest} (hs : syncTo deployed uuid request s = .ok s') :
    ∃ db, claimSync request.chainId request.contract request.requiredTarget (uuid s.drawn) s.db =
      .ok db ∧ s' = ⟨db, s.calls ++ [⟨request.chainId, request.contract, request.head,
        request.requiredTarget, request.maxBlocksPerSync, request.reorgSearchLimit, uuid s.drawn,
        .rewind⟩], s.drawn + 1⟩ := by
  simp only [syncTo, bind_eq_ok, pure_eq_ok] at hs
  obtain ⟨_, _, _, _, _, _, _, _, _, _, db, hclaim, rfl⟩ := hs
  exact ⟨db, hclaim, rfl⟩

theorem claimSync_leases {id : Int} {contract : Address} {target : Int} {token : String}
    (h : claimSync id contract target token db = .ok db') (key : Int × Address) :
    db'.leases.get? key =
      if key = (id, contract) then some ⟨token, target⟩ else db.leases.get? key := by
  obtain ⟨_, _, rfl⟩ := claimSync_ok h
  exact OrderedMap.get?_set _ _ _ _

/-- A call that claims with a new token takes the lease from whoever had it. -/
theorem Fenced.claimed (huuid : Function.Injective uuid) (h : Fenced deployed uuid s)
    {request : SyncRequest} (hs : syncTo deployed uuid request s = .ok s') :
    Fenced deployed uuid s' := by
  have hnew : ∀ n < s.drawn, uuid n ≠ uuid s.drawn :=
    fun n hn hsame => absurd (huuid hsame) (Nat.ne_of_lt hn)
  obtain ⟨claimed, hclaim, rfl⟩ := syncTo_ok hs
  have hlease := claimSync_leases hclaim
  have hkeyed : Keyed claimed := by
    obtain ⟨_, _, rfl⟩ := claimSync_ok hclaim
    exact ⟨h.keyed.blocks, h.keyed.events, OrderedMap.nodup_keys_set h.keyed.leases⟩
  refine ⟨hkeyed, fun id contract => ?_, fun call hcall => ?_, fun key lease hget => ?_, ?_,
    fun call hcall => ?_⟩
  · obtain ⟨chain, hchain⟩ := h.indexed id contract
    by_cases hkey : (id, contract) = (request.chainId, request.contract)
    · obtain ⟨rfl, rfl⟩ := Prod.mk.inj hkey
      exact ⟨chain, claimSync_indexed hchain hclaim⟩
    · exact ⟨chain, hchain.untouched (claimSync_untouched hkey hclaim) hkeyed⟩
  · rcases List.mem_append.mp hcall with hold | hself
    · obtain ⟨n, hn, htoken⟩ := h.calls call hold
      exact ⟨n, Nat.lt_succ_of_lt hn, htoken⟩
    · rw [List.mem_singleton.mp hself]
      exact ⟨s.drawn, Nat.lt_succ_self _, rfl⟩
  · rw [hlease] at hget
    split at hget
    · obtain rfl := Option.some.inj hget
      exact ⟨s.drawn, Nat.lt_succ_self _, rfl⟩
    · obtain ⟨n, hn, htoken⟩ := h.leases key lease hget
      exact ⟨n, Nat.lt_succ_of_lt hn, htoken⟩
  · rw [List.map_append, List.nodup_append]
    refine ⟨h.distinct, List.nodup_singleton _, fun a ha b hb => ?_⟩
    obtain ⟨call, hcall, rfl⟩ := List.mem_map.mp ha
    obtain ⟨n, hn, htoken⟩ := h.calls call hcall
    rw [List.mem_singleton.mp hb, htoken]
    exact hnew n hn
  · rcases List.mem_append.mp hcall with hold | hself
    · by_cases hkey : (call.chainId, call.contract) = (request.chainId, request.contract)
      · -- Its token is not the one that was just drawn.
        intro lease hget htoken
        rw [hlease, if_pos hkey, Option.some.injEq] at hget
        obtain ⟨n, hn, hdrawn⟩ := h.calls call hold
        rw [← hget, hdrawn] at htoken
        exact absurd htoken.symm (hnew n hn)
      · exact (h.informed call hold).untouched (claimSync_untouched hkey hclaim) h.keyed hkeyed
    · rw [List.mem_singleton.mp hself]
      intro lease hget _
      rw [hlease, if_pos rfl, Option.some.injEq] at hget
      rw [← hget]
      exact ⟨rfl, trivial⟩

theorem step_fenced (huuid : Function.Injective uuid) {action : Action}
    (h : Fenced deployed uuid s) (hs : step deployed uuid action s = .ok s') :
    Fenced deployed uuid s' := by
  cases action with
  | syncTo request => exact h.claimed huuid hs
  | turn place answer =>
      simp only [step] at hs
      split at hs
      · cases hs
      · next call hcall =>
        split at hs
        · next db phase hresume =>
          obtain rfl := Except.ok.inj hs
          exact h.goes hcall (h.resumed (List.mem_of_getElem? hcall) hresume)
        · next db failure hresume =>
          obtain rfl := Except.ok.inj hs
          exact h.ends hcall (h.resumed (List.mem_of_getElem? hcall) hresume)
        · obtain rfl := Except.ok.inj hs
          exact h.dropped place
  | crash place =>
      obtain rfl := Except.ok.inj hs
      exact h.dropped place
  | operations operations =>
      obtain rfl := Except.ok.inj hs
      have hkeyed : Keyed { s.db with operations } :=
        ⟨h.keyed.blocks, h.keyed.events, h.keyed.leases⟩
      refine ⟨hkeyed, fun id contract => ?_, h.calls, h.leases, h.distinct, fun call hcall => ?_⟩
      · obtain ⟨chain, hchain⟩ := h.indexed id contract
        exact ⟨chain, hchain.untouched ⟨rfl, rfl, rfl, rfl, rfl⟩ hkeyed⟩
      · exact (h.informed call hcall).untouched ⟨rfl, rfl, rfl, rfl, rfl⟩ h.keyed hkeyed

/-! ## Runs -/

/-- `randomUUID` gives no token twice. -/
theorem run_fenced (huuid : Function.Injective uuid) (actions : List Action) :
    Fenced deployed uuid (exec (step deployed uuid) start actions) :=
  exec_invariant (fun _ _ _ h hs => step_fenced huuid h hs) start_fenced actions

/-- Tokens of digits, of 36 as long as they last. -/
def countedToken (n : Nat) : String := String.ofList (Nat.toDigits 10 (10 ^ 35 + n))

theorem countedToken_injective : Function.Injective countedToken := by
  intro m n h
  have hsame := congrArg (fun d => Nat.ofDigitChars 10 d 0) (String.ofList_injective h)
  rw [Nat.ofDigitChars_ten_toDigits, Nat.ofDigitChars_ten_toDigits] at hsame
  omega

/-- A contract without events, deployed at block 5. -/
def silent : Int × Address → Integration := fun _ => ⟨5, fun _ => .ok none, fun _ _ => []⟩

def headRequest (head : Int) : SyncRequest :=
  ⟨46630, 7, head, head, 10, 3, 46630, some ⟨head, 2, 1, 0⟩⟩

end ChainSync
end AlphaForge
