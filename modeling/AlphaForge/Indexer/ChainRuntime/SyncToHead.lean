/-
Following the operations of the vault and of its pass, `#syncToHead`.

A call that has caught up with the chain takes up to a hundred operations, one of the
vault and one of the pass by turns, each from behind the last one of its contract that
was attempted.  Whatever becomes of the attempts, the next call goes on from there.  In
the order turned at one operation the attempts of its contract only go up, fifty at a
time, until they come to it.
-/
import AlphaForge.Data.Turned
import AlphaForge.Indexer.ChainRuntime.Binding

namespace AlphaForge
namespace ChainRuntime

open Evm ChainStore Lifecycle Database Machine
open TradingRuntime (Table)

/-- A runtime of a manifest that was validated. -/
structure Deployed extends Config where
  /-- `validateDeploymentManifest` refuses one address for both. -/
  distinct : contractAddress ≠ strategyPassAddress

def Deployed.target (d : Deployed) : Contract → Address
  | .vault => d.contractAddress
  | .strategyPass => d.strategyPassAddress

/-- The operations that were attempted last, `#vaultOperationCursor` and
`#passOperationCursor`. -/
structure Cursors where
  vault : Option String
  strategyPass : Option String

def Cursors.of (cursors : Cursors) : Contract → Option String
  | .vault => cursors.vault
  | .strategyPass => cursors.strategyPass

structure Attempt where
  operationId : String
  target : Contract

/-- One of the vault and one of the pass by turns, while there is room. -/
def takeTurns : Nat → List String → List String → List Attempt
  | 0, _, _ => []
  | _ + 1, [], [] => []
  | room + 1, vaultOperation :: vaultOperations, [] =>
      ⟨vaultOperation, .vault⟩ :: takeTurns room vaultOperations []
  | room + 1, [], passOperation :: passOperations =>
      ⟨passOperation, .strategyPass⟩ :: takeTurns room [] passOperations
  | 1, vaultOperation :: _, _ :: _ => [⟨vaultOperation, .vault⟩]
  | room + 2, vaultOperation :: vaultOperations, passOperation :: passOperations =>
      ⟨vaultOperation, .vault⟩ :: ⟨passOperation, .strategyPass⟩ ::
        takeTurns room vaultOperations passOperations

def lastVaultOperation (d : Deployed) (attempts : List Attempt) : Option String :=
  ((attempts.filter fun a => d.target a.target = d.contractAddress).map
    Attempt.operationId).getLast?

def lastPassOperation (d : Deployed) (attempts : List Attempt) : Option String :=
  ((attempts.filter fun a => d.target a.target ≠ d.contractAddress).map
    Attempt.operationId).getLast?

/-- `if (last) cursor = last`. -/
def advance (cursor last : Option String) : Option String :=
  match last with
  | none => cursor
  | some last => if last = "" then cursor else some last

/-- The operations that a call which has caught up attempts, and the cursors after it. -/
def attemptsOf (d : Deployed) (cursors : Cursors) (db : Database) :
    Except String (List Attempt × Cursors) := do
  let vaultOperations ←
    trackableOperationIds d.chainId d.contractAddress 100 cursors.vault db
  let passOperations ← (if d.ownsStrategyPassProjection then
    trackableOperationIds d.chainId d.strategyPassAddress 100 cursors.strategyPass db
    else return [])
  let attempts := takeTurns 100 vaultOperations passOperations
  return (attempts, {
    vault := advance cursors.vault (lastVaultOperation d attempts)
    strategyPass := advance cursors.strategyPass (lastPassOperation d attempts) })

/-- What happens up to the query of one call: whether the runtime was started again, any
calls of it, the attempts of the call before among them, and whether this call catches
up. -/
structure Round where
  restarted : Bool
  actions : List Action
  caughtUp : Bool

structure Runtime where
  state : State
  cursors : Cursors

/-- A call that caught up: the database that it queries, and the operations that it passes
to `trackOperation`. -/
structure Report where
  db : Database
  attempts : List Attempt

/-- The state in which a call makes its query. -/
def Round.state (d : Deployed) (validTime : String → Bool) (round : Round) (r : Runtime) : State :=
  exec (step d.toConfig validTime) r.state round.actions

/-- The cursors that a call starts from. -/
def Round.cursors (round : Round) (r : Runtime) : Cursors :=
  if round.restarted then ⟨none, none⟩ else r.cursors

def syncToHead (d : Deployed) (validTime : String → Bool) (round : Round) (r : Runtime) :
    Runtime × Option Report :=
  let state := round.state d validTime r
  if round.caughtUp then
    match attemptsOf d (round.cursors r) state.db with
    | .error _ => (⟨state, round.cursors r⟩, some ⟨state.db, []⟩)
    | .ok (attempts, next) => (⟨state, next⟩, some ⟨state.db, attempts⟩)
  else (⟨state, round.cursors r⟩, none)

/-- The calls that caught up. -/
def syncs (d : Deployed) (validTime : String → Bool) : List Round → Runtime → List Report
  | [], _ => []
  | round :: rest, r =>
      (syncToHead d validTime round r).2.toList ++
        syncs d validTime rest (syncToHead d validTime round r).1

def afterSyncs (d : Deployed) (validTime : String → Bool) (rounds : List Round) (r : Runtime) :
    Runtime :=
  rounds.foldl (fun r round => (syncToHead d validTime round r).1) r

/-- A runtime on a database without operations that has not made a call. -/
def launched (db : Database) : Runtime := ⟨start db, ⟨none, none⟩⟩

/-! ## By turns -/

/-- The operations of one contract. -/
def ofContract (target : Contract) (attempts : List Attempt) : List String :=
  attempts.filterMap fun a =>
    match target, a.target with
    | .vault, .vault => some a.operationId
    | .strategyPass, .strategyPass => some a.operationId
    | _, _ => none

theorem mem_ofContract {target : Contract} {attempts : List Attempt} {id : String} :
    id ∈ ofContract target attempts ↔ ⟨id, target⟩ ∈ attempts := by
  rw [ofContract, List.mem_filterMap]
  constructor
  · rintro ⟨⟨other, contract⟩, hin, h⟩
    cases target <;> cases contract <;> cases h <;> exact hin
  · intro hin
    refine ⟨_, hin, ?_⟩
    cases target <;> rfl

/-- What is taken of a list: all of it, or enough of it. -/
structure Share (enough : Nat) (taken all : List String) : Prop where
  first : taken <+: all
  fair : taken = all ∨ enough ≤ 2 * taken.length

theorem takeTurns_spec (room : Nat) (vs ps : List String) :
    Share room (ofContract .vault (takeTurns room vs ps)) vs ∧
      Share (room - 1) (ofContract .strategyPass (takeTurns room vs ps)) ps ∧
      (takeTurns room vs ps).length ≤ room := by
  fun_induction takeTurns room vs ps with
  | case1 => exact ⟨⟨ List.nil_prefix, Or.inr (Nat.zero_le _)⟩, ⟨ List.nil_prefix, Or.inr (Nat.zero_le _)⟩,
      Nat.zero_le _⟩
  | case2 => exact ⟨⟨List.prefix_rfl, Or.inl rfl⟩, ⟨List.prefix_rfl, Or.inl rfl⟩, Nat.zero_le _⟩
  | case3 room v vs ih =>
      obtain ⟨⟨hfirst, hfair⟩, ⟨hnone, -⟩, hlength⟩ := ih
      have hvault : ofContract .vault (⟨v, .vault⟩ :: takeTurns room vs []) =
          v :: ofContract .vault (takeTurns room vs []) := rfl
      have hpass : ofContract .strategyPass (⟨v, .vault⟩ :: takeTurns room vs []) = [] :=
        List.prefix_nil.mp hnone
      rw [hvault, hpass]
      refine ⟨⟨List.cons_prefix_cons.mpr ⟨rfl, hfirst⟩, ?_⟩, ⟨List.prefix_rfl, Or.inl rfl⟩,
        Nat.succ_le_succ hlength⟩
      rcases hfair with hall | henough
      · exact Or.inl (congrArg (v :: ·) hall)
      · rw [List.length_cons]
        omega
  | case4 room p ps ih =>
      obtain ⟨⟨hnone, -⟩, ⟨hfirst, hfair⟩, hlength⟩ := ih
      have hvault : ofContract .vault (⟨p, .strategyPass⟩ :: takeTurns room [] ps) = [] :=
        List.prefix_nil.mp hnone
      have hpass : ofContract .strategyPass (⟨p, .strategyPass⟩ :: takeTurns room [] ps) =
          p :: ofContract .strategyPass (takeTurns room [] ps) := rfl
      rw [hvault, hpass]
      refine ⟨⟨List.prefix_rfl, Or.inl rfl⟩, ⟨List.cons_prefix_cons.mpr ⟨rfl, hfirst⟩, ?_⟩,
        Nat.succ_le_succ hlength⟩
      rcases hfair with hall | henough
      · exact Or.inl (congrArg (p :: ·) hall)
      · rw [List.length_cons]
        omega
  | case5 v vs p ps =>
      exact ⟨⟨List.cons_prefix_cons.mpr ⟨rfl, List.nil_prefix⟩, Or.inr (Nat.le_succ 1)⟩,
        ⟨ List.nil_prefix, Or.inr (Nat.zero_le _)⟩, Nat.le_refl 1⟩
  | case6 room v vs p ps ih =>
      obtain ⟨⟨hvaultFirst, hvaultFair⟩, ⟨hpassFirst, hpassFair⟩, hlength⟩ := ih
      have hvault : ofContract .vault
          (⟨v, .vault⟩ :: ⟨p, .strategyPass⟩ :: takeTurns room vs ps) =
          v :: ofContract .vault (takeTurns room vs ps) := rfl
      have hpass : ofContract .strategyPass
          (⟨v, .vault⟩ :: ⟨p, .strategyPass⟩ :: takeTurns room vs ps) =
          p :: ofContract .strategyPass (takeTurns room vs ps) := rfl
      rw [hvault, hpass]
      refine ⟨⟨List.cons_prefix_cons.mpr ⟨rfl, hvaultFirst⟩, ?_⟩,
        ⟨List.cons_prefix_cons.mpr ⟨rfl, hpassFirst⟩, ?_⟩, by simpa using hlength⟩
      · rcases hvaultFair with hall | henough
        · exact Or.inl (congrArg (v :: ·) hall)
        · rw [List.length_cons]
          omega
      · rcases hpassFair with hall | henough
        · exact Or.inl (congrArg (p :: ·) hall)
        · rw [List.length_cons]
          omega

theorem lastVaultOperation_eq (d : Deployed) (attempts : List Attempt) :
    lastVaultOperation d attempts = (ofContract .vault attempts).getLast? := by
  rw [lastVaultOperation]
  congr 1
  induction attempts with
  | nil => rfl
  | cons a rest ih =>
      obtain ⟨id, target⟩ := a
      cases target with
      | vault =>
          have hown : d.target .vault = d.contractAddress := rfl
          rw [List.filter_cons, if_pos (decide_eq_true hown), List.map_cons, ih]
          rfl
      | strategyPass =>
          have hother : d.target .strategyPass ≠ d.contractAddress := d.distinct.symm
          rw [List.filter_cons, if_neg (mt of_decide_eq_true hother), ih]
          rfl

theorem lastPassOperation_eq (d : Deployed) (attempts : List Attempt) :
    lastPassOperation d attempts = (ofContract .strategyPass attempts).getLast? := by
  rw [lastPassOperation]
  congr 1
  induction attempts with
  | nil => rfl
  | cons a rest ih =>
      obtain ⟨id, target⟩ := a
      cases target with
      | vault =>
          have hown : ¬ d.target .vault ≠ d.contractAddress := fun hne => hne rfl
          rw [List.filter_cons, if_neg (mt of_decide_eq_true hown), ih]
          rfl
      | strategyPass =>
          have hother : d.target .strategyPass ≠ d.contractAddress := d.distinct.symm
          rw [List.filter_cons, if_pos (decide_eq_true hother), List.map_cons, ih]
          rfl

/-! ## The query -/

section Query

variable {d : Deployed} {validTime : String → Bool} {db : Database} {target : Contract} {x : String}
  {cursor : Option String}

/-- The operations of a contract that can be followed, sorted. -/
def trackable (d : Deployed) (target : Contract) (db : Database) : List String :=
  trackableIds d.chainId (d.target target) db

theorem trackable_sync (d : Deployed) (target : Contract) (db : Database) :
    trackable d target db = trackableIds (synchronizer d.toConfig target).chainId
      (synchronizer d.toConfig target).contract db := by
  cases target <;> rfl

theorem trackable_sorted (htable : Table validTime db) :
    (trackable d target db).Pairwise (· < ·) := by
  have hnodup : (trackable d target db).Nodup := by
    rw [trackable_sync]
    exact TradingRuntime.trackableIds_nodup htable
  exact ((List.pairwise_insertionSort (· ≤ ·) _).and hnodup).imp fun h => lt_of_le_of_ne h.1 h.2

/-- Who can be followed is an operation with a proper name, of the chain and the contract. -/
theorem trackable_row (htable : Table validTime db) (hx : x ∈ trackable d target db) :
    validOperationId x = true ∧ chainId d.chainId = .ok d.chainId ∧
      ∃ row, db.operations.get? x = some row ∧ row.target = d.target target := by
  rw [trackable, trackableIds, List.mem_insertionSort] at hx
  obtain ⟨⟨key, row⟩, hmem, rfl⟩ := List.mem_map.mp hx
  obtain ⟨hin, htrackable⟩ := List.mem_filter.mp hmem
  obtain ⟨hchain, htarget, -⟩ := of_decide_eq_true htrackable
  have hget := (OrderedMap.mem_iff_get? htable.keys).mp hin
  obtain ⟨operation, hid, hrow, hsound⟩ := htable.stored _ _ hget
  have hsame : operation.chainId = d.chainId := by
    rw [hrow] at hchain
    exact hchain
  refine ⟨?_, hsame ▸ chainId_of hsound, row, hget, htarget⟩
  rw [← hid]
  exact hsound.wellFormed.operationId

/-- The query goes round from the cursor, or from before all operations. -/
theorem trackableOperationIds_eq (target : Contract) (htable : Table validTime db)
    (hchain : chainId d.chainId = .ok d.chainId)
    (hcursor : ∀ id ∈ cursor, validOperationId id = true) :
    trackableOperationIds d.chainId (d.target target) 100 cursor db =
      .ok ((Turned.around (trackable d target db) (cursor.getD "")).take 100) := by
  have hlimit : 1 ≤ 100 ∧ 100 ≤ 1000 := by decide
  rw [trackableOperationIds, check_of hlimit, ok_bind, check_of hcursor, ok_bind, hchain, ok_bind]
  cases cursor with
  | none =>
      have hall : (trackable d target db).filter (fun k => "" < k) = trackable d target db := by
        refine List.filter_eq_self.mpr fun k hk => decide_eq_true ?_
        refine lt_of_le_of_ne (Turned.empty_le k) fun hempty => ?_
        have hvalid := (trackable_row htable hk).1
        rw [← hempty] at hvalid
        cases hvalid
      have hnone : (trackable d target db).filter (fun k => k ≤ "") = [] := by
        refine List.filter_eq_nil_iff.mpr fun k hk hle => ?_
        have hkeep := List.filter_eq_self.mp hall k hk
        exact absurd (of_decide_eq_true hkeep) (not_lt.mpr (of_decide_eq_true hle))
      rw [Turned.around]
      show _ = Except.ok ((List.filter (fun k => "" < k) _ ++ List.filter (fun k => k ≤ "") _).take 100)
      rw [hall, hnone, List.append_nil]
      rfl
  | some after =>
      have hroom : ∀ n, 100 - min 100 n = 100 - n := fun n => by omega
      rw [Turned.around, List.take_append, ← hroom, ← List.length_take]
      rfl

end Query

/-! ## One call -/

section Call

open Turned (around ahead place)

variable {d : Deployed} {validTime : String → Bool} {db : Database} {target : Contract} {x : String}
  {cursors next : Cursors} {attempts : List Attempt}

/-- The names at the cursors are proper. -/
def Proper (cursors : Cursors) : Prop :=
  ∀ target, ∀ id ∈ cursors.of target, validOperationId id = true

/-- The runtime follows the contract: the vault always, the pass if it answers for it. -/
def Follows (d : Deployed) (target : Contract) : Prop :=
  target = .strategyPass → d.ownsStrategyPassProjection = true

/-- What the query gives of a contract. -/
def pageOf (d : Deployed) (cursors : Cursors) (db : Database) : Contract → List String
  | .vault => (around (trackable d .vault db) (cursors.vault.getD "")).take 100
  | .strategyPass =>
      if d.ownsStrategyPassProjection then
        (around (trackable d .strategyPass db) (cursors.strategyPass.getD "")).take 100
      else []

theorem pageOf_eq (h : Follows d target) : pageOf d cursors db target =
    (around (trackable d target db) ((cursors.of target).getD "")).take 100 := by
  cases target with
  | vault => rfl
  | strategyPass => exact if_pos (h rfl)

def advanced (cursors : Cursors) (attempts : List Attempt) : Cursors where
  vault := advance cursors.vault (ofContract .vault attempts).getLast?
  strategyPass := advance cursors.strategyPass (ofContract .strategyPass attempts).getLast?

theorem attemptsOf_eq (htable : Table validTime db) (hproper : Proper cursors)
    (hchain : chainId d.chainId = .ok d.chainId) :
    attemptsOf d cursors db =
      .ok (takeTurns 100 (pageOf d cursors db .vault) (pageOf d cursors db .strategyPass),
        advanced cursors
          (takeTurns 100 (pageOf d cursors db .vault) (pageOf d cursors db .strategyPass))) := by
  have hvault := trackableOperationIds_eq .vault htable hchain (hproper .vault)
  have hpass : (if d.ownsStrategyPassProjection then
      trackableOperationIds d.chainId d.strategyPassAddress 100 cursors.strategyPass db
      else return []) = .ok (pageOf d cursors db .strategyPass) := by
    rw [pageOf]
    split
    · exact trackableOperationIds_eq .strategyPass htable hchain (hproper .strategyPass)
    · rfl
  rw [attemptsOf, show trackableOperationIds d.chainId d.contractAddress 100 cursors.vault db = _
    from hvault, ok_bind, hpass, ok_bind]
  simp only [lastVaultOperation_eq, lastPassOperation_eq]
  rfl

theorem share_of (target : Contract) (vs ps : List String) :
    Share 99 (ofContract target (takeTurns 100 vs ps)) (match target with | .vault => vs | .strategyPass => ps) := by
  obtain ⟨⟨hfirst, hfair⟩, hpass, -⟩ := takeTurns_spec 100 vs ps
  cases target with
  | vault => exact ⟨hfirst, hfair.imp_right fun h => Nat.le_trans (by decide) h⟩
  | strategyPass => exact hpass

theorem advanced_of {first : List String} {last : String}
    (hlast : ofContract target attempts = first ++ [last]) (hne : last ≠ "") :
    (advanced cursors attempts).of target = some last := by
  cases target with
  | vault =>
      show advance cursors.vault (ofContract .vault attempts).getLast? = _
      rw [hlast, List.getLast?_concat]
      exact if_neg hne
  | strategyPass =>
      show advance cursors.strategyPass (ofContract .strategyPass attempts).getLast? = _
      rw [hlast, List.getLast?_concat]
      exact if_neg hne

/-- Enough attempts from a cursor on, and not of one operation, have gone past fifty others
on the way to it. -/
theorem ahead_share {S : Finset String} {c : String} (htable : Table validTime db)
    (hx : x ∈ trackable d target db) (hS : ∀ id ∈ trackable d target db, id ∈ S) {ids : List String}
    (hshare : Share 99 ids ((around (trackable d target db) c).take 100)) (hnot : x ∉ ids) :
    ∃ first last, ids = first ++ [last] ∧ last ≠ "" ∧
      (ahead S x last).card + 50 ≤ (ahead S x c).card := by
  have hmany : 50 ≤ ids.length := by
    rcases hshare.fair with hall | henough
    · rw [hall] at hnot ⊢
      rw [List.length_take]
      refine Nat.le_min.mpr ⟨by decide, Nat.le_of_lt (Nat.lt_of_not_le fun hshort => hnot ?_)⟩
      rw [List.take_of_length_le (Nat.le_trans hshort (by decide))]
      exact Turned.mem_around.mpr hx
    · omega
  have htake := List.prefix_iff_eq_take.mp (hshare.first.trans ( List.take_prefix 100 _))
  obtain ⟨hrising, habove⟩ := Turned.around_rising (trackable_sorted htable) hx (htake ▸ hnot)
  rw [← htake] at hrising habove
  have hin : ∀ k ∈ ids, k ∈ trackable d target db := fun k hk =>
    Turned.mem_around.mp (List.mem_of_mem_take (hshare.first.subset hk))
  obtain rfl | ⟨first, last, rfl⟩ := List.eq_nil_or_concat' ids
  · cases hmany
  · have hlast := hin last (List.mem_append_right first List.mem_cons_self)
    refine ⟨first, last, rfl, ?_, ?_⟩
    · have hvalid := (trackable_row htable hlast).1
      rintro rfl
      cases hvalid
    · have hcard := Turned.ahead_rising (S := S) hrising fun k hk =>
        ⟨hS k (hin k hk), fun heq => hnot (heq ▸ hk), habove k hk⟩
      omega

/-- A call that does not attempt an operation has gone past fifty others on the way to it. -/
theorem ahead_attempts {S : Finset String} (htable : Table validTime db) (hproper : Proper cursors)
    (hfollows : Follows d target) (hx : x ∈ trackable d target db)
    (hS : ∀ id ∈ trackable d target db, id ∈ S)
    (h : attemptsOf d cursors db = .ok (attempts, next)) (hnot : ⟨x, target⟩ ∉ attempts) :
    (ahead S x ((next.of target).getD "")).card + 50 ≤
      (ahead S x ((cursors.of target).getD "")).card := by
  obtain ⟨-, hchain, -⟩ := trackable_row htable hx
  rw [attemptsOf_eq htable hproper hchain] at h
  cases h
  have hshare : Share 99 (ofContract target
      (takeTurns 100 (pageOf d cursors db .vault) (pageOf d cursors db .strategyPass)))
      (pageOf d cursors db target) := by
    have hboth := share_of target (pageOf d cursors db .vault)
      (pageOf d cursors db .strategyPass)
    cases target <;> exact hboth
  rw [pageOf_eq hfollows] at hshare
  obtain ⟨first, last, hlast, hne, hcard⟩ := ahead_share htable hx hS hshare
    (fun hmem => hnot (mem_ofContract.mp hmem))
  rw [advanced_of hlast hne, Option.getD_some]
  exact hcard

theorem advance_proper {cursor : Option String} {ids : List String}
    (hcursor : ∀ id ∈ cursor, validOperationId id = true)
    (hids : ∀ id ∈ ids, validOperationId id = true) :
    ∀ id ∈ advance cursor ids.getLast?, validOperationId id = true := by
  intro id hid
  cases hlast : ids.getLast? with
  | none =>
      rw [hlast] at hid
      exact hcursor id hid
  | some last =>
      rw [hlast, advance] at hid
      split at hid
      · exact hcursor id hid
      · obtain rfl := Option.some.inj hid
        exact hids _ (List.mem_of_getLast? hlast)

/-- An attempt is of an operation that can be followed, once. -/
theorem attemptsOf_ok (htable : Table validTime db) (h : attemptsOf d cursors db = .ok (attempts, next)) :
    next = advanced cursors attempts ∧ attempts.length ≤ 100 ∧
      (∀ target, (ofContract target attempts).Nodup) ∧
      ∀ target, ∀ id ∈ ofContract target attempts, ∃ operation, operation.operationId = id ∧
        TradingRuntime.Followed (synchronizer d.toConfig target) db operation := by
  simp only [attemptsOf, bind_eq_ok, pure_eq_ok, Prod.mk.injEq] at h
  obtain ⟨vs, hvs, ps, hps, rfl, rfl⟩ := h
  obtain ⟨⟨hvault, -⟩, ⟨hpass, -⟩, hlength⟩ := takeTurns_spec 100 vs ps
  obtain ⟨hvsNodup, hvsFollowed⟩ := TradingRuntime.trackableOperationIds_ok
    (c := synchronizer d.toConfig .vault) htable hvs
  have hpsOk : ps.Nodup ∧ ∀ id ∈ ps, ∃ operation, operation.operationId = id ∧
      TradingRuntime.Followed (synchronizer d.toConfig .strategyPass) db operation := by
    split at hps
    · exact TradingRuntime.trackableOperationIds_ok (c := synchronizer d.toConfig .strategyPass) htable hps
    · cases hps
      exact ⟨List.nodup_nil, fun id hid => absurd hid List.not_mem_nil⟩
  refine ⟨?_, hlength, fun target => ?_, fun target id hid => ?_⟩
  · simp only [lastVaultOperation_eq, lastPassOperation_eq]
    rfl
  · cases target with
    | vault => exact hvsNodup.sublist hvault.sublist
    | strategyPass => exact hpsOk.1.sublist hpass.sublist
  · cases target with
    | vault => exact hvsFollowed id (hvault.subset hid)
    | strategyPass => exact hpsOk.2 id (hpass.subset hid)

theorem attempts_perm (attempts : List Attempt) : (attempts.map Attempt.operationId).Perm
    (ofContract .vault attempts ++ ofContract .strategyPass attempts) := by
  induction attempts with
  | nil => exact .refl _
  | cons a rest ih =>
      obtain ⟨id, target⟩ := a
      cases target with
      | vault => exact ih.cons id
      | strategyPass => exact (ih.cons id).trans List.perm_middle.symm

/-- No operation is attempted twice: it is of one contract. -/
theorem attempts_nodup (htable : Table validTime db)
    (h : attemptsOf d cursors db = .ok (attempts, next)) :
    (attempts.map Attempt.operationId).Nodup := by
  obtain ⟨-, -, hnodup, hfollowed⟩ := attemptsOf_ok htable h
  rw [(attempts_perm attempts).nodup_iff, List.nodup_append]
  refine ⟨hnodup .vault, hnodup .strategyPass, fun a ha b hb heq => ?_⟩
  obtain ⟨operation, hid, hvault⟩ := hfollowed .vault a ha
  obtain ⟨other, hother, hpass⟩ := hfollowed .strategyPass b hb
  have hsame : operation = other := by
    have hread := hvault.row
    rw [hid, heq, ← hother, hpass.row] at hread
    exact (Option.some.inj (Except.ok.inj hread)).symm
  exact d.distinct (hvault.target.symm.trans (hsame ▸ hpass.target))

end Call

/-! ## Calls that follow each other -/

section Run

open Turned (ahead ahead_lt)

variable {d : Deployed} {validTime : String → Bool} {r : Runtime} {target : Contract} {x : String}

structure Ready (d : Deployed) (validTime : String → Bool) (r : Runtime) : Prop where
  bound : Bound d.toConfig validTime r.state.db
  proper : Proper r.cursors

theorem launched_ready (d : Deployed) (validTime : String → Bool) (db : Database) :
    Ready d validTime (launched db) where
  bound := run_bound db []
  proper target id hid := by
    cases target <;> cases hid

theorem attemptsOf_proper {db : Database} {cursors next : Cursors} {attempts : List Attempt}
    (htable : Table validTime db) (hproper : Proper cursors)
    (h : attemptsOf d cursors db = .ok (attempts, next)) : Proper next := by
  obtain ⟨rfl, -, -, hfollowed⟩ := attemptsOf_ok htable h
  have hids : ∀ target, ∀ id ∈ ofContract target attempts, validOperationId id = true :=
    fun target id hid => by
      obtain ⟨operation, rfl, hrow⟩ := hfollowed target id hid
      exact (htable.stored.operation_eq_some hrow.row).2.2.wellFormed.operationId
  intro target
  cases target with
  | vault => exact advance_proper (hproper .vault) (hids .vault)
  | strategyPass => exact advance_proper (hproper .strategyPass) (hids .strategyPass)

theorem state_bound (round : Round) (h : Ready d validTime r) :
    Bound d.toConfig validTime (round.state d validTime r).db :=
  exec_invariant (P := fun s : State => Bound d.toConfig validTime s.db)
    (fun _ _ _ hs hstep => (step_change hstep).bound hs) h.bound round.actions

theorem cursors_proper (round : Round) (h : Ready d validTime r) : Proper (round.cursors r) := by
  rw [Round.cursors]
  split
  · intro target id hid
    cases target <;> cases hid
  · exact h.proper

/-- What a call comes to: it has not caught up, its query fails, or it attempts what the
query gives. -/
inductive Outcome (d : Deployed) (s : State) (cursors : Cursors) : Runtime × Option Report → Prop
  | behind : Outcome d s cursors (⟨s, cursors⟩, none)
  | failed (e : String) (h : attemptsOf d cursors s.db = .error e) :
      Outcome d s cursors (⟨s, cursors⟩, some ⟨s.db, []⟩)
  | attempted (attempts : List Attempt) (next : Cursors)
      (h : attemptsOf d cursors s.db = .ok (attempts, next)) :
      Outcome d s cursors (⟨s, next⟩, some ⟨s.db, attempts⟩)

theorem syncToHead_outcome (d : Deployed) (validTime : String → Bool) (round : Round) (r : Runtime) :
    Outcome d (round.state d validTime r) (round.cursors r) (syncToHead d validTime round r) := by
  unfold syncToHead
  dsimp only
  split
  · split
    · next e heq => exact .failed e heq
    · next attempts next heq => exact .attempted attempts next heq
  · exact .behind

theorem syncToHead_ready (round : Round) (h : Ready d validTime r) :
    Ready d validTime (syncToHead d validTime round r).1 := by
  have hbound := state_bound round h
  have hproper := cursors_proper round h
  have houtcome := syncToHead_outcome d validTime round r
  generalize syncToHead d validTime round r = result at *
  cases houtcome with
  | behind => exact ⟨hbound, hproper⟩
  | failed => exact ⟨hbound, hproper⟩
  | attempted attempts next hattempts => exact ⟨hbound, attemptsOf_proper hbound.table hproper hattempts⟩

theorem afterSyncs_ready {rounds : List Round} (h : Ready d validTime r) :
    Ready d validTime (afterSyncs d validTime rounds r) := by
  induction rounds generalizing r with
  | nil => exact h
  | cons round rest ih => exact ih (syncToHead_ready round h)

/-- Calls that catch up without attempting an operation go past fifty others each. -/
theorem syncs_ahead {S : Finset String} {rounds : List Round} (h : Ready d validTime r)
    (hfollows : Follows d target) (hrunning : ∀ round ∈ rounds, round.restarted = false)
    (hstays : ∀ report ∈ syncs d validTime rounds r,
      x ∈ trackable d target report.db ∧ ∀ id ∈ trackable d target report.db, id ∈ S)
    (hnot : ∀ report ∈ syncs d validTime rounds r, ⟨x, target⟩ ∉ report.attempts) :
    50 * (syncs d validTime rounds r).length ≤
      (ahead S x ((r.cursors.of target).getD "")).card := by
  induction rounds generalizing r with
  | nil => exact Nat.zero_le _
  | cons round rest ih =>
      rw [List.forall_mem_cons] at hrunning
      have hnext := ih (syncToHead_ready round h) hrunning.2
        (fun report hreport => hstays report (List.mem_append_right _ hreport))
        (fun report hreport => hnot report (List.mem_append_right _ hreport))
      have hfirst := fun report hreport =>
        hstays report (List.mem_append_left (syncs d validTime rest _) hreport)
      have hmissed := fun report hreport =>
        hnot report (List.mem_append_left (syncs d validTime rest _) hreport)
      have hbound := state_bound round h
      have hcursors : round.cursors r = r.cursors := if_neg (by rw [hrunning.1]; exact Bool.false_ne_true)
      have houtcome := syncToHead_outcome d validTime round r
      rw [syncs, List.length_append]
      rw [hcursors] at houtcome
      generalize syncToHead d validTime round r = result at *
      cases houtcome with
      | behind =>
          rw [Option.toList_none, List.length_nil, Nat.zero_add]
          exact hnext
      | failed e hattempts =>
          -- the query does not fail while the operation can be followed
          obtain ⟨hx, -⟩ := hfirst _ List.mem_cons_self
          obtain ⟨-, hchain, -⟩ := trackable_row hbound.table hx
          rw [attemptsOf_eq hbound.table h.proper hchain] at hattempts
          cases hattempts
      | attempted attempts next hattempts =>
          obtain ⟨hx, hS⟩ := hfirst _ List.mem_cons_self
          have hpassed := ahead_attempts hbound.table h.proper hfollows hx hS hattempts
            (hmissed _ List.mem_cons_self)
          rw [Option.toList_some, List.length_singleton]
          dsimp only at hnext ⊢
          omega

theorem syncs_attempts {rounds : List Round} (h : Ready d validTime r) :
    ∀ report ∈ syncs d validTime rounds r, report.attempts.length ≤ 100 ∧
      (report.attempts.map Attempt.operationId).Nodup := by
  induction rounds generalizing r with
  | nil => exact fun report hreport => absurd hreport List.not_mem_nil
  | cons round rest ih =>
      intro report hreport
      rcases List.mem_append.mp hreport with hreport | hreport
      · have hbound := state_bound round h
        have houtcome := syncToHead_outcome d validTime round r
        generalize syncToHead d validTime round r = result at *
        cases houtcome with
        | behind => cases hreport
        | failed =>
            obtain rfl := List.mem_singleton.mp hreport
            exact ⟨Nat.zero_le _, List.nodup_nil⟩
        | attempted attempts next hattempts =>
            obtain rfl := List.mem_singleton.mp hreport
            exact ⟨(attemptsOf_ok hbound.table hattempts).2.1, attempts_nodup hbound.table hattempts⟩
      · exact ih (syncToHead_ready round h) report hreport

/-- In every run, an operation that can be followed in all calls that catch up is attempted
by one of them, once there are as many calls as fifties of operations of its contract; and
no call attempts one twice, or more than a hundred. -/
theorem operations_tracked (d : Deployed) (validTime : String → Bool) (db : Database)
    (past rounds : List Round) (hrunning : ∀ round ∈ rounds, round.restarted = false) :
    (∀ (target : Contract) (S : Finset String) (x : String), Follows d target →
      (∀ report ∈ syncs d validTime rounds (afterSyncs d validTime past (launched db)),
        x ∈ trackable d target report.db ∧ ∀ id ∈ trackable d target report.db, id ∈ S) →
      x ∈ S →
      (S.card + 49) / 50 ≤
        (syncs d validTime rounds (afterSyncs d validTime past (launched db))).length →
      ∃ report ∈ syncs d validTime rounds (afterSyncs d validTime past (launched db)),
        ⟨x, target⟩ ∈ report.attempts) ∧
    ∀ report ∈ syncs d validTime rounds (afterSyncs d validTime past (launched db)),
      report.attempts.length ≤ 100 ∧ (report.attempts.map Attempt.operationId).Nodup := by
  have hready : Ready d validTime (afterSyncs d validTime past (launched db)) :=
    afterSyncs_ready (launched_ready d validTime db)
  refine ⟨fun target S x hfollows hstays hx hmany => ?_, syncs_attempts hready⟩
  by_contra hnone
  have hpassed := syncs_ahead hready hfollows hrunning hstays
    (fun report hreport hmem => hnone ⟨report, hreport, hmem⟩)
  have hless := ahead_lt (c := (((afterSyncs d validTime past (launched db)).cursors.of target).getD "")) hx
  omega

end Run

def exampleDeployed : Deployed := { exampleConfig with distinct := by decide }

/-- Two operations of the vault are reported, and a call catches up. -/
def exampleRounds : List Round := [⟨false, exampleRun, true⟩]

theorem example_tracked : ∃ report ∈ syncs exampleDeployed TradingRuntime.exampleClock exampleRounds
    (afterSyncs exampleDeployed TradingRuntime.exampleClock [] (launched Database.empty)),
    ⟨"b", .vault⟩ ∈ report.attempts := by
  have hstays : ∀ report ∈ syncs exampleDeployed TradingRuntime.exampleClock exampleRounds
      (afterSyncs exampleDeployed TradingRuntime.exampleClock [] (launched Database.empty)),
      "b" ∈ trackable exampleDeployed .vault report.db ∧
        ∀ id ∈ trackable exampleDeployed .vault report.db, id = "a" ∨ id = "b" := by
    decide +kernel
  refine (operations_tracked exampleDeployed TradingRuntime.exampleClock Database.empty [] exampleRounds
    (by decide)).1 .vault {"a", "b"} "b" (fun h => by cases h) (fun report hreport => ?_) (by decide)
    (by decide +kernel)
  obtain ⟨hin, hall⟩ := hstays report hreport
  exact ⟨hin, fun id hid => by simpa using hall id hid⟩

end ChainRuntime
end AlphaForge
