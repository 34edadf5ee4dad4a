/-
The ledgers of a bot and of its vault over every sequence of calls.

The invariant says that the vault of an active run has the run's cash, cost and
profit, that no two active runs share a vault, and that the ids which checkpoints have
taken are those of runs up to their revision.  The last makes the id of the next
checkpoint new, as long as the hash function does not collide on the ids in use.
-/
import AlphaForge.Automata.Store.Checkpoint
import AlphaForge.Domain.Vault.PassLedger

namespace AlphaForge
namespace Automata

open Evm Commit Machine
open DomainVault (VaultState PassLock Consistent Tables Reached Bounded assertInvariant balances sum)

/-! ## Commands beside a bot -/

/-- The books that a bot looks at. -/
structure SameBooks (s next : VaultState) : Prop where
  activeCash : next.activeCash = s.activeCash
  positionCost : next.positionCost = s.positionCost
  realizedPnl : next.realizedPnl = s.realizedPnl
  orders : next.orders = s.orders
  feeLiability : next.feeLiability = s.feeLiability
  feesAccrued : next.feesAccrued = s.feesAccrued

theorem applyBody_besideBot {s next : VaultState} {command : DomainVault.Command} {amount : Int}
    {policy : Option DomainVault.SettlementPolicy} (htype : besideBot command.body.type = true)
    (h : DomainVault.applyBody s command amount policy = .ok next) : SameBooks s next := by
  unfold DomainVault.applyBody at h
  cases hbody : command.body with
  | deposit text =>
      simp only [hbody, Except.ok.injEq] at h
      subst h
      constructor <;> rfl
  | requestWithdrawal text =>
      simp only [hbody, bind_eq_ok, pure_eq_ok] at h
      obtain ⟨_, _, rfl⟩ := h
      constructor <;> rfl
  | confirmWithdrawal withdrawalId | cancelWithdrawal withdrawalId =>
      simp only [hbody, bind_eq_ok] at h
      obtain ⟨_, _, h⟩ := h
      split at h
      · cases h
      · cases h
        constructor <;> rfl
  | _ =>
      rw [hbody] at htype
      cases htype

theorem settleStatus_sameBooks (s : VaultState) : SameBooks s (DomainVault.settleStatus s) := by
  rcases DomainVault.settleStatus_keeps s with heq | heq <;> rw [heq] <;> constructor <;> rfl

/-- The lock of a vault is open, if it has one. -/
def LockOpen (s : VaultState) : Prop := ∀ lock, s.passLock = some lock → lock.closed = false

theorem step_besideBot {localeCompare : String → String → Ordering} {s next : VaultState}
    {call : DomainVault.Call} (hs : Reached s) (hopen : LockOpen s)
    (htype : besideBot call.command.body.type = true)
    (hstep : DomainVault.step localeCompare call s = .ok next) :
    SameBooks s next ∧ LockOpen next := by
  obtain ⟨_, _, _, ⟨_, _, _, rfl⟩ | ⟨_, hprepare, _⟩⟩ := DomainVault.execute_eq_ok hstep
  · exact ⟨by constructor <;> rfl, hopen⟩
  obtain ⟨_, amount, found, mid, hamount, hfound, happly, hnext, hsettled⟩ :=
    DomainVault.prepare_eq_ok hprepare
  have hclose : call.command.body ≠ .closeVault := by
    intro hbody
    rw [hbody] at htype
    cases htype
  refine ⟨?_, fun lock hlock => ?_⟩
  · have hbody := applyBody_besideBot htype happly
    have hstatus := settleStatus_sameBooks mid
    rw [hnext]
    exact ⟨hstatus.activeCash.trans hbody.activeCash,
      hstatus.positionCost.trans hbody.positionCost, hstatus.realizedPnl.trans hbody.realizedPnl,
      hstatus.orders.trans hbody.orders, hstatus.feeLiability.trans hbody.feeLiability,
      hstatus.feesAccrued.trans hbody.feesAccrued⟩
  · rw [hsettled.passLock] at hlock
    rcases DomainVault.applyPassCommand_cases hfound with ⟨hbody, _⟩ | ⟨hnone, _, _, rfl⟩ |
      ⟨before, after, hbefore, hstill, _, hcommand, rfl⟩
    · rw [hbody] at htype
      cases htype
    · rw [Option.none_or, hnone] at hlock
      cases hlock
    · rw [Option.some_or, Option.some.injEq] at hlock
      rw [← hlock]
      exact (DomainVault.lockCommand_principal (hs.lock before hbefore) hstill hamount hclose
        hcommand).1

/-- A command keeps the names of the vault, and its receipt is the only new one. -/
theorem step_names {localeCompare : String → String → Ordering} {s next : VaultState}
    {call : DomainVault.Call} (hstep : DomainVault.step localeCompare call s = .ok next) :
    next.id = s.id ∧ next.ownerId = s.ownerId ∧
      ∀ key, next.receipts.get? key ≠ none → key = call.command.id ∨ s.receipts.get? key ≠ none := by
  obtain ⟨_, _, _, ⟨_, _, _, rfl⟩ | ⟨_, hprepare, _⟩⟩ := DomainVault.execute_eq_ok hstep
  · exact ⟨rfl, rfl, fun _ hkey => .inr hkey⟩
  obtain ⟨_, _, _, _, _, _, _, _, hsettled⟩ := DomainVault.prepare_eq_ok hprepare
  refine ⟨hsettled.id, hsettled.ownerId, fun key hkey => ?_⟩
  rw [hsettled.receipts, OrderedMap.get?_set] at hkey
  split at hkey
  next heq => exact .inl heq
  · exact .inr hkey

/-! ## The invariant -/

def isBotId (key : String) : Bool := "bot_".toList.isPrefixOf key.toList

theorem isBotId_botId (env : Env) (id : String) (revision : Nat) :
    isBotId (botId env id revision) = true := by
  rw [isBotId, botId, String.toList_append, List.isPrefixOf_iff_prefix]
  exact List.prefix_append _ _

/-- The hash function does not collide on the checkpoints of these runs. -/
def NoCollision (env : Env) (ids : List String) (bound : Nat) : Prop :=
  ∀ id ∈ ids, ∀ id' ∈ ids, ∀ r ≤ bound, ∀ r' ≤ bound,
    botId env id r = botId env id' r' → id = id' ∧ r = r'

/-- The state of both ledgers after `count` calls, where runs have these ids. -/
structure Synced (env : Env) (ids : List String) (count : Nat) (db : Db) : Prop where
  vaults : ∀ id s, db.vaults.get? id = some s → s.id = id ∧ Reached s
  runs : ∀ id r, db.runs.get? id = some r →
    r.state.id = id ∧ id ∈ ids ∧ r.revision ≤ count ∧ Balanced r.state
  linked : ∀ id r, db.runs.get? id = some r → r.active = true →
    ∃ s, db.vaults.get? r.vaultId = some s ∧ Linked s r
  single : ∀ id id' r r', db.runs.get? id = some r → db.runs.get? id' = some r' →
    r.active = true → r'.active = true → r.vaultId = r'.vaultId → id = id'
  named : ∀ id s key, db.vaults.get? id = some s → s.receipts.get? key ≠ none →
    isBotId key = true → ∃ rid r n, db.runs.get? rid = some r ∧ n ≤ r.revision ∧
      key = botId env rid n

theorem synced_empty (env : Env) (ids : List String) (count : Nat) : Synced env ids count .empty := by
  constructor <;> intros <;> simp_all [Db.empty, OrderedMap.get?]

theorem Synced.mono {env : Env} {ids : List String} {count count' : Nat} {db : Db}
    (h : Synced env ids count db) (hle : count ≤ count') : Synced env ids count' db :=
  { h with
    runs := fun id r hget => by
      obtain ⟨hid, hmem, hrevision, hbalanced⟩ := h.runs id r hget
      exact ⟨hid, hmem, Nat.le_trans hrevision hle, hbalanced⟩ }

/-- A vault with an active run is occupied. -/
theorem occupied_of_active {db : Db} {id : String} {r : RecordState}
    (hget : db.runs.get? id = some r) (hactive : r.active = true) :
    db.occupied r.vaultId = true := by
  rw [Db.occupied, List.any_eq_true]
  exact ⟨(id, r), OrderedMap.mem_of_get? hget, by simp [hactive]⟩

/-- While a run is active its vault takes only some commands. -/
theorem besideBot_of_active {db : Db} {id rid : String} {r : RecordState}
    {type : DomainVault.CommandType} (hallowed : db.occupied id = false ∨ besideBot type = true)
    (hget : db.runs.get? rid = some r) (hactive : r.active = true) (hvault : r.vaultId = id) :
    besideBot type = true := by
  have hoccupied := occupied_of_active hget hactive
  rw [hvault] at hoccupied
  rcases hallowed with hfree | htype
  · rw [hfree] at hoccupied
    cases hoccupied
  · exact htype

/-- The id that the next checkpoint of a run takes is new to every vault. -/
theorem Synced.fresh {env : Env} {ids : List String} {count bound : Nat} {db : Db}
    (h : Synced env ids count db) (hno : NoCollision env ids bound) (hcount : count ≤ bound)
    {rid : String} {n : Nat} (hrid : rid ∈ ids) (hn : n ≤ bound)
    (hnew : ∀ r, db.runs.get? rid = some r → r.revision < n) {id : String} {s : VaultState}
    (hs : db.vaults.get? id = some s) : s.receipts.get? (botId env rid n) = none := by
  by_contra hne
  obtain ⟨rid', r, n', hget, hle, heq⟩ := h.named id s _ hs hne (isBotId_botId env rid n)
  obtain ⟨_, hmem, hrevision, _⟩ := h.runs rid' r hget
  obtain ⟨rfl, rfl⟩ := hno rid hrid rid' hmem n hn n' (by omega) heq
  have hlt := hnew r hget
  omega

section Steps

variable {env : Env} {ids : List String} {count bound : Nat} {db : Db}

/-- A vault that is new to the database. -/
theorem Synced.addVault (h : Synced env ids count db) {s : VaultState}
    (hnew : db.vaults.get? s.id = none) (hs : Reached s) (hempty : s.receipts = []) :
    Synced env ids count { db with vaults := db.vaults.set s.id s } := by
  refine { vaults := fun id s' hget => ?_, runs := h.runs, linked := fun id r hget hactive => ?_,
           single := h.single, named := fun id s' key hget hkey hbot => ?_ }
  · simp only [OrderedMap.get?_set] at hget
    split at hget
    next heq =>
      cases hget
      exact ⟨heq.symm, hs⟩
    · exact h.vaults id s' hget
  · obtain ⟨s', hs', hlinked⟩ := h.linked id r hget hactive
    have hne : r.vaultId ≠ s.id := by
      intro heq
      rw [heq, hnew] at hs'
      cases hs'
    exact ⟨s', (OrderedMap.get?_set_of_ne hne _ _).trans hs', hlinked⟩
  · simp only [OrderedMap.get?_set] at hget
    split at hget
    · cases hget
      rw [hempty] at hkey
      exact absurd rfl hkey
    · exact h.named id s' key hget hkey hbot

/-- A vault after a command of its owner or its executor. -/
theorem Synced.setVault (h : Synced env ids count db) {id : String} {s next : VaultState}
    (hget : db.vaults.get? id = some s) (hid : next.id = s.id) (hnext : Reached next)
    (hbooks : ∀ rid r, db.runs.get? rid = some r → r.active = true → r.vaultId = id →
      Linked s r → Linked next r)
    (hkeys : ∀ key, next.receipts.get? key ≠ none → isBotId key = true →
      s.receipts.get? key ≠ none) :
    Synced env ids count { db with vaults := db.vaults.set next.id next } := by
  have hkey : next.id = id := hid.trans (h.vaults id s hget).1
  refine { vaults := fun id' s' hget' => ?_, runs := h.runs,
           linked := fun rid r hrun hactive => ?_, single := h.single,
           named := fun id' s' key hget' hreceipt hbot => ?_ }
  · simp only [OrderedMap.get?_set] at hget'
    split at hget'
    next heq =>
      cases hget'
      exact ⟨heq.symm, hnext⟩
    · exact h.vaults id' s' hget'
  · obtain ⟨s', hs', hlinked⟩ := h.linked rid r hrun hactive
    by_cases hvault : r.vaultId = id
    · rw [hvault, hget, Option.some.injEq] at hs'
      subst hs'
      refine ⟨next, ?_, hbooks rid r hrun hactive hvault hlinked⟩
      show OrderedMap.get? r.vaultId (OrderedMap.set next.id next db.vaults) = some next
      rw [hvault, hkey, OrderedMap.get?_set_self]
    · refine ⟨s', (OrderedMap.get?_set_of_ne ?_ _ _).trans hs', hlinked⟩
      rw [hkey]
      exact hvault
  · simp only [OrderedMap.get?_set] at hget'
    split at hget'
    · cases hget'
      exact h.named id s key hget (hkeys key hreceipt hbot) hbot
    · exact h.named id' s' key hget' hreceipt hbot

/-- A run and its vault after a checkpoint. -/
theorem Synced.setRun (h : Synced env ids count db) {rid : String} {record : RecordState}
    {previous next : VaultState} (hrid : record.state.id = rid) (hmem : rid ∈ ids)
    (hrevision : record.revision ≤ count + 1) (hbalanced : Balanced record.state)
    (hget : db.vaults.get? record.vaultId = some previous) (hid : next.id = previous.id)
    (hnext : Reached next) (hlinked : Linked next record)
    (hkeys : ∀ key, next.receipts.get? key ≠ none →
      key = botId env rid record.revision ∨ previous.receipts.get? key ≠ none)
    (hsingle : ∀ id' r', db.runs.get? id' = some r' → r'.active = true →
      r'.vaultId = record.vaultId → id' = rid)
    (hlater : ∀ r, db.runs.get? rid = some r → r.revision ≤ record.revision) :
    Synced env ids (count + 1) { vaults := db.vaults.set next.id next,
                                 runs := db.runs.set rid record } := by
  have hkey : next.id = record.vaultId := hid.trans (h.vaults _ _ hget).1
  have hvaults : ∀ id' s', OrderedMap.get? id' (db.vaults.set next.id next) = some s' →
      (id' = record.vaultId ∧ s' = next) ∨
        (id' ≠ record.vaultId ∧ db.vaults.get? id' = some s') := by
    intro id' s' hget'
    rw [OrderedMap.get?_set, hkey] at hget'
    split at hget'
    next heq =>
      cases hget'
      exact .inl ⟨heq, rfl⟩
    next hne => exact .inr ⟨hne, hget'⟩
  have hruns : ∀ id' r', OrderedMap.get? id' (db.runs.set rid record) = some r' →
      (id' = rid ∧ r' = record) ∨ (id' ≠ rid ∧ db.runs.get? id' = some r') := by
    intro id' r' hget'
    rw [OrderedMap.get?_set] at hget'
    split at hget'
    next heq =>
      cases hget'
      exact .inl ⟨heq, rfl⟩
    next hne => exact .inr ⟨hne, hget'⟩
  refine { vaults := fun id' s' hget' => ?_, runs := fun id' r' hget' => ?_,
           linked := fun id' r' hget' hactive => ?_,
           single := fun id₁ id₂ r₁ r₂ hget₁ hget₂ hactive₁ hactive₂ hsame => ?_,
           named := fun id' s' key hget' hreceipt hbot => ?_ }
  · rcases hvaults id' s' hget' with ⟨rfl, rfl⟩ | ⟨_, hold⟩
    · exact ⟨hkey, hnext⟩
    · exact h.vaults id' s' hold
  · rcases hruns id' r' hget' with ⟨rfl, rfl⟩ | ⟨_, hold⟩
    · exact ⟨hrid, hmem, hrevision, hbalanced⟩
    · obtain ⟨hid', hmem', hrevision', hbalanced'⟩ := h.runs id' r' hold
      exact ⟨hid', hmem', by omega, hbalanced'⟩
  · rcases hruns id' r' hget' with ⟨rfl, rfl⟩ | ⟨hne, hold⟩
    · refine ⟨next, ?_, hlinked⟩
      show OrderedMap.get? r'.vaultId (OrderedMap.set next.id next db.vaults) = some next
      rw [hkey, OrderedMap.get?_set_self]
    · obtain ⟨s', hs', hlinked'⟩ := h.linked id' r' hold hactive
      have hother : r'.vaultId ≠ next.id := by
        rw [hkey]
        exact fun heq => hne (hsingle id' r' hold hactive heq)
      exact ⟨s', (OrderedMap.get?_set_of_ne hother _ _).trans hs', hlinked'⟩
  · rcases hruns id₁ r₁ hget₁ with ⟨rfl, rfl⟩ | ⟨_, hold₁⟩ <;>
      rcases hruns id₂ r₂ hget₂ with ⟨rfl, rfl⟩ | ⟨_, hold₂⟩
    · rfl
    · exact (hsingle id₂ r₂ hold₂ hactive₂ hsame.symm).symm
    · exact hsingle id₁ r₁ hold₁ hactive₁ hsame
    · exact h.single id₁ id₂ r₁ r₂ hold₁ hold₂ hactive₁ hactive₂ hsame
  · have hold : key = botId env rid record.revision ∨
        ∃ id₀ s₀, db.vaults.get? id₀ = some s₀ ∧ s₀.receipts.get? key ≠ none := by
      rcases hvaults id' s' hget' with ⟨rfl, rfl⟩ | ⟨_, hold⟩
      · exact (hkeys key hreceipt).imp_right fun hkey => ⟨_, previous, hget, hkey⟩
      · exact .inr ⟨id', s', hold, hreceipt⟩
    rcases hold with heq | ⟨id₀, s₀, hget₀, hreceipt₀⟩
    · exact ⟨rid, record, record.revision, OrderedMap.get?_set_self _ _ _, Nat.le_refl _, heq⟩
    · obtain ⟨rid₀, r₀, n, hrun₀, hn, heq⟩ := h.named id₀ s₀ key hget₀ hreceipt₀ hbot
      by_cases hsame : rid₀ = rid
      · subst hsame
        exact ⟨rid₀, record, n, OrderedMap.get?_set_self _ _ _,
          Nat.le_trans hn (hlater r₀ hrun₀), heq⟩
      · exact ⟨rid₀, r₀, n, (OrderedMap.get?_set_of_ne hsame _ _).trans hrun₀, hn, heq⟩

/-- The first checkpoint of a run. -/
theorem Synced.opened (h : Synced env ids count db) (hno : NoCollision env ids bound)
    (hcount : count ≤ bound) {owner : String} {input : CreateRun} {record : RecordState}
    {vault next : VaultState} (hmem : input.id ∈ ids) (hnone : db.runs.get? input.id = none)
    (hopened : Opened db owner input record vault)
    (hstate : checkpointState env record vault (-record.state.cash) = .ok next) :
    Consistent next ∧ Tables next ∧ Linked next record := by
  obtain ⟨_, hvault⟩ := h.vaults _ _ hopened.found
  obtain ⟨hbalanced, hid, _, hpos, _, _, hpnl, hpositions, _⟩ := createRun_balanced hopened.run
  have hcovered := hopened.covered
  have hequity := total_eq hvault.toConsistent hopened.orders hopened.fees
  rw [total, hopened.cash, hopened.cost] at hequity
  have hcost : costSum record.state = 0 := by
    rw [costSum, hpositions]
    rfl
  refine checkpoint_consistent hvault hbalanced hopened.orders hopened.fees ?_ (by omega) ?_ ?_ hstate
  · intro lock hlock
    cases hclosed : lock.closed with
    | false => rfl
    | true =>
        have hidle := ((hvault.lock lock hlock).closed hclosed).2.2.1
        omega
  · rw [hopened.baseline, hpnl, hcost]
    omega
  · rw [hid, hopened.revision]
    refine h.fresh hno hcount hmem (Nat.zero_le bound) (fun r hr => ?_) hopened.found
    rw [hnone] at hr
    cases hr

/-- A later checkpoint of a run. -/
theorem Synced.moved (h : Synced env ids count db) (hno : NoCollision env ids bound)
    (hcount : count + 1 ≤ bound) {owner id : String} {before after : RecordState}
    {vault next : VaultState} {idleDelta : Int}
    (hmoved : Moved db owner id before after vault idleDelta)
    (hstate : checkpointState env after vault idleDelta = .ok next) :
    Consistent next ∧ Tables next ∧ Linked next after := by
  obtain ⟨hid, hmem, hrevision, hbefore⟩ := h.runs id before hmoved.run
  obtain ⟨s, hs, hlinked⟩ := h.linked id before hmoved.run hmoved.active
  rw [hmoved.found, Option.some.injEq] at hs
  subst hs
  obtain ⟨_, hvault⟩ := h.vaults _ _ hmoved.found
  have hequity := total_eq hvault.toConsistent hlinked.orders hlinked.fees
  rw [total, hlinked.cash, hlinked.cost, hlinked.pnl] at hequity
  have hconserved := hbefore.conserved
  have hconserved' := hmoved.balanced.conserved
  have hcontributed := hmoved.contributed
  refine checkpoint_consistent hvault hmoved.balanced hlinked.orders hlinked.fees hlinked.lock
    hmoved.covered ?_ ?_ hstate
  · rw [hmoved.baseline]
    omega
  · rw [hmoved.runId, hid, hmoved.revision]
    refine h.fresh hno (by omega) hmem (by omega) (fun r hr => ?_) hmoved.found
    rw [hmoved.run, Option.some.injEq] at hr
    rw [← hr]
    omega

theorem checkpointState_names {record : RecordState} {previous next : VaultState} {idleDelta : Int}
    (h : checkpointState env record previous idleDelta = .ok next) :
    next.id = previous.id ∧ next.feesAccrued = previous.feesAccrued ∧
      next.deposits = previous.deposits ∧ next.withdrawalsPaid = previous.withdrawalsPaid ∧
      ∀ key, next.receipts.get? key ≠ none →
        key = botId env record.state.id record.revision ∨ previous.receipts.get? key ≠ none := by
  obtain ⟨_, _, _, rfl⟩ := checkpointState_eq_ok h
  refine ⟨rfl, rfl, rfl, rfl, fun key hkey => ?_⟩
  simp only [checkpointed] at hkey
  rw [OrderedMap.get?_set] at hkey
  split at hkey
  next heq => exact .inl heq
  · exact .inr hkey

/-- The calls of the owners and the executor, under ids of their own. -/
def StoreCall.admissible : StoreCall → Bool
  | .vault _ _ call => !isBotId call.command.id
  | _ => true

def StoreCall.createdId : StoreCall → Option String
  | .create _ input => some input.id
  | _ => none

theorem step_eq_ok {call : StoreCall} {db' : Db} (h : step env call db = .ok db') :
    perform env call db = .ok () db' := by
  unfold step at h
  cases hperform : perform env call db with
  | ok u db'' =>
      rw [hperform] at h
      cases h
      rfl
  | error e db'' =>
      rw [hperform] at h
      cases h

theorem Synced.runCommand_moved (h : Synced env ids count db) {owner id : String} {cmd : RunCommand}
    {after : RecordState} {vault : VaultState} {idleDelta : Int}
    (hplan : runCommand env db owner id cmd = .ok (some (after, vault, idleDelta))) :
    ∃ before, Moved db owner id before after vault idleDelta :=
  Automata.runCommand_moved (fun before hbefore => (h.runs id before hbefore).2.2.2)
    (fun vaultId s hs =>
      (DomainVault.amounts_nonneg_iff.mp (h.vaults vaultId s hs).2.nonneg).2.1) hplan

/-- What a call writes keeps the two ledgers together. -/
theorem synced_step (h : Synced env ids count db) (hno : NoCollision env ids bound)
    (hcount : count + 1 ≤ bound) {call : StoreCall} (hcall : call.admissible = true)
    (hid : ∀ id ∈ call.createdId, id ∈ ids) {db' : Db} (hstep : step env call db = .ok db') :
    Synced env ids (count + 1) db' := by
  have hstep := step_eq_ok hstep
  cases call with
  | obtainTestPasses owner strategy uuid locked =>
      rcases obtainTestPasses_returns hstep with rfl | ⟨start, hnew, rfl⟩
      · exact h.mono (Nat.le_succ count)
      · have hempty : start.state.receipts = [] := by
          have hcreated := start.created
          simp only [DomainVault.createVault, bind_eq_ok, pure_eq_ok] at hcreated
          obtain ⟨_, _, _, _, _, _, _, _, hstate⟩ := hcreated
          rw [← hstate]
          rfl
        exact (h.addVault hnew start.reached hempty).mono (Nat.le_succ count)
  | vault owner id call =>
      obtain ⟨previous, state, hget, howner, hallowed, hexecute, ⟨hfresh, rfl⟩ | rfl⟩ :=
        vaultCommand_returns hstep
      · obtain ⟨_, hprevious⟩ := h.vaults id previous hget
        obtain ⟨hname, _, hkeys⟩ := step_names hexecute
        refine (h.setVault hget hname (DomainVault.execute_reached hprevious hexecute) ?_ ?_).mono
          (Nat.le_succ count)
        · intro rid r hrun hactive hvault hlinked
          have htype := besideBot_of_active hallowed hrun hactive hvault
          obtain ⟨hbooks, hopen⟩ := step_besideBot hprevious hlinked.lock htype hexecute
          exact ⟨hbooks.activeCash.trans hlinked.cash, hbooks.positionCost.trans hlinked.cost,
            hbooks.realizedPnl.trans hlinked.pnl, hbooks.orders.trans hlinked.orders,
            hbooks.feeLiability.trans hlinked.fees, hopen⟩
        · intro key hreceipt hbot
          rcases hkeys key hreceipt with rfl | hold
          · have hown : (!isBotId call.command.id) = true := hcall
            rw [hbot] at hown
            cases hown
          · exact hold
      · exact h.mono (Nat.le_succ count)
  | create owner input =>
      rcases create_returns hstep with rfl | ⟨hnone, _, record, vault, next, hnew, hfree, hstate,
        hassert, rfl⟩
      · exact h.mono (Nat.le_succ count)
      have hopened := newRun_eq_ok hnew
      obtain ⟨hbalanced, hrid, _⟩ := createRun_balanced hopened.run
      have hmem := hid input.id rfl
      obtain ⟨hconsistent, htables, hlinked⟩ := h.opened hno (by omega) hmem hnone hopened hstate
      obtain ⟨hname, _, _, _, hkeys⟩ := checkpointState_names hstate
      have hreached := DomainVault.reached_of_assert hconsistent htables hassert
      rw [hrid] at hkeys ⊢
      refine h.setRun hrid hmem (by rw [hopened.revision]; omega) hbalanced
        (by rw [hopened.vaultId]; exact hopened.found) hname hreached hlinked hkeys ?_ ?_
      · intro id' r' hget' hactive' hsame
        have hoccupied := occupied_of_active hget' hactive'
        rw [hsame, hfree] at hoccupied
        cases hoccupied
      · intro r hr
        rw [hnone] at hr
        cases hr
  | command owner id cmd =>
      rcases command_returns hstep with rfl | ⟨after, vault, idleDelta, next, hplan, hstate, hassert,
        rfl⟩
      · exact h.mono (Nat.le_succ count)
      obtain ⟨before, hmoved⟩ := h.runCommand_moved hplan
      obtain ⟨hrid, hmem, hrevision, _⟩ := h.runs id before hmoved.run
      obtain ⟨hconsistent, htables, hlinked⟩ := h.moved hno hcount hmoved hstate
      obtain ⟨hname, _, _, _, hkeys⟩ := checkpointState_names hstate
      have hreached := DomainVault.reached_of_assert hconsistent htables hassert
      have hafter : after.state.id = id := hmoved.runId.trans hrid
      rw [hafter] at hkeys ⊢
      refine h.setRun hafter hmem (by rw [hmoved.revision]; omega) hmoved.balanced
        (by rw [hmoved.vaultId]; exact hmoved.found) hname hreached hlinked hkeys ?_ ?_
      · intro id' r' hget' hactive' hsame
        exact h.single id' id r' before hget' hmoved.run hactive' hmoved.active
          (hsame.trans hmoved.vaultId)
      · intro r hr
        rw [hmoved.run, Option.some.injEq] at hr
        rw [← hr, hmoved.revision]
        exact Nat.le_succ _

/-! ## Every run -/

theorem synced_run (hno : NoCollision env ids bound) {calls : List StoreCall}
    (hcalls : ∀ c ∈ calls, c.admissible = true ∧ ∀ id ∈ c.createdId, id ∈ ids)
    (h : Synced env ids count db) (hcount : count + calls.length ≤ bound) :
    Synced env ids (count + calls.length) (exec (step env) db calls) := by
  induction calls generalizing db count with
  | nil => exact h
  | cons c rest ih =>
      obtain ⟨⟨hcall, hid⟩, hrest⟩ := List.forall_mem_cons.mp hcalls
      rw [List.length_cons] at hcount ⊢
      rw [exec_cons, show count + (rest.length + 1) = count + 1 + rest.length by omega]
      cases hstep : step env c db with
      | ok db' =>
          rw [apply_ok hstep]
          exact ih hrest (synced_step h hno (by omega) hcall hid hstep) (by omega)
      | error e =>
          rw [apply_error hstep]
          exact ih hrest (h.mono (Nat.le_succ count)) (by omega)

theorem total_change {s s' : VaultState} (hs : Consistent s) (hs' : Consistent s')
    (horders : s.orders = []) (hfees : s.feeLiability = 0) (horders' : s'.orders = [])
    (hfees' : s'.feeLiability = 0) (haccrued : s'.feesAccrued = s.feesAccrued) :
    total s' = total s + (s'.deposits - s.deposits) - (s'.withdrawalsPaid - s.withdrawalsPaid) +
      (s'.realizedPnl - s.realizedPnl) := by
  rw [total_eq hs horders hfees, total_eq hs' horders' hfees']
  omega

/-- What a run has realized, or nothing before there is one. -/
def realizedOf (db : Db) (rid : String) : Int :=
  ((db.runs.get? rid).map (·.state.realizedPnl)).getD 0

/-- The vault of a run, from before to after a call, changes by what came in and went out
and by what the run realized. -/
def Accounted (db db' : Db) : Prop :=
  ∀ rid r', db'.runs.get? rid = some r' →
    (∀ r, db.runs.get? rid = some r → r.active = true) →
    ∀ s s', db.vaults.get? r'.vaultId = some s → db'.vaults.get? r'.vaultId = some s' →
      total s' = total s + (s'.deposits - s.deposits) - (s'.withdrawalsPaid - s.withdrawalsPaid) +
        (r'.state.realizedPnl - realizedOf db rid)

/-- A call that touches neither the run nor its vault. -/
theorem accounted_same {s s' : VaultState} {rid : String} {r' : RecordState}
    (hrun : db.runs.get? rid = some r') (heq : s' = s) :
    total s' = total s + (s'.deposits - s.deposits) - (s'.withdrawalsPaid - s.withdrawalsPaid) +
      (r'.state.realizedPnl - realizedOf db rid) := by
  rw [realizedOf, hrun, heq]
  simp

theorem accounted_refl (db : Db) : Accounted db db := by
  intro rid r' hrun _ s s' hs hs'
  rw [hs, Option.some.injEq] at hs'
  exact accounted_same hrun hs'.symm

theorem synced_accounted (h : Synced env ids count db) (hno : NoCollision env ids bound)
    (hcount : count + 1 ≤ bound) {call : StoreCall} (hcall : call.admissible = true)
    (hid : ∀ id ∈ call.createdId, id ∈ ids) {db' : Db} (hstep : step env call db = .ok db') :
    Accounted db db' := by
  have hstep := step_eq_ok hstep
  cases call with
  | obtainTestPasses owner strategy uuid locked =>
      rcases obtainTestPasses_returns hstep with rfl | ⟨start, hnew, rfl⟩
      · exact accounted_refl _
      · intro rid r' hrun _ s s' hs hs'
        have hne : r'.vaultId ≠ start.state.id := by
          intro heq
          rw [heq, hnew] at hs
          cases hs
        rw [OrderedMap.get?_set_of_ne hne, hs, Option.some.injEq] at hs'
        exact accounted_same hrun hs'.symm
  | vault owner id call =>
      obtain ⟨previous, state, hget, _, hallowed, hexecute, ⟨_, rfl⟩ | rfl⟩ :=
        vaultCommand_returns hstep
      · intro rid r' hrun hactive s s' hs hs'
        obtain ⟨hkey, hprevious⟩ := h.vaults id previous hget
        obtain ⟨hname, _, _⟩ := step_names hexecute
        by_cases hvault : r'.vaultId = id
        · have htype := besideBot_of_active hallowed hrun (hactive r' hrun) hvault
          rw [hvault, hget, Option.some.injEq] at hs
          subst hs
          rw [hvault, hname, hkey, OrderedMap.get?_set_self, Option.some.injEq] at hs'
          subst hs'
          obtain ⟨s, hs, hlinked⟩ := h.linked rid r' hrun (hactive r' hrun)
          rw [hvault, hget, Option.some.injEq] at hs
          subst hs
          obtain ⟨hbooks, _⟩ := step_besideBot hprevious hlinked.lock htype hexecute
          have hchange := total_change hprevious.toConsistent
            (DomainVault.execute_reached hprevious hexecute).toConsistent hlinked.orders hlinked.fees
            (hbooks.orders.trans hlinked.orders) (hbooks.feeLiability.trans hlinked.fees)
            hbooks.feesAccrued
          rw [hchange, hbooks.realizedPnl, realizedOf, hrun]
          simp
        · have hne : r'.vaultId ≠ state.id := by
            rw [hname, hkey]
            exact hvault
          rw [OrderedMap.get?_set_of_ne hne, hs, Option.some.injEq] at hs'
          exact accounted_same hrun hs'.symm
      · exact accounted_refl _
  | create owner input =>
      rcases create_returns hstep with rfl | ⟨hnone, _, record, vault, next, hnew, hfree, hstate,
        hassert, rfl⟩
      · exact accounted_refl _
      have hopened := newRun_eq_ok hnew
      obtain ⟨_, hrid, _, _, _, _, hpnl, _⟩ := createRun_balanced hopened.run
      obtain ⟨hconsistent, _, hlinked⟩ :=
        h.opened hno (by omega) (hid input.id rfl) hnone hopened hstate
      obtain ⟨hname, haccrued, _⟩ := checkpointState_names hstate
      obtain ⟨hkey, hvault⟩ := h.vaults _ _ hopened.found
      intro rid r' hrun hactive s s' hs hs'
      simp only [hrid, hname, hkey] at hrun hs'
      rw [OrderedMap.get?_set] at hrun
      split at hrun
      next heq =>
        cases hrun
        rw [hopened.vaultId, hopened.found, Option.some.injEq] at hs
        rw [hopened.vaultId, OrderedMap.get?_set_self, Option.some.injEq] at hs'
        subst hs hs'
        have hchange := total_change hvault.toConsistent hconsistent hopened.orders hopened.fees
          hlinked.orders hlinked.fees haccrued
        rw [hchange, hlinked.pnl, hopened.baseline, hpnl, realizedOf, heq, hnone]
        simp
      · have hne : r'.vaultId ≠ input.vaultId := by
          intro heq
          have hoccupied := occupied_of_active hrun (hactive r' hrun)
          rw [heq, ← hopened.vaultId, hfree] at hoccupied
          cases hoccupied
        rw [OrderedMap.get?_set_of_ne hne, hs, Option.some.injEq] at hs'
        exact accounted_same hrun hs'.symm
  | command owner id cmd =>
      rcases command_returns hstep with rfl | ⟨after, vault, idleDelta, next, hplan, hstate, hassert,
        rfl⟩
      · exact accounted_refl _
      obtain ⟨before, hmoved⟩ := h.runCommand_moved hplan
      obtain ⟨hrid, _⟩ := h.runs id before hmoved.run
      obtain ⟨hconsistent, _, hlinked⟩ := h.moved hno hcount hmoved hstate
      obtain ⟨hname, haccrued, _⟩ := checkpointState_names hstate
      obtain ⟨hkey, hvault⟩ := h.vaults _ _ hmoved.found
      obtain ⟨s₀, hs₀, hbefore⟩ := h.linked id before hmoved.run hmoved.active
      rw [hmoved.found, Option.some.injEq] at hs₀
      subst hs₀
      intro rid r' hrun hactive s s' hs hs'
      simp only [hmoved.runId.trans hrid, hname, hkey] at hrun hs'
      rw [OrderedMap.get?_set] at hrun
      split at hrun
      next heq =>
        cases hrun
        rw [hmoved.vaultId, hmoved.found, Option.some.injEq] at hs
        rw [hmoved.vaultId, OrderedMap.get?_set_self, Option.some.injEq] at hs'
        subst hs hs'
        have hchange := total_change hvault.toConsistent hconsistent hbefore.orders hbefore.fees
          hlinked.orders hlinked.fees haccrued
        rw [hchange, hlinked.pnl, hbefore.pnl, hmoved.baseline, realizedOf, heq, hmoved.run]
        simp
      · next hother =>
          have hne : r'.vaultId ≠ before.vaultId := fun heq =>
            hother (h.single rid id r' before hrun hmoved.run (hactive r' hrun) hmoved.active heq)
          rw [OrderedMap.get?_set_of_ne hne, hs, Option.some.injEq] at hs'
          exact accounted_same hrun hs'.symm

/-- A call that throws leaves both stores as they were. -/
theorem perform_throws {call : StoreCall} {e : String} {db' : Db}
    (h : perform env call db = .error e db') : db' = db := by
  cases call with
  | obtainTestPasses owner strategy uuid locked => exact transaction_throws h
  | vault owner id call => exact transaction_throws h
  | create owner input =>
      rcases bind_throws h with h | ⟨_, _, hok, h⟩
      · exact await_throws h
      obtain ⟨_, rfl⟩ := await_returns.mp hok
      rcases bind_throws h with h | ⟨_, _, hok, h⟩
      · exact await_throws h
      obtain ⟨_, rfl⟩ := await_returns.mp hok
      exact transaction_throws h
  | command owner id cmd =>
      rcases bind_throws h with h | ⟨_, _, hok, h⟩
      · exact await_throws h
      obtain ⟨_, rfl⟩ := await_returns.mp hok
      exact transaction_throws h

/-- The vault that the checkpoint of a call asserts, if it gets as far as that. -/
def asserted (env : Env) (db : Db) : StoreCall → Except String (Option VaultState)
  | .create owner input =>
      if db.runs.get? input.id = none then do
        let opened ← newRun env db owner input
        some <$> checkpointState env opened.1 opened.2 (-opened.1.state.cash)
      else .ok none
  | .command owner id cmd => do
      match ← runCommand env db owner id cmd with
      | none => return none
      | some (record, vault, idleDelta) => some <$> checkpointState env record vault idleDelta
  | _ => .ok none

theorem Synced.asserted_consistent (h : Synced env ids count db) (hno : NoCollision env ids bound)
    (hcount : count + 1 ≤ bound) {call : StoreCall} (hid : ∀ id ∈ call.createdId, id ∈ ids)
    {next : VaultState} (hnext : asserted env db call = .ok (some next)) : Consistent next := by
  cases call with
  | obtainTestPasses owner strategy uuid locked => cases hnext
  | vault owner id call => cases hnext
  | create owner input =>
      simp only [asserted] at hnext
      split at hnext
      next hnone =>
        simp only [bind_eq_ok, map_eq_ok, Option.some.injEq] at hnext
        obtain ⟨⟨record, vault⟩, hnew, _, hstate, rfl⟩ := hnext
        exact (h.opened hno (by omega) (hid input.id rfl) hnone (newRun_eq_ok hnew) hstate).1
      · cases hnext
  | command owner id cmd =>
      simp only [asserted, bind_eq_ok] at hnext
      obtain ⟨planned, hplan, hnext⟩ := hnext
      cases planned with
      | none => cases hnext
      | some plan =>
          obtain ⟨record, vault, idleDelta⟩ := plan
          simp only [map_eq_ok, Option.some.injEq] at hnext
          obtain ⟨_, hstate, rfl⟩ := hnext
          obtain ⟨before, hmoved⟩ := h.runCommand_moved hplan
          exact (h.moved hno hcount hmoved hstate).1

end Steps

/-- The ids of the runs that a list of calls creates. -/
def createdIds (calls : List StoreCall) : List String := calls.filterMap (·.createdId)

/-- After any calls, the books of an active run are those of its vault.  A further call
that comes to its checkpoint leaves consistent books, which the assertion refuses only
for an amount that is too large.  What the vault of an active or new run holds changes
by deposits, withdrawals paid and what the run realized, and a call that throws leaves
both stores as they were. -/
theorem ledgers_agree_in_every_run (env : Env) (calls : List StoreCall) (call : StoreCall)
    (hcalls : ∀ c ∈ calls ++ [call], c.admissible = true)
    (hno : NoCollision env (createdIds (calls ++ [call])) (calls.length + 1)) :
    (∀ id r, (exec (step env) .empty calls).runs.get? id = some r → r.active = true →
      ∃ s, (exec (step env) .empty calls).vaults.get? r.vaultId = some s ∧
        s.activeCash = r.state.cash ∧ s.positionCost = costSum r.state ∧
        s.realizedPnl = r.baselineRealized + r.state.realizedPnl ∧ s.orders = [] ∧
        s.feeLiability = 0) ∧
    (∀ next, asserted env (exec (step env) .empty calls) call = .ok (some next) →
      Consistent next ∧ (assertInvariant next = .ok () ∨
        ∃ amount ∈ DomainVault.allAmounts next, DomainVault.maxInteger < amount)) ∧
    (∀ db', step env call (exec (step env) .empty calls) = .ok db' →
      Accounted (exec (step env) .empty calls) db') ∧
    ∀ e db', perform env call (exec (step env) .empty calls) = .error e db' →
      db' = exec (step env) .empty calls := by
  have hids : ∀ c ∈ calls ++ [call], ∀ id ∈ c.createdId, id ∈ createdIds (calls ++ [call]) :=
    fun c hc id hid => List.mem_filterMap.mpr ⟨c, hc, hid⟩
  have hlast : call ∈ calls ++ [call] := List.mem_append_right _ List.mem_cons_self
  have hsynced : Synced env (createdIds (calls ++ [call])) (0 + calls.length)
      (exec (step env) .empty calls) := synced_run hno
    (fun c hc => ⟨hcalls c (List.mem_append_left _ hc), hids c (List.mem_append_left _ hc)⟩)
    (synced_empty env _ 0) (by omega)
  refine ⟨fun id r hget hactive => ?_, fun next hnext => ?_, fun db' hstep => ?_,
    fun e db' hthrow => perform_throws hthrow⟩
  · obtain ⟨s, hs, hlinked⟩ := hsynced.linked id r hget hactive
    exact ⟨s, hs, hlinked.cash, hlinked.cost, hlinked.pnl, hlinked.orders, hlinked.fees⟩
  · have hconsistent := hsynced.asserted_consistent hno (by omega) (hids call hlast) hnext
    refine ⟨hconsistent, (DomainVault.bounded_or_overflow hconsistent).imp_left fun hbounded => ?_⟩
    exact DomainVault.assertInvariant_eq_ok.mpr ⟨hconsistent, hbounded⟩
  · exact synced_accounted hsynced hno (by omega) (hcalls call hlast) (hids call hlast) hstep

/-! A vault whose idle balance is as large as an amount can be, and a bot that returns
its last unit of cash to it. -/

/-- SHA-256 of the texts that the calls below hash. -/
def sha256 (text : String) : String :=
  if text = "run:0" then "b359aa8d94931b62ad221b5018364dd91f6a2a00d7d3c91fb1b427290cb7db74"
  else if text = "run:1" then "325fb97585f5a4f2ff7feaa71ce3a48e264d61f3ddbd139bdeca30daca10d2a3"
  else if text = "run:2" then "c540a3e68903f45b281b6353f5b827c929643bb4ae00ab33a320dc68569d7d06"
  else if text = "run:3" then "ad65d1e79c4651fc9f2fdf5d0a49ee41e942304d9a7e043f90c4187d5fe6890a"
  else text

def localEnv : Env where
  hash := sha256
  localeCompare := compare
  creationJson := fun input => input.id
  commandJson := fun cmd => cmd.id
  runJson := fun run => run.id

theorem names_distinct :
    (DomainVault.Command.names ++ ([] : List (String × Json)).map (·.1)).Nodup := by
  decide

def ownerCall (id : String) (revision : Int) (body : DomainVault.Body) : StoreCall :=
  .vault "owner" "vault_1" ⟨⟨"owner", .owner⟩, ⟨id, revision, body, [], names_distinct⟩, none⟩

def executorCall (id : String) (revision : Int) (body : DomainVault.Body) : StoreCall :=
  .vault "owner" "vault_1"
    ⟨⟨"local-simulator", .executor⟩, ⟨id, revision, body, [], names_distinct⟩,
      some zeroFeeFullSettlement⟩

def idleBot : CreateRun where
  id := "run"
  vaultId := "vault_1"
  amount := "1"
  datasetId := "trend"
  parameters := { strategyMode := none, weights := [("rwa-a", 0)], deviationBps := 100,
                  intervalMs := 1000, feeBps := 0, maxSlippageBps := 0, limits := .off }

def richCalls : List StoreCall :=
  [.obtainTestPasses "owner" "strategy" "1" false, ownerCall "d1" 0 (.deposit "1"),
    ownerCall "a1" 1 (.allocate "1"), ownerCall "s1" 2 .start,
    executorCall "b1" 3 (.reserveBuy "o1" "1"), executorCall "f1" 4 (.fillBuy "o1"),
    executorCall "p1" 5 (.settlePosition
      "115792089237316195423570985008687907853269984665640564039457584007913129639935"),
    ownerCall "s2" 6 .stop, ownerCall "a2" 7 (.deallocate "1000000000"),
    .create "owner" idleBot, ownerCall "d2" 9 (.deposit "1")]

def fundOut : StoreCall := .command "owner" "run" ⟨"c1", 0, .fund false "1"⟩

theorem first_bot_agrees :
    (step localEnv (.create "owner" idleBot)
      (exec (step localEnv) .empty (richCalls.take 2))).toOption.isSome = true ∧
    ∀ db', step localEnv (.create "owner" idleBot)
        (exec (step localEnv) .empty (richCalls.take 2)) = .ok db' →
      Accounted (exec (step localEnv) .empty (richCalls.take 2)) db' := by
  refine ⟨by decide, (ledgers_agree_in_every_run localEnv (richCalls.take 2)
    (.create "owner" idleBot) (by decide) ?_).2.2.1⟩
  unfold NoCollision
  decide

theorem last_unit_overflows :
    (∀ c ∈ richCalls ++ [fundOut], c.admissible = true) ∧
      (asserted localEnv (exec (step localEnv) .empty richCalls) fundOut).toOption.join.map
        assertInvariant = some (.error "AMOUNT_OVERFLOW") := by
  exact ⟨by decide, by decide +kernel⟩

end Automata
end AlphaForge
