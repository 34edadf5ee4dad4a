/-
What the calls of the two stores write.

A call that returns wrote nothing, one vault, or a run together with the checkpoint of
its vault.  The checkpoint of a balanced run leaves consistent books, whatever the
run did, so its assertion refuses only an amount that is too large.
-/
import AlphaForge.Automata.Engine.Balanced
import AlphaForge.Automata.Store

namespace AlphaForge
namespace Automata

open Evm Commit
open DomainVault (VaultState PassLock Consistent Tables Reached Bounded assertInvariant balances sum)

/-! ## Checkpoints -/

/-- The books of a vault that a bot runs on. -/
structure Linked (s : VaultState) (record : RecordState) : Prop where
  cash : s.activeCash = record.state.cash
  cost : s.positionCost = costSum record.state
  pnl : s.realizedPnl = record.baselineRealized + record.state.realizedPnl
  orders : s.orders = []
  fees : s.feeLiability = 0
  lock : ∀ lock, s.passLock = some lock → lock.closed = false

/-- Everything that an owner's vault holds, apart from orders. -/
def total (s : VaultState) : Int :=
  s.idle + s.activeCash + s.positionCost + sum s.pendingWithdrawals

/-- Without orders and fees, a vault holds what came in, less what went out, and what
was realized. -/
theorem total_eq {s : VaultState} (h : Consistent s) (horders : s.orders = [])
    (hfees : s.feeLiability = 0) :
    total s = s.deposits - s.withdrawalsPaid + s.realizedPnl - s.feesAccrued := by
  have hequity := DomainVault.equity_iff.mp h.equity
  rw [horders, hfees] at hequity
  have hsum : sum ([] : OrderedMap String Int) = 0 := rfl
  unfold total
  omega

theorem checkpointState_eq_ok {env : Env} {record : RecordState} {previous next : VaultState}
    {idleDelta : Int} (h : checkpointState env record previous idleDelta = .ok next) :
    previous.revision < 9999 ∧ ∃ worth, 0 ≤ worth ∧
      next = checkpointed env record previous idleDelta (costSum record.state) worth := by
  simp only [checkpointState, bind_eq_ok, ensure_eq_ok, positionCosts_eq_ok, amount_eq_ok,
    pure_eq_ok] at h
  obtain ⟨_, hlimit, _, ⟨_, rfl⟩, value, hvalue, _, ⟨_, rfl⟩, rfl⟩ := h
  have hworth := cash_le_equity hvalue
  exact ⟨hlimit, value - record.state.cash, by omega, rfl⟩

section Checkpoint

variable {env : Env} {record : RecordState} {previous next : VaultState} {idleDelta : Int}

/-- A checkpoint of a balanced run leaves consistent books, if idle covers what it takes
and nothing is created or lost. -/
theorem checkpoint_consistent (hs : Reached previous) (hrun : Balanced record.state)
    (horders : previous.orders = []) (hfees : previous.feeLiability = 0)
    (hopen : ∀ lock, previous.passLock = some lock → lock.closed = false)
    (hidle : 0 ≤ previous.idle + idleDelta)
    (htotal : previous.idle + idleDelta + record.state.cash + costSum record.state +
        sum previous.pendingWithdrawals =
      previous.deposits - previous.withdrawalsPaid +
        (record.baselineRealized + record.state.realizedPnl) - previous.feesAccrued)
    (hfresh : previous.receipts.get? (botId env record.state.id record.revision) = none)
    (h : checkpointState env record previous idleDelta = .ok next) :
    Consistent next ∧ Tables next ∧ Linked next record := by
  obtain ⟨hlimit, worth, hworth, rfl⟩ := checkpointState_eq_ok h
  have hnonneg := DomainVault.amounts_nonneg_iff.mp hs.nonneg
  have hcost : 0 ≤ costSum record.state := by
    refine List.sum_nonneg fun x hx => ?_
    obtain ⟨e, he, rfl⟩ := List.mem_map.mp hx
    exact (hrun.costs e he).1
  have hcash := hrun.cash
  have hledger : DomainVault.Ledger
      (checkpointed env record previous idleDelta (costSum record.state) worth) := by
    refine ⟨DomainVault.amounts_nonneg_iff.mpr ?_, hs.orders, hs.pending, ?_, hs.fees,
      DomainVault.equity_iff.mpr ?_⟩
    · simp only [checkpointed]
      omega
    · simp only [checkpointed, hfees]
      exact hcash.1
    · have hsum : sum ([] : OrderedMap String Int) = 0 := rfl
      simp only [checkpointed, horders, hfees]
      omega
  refine ⟨{ toLedger := hledger, scope := hs.scope, ids := hs.ids, revision := ?_,
            activeNet := hledger.activeNet, lock := ?_, history := ?_ }, ?_,
    ⟨rfl, rfl, rfl, horders, hfees, hopen⟩⟩
  · simp only [checkpointed, DomainVault.maxSafeInteger]
    omega
  · intro lock hlock
    have hold := hs.lock lock hlock
    exact ⟨hold.version, hold.nonneg, hold.capacity, hold.length, hold.parts, hold.reserved,
      fun hclosed => absurd ((hopen lock hlock).symm.trans hclosed) (by decide)⟩
  · exact DomainVault.history_of_recorded hs.history hfresh ⟨rfl, rfl, _, rfl, rfl, rfl⟩
  · refine ⟨hs.orderKeys, hs.pendingKeys, OrderedMap.nodup_keys_set hs.receipts, hs.parts,
      fun id hid => ?_⟩
    rw [show (checkpointed env record previous idleDelta (costSum record.state) worth).receipts =
      previous.receipts.set _ _ from rfl, OrderedMap.get?_set] at hid
    split at hid
    · cases hid
    · exact hs.requested id hid

end Checkpoint

/-! ## Writes -/

section Writes

variable {env : Env} {db db' : Db} {owner id : String}

theorem localGet_eq_ok {s : VaultState} (h : localGet db id owner = .ok s) :
    db.vaults.get? id = some s ∧ s.ownerId = owner := by
  unfold localGet at h
  cases hget : db.vaults.get? id with
  | none => simp only [hget] at h; cases h
  | some found =>
      simp only [hget, bind_eq_ok, ensure_eq_ok, pure_eq_ok] at h
      obtain ⟨_, howner, _, _, rfl⟩ := h
      exact ⟨rfl, howner⟩

theorem readRun_eq_ok {record : RecordState} (h : readRun db owner id = .ok record) :
    db.runs.get? id = some record ∧ record.owner = owner := by
  unfold readRun at h
  cases hget : db.runs.get? id with
  | none => simp only [hget] at h; cases h
  | some found =>
      simp only [hget, bind_eq_ok, ensure_eq_ok, pure_eq_ok] at h
      obtain ⟨_, howner, rfl⟩ := h
      exact ⟨rfl, howner⟩

theorem updateVault_returns {previous next : VaultState}
    (h : updateVault previous next db = .ok () db') :
    db' = { db with vaults := db.vaults.set next.id next } := by
  simp only [updateVault, bind_returns, get_returns, await_returns, set_returns] at h
  obtain ⟨_, _, ⟨rfl, rfl⟩, _, _, ⟨_, rfl⟩, rfl⟩ := h
  rfl

theorem checkpoint_returns {record : RecordState} {previous : VaultState} {idleDelta : Int}
    (h : checkpoint env record previous idleDelta db = .ok () db') :
    ∃ next, checkpointState env record previous idleDelta = .ok next ∧
      assertInvariant next = .ok () ∧ db' = { db with vaults := db.vaults.set next.id next } := by
  simp only [checkpoint, bind_returns, await_returns] at h
  obtain ⟨next, _, ⟨hnext, rfl⟩, _, _, ⟨hassert, rfl⟩, hupdate⟩ := h
  exact ⟨next, hnext, hassert, updateVault_returns hupdate⟩

theorem obtainTestPasses_returns {strategy uuid : String} {locked : Bool}
    (h : obtainTestPasses owner strategy uuid locked db = .ok () db') :
    db' = db ∨ ∃ start : DomainVault.Fresh, db.vaults.get? start.state.id = none ∧
      db' = { db with vaults := db.vaults.set start.state.id start.state } := by
  simp only [obtainTestPasses, transaction_returns, bind_returns, get_returns] at h
  obtain ⟨_, _, ⟨rfl, rfl⟩, h⟩ := h
  cases hfind : db.vaults.find? (fun e => e.2.ownerId = owner ∧ e.2.strategyId = strategy) with
  | some e =>
      simp only [hfind, await_returns] at h
      exact .inl h.2.symm
  | none =>
      simp only [hfind, bind_returns, await_returns, set_returns, ensure_eq_ok] at h
      obtain ⟨state, _, ⟨hstate, rfl⟩, _, _, ⟨hnew, rfl⟩, rfl⟩ := h
      refine .inr ⟨⟨_, state, hstate, ?_⟩, hnew, rfl⟩
      cases locked with
      | true => exact .inr rfl
      | false => exact .inl rfl

theorem vaultCommand_returns {call : DomainVault.Call}
    (h : vaultCommand env owner id call db = .ok () db') :
    ∃ previous state, db.vaults.get? id = some previous ∧ previous.ownerId = owner ∧
      (db.occupied id = false ∨ besideBot call.command.body.type = true) ∧
      DomainVault.step env.localeCompare call previous = .ok state ∧
      ((previous.receipts.get? call.command.id = none ∧
          db' = { db with vaults := db.vaults.set state.id state }) ∨ db' = db) := by
  simp only [vaultCommand, transaction_returns, bind_returns, get_returns, await_returns,
    ensure_eq_ok] at h
  obtain ⟨_, _, ⟨rfl, rfl⟩, previous, _, ⟨hget, rfl⟩, _, _, ⟨hallowed, rfl⟩, state, _,
    ⟨hstep, rfl⟩, h⟩ := h
  obtain ⟨hprevious, howner⟩ := localGet_eq_ok hget
  refine ⟨previous, state, hprevious, howner, hallowed, hstep, ?_⟩
  split at h
  next hnew => exact .inl ⟨hnew, updateVault_returns h⟩
  · cases h
    exact .inr rfl

theorem create_returns {input : CreateRun} (h : create env owner input db = .ok () db') :
    db' = db ∨ (db.runs.get? input.id = none ∧ isId input.id = true ∧
      ∃ record vault next, newRun env db owner input = .ok (record, vault) ∧
        db.occupied record.vaultId = false ∧
        checkpointState env record vault (-record.state.cash) = .ok next ∧
        assertInvariant next = .ok () ∧
        db' = { vaults := db.vaults.set next.id next,
                runs := db.runs.set record.state.id record }) := by
  simp only [create, bind_returns, await_returns, validRunId, ensure_eq_ok, transaction_returns,
    get_returns] at h
  obtain ⟨_, _, ⟨hid, rfl⟩, _, _, ⟨_, rfl⟩, _, _, ⟨rfl, rfl⟩, h⟩ := h
  cases hfound : db.runs.get? input.id with
  | some found =>
      simp only [hfound, bind_returns, await_returns] at h
      obtain ⟨_, _, ⟨_, rfl⟩, _, _, ⟨_, rfl⟩, _, rfl⟩ := h
      exact .inl rfl
  | none =>
      simp only [hfound, bind_returns, await_returns] at h
      obtain ⟨⟨record, vault⟩, _, ⟨hnew, rfl⟩, _, inserted, hinsert, _, _, hcheckpoint, _, rfl⟩ := h
      simp only [insertRun, bind_returns, get_returns, await_returns, ensure_eq_ok, set_returns]
        at hinsert
      obtain ⟨_, _, ⟨rfl, rfl⟩, _, _, ⟨hfree, rfl⟩, rfl⟩ := hinsert
      obtain ⟨next, hnext, hassert, rfl⟩ := checkpoint_returns hcheckpoint
      exact .inr ⟨rfl, hid, record, vault, next, hnew, hfree, hnext, hassert, rfl⟩

theorem command_returns {cmd : RunCommand} (h : command env owner id cmd db = .ok () db') :
    db' = db ∨ ∃ record vault idleDelta next,
      runCommand env db owner id cmd = .ok (some (record, vault, idleDelta)) ∧
      checkpointState env record vault idleDelta = .ok next ∧ assertInvariant next = .ok () ∧
      db' = { vaults := db.vaults.set next.id next, runs := db.runs.set record.state.id record } := by
  simp only [command, bind_returns, await_returns, transaction_returns, get_returns] at h
  obtain ⟨_, _, ⟨_, rfl⟩, _, _, ⟨rfl, rfl⟩, planned, _, ⟨hplan, rfl⟩, h⟩ := h
  cases planned with
  | none =>
      cases h
      exact .inl rfl
  | some plan =>
      obtain ⟨record, vault, idleDelta⟩ := plan
      simp only [bind_returns, await_returns] at h
      obtain ⟨_, _, hcheckpoint, _, _, hpersist, _, rfl⟩ := h
      obtain ⟨next, hnext, hassert, rfl⟩ := checkpoint_returns hcheckpoint
      simp only [persist, bind_returns, get_returns, set_returns] at hpersist
      obtain ⟨_, _, ⟨rfl, rfl⟩, rfl⟩ := hpersist
      exact .inr ⟨record, vault, idleDelta, next, hplan, hnext, hassert, rfl⟩

/-- What a new run starts from. -/
structure Opened (db : Db) (owner : String) (input : CreateRun) (record : RecordState)
    (vault : VaultState) : Prop where
  found : db.vaults.get? input.vaultId = some vault
  owned : vault.ownerId = owner
  cash : vault.activeCash = 0
  cost : vault.positionCost = 0
  fees : vault.feeLiability = 0
  orders : vault.orders = []
  covered : record.state.cash ≤ vault.idle
  run : createRun input.id input.amount input.parameters = .ok record.state
  revision : record.revision = 0
  recorded : record.owner = owner
  vaultId : record.vaultId = input.vaultId
  baseline : record.baselineRealized = vault.realizedPnl

theorem newRun_eq_ok {input : CreateRun} {record : RecordState} {vault : VaultState}
    (h : newRun env db owner input = .ok (record, vault)) :
    Opened db owner input record vault := by
  simp only [newRun, bind_eq_ok, ensure_eq_ok, pure_eq_ok] at h
  obtain ⟨found, hget, _, ⟨_, hcash, hcost, hfees, horders⟩, cash, hamount, _, hcovered, _, _, _, _,
    initial, hinitial, _, _, heq⟩ := h
  rw [Prod.mk.injEq] at heq
  obtain ⟨rfl, rfl⟩ := heq
  obtain ⟨hvault, howned⟩ := localGet_eq_ok hget
  have hrun : createRun input.id input.amount input.parameters = .ok initial := by
    cases hcreate : createRun input.id input.amount input.parameters with
    | error e =>
        rw [hcreate] at hinitial
        cases hinitial
    | ok run =>
        rw [hcreate] at hinitial
        exact hinitial
  have hfunded : initial.cash ≤ found.idle := by
    obtain ⟨_, _, _, _, hspelled, _⟩ := createRun_balanced hrun
    obtain ⟨_, _, hvalue⟩ := amountText_eq_ok hamount
    rw [hspelled, hvalue]
    exact hcovered
  exact ⟨hvault, howned, hcash, hcost, hfees, horders, hfunded, hrun, rfl, rfl, rfl, rfl⟩

theorem commandAction_contributed {record : RecordState} {vault : VaultState} {cmd : RunCommand}
    {action : Action} {idleDelta : Int}
    (h : commandAction record vault cmd = .ok (action, idleDelta)) (hidle : 0 ≤ vault.idle) :
    idleDelta = -action.contributed ∧ 0 ≤ vault.idle + idleDelta := by
  unfold commandAction at h
  cases hbody : cmd.body with
  | step =>
      simp only [hbody, bind_eq_ok] at h
      obtain ⟨frames, _, h⟩ := h
      split at h
      · cases h
      · cases h
        exact ⟨rfl, by omega⟩
  | fund inward text =>
      simp only [hbody, bind_eq_ok] at h
      obtain ⟨cash, hcash, h⟩ := h
      obtain ⟨hnonneg, _, hvalue⟩ := amountText_eq_ok hcash
      cases inward with
      | true =>
          simp only [if_true, bind_eq_ok, ensure_eq_ok, pure_eq_ok, Prod.mk.injEq] at h
          obtain ⟨_, hcovered, _, _, _, _, rfl, rfl⟩ := h
          refine ⟨?_, by omega⟩
          rw [Action.contributed, if_pos rfl, hvalue]
      | false =>
          simp only [Bool.false_eq_true, if_false, pure_eq_ok, Prod.mk.injEq] at h
          obtain ⟨rfl, rfl⟩ := h
          refine ⟨?_, by omega⟩
          rw [Action.contributed, if_neg Bool.false_ne_true, hvalue, Int.neg_neg]
  | decision protocol runId frameSeq targets =>
      simp only [hbody, pure_eq_ok, Prod.mk.injEq] at h
      obtain ⟨rfl, rfl⟩ := h
      exact ⟨rfl, by omega⟩
  | stop | pause | resume =>
      simp only [hbody, pure_eq_ok, Prod.mk.injEq] at h
      obtain ⟨rfl, rfl⟩ := h
      exact ⟨rfl, by omega⟩

/-- What a command makes of a run, and what it moves between the run and idle. -/
structure Moved (db : Db) (owner id : String) (before after : RecordState) (vault : VaultState)
    (idleDelta : Int) : Prop where
  run : db.runs.get? id = some before
  active : before.active = true
  found : db.vaults.get? before.vaultId = some vault
  owned : vault.ownerId = owner
  recorded : before.owner = owner ∧ after.owner = before.owner
  vaultId : after.vaultId = before.vaultId
  baseline : after.baselineRealized = before.baselineRealized
  revision : after.revision = before.revision + 1
  balanced : Balanced after.state
  runId : after.state.id = before.state.id
  covered : 0 ≤ vault.idle + idleDelta
  contributed : after.state.netContributed = before.state.netContributed - idleDelta

theorem runCommand_moved {cmd : RunCommand} {after : RecordState} {vault : VaultState}
    {idleDelta : Int}
    (hrun : ∀ before, db.runs.get? id = some before → Balanced before.state)
    (hidle : ∀ vaultId s, db.vaults.get? vaultId = some s → 0 ≤ s.idle)
    (h : runCommand env db owner id cmd = .ok (some (after, vault, idleDelta))) :
    ∃ before, Moved db owner id before after vault idleDelta := by
  simp only [runCommand, bind_eq_ok] at h
  obtain ⟨before, hread, _, _, h⟩ := h
  obtain ⟨hbefore, howner⟩ := readRun_eq_ok hread
  split at h
  · simp only [bind_eq_ok, pure_eq_ok] at h
    obtain ⟨_, _, _, _, hnone⟩ := h
    cases hnone
  simp only [bind_eq_ok] at h
  obtain ⟨_, _, h⟩ := h
  split at h
  · simp only [bind_eq_ok, pure_eq_ok] at h
    obtain ⟨_, _, _, _, hnone⟩ := h
    cases hnone
  next hactive =>
    simp only [bind_eq_ok] at h
    obtain ⟨_, _, found, hget, ⟨action, delta⟩, haction, moved, hmoved, excess, hexcess, h⟩ := h
    obtain ⟨hvault, howned⟩ := localGet_eq_ok hget
    obtain ⟨hbalanced, hid, hnet⟩ := transition_balanced (hrun before hbefore) hmoved
    obtain ⟨hdelta, hcovered⟩ := commandAction_contributed haction (hidle _ _ hvault)
    simp only at hnet
    cases excess with
    | none =>
        simp only [ok_bind, pure_eq_ok, Option.some.injEq, Prod.mk.injEq] at h
        obtain ⟨rfl, rfl, rfl⟩ := h
        refine ⟨before, hbefore, decide_eq_true hactive, hvault, howned, ⟨howner, rfl⟩, rfl, rfl, rfl,
          hbalanced, hid, ?_, ?_⟩ <;> simp only [Option.getD_none] <;> omega
    | some excess =>
        simp only [bind_eq_ok, pure_eq_ok, Option.some.injEq, Prod.mk.injEq] at h
        obtain ⟨released, hreleased, rfl, rfl, rfl⟩ := h
        obtain ⟨hbalanced', hid', hnonneg, hnet', _⟩ :=
          releaseSettlementExcess_balanced hbalanced hreleased
        refine ⟨before, hbefore, decide_eq_true hactive, hvault, howned, ⟨howner, rfl⟩, rfl, rfl, rfl,
          hbalanced', hid'.trans hid, ?_, ?_⟩ <;> simp only [Option.getD_some] <;> omega

end Writes

end Automata
end AlphaForge
