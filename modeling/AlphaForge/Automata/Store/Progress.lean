/-
What a call makes of a vault, in either store.

A call leaves a vault as it was or moves it to its next revision.  The receipts of
commands stay and at most the one of the call's own command is new.  A vault with a
running bot is free of it only at a later revision, since the checkpoint that stops
the bot is one.
-/
import AlphaForge.Automata.Store.Linked

namespace AlphaForge
namespace Automata

open Evm Commit
open DomainVault (VaultState assertInvariant)

/-- Both tables are what the stores wrote into them. -/
structure Tidy (db : Db) : Prop where
  vaults : ∀ id s, db.vaults.get? id = some s → s.id = id ∧ assertInvariant s = .ok ()
  runs : ∀ id r, db.runs.get? id = some r → r.state.id = id ∧ Balanced r.state
  keys : db.runs.keys.Nodup

/-- The id that a call may leave a receipt under, besides those of bots. -/
def StoreCall.commandId : StoreCall → Option String
  | .vault _ _ call => some call.command.id
  | _ => none

/-- A vault at its next revision. -/
structure Advanced (commandId : Option String) (before after : VaultState) : Prop where
  ownerId : after.ownerId = before.ownerId
  executorId : after.executorId = before.executorId
  revision : after.revision = before.revision + 1
  receipts : ∀ key, isBotId key = false → some key ≠ commandId →
    after.receipts.get? key = before.receipts.get? key
  kept : ∀ key receipt, isBotId key = false → before.receipts.get? key = some receipt →
    after.receipts.get? key = some receipt
  events : ∃ event, after.events = before.events ++ [event] ∧
    (isBotId event.commandId = true ∨ some event.commandId = commandId)

/-- What a call makes of one vault. -/
def Follows (commandId : Option String) (db db' : Db) (id : String) (before after : VaultState) :
    Prop :=
  (after = before ∧ (db.occupied id = true → db'.occupied id = true)) ∨
    Advanced commandId before after

/-- What a call makes of all vaults. -/
def Grows (commandId : Option String) (db db' : Db) : Prop :=
  ∀ id before, db.vaults.get? id = some before → ∃ after, db'.vaults.get? id = some after ∧
    Follows commandId db db' id before after

section Progress

variable {env : Env} {db db' : Db}

theorem tidy_empty : Tidy .empty := by
  constructor <;> simp [Db.empty, OrderedMap.get?, OrderedMap.keys]

theorem Tidy.setVault (h : Tidy db) {s : VaultState} (hassert : assertInvariant s = .ok ()) :
    ∀ id t, (db.vaults.set s.id s).get? id = some t → t.id = id ∧ assertInvariant t = .ok () := by
  intro id t hget
  rw [OrderedMap.get?_set] at hget
  split at hget
  next heq =>
    obtain rfl := Option.some.inj hget
    exact ⟨heq.symm, hassert⟩
  · exact h.vaults id t hget

/-- A vault that a call sets, and the others. -/
theorem follows_set {commandId : Option String} {s next : VaultState} {id : String}
    (hget : db.vaults.get? id = some s) (hid : next.id = id) (hadvanced : Advanced commandId s next)
    (hvaults : db'.vaults = db.vaults.set next.id next)
    (hoccupied : ∀ other, other ≠ id → db.occupied other = true → db'.occupied other = true) :
    Grows commandId db db' := by
  intro other before hbefore
  rw [hvaults, hid]
  by_cases heq : other = id
  · rw [heq, hget] at hbefore
    obtain rfl := Option.some.inj hbefore
    rw [heq, OrderedMap.get?_set_self]
    exact ⟨next, rfl, Or.inr hadvanced⟩
  · rw [OrderedMap.get?_set_of_ne heq]
    exact ⟨before, hbefore, Or.inl ⟨rfl, hoccupied other heq⟩⟩

theorem advanced_of_checkpoint {record : RecordState} {previous next : VaultState} {idleDelta : Int}
    (h : checkpointState env record previous idleDelta = .ok next) : Advanced none previous next := by
  obtain ⟨_, _, _, rfl⟩ := checkpointState_eq_ok h
  have hother : ∀ key, isBotId key = false → key ≠ botId env record.state.id record.revision := by
    rintro key hkey rfl
    rw [isBotId_botId] at hkey
    cases hkey
  refine ⟨rfl, rfl, rfl, fun key hkey _ => ?_, fun key receipt hkey hold => ?_, ⟨_, rfl, Or.inl ?_⟩⟩
  · exact OrderedMap.get?_set_of_ne (hother key hkey) _ _
  · rw [checkpointed, OrderedMap.get?_set_of_ne (hother key hkey)]
    exact hold
  · exact isBotId_botId env record.state.id record.revision

theorem advanced_of_step {localeCompare : String → String → Ordering} {call : DomainVault.Call}
    {s next : VaultState} (hstep : DomainVault.step localeCompare call s = .ok next)
    (hnew : s.receipts.get? call.command.id = none) :
    Advanced (some call.command.id) s next := by
  obtain ⟨_, _, _, ⟨_, hold, _⟩ | ⟨_, hprepare, _⟩⟩ := DomainVault.execute_eq_ok hstep
  · rw [hnew] at hold
    cases hold
  obtain ⟨_, _, _, _, _, _, _, _, hsettled⟩ := DomainVault.prepare_eq_ok hprepare
  obtain ⟨event, _, hcommand, hevents⟩ := hsettled.events
  refine ⟨hsettled.ownerId, hsettled.executorId, hsettled.revision, fun key _ hne => ?_,
    fun key receipt _ hold => ?_, ⟨event, hevents, Or.inr (by rw [hcommand])⟩⟩
  · rw [hsettled.receipts]
    exact OrderedMap.get?_set_of_ne (fun heq => hne (by rw [heq])) _ _
  · rw [hsettled.receipts, OrderedMap.get?_set_of_ne]
    · exact hold
    · rintro rfl
      rw [hnew] at hold
      cases hold

/-- The next state of a vault is asserted. -/
theorem assert_of_step {localeCompare : String → String → Ordering} {call : DomainVault.Call}
    {s next : VaultState} (hstep : DomainVault.step localeCompare call s = .ok next) :
    assertInvariant next = .ok () := by
  obtain ⟨hassert, _, _, ⟨_, _, _, rfl⟩ | ⟨_, _, hnext⟩⟩ := DomainVault.execute_eq_ok hstep
  · exact hassert
  · exact hnext

theorem occupied_iff {id : String} (h : db.runs.keys.Nodup) :
    db.occupied id = true ↔
      ∃ rid r, db.runs.get? rid = some r ∧ r.vaultId = id ∧ r.active = true := by
  rw [Db.occupied, List.any_eq_true]
  constructor
  · rintro ⟨⟨rid, r⟩, hmem, hrun⟩
    rw [Bool.and_eq_true, decide_eq_true_eq] at hrun
    exact ⟨rid, r, (OrderedMap.mem_iff_get? h).mp hmem, hrun⟩
  · rintro ⟨rid, r, hget, hvault, hactive⟩
    refine ⟨(rid, r), OrderedMap.mem_of_get? hget, ?_⟩
    rw [Bool.and_eq_true, decide_eq_true_eq]
    exact ⟨hvault, hactive⟩

/-- A run that a call sets takes no bot from another vault. -/
theorem occupied_set {key id other : String} {record : RecordState} (h : Tidy db)
    (hruns : db'.runs = db.runs.set key record)
    (hold : ∀ before, db.runs.get? key = some before → before.vaultId = id) (hne : other ≠ id)
    (hoccupied : db.occupied other = true) : db'.occupied other = true := by
  obtain ⟨rid, r, hget, hvault, hactive⟩ := (occupied_iff h.keys).mp hoccupied
  have hkeys : db'.runs.keys.Nodup := by
    rw [hruns]
    exact OrderedMap.nodup_keys_set h.keys
  refine (occupied_iff hkeys).mpr ⟨rid, r, ?_, hvault, hactive⟩
  rw [hruns, OrderedMap.get?_set_of_ne]
  · exact hget
  · rintro rfl
    exact hne (hvault.symm.trans (hold r hget))

theorem Tidy.setRun (h : Tidy db) {record : RecordState} (hbalanced : Balanced record.state) :
    ∀ id r, (db.runs.set record.state.id record).get? id = some r →
      r.state.id = id ∧ Balanced r.state := by
  intro id r hget
  rw [OrderedMap.get?_set] at hget
  split at hget
  next heq =>
    obtain rfl := Option.some.inj hget
    exact ⟨heq.symm, hbalanced⟩
  · exact h.runs id r hget

theorem Tidy.idle_nonneg (h : Tidy db) : ∀ id s, db.vaults.get? id = some s → 0 ≤ s.idle :=
  fun id s hget => (DomainVault.amounts_nonneg_iff.mp
    (DomainVault.assertInvariant_eq_ok.mp (h.vaults id s hget).2).1.nonneg).2.1

theorem Grows.refl (commandId : Option String) (db : Db) : Grows commandId db db :=
  fun _ before hbefore => ⟨before, hbefore, Or.inl ⟨rfl, fun h => h⟩⟩

theorem step_progress (h : Tidy db) {call : StoreCall} (hstep : step env call db = .ok db') :
    Tidy db' ∧ Grows call.commandId db db' := by
  have hstep := step_eq_ok hstep
  cases call with
  | obtainTestPasses owner strategy uuid locked =>
      rcases obtainTestPasses_returns hstep with rfl | ⟨start, hnew, rfl⟩
      · exact ⟨h, Grows.refl _ _⟩
      · have hassert : assertInvariant start.state = .ok () :=
          DomainVault.assertInvariant_eq_ok.mpr
            ⟨start.reached.toConsistent, start.reached.bounded⟩
        refine ⟨⟨h.setVault hassert, h.runs, h.keys⟩, fun id before hbefore => ?_⟩
        have hne : id ≠ start.state.id := by
          rintro rfl
          rw [hnew] at hbefore
          cases hbefore
        dsimp only
        rw [OrderedMap.get?_set_of_ne hne]
        exact ⟨before, hbefore, Or.inl ⟨rfl, fun hoccupied => hoccupied⟩⟩
  | vault owner id call =>
      obtain ⟨previous, state, hget, _, _, hexecute, ⟨hfresh, rfl⟩ | rfl⟩ :=
        vaultCommand_returns hstep
      · have hid : state.id = id := (step_names hexecute).1.trans (h.vaults id previous hget).1
        exact ⟨⟨h.setVault (assert_of_step hexecute), h.runs, h.keys⟩,
          follows_set hget hid (advanced_of_step hexecute hfresh) rfl
            (fun _ _ hoccupied => hoccupied)⟩
      · exact ⟨h, Grows.refl _ _⟩
  | create owner input =>
      rcases create_returns hstep with rfl | ⟨hnone, _, record, vault, next, hnew, _, hstate, hassert,
        rfl⟩
      · exact ⟨h, Grows.refl _ _⟩
      · have hopened := newRun_eq_ok hnew
        obtain ⟨hbalanced, hrid, _⟩ := createRun_balanced hopened.run
        have hid : next.id = input.vaultId :=
          (checkpointState_names hstate).1.trans (h.vaults _ vault hopened.found).1
        refine ⟨⟨h.setVault hassert, h.setRun hbalanced, OrderedMap.nodup_keys_set h.keys⟩,
          follows_set hopened.found hid (advanced_of_checkpoint hstate) rfl ?_⟩
        intro other hne hoccupied
        refine occupied_set h rfl (fun before hbefore => ?_) hne hoccupied
        rw [hrid, hnone] at hbefore
        cases hbefore
  | command owner id cmd =>
      rcases command_returns hstep with rfl | ⟨record, vault, idleDelta, next, hplan, hstate, hassert,
        rfl⟩
      · exact ⟨h, Grows.refl _ _⟩
      · obtain ⟨before, hmoved⟩ := runCommand_moved (fun r hr => (h.runs id r hr).2) h.idle_nonneg hplan
        have hid : next.id = before.vaultId :=
          (checkpointState_names hstate).1.trans (h.vaults _ vault hmoved.found).1
        have hkey : record.state.id = id :=
          hmoved.runId.trans (h.runs id before hmoved.run).1
        refine ⟨⟨h.setVault hassert, h.setRun hmoved.balanced, OrderedMap.nodup_keys_set h.keys⟩,
          follows_set hmoved.found hid (advanced_of_checkpoint hstate) rfl ?_⟩
        intro other hne hoccupied
        refine occupied_set h rfl (fun r hr => ?_) hne hoccupied
        rw [hkey, hmoved.run] at hr
        rw [← Option.some.inj hr]

end Progress

end Automata
end AlphaForge
