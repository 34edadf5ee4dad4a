/-
What becomes of a command on the server.

A command that was rejected for what the ledger holds is dead: its revision has gone
by, or its own state refuses it, or a bot holds the vault until a later revision.  A
receipt stays, and so does what a client has seen of a vault.  Both hold whatever the
server does in between.
-/
import AlphaForge.Client.ProductClient
import AlphaForge.Domain.Vault.Replay

namespace AlphaForge
namespace ProductClient

open Evm Commit Machine
open Automata (Env Db Store StoreCall besideBot localGet updateVault isBotId Tidy Follows Advanced Grows
  localGet_eq_ok step_progress)
open DomainVault (VaultState Call Event isId assertInvariant fingerprint permitted historyMatches)

/-! ## Submissions -/

section Server

variable {env : Env} {db db' : Db} {owner id : String} {call : Call} {state : VaultState}
  {replayed : Bool}

/-- An accepted submission is a repetition, or the next revision. -/
theorem localCommand_returns (h : localCommand env owner id call db = .ok (state, replayed) db') :
    ∃ previous, localGet db id owner = .ok previous ∧
      (db.occupied id = false ∨ besideBot call.command.body.type = true) ∧
      DomainVault.step env.localeCompare call previous = .ok state ∧
      ((previous.receipts.get? call.command.id = none ∧ replayed = false ∧
          updateVault previous state db = .ok () db') ∨
        (previous.receipts.get? call.command.id ≠ none ∧ replayed = true ∧ db' = db)) := by
  simp only [localCommand, transaction_returns, bind_returns, get_returns, await_returns,
    ensure_eq_ok] at h
  obtain ⟨_, _, ⟨rfl, rfl⟩, previous, _, ⟨hget, rfl⟩, _, _, ⟨hallowed, rfl⟩, next, _,
    ⟨hstep, rfl⟩, h⟩ := h
  refine ⟨previous, hget, hallowed, ?_⟩
  split at h
  next hnew =>
    simp only [bind_returns] at h
    obtain ⟨_, _, hupdate, hpure⟩ := h
    cases hpure
    exact ⟨hstep, Or.inl ⟨hnew, rfl, hupdate⟩⟩
  next hold =>
    cases h
    exact ⟨hstep, Or.inr ⟨hold, rfl, rfl⟩⟩

theorem submitted_eq_ok :
    submitted env owner id call db = .ok ((state, replayed), db') ↔
      localCommand env owner id call db = .ok (state, replayed) db' := by
  unfold submitted
  cases hrun : localCommand env owner id call db with
  | ok result final => simp
  | error e final => simp

/-- The store makes of it what `vaultCommand` does. -/
theorem step_of_submitted (h : submitted env owner id call db = .ok ((state, replayed), db')) :
    Automata.step env (.vault owner id call) db = .ok db' := by
  obtain ⟨previous, hget, hallowed, hstep, hwrite⟩ := localCommand_returns (submitted_eq_ok.mp h)
  have hrun : Automata.vaultCommand env owner id call db = .ok () db' := by
    simp only [Automata.vaultCommand, transaction_returns, bind_returns, get_returns, await_returns,
      ensure_eq_ok]
    refine ⟨db, db, ⟨rfl, rfl⟩, previous, db, ⟨hget, rfl⟩, (), db, ⟨hallowed, rfl⟩, state, db,
      ⟨hstep, rfl⟩, ?_⟩
    rcases hwrite with ⟨hnew, _, hupdate⟩ | ⟨hold, _, rfl⟩
    · rw [if_pos hnew]
      exact hupdate
    · rw [if_neg hold]
      rfl
  rw [Automata.step, Automata.perform, hrun]

theorem localGet_of {s : VaultState} (h : Tidy db) (hget : db.vaults.get? id = some s)
    (howner : s.ownerId = owner) : localGet db id owner = .ok s := by
  rw [localGet, hget]
  dsimp only
  rw [ensure_of howner, ok_bind, ensure_of (h.vaults id s hget).2, ok_bind]
  rfl

/-- A fresh command that its vault accepts goes through. -/
theorem localCommand_of {s : VaultState} (h : Tidy db) (hget : db.vaults.get? id = some s)
    (howner : s.ownerId = owner)
    (hallowed : db.occupied id = false ∨ besideBot call.command.body.type = true)
    (hstep : DomainVault.step env.localeCompare call s = .ok state) :
    ∃ replayed db', localCommand env owner id call db = .ok (state, replayed) db' := by
  by_cases hnew : s.receipts.get? call.command.id = none
  · have hnames := Automata.step_names hstep
    have hid : state.id = id := hnames.1.trans (h.vaults id s hget).1
    have hwrite : updateVault s state db =
        .ok () { db with vaults := db.vaults.set state.id state } := by
      simp only [updateVault, bind_returns, get_returns, await_returns, set_returns, ensure_eq_ok]
      refine ⟨db, db, ⟨rfl, rfl⟩, (), db, ⟨?_, rfl⟩, rfl⟩
      rw [hid, hget, Option.any_some, decide_eq_true_eq]
      exact ⟨hnames.2.1.symm, rfl⟩
    refine ⟨false, { db with vaults := db.vaults.set state.id state }, ?_⟩
    simp only [localCommand, transaction_returns, bind_returns, get_returns, await_returns,
      ensure_eq_ok]
    refine ⟨db, db, ⟨rfl, rfl⟩, s, db, ⟨localGet_of h hget howner, rfl⟩, (), db, ⟨hallowed, rfl⟩,
      state, db, ⟨hstep, rfl⟩, ?_⟩
    rw [if_pos hnew]
    simp only [bind_returns]
    exact ⟨(), _, hwrite, rfl⟩
  · refine ⟨true, db, ?_⟩
    simp only [localCommand, transaction_returns, bind_returns, get_returns, await_returns,
      ensure_eq_ok]
    refine ⟨db, db, ⟨rfl, rfl⟩, s, db, ⟨localGet_of h hget howner, rfl⟩, (), db, ⟨hallowed, rfl⟩,
      state, db, ⟨hstep, rfl⟩, ?_⟩
    rw [if_neg hnew]
    rfl

end Server

/-! ## Commands that were applied, and commands that never will be -/

def fingerprintOf (env : Env) (p : Pending) : String :=
  fingerprint env.localeCompare p.call.actor p.call.command p.call.policy

/-- The receipt of the command is in its vault. -/
def Applied (env : Env) (db : Db) (p : Pending) : Prop :=
  ∃ s receipt, db.vaults.get? p.vaultId = some s ∧ s.ownerId = p.owner ∧
    s.receipts.get? p.id = some receipt ∧ receipt.fingerprint = fingerprintOf env p

/-- The vault refuses the command, and will at any later revision. -/
structure Dead (env : Env) (db : Db) (p : Pending) (s : VaultState) : Prop where
  found : db.vaults.get? p.vaultId = some s
  fresh : s.receipts.get? p.id = none
  refused : p.expectedRevision < s.revision ∨ p.expectedRevision = s.revision ∧
    (db.occupied p.vaultId = true ∧ besideBot p.body.type = false ∨
      ∃ e, DomainVault.step env.localeCompare p.call s = .error e)

def Settled (env : Env) (db : Db) (p : Pending) : Prop := Applied env db p ∨ ∃ s, Dead env db p s

/-- The vault of a command that was given, at the revision that was reviewed or a later
one.  A receipt under the id of the command is its own. -/
structure Given (env : Env) (db : Db) (p : Pending) (s : VaultState) : Prop where
  found : db.vaults.get? p.vaultId = some s
  ownerId : s.ownerId = p.owner
  revision : p.expectedRevision ≤ s.revision
  receipt : ∀ receipt, s.receipts.get? p.id = some receipt →
    receipt.fingerprint = fingerprintOf env p

section Commands

variable {env : Env} {db db' : Db} {p : Pending} {s : VaultState}

/-- A command without its receipt goes through only at its own revision. -/
theorem expected_of_step {next : VaultState}
    (h : DomainVault.step env.localeCompare p.call s = .ok next)
    (hnew : s.receipts.get? p.id = none) : p.expectedRevision = s.revision := by
  obtain ⟨_, _, _, ⟨_, hold, _⟩ | ⟨_, hprepare, _⟩⟩ := DomainVault.execute_eq_ok h
  · rw [show p.call.command.id = p.id from rfl, hnew] at hold
    cases hold
  · simp only [DomainVault.prepare, bind_eq_ok, ensure_eq_ok] at hprepare
    obtain ⟨_, ⟨_, _, hrevision⟩, _⟩ := hprepare
    exact Int.ofNat_inj.mp hrevision

theorem handle_eq_ok {result : VaultState × Bool} (h : handle env p db = .ok (result, db')) :
    localCommand env p.owner p.vaultId p.call db = .ok result db' := by
  simp only [handle, bind_eq_ok] at h
  obtain ⟨_, _, h⟩ := h
  exact submitted_eq_ok.mp h

theorem Dead.refuses (h : Dead env db p s) : ∃ e, handle env p db = .error e := by
  cases hhandle : handle env p db with
  | error e => exact ⟨e, rfl⟩
  | ok result =>
      obtain ⟨⟨state, replayed⟩, db'⟩ := result
      obtain ⟨previous, hget, hallowed, hstep, _⟩ := localCommand_returns (handle_eq_ok hhandle)
      have hsame := (localGet_eq_ok hget).1
      rw [h.found] at hsame
      obtain rfl := Option.some.inj hsame
      have hexpected := expected_of_step hstep h.fresh
      rcases h.refused with hlate | ⟨_, ⟨hoccupied, hexcluded⟩ | ⟨e, herror⟩⟩
      · omega
      · rcases hallowed with hfree | hbeside
        · rw [hoccupied] at hfree
          cases hfree
        · rw [show p.call.command.body = p.body from rfl, hexcluded] at hbeside
          cases hbeside
      · rw [herror] at hstep
        cases hstep

/-- What a refusal says about the command. -/
theorem settled_of_error (htidy : Tidy db) (hgiven : Given env db p s)
    (hvalid : validateCommand p = .ok ()) {e : String} (h : handle env p db = .error e) :
    Settled env db p := by
  cases hreceipt : s.receipts.get? p.id with
  | some receipt =>
      exact Or.inl ⟨s, receipt, hgiven.found, hgiven.ownerId, hreceipt,
        hgiven.receipt receipt hreceipt⟩
  | none =>
      refine Or.inr ⟨s, hgiven.found, hreceipt, ?_⟩
      by_cases hlate : p.expectedRevision < s.revision
      · exact Or.inl hlate
      · have hrevision := hgiven.revision
        refine Or.inr ⟨by omega, ?_⟩
        by_cases hallowed : db.occupied p.vaultId = false ∨ besideBot p.body.type = true
        · right
          cases hstep : DomainVault.step env.localeCompare p.call s with
          | error e' => exact ⟨e', rfl⟩
          | ok next =>
              obtain ⟨replayed, db', hrun⟩ :=
                localCommand_of htidy hgiven.found hgiven.ownerId hallowed hstep
              rw [handle, hvalid, Except.mapError, ok_bind, submitted, hrun] at h
              cases h
        · left
          rw [not_or, Bool.not_eq_false, Bool.not_eq_true] at hallowed
          exact hallowed

/-! ## What the server does in between -/

theorem Applied.grows {commandId : Option String} (h : Applied env db p)
    (hhuman : isBotId p.id = false) (hgrows : Grows commandId db db') : Applied env db' p := by
  obtain ⟨s, receipt, hfound, howner, hreceipt, hsame⟩ := h
  obtain ⟨after, hafter, ⟨rfl, _⟩ | hadvanced⟩ := hgrows _ s hfound
  · exact ⟨after, receipt, hafter, howner, hreceipt, hsame⟩
  · exact ⟨after, receipt, hafter, hadvanced.ownerId.trans howner,
      hadvanced.kept _ receipt hhuman hreceipt, hsame⟩

theorem Given.grows {commandId : Option String} (h : Given env db p s)
    (hhuman : isBotId p.id = false) (hother : some p.id ≠ commandId)
    (hgrows : Grows commandId db db') : ∃ s', Given env db' p s' := by
  obtain ⟨after, hafter, ⟨rfl, _⟩ | hadvanced⟩ := hgrows _ s h.found
  · exact ⟨after, hafter, h.ownerId, h.revision, h.receipt⟩
  · refine ⟨after, hafter, hadvanced.ownerId.trans h.ownerId, ?_, fun receipt hreceipt => ?_⟩
    · have hrevision := hadvanced.revision
      have hbefore := h.revision
      omega
    · rw [hadvanced.receipts _ hhuman hother] at hreceipt
      exact h.receipt receipt hreceipt

theorem Dead.grows {commandId : Option String} (h : Dead env db p s)
    (hhuman : isBotId p.id = false) (hother : some p.id ≠ commandId)
    (hgrows : Grows commandId db db') : ∃ s', Dead env db' p s' := by
  obtain ⟨after, hafter, ⟨rfl, hoccupied⟩ | hadvanced⟩ := hgrows _ s h.found
  · refine ⟨after, hafter, h.fresh, h.refused.imp_right fun ⟨hexpected, hwhy⟩ => ⟨hexpected, ?_⟩⟩
    exact hwhy.imp_left fun ⟨hbot, hexcluded⟩ => ⟨hoccupied hbot, hexcluded⟩
  · refine ⟨after, hafter, ?_, Or.inl ?_⟩
    · rw [hadvanced.receipts _ hhuman hother]
      exact h.fresh
    · have hrevision := hadvanced.revision
      rcases h.refused with hlate | ⟨hexpected, _⟩
      · omega
      · omega

theorem Dead.not_applied (h : Dead env db p s) : ¬ Applied env db p := by
  rintro ⟨s', receipt, hfound, _, hreceipt, _⟩
  rw [h.found] at hfound
  obtain rfl := Option.some.inj hfound
  rw [h.fresh] at hreceipt
  cases hreceipt

/-- An accepted command has its receipt. -/
theorem applied_of_handle {result : VaultState × Bool} (htidy : Tidy db)
    (h : handle env p db = .ok (result, db')) : Applied env db' p := by
  obtain ⟨state, replayed⟩ := result
  obtain ⟨previous, hget, _, hstep, hwrite⟩ := localCommand_returns (handle_eq_ok h)
  obtain ⟨hfound, howner⟩ := localGet_eq_ok hget
  have hnames := Automata.step_names hstep
  obtain ⟨_, _, _, ⟨receipt, hold, hsame, rfl⟩ | ⟨hnew, hprepare, _⟩⟩ :=
    DomainVault.execute_eq_ok hstep
  · rcases hwrite with ⟨hnone, _⟩ | ⟨_, _, rfl⟩
    · rw [hold] at hnone
      cases hnone
    · exact ⟨state, receipt, hfound, howner, hold, hsame⟩
  · obtain ⟨_, _, _, _, _, _, _, _, hsettled⟩ := DomainVault.prepare_eq_ok hprepare
    rcases hwrite with ⟨_, _, hupdate⟩ | ⟨hold, _⟩
    · rw [Automata.updateVault_returns hupdate]
      have hid : state.id = p.vaultId := hnames.1.trans (htidy.vaults _ previous hfound).1
      refine ⟨state, ⟨fingerprintOf env p, previous.revision + 1⟩, ?_, hnames.2.1.trans howner, ?_,
        rfl⟩
      · rw [hid, OrderedMap.get?_set_self]
      · rw [hsettled.receipts]
        exact OrderedMap.get?_set_self _ _ _
    · exact absurd hnew hold

theorem handle_grows {result : VaultState × Bool} (htidy : Tidy db)
    (h : handle env p db = .ok (result, db')) : Tidy db' ∧ Grows (some p.id) db db' := by
  obtain ⟨state, replayed⟩ := result
  exact step_progress htidy (step_of_submitted (submitted_eq_ok.mpr (handle_eq_ok h)))

/-- A command that was given, after its own delivery. -/
theorem Given.handled {result : VaultState × Bool} (hgiven : Given env db p s)
    (htidy : Tidy db) (h : handle env p db = .ok (result, db')) : ∃ s', Given env db' p s' := by
  obtain ⟨s', receipt, hfound, howner, hreceipt, hsame⟩ := applied_of_handle htidy h
  obtain ⟨after, hafter, hfollows⟩ := (handle_grows htidy h).2 _ s hgiven.found
  rw [hfound] at hafter
  obtain rfl := Option.some.inj hafter
  refine ⟨s', hfound, howner, ?_, fun other hother => ?_⟩
  · have hrevision := hgiven.revision
    rcases hfollows with ⟨rfl, _⟩ | hadvanced
    · exact hrevision
    · have hnext := hadvanced.revision
      omega
  · rw [hreceipt] at hother
    exact Option.some.inj hother ▸ hsame

end Commands

/-! ## The ledger behind the client -/

/-- The command of an envelope, without what its client has noted. -/
def Pending.core (p : Pending) : Pending := { p with rejection := none }

/-- A vault as it was seen once. -/
def Viewed (db : Db) (view : ClientVault) : Prop :=
  ∃ s, db.vaults.get? view.id = some s ∧ s.ownerId = view.ownerId ∧ view.revision ≤ s.revision

structure Ledger (env : Env) (given : List Pending) (db : Db) : Prop where
  tidy : Tidy db
  executor : ∀ id s, db.vaults.get? id = some s → s.executorId = "local-simulator"
  ids : (given.map (·.id)).Nodup
  plain : ∀ d ∈ given, d.core = d
  given : ∀ d ∈ given, isUuid d.id = true ∧ validateCommand d = .ok () ∧ ∃ s, Given env db d s

/-- The server moves on, and what a client knows stays so. -/
structure Evolves (env : Env) (given : List Pending) (db db' : Db) : Prop where
  ledger : Ledger env given db'
  applied : ∀ p, p.core ∈ given → Applied env db p → Applied env db' p
  dead : ∀ p, p.core ∈ given → (∃ s, Dead env db p s) → ∃ s, Dead env db' p s
  viewed : ∀ view, Viewed db view → Viewed db' view

section Ledger

variable {env : Env} {db db' : Db} {given : List Pending} {p : Pending}

theorem isUuid_human {id : String} (h : isUuid id = true) : isBotId id = false := by
  rw [isUuid, Bool.and_eq_true, List.all_eq_true] at h
  rw [← Bool.not_eq_true, isBotId, List.isPrefixOf_iff_prefix]
  intro hbegins
  have hmem : 'o' ∈ id.toList := hbegins.subset (by decide)
  exact absurd (h.2 _ hmem) (by decide)

theorem Evolves.settled (h : Evolves env given db db') (hp : p.core ∈ given)
    (hsettled : Settled env db p) : Settled env db' p :=
  hsettled.imp (h.applied p hp) (h.dead p hp)

theorem Viewed.grows {commandId : Option String} {view : ClientVault} (h : Viewed db view)
    (hgrows : Grows commandId db db') : Viewed db' view := by
  obtain ⟨s, hfound, howner, hrevision⟩ := h
  obtain ⟨after, hafter, ⟨rfl, _⟩ | hadvanced⟩ := hgrows _ s hfound
  · exact ⟨after, hafter, howner, hrevision⟩
  · have hnext := hadvanced.revision
    exact ⟨after, hafter, hadvanced.ownerId.trans howner, by omega⟩

theorem obtainTestPasses_executor {owner strategy uuid : String} {locked : Bool}
    (h : Automata.obtainTestPasses owner strategy uuid locked db = .ok () db') :
    db' = db ∨ ∃ state : VaultState, state.executorId = "local-simulator" ∧
      db' = { db with vaults := db.vaults.set state.id state } := by
  simp only [Automata.obtainTestPasses, transaction_returns, bind_returns, get_returns] at h
  obtain ⟨_, _, ⟨rfl, rfl⟩, h⟩ := h
  cases hfind : db.vaults.find? (fun e => e.2.ownerId = owner ∧ e.2.strategyId = strategy) with
  | some e =>
      simp only [hfind, await_returns] at h
      exact .inl h.2.symm
  | none =>
      simp only [hfind, bind_returns, await_returns, set_returns] at h
      obtain ⟨state, _, ⟨hstate, rfl⟩, _, _, _, rfl⟩ := h
      simp only [DomainVault.createVault, bind_eq_ok, pure_eq_ok] at hstate
      obtain ⟨_, _, _, _, _, _, _, _, rfl⟩ := hstate
      exact .inr ⟨_, rfl, rfl⟩

/-- The executor of a vault is the simulator that it was made for. -/
theorem executor_step {call : StoreCall} (htidy : Tidy db)
    (h : ∀ id s, db.vaults.get? id = some s → s.executorId = "local-simulator")
    (hstep : Automata.step env call db = .ok db') :
    ∀ id s, db'.vaults.get? id = some s → s.executorId = "local-simulator" := by
  intro id s hs
  cases hbefore : db.vaults.get? id with
  | some before =>
      obtain ⟨after, hafter, hfollows⟩ := (step_progress htidy hstep).2 id before hbefore
      rw [hs] at hafter
      obtain rfl := Option.some.inj hafter
      rcases hfollows with ⟨rfl, _⟩ | hadvanced
      · exact h id s hbefore
      · rw [hadvanced.executorId]
        exact h id before hbefore
  | none =>
      -- a vault under a new key is a new one
      have hset : ∀ {next : VaultState} {key : String} {t : VaultState},
          db.vaults.get? key = some t → next.id = key →
          (db.vaults.set next.id next).get? id = some s → s.executorId = "local-simulator" := by
        intro next key t hkey hid hget
        rw [hid, OrderedMap.get?_set_of_ne, hbefore] at hget
        · cases hget
        · rintro rfl
          rw [hbefore] at hkey
          cases hkey
      have hstep := Automata.step_eq_ok hstep
      cases call with
      | obtainTestPasses owner strategy uuid locked =>
          rcases obtainTestPasses_executor hstep with rfl | ⟨state, hexecutor, rfl⟩
          · exact h id s hs
          · dsimp only at hs
            rw [OrderedMap.get?_set] at hs
            split at hs
            · rw [← Option.some.inj hs]
              exact hexecutor
            · exact h id s hs
      | vault owner key call =>
          obtain ⟨previous, state, hget, _, _, hexecute, ⟨_, rfl⟩ | rfl⟩ :=
            Automata.vaultCommand_returns hstep
          · exact hset hget ((Automata.step_names hexecute).1.trans (htidy.vaults _ _ hget).1) hs
          · exact h id s hs
      | create owner input =>
          rcases Automata.create_returns hstep with rfl | ⟨_, _, record, vault, next, hnew, _, hstate,
            _, rfl⟩
          · exact h id s hs
          · have hopened := Automata.newRun_eq_ok hnew
            exact hset hopened.found ((Automata.checkpointState_names hstate).1.trans
              (htidy.vaults _ _ hopened.found).1) hs
      | command owner key cmd =>
          rcases Automata.command_returns hstep with rfl | ⟨record, vault, idleDelta, next, hplan,
            hstate, _, rfl⟩
          · exact h id s hs
          · obtain ⟨before, hmoved⟩ := Automata.runCommand_moved
              (fun r hr => (htidy.runs key r hr).2) htidy.idle_nonneg hplan
            exact hset hmoved.found ((Automata.checkpointState_names hstate).1.trans
              (htidy.vaults _ _ hmoved.found).1) hs

theorem given_core {s : VaultState} : Given env db p.core s ↔ Given env db p s :=
  ⟨fun h => ⟨h.found, h.ownerId, h.revision, h.receipt⟩,
    fun h => ⟨h.found, h.ownerId, h.revision, h.receipt⟩⟩

theorem dead_core {s : VaultState} : Dead env db p.core s ↔ Dead env db p s :=
  ⟨fun h => ⟨h.found, h.fresh, h.refused⟩, fun h => ⟨h.found, h.fresh, h.refused⟩⟩

theorem Evolves.refl (h : Ledger env given db) : Evolves env given db db :=
  ⟨h, fun _ _ h => h, fun _ _ h => h, fun _ h => h⟩

theorem Ledger.human (h : Ledger env given db) (hp : p.core ∈ given) : isBotId p.id = false :=
  isUuid_human (h.given _ hp).1

/-- A call that leaves no receipt under the id of a command that was given. -/
theorem Ledger.server (h : Ledger env given db) {call : StoreCall}
    (hother : ∀ d ∈ given, call.commandId ≠ some d.id)
    (hstep : Automata.step env call db = .ok db') : Evolves env given db db' := by
  obtain ⟨htidy, hgrows⟩ := step_progress h.tidy hstep
  have hne : ∀ p : Pending, p.core ∈ given → some p.id ≠ call.commandId :=
    fun p hp heq => hother _ hp heq.symm
  refine ⟨⟨htidy, executor_step h.tidy h.executor hstep, h.ids, h.plain, fun d hd => ?_⟩,
    fun p hp happlied => happlied.grows (h.human hp) hgrows,
    fun p hp ⟨s, hdead⟩ => hdead.grows (h.human hp) (hne p hp) hgrows,
    fun view hview => hview.grows hgrows⟩
  obtain ⟨huuid, hvalid, s, hgiven⟩ := h.given d hd
  exact ⟨huuid, hvalid, hgiven.grows (isUuid_human huuid) (fun heq => hother d hd heq.symm) hgrows⟩

/-- Two envelopes of one id are of one command. -/
theorem Ledger.unique (h : Ledger env given db) {q : Pending} (hp : p.core ∈ given)
    (hq : q.core ∈ given) (hid : p.id = q.id) : p.core = q.core :=
  List.inj_on_of_nodup_map h.ids hp hq hid

/-- The delivery of a command that was given. -/
theorem Ledger.delivered (h : Ledger env given db) {q : Pending} {result : VaultState × Bool}
    (hq : q.core ∈ given) (hhandle : handle env q db = .ok (result, db')) :
    Evolves env given db db' := by
  obtain ⟨htidy, hgrows⟩ := handle_grows h.tidy hhandle
  have hstep : Automata.step env (.vault q.owner q.vaultId q.call) db = .ok db' :=
    step_of_submitted (submitted_eq_ok.mpr (handle_eq_ok hhandle))
  refine ⟨⟨htidy, executor_step h.tidy h.executor hstep, h.ids, h.plain, fun d hd => ?_⟩,
    fun p hp happlied => happlied.grows (h.human hp) hgrows, fun p hp ⟨s, hdead⟩ => ?_,
    fun view hview => hview.grows hgrows⟩
  · obtain ⟨huuid, hvalid, s, hgiven⟩ := h.given d hd
    refine ⟨huuid, hvalid, ?_⟩
    by_cases hid : d.id = q.id
    · have hcore : d.core = q.core := h.unique ((h.plain d hd).symm ▸ hd) hq hid
      have hown : Given env db q s := given_core.mp (hcore ▸ given_core.mpr hgiven)
      obtain ⟨s', hafter⟩ := hown.handled h.tidy hhandle
      exact ⟨s', given_core.mp (hcore ▸ given_core.mpr hafter)⟩
    · exact hgiven.grows (isUuid_human huuid) (fun heq => hid (Option.some.inj heq)) hgrows
  · by_cases hid : p.id = q.id
    · have hcore : p.core = q.core := h.unique hp hq hid
      have hown : Dead env db q s := dead_core.mp (hcore ▸ dead_core.mpr hdead)
      obtain ⟨e, herror⟩ := hown.refuses
      rw [hhandle] at herror
      cases herror
    · exact hdead.grows (h.human hp) (fun heq => hid (Option.some.inj heq)) hgrows

end Ledger

end ProductClient
end AlphaForge
