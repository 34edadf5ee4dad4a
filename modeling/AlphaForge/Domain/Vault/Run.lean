/-
Runs of the vault's commands from a vault that was just created.

Every state that a run reaches has consistent books with all amounts in range, and a
fresh command that passes its guards in such a state is refused by the closing
assertion only if it makes an amount larger than `2 ^ 256 - 1`.
-/
import AlphaForge.Domain.Vault.Invariant

namespace AlphaForge
namespace DomainVault

open Evm Machine

/-- One call of `execute`. -/
structure Call where
  actor : Actor
  command : Command
  policy : Option SettlementPolicy

def step (localeCompare : String → String → Ordering) (call : Call) (s : VaultState) :
    Except String VaultState :=
  execute localeCompare s call.actor call.command call.policy

def openLock : PassLock := { version := 1, principal := 0, closed := false, withdrawals := [] }

/-- A vault that was just created, without a lock or with an open one. -/
structure Fresh where
  input : VaultInput
  state : VaultState
  created : createVault input = .ok state
  lock : input.passLock = none ∨ input.passLock = some openLock

/-- The books of a vault that a run has reached. -/
structure Reached (s : VaultState) : Prop extends Consistent s, Tables s where
  bounded : Bounded s

theorem reached_of_assert {s : VaultState} (hconsistent : Consistent s) (htables : Tables s)
    (hassert : assertInvariant s = .ok ()) : Reached s :=
  { toConsistent := hconsistent, toTables := htables,
    bounded := (assertInvariant_eq_ok.mp hassert).2 }

section Execute

variable {localeCompare : String → String → Ordering} {s next : VaultState} {actor : Actor}
  {command : Command} {policy : Option SettlementPolicy}

/-- An accepted command is a repetition, or a fresh one. -/
theorem execute_eq_ok (h : execute localeCompare s actor command policy = .ok next) :
    assertInvariant s = .ok () ∧ isId command.id = true ∧ permitted s actor command.body.type ∧
      ((∃ previous, s.receipts.get? command.id = some previous ∧
          previous.fingerprint = fingerprint localeCompare actor command policy ∧ next = s) ∨
        (s.receipts.get? command.id = none ∧
          prepare s actor command policy (fingerprint localeCompare actor command policy) = .ok next ∧
          assertInvariant next = .ok ())) := by
  simp only [execute, validId, bind_eq_ok, ensure_eq_ok] at h
  obtain ⟨_, hassert, _, hid, _, hperm, h⟩ := h
  refine ⟨hassert, hid, hperm, ?_⟩
  split at h
  next previous hprevious =>
    simp only [bind_eq_ok, ensure_eq_ok, pure_eq_ok] at h
    obtain ⟨_, hsame, rfl⟩ := h
    exact .inl ⟨previous, hprevious, hsame, rfl⟩
  next hnone =>
    simp only [bind_eq_ok, pure_eq_ok] at h
    obtain ⟨_, hprepare, _, hassert', rfl⟩ := h
    exact .inr ⟨hnone, hprepare, hassert'⟩

/-- A fresh command whose guards hold goes as far as the closing assertion. -/
theorem execute_of_prepare (hassert : assertInvariant s = .ok ()) (hid : isId command.id = true)
    (hperm : permitted s actor command.body.type) (hnew : s.receipts.get? command.id = none)
    (hprepare : prepare s actor command policy (fingerprint localeCompare actor command policy) =
      .ok next) :
    execute localeCompare s actor command policy = (do assertInvariant next; return next) := by
  simp only [execute, validId, hassert, ensure_of hid, ensure_of hperm, hnew, hprepare, ok_bind]

theorem execute_reached (h : Reached s)
    (hstep : execute localeCompare s actor command policy = .ok next) : Reached next := by
  obtain ⟨_, hid, _, ⟨_, _, _, rfl⟩ | ⟨hnew, hprepare, hassert⟩⟩ := execute_eq_ok hstep
  · exact h
  · obtain ⟨hconsistent, htables⟩ :=
      prepare_consistent h.toConsistent h.toTables hid hnew hprepare
    exact reached_of_assert hconsistent htables hassert

end Execute

theorem Fresh.reached (start : Fresh) : Reached start.state := by
  have hcreated := start.created
  simp only [createVault, bind_eq_ok, pure_eq_ok] at hcreated
  obtain ⟨_, _, _, _, passes, _, _, hassert, hstate⟩ := hcreated
  rw [← hstate]
  obtain ⟨hconsistent, hbounded⟩ := assertInvariant_eq_ok.mp hassert
  refine { toConsistent := hconsistent, bounded := hbounded, toTables := ?_ }
  refine ⟨List.nodup_nil, List.nodup_nil, List.nodup_nil, fun lock hlock => ?_, fun _ _ => rfl⟩
  have hinput : start.input.passLock = some lock := hlock
  rcases start.lock with hnone | hopen
  · rw [hnone] at hinput
    cases hinput
  · rw [hopen, Option.some.injEq] at hinput
    rw [← hinput]
    exact List.nodup_nil

theorem reached_in_every_run (localeCompare : String → String → Ordering) (start : Fresh)
    (calls : List Call) : Reached (exec (step localeCompare) start.state calls) :=
  exec_invariant (fun _ _ _ h hstep => execute_reached h hstep) start.reached calls

/-! ## Amounts out of range -/

theorem nonneg_of_mem_allAmounts {s : VaultState} (h : Consistent s) {amount : Int}
    (hmem : amount ∈ allAmounts s) : amount = s.realizedPnl ∨ 0 ≤ amount := by
  have hpasses := h.nonneg _ (passes_mem s)
  simp only [allAmounts, List.mem_append, List.mem_cons, List.mem_map] at hmem
  rcases hmem with (((hmem | rfl | rfl | ⟨e, he, rfl⟩) | ⟨e, he, rfl⟩) | hmem)
  · exact .inr (h.nonneg _ hmem)
  · exact .inl rfl
  · exact .inr (by omega)
  · exact .inr (Int.le_of_lt (h.orders e he).2)
  · exact .inr (Int.le_of_lt (h.pending e he).2)
  · unfold lockAmounts at hmem
    cases hlock : s.passLock with
    | none => simp [hlock] at hmem
    | some lock =>
        have hlocked := h.lock lock hlock
        simp only [hlock, List.mem_cons, List.mem_flatMap, List.not_mem_nil, or_false] at hmem
        rcases hmem with rfl | rfl | ⟨e, he, rfl | rfl⟩
        · exact .inr (by omega)
        · exact .inr hlocked.nonneg
        · exact .inr (hlocked.parts e he).1
        · exact .inr (hlocked.parts e he).2.1

/-- What was lost was deposited before. -/
theorem neg_deposits_le_realizedPnl {s : VaultState} (h : Consistent s) :
    -s.deposits ≤ s.realizedPnl := by
  have hequity := equity_iff.mp h.equity
  have hnonneg := amounts_nonneg_iff.mp h.nonneg
  have horders := sum_nonneg fun e he => (h.orders e he).2
  have hpending := sum_nonneg fun e he => (h.pending e he).2
  have hfunded := h.funded
  omega

theorem deposits_mem (s : VaultState) : s.deposits ∈ allAmounts s := by
  simp [allAmounts, amounts]

/-- Consistent books are in range unless an amount is too large. -/
theorem bounded_or_overflow {s : VaultState} (h : Consistent s) :
    Bounded s ∨ ∃ amount ∈ allAmounts s, maxInteger < amount := by
  by_cases hbounded : Bounded s
  · exact .inl hbounded
  right
  simp only [Bounded, not_forall] at hbounded
  obtain ⟨amount, hmem, hout⟩ := hbounded
  by_cases hlarge : maxInteger < amount
  · exact ⟨amount, hmem, hlarge⟩
  have hmax : (0 : Int) ≤ maxInteger := by decide
  rcases nonneg_of_mem_allAmounts h hmem with rfl | hnonneg
  · have hloss := neg_deposits_le_realizedPnl h
    exact ⟨s.deposits, deposits_mem s, by omega⟩
  · exact absurd ⟨by omega, by omega⟩ hout

/-- In every state of a run, a fresh command that passes its guards leaves the books
consistent, and the closing assertion refuses it only for an amount that is too large. -/
theorem guards_suffice_in_every_run (localeCompare : String → String → Ordering) (start : Fresh)
    (calls : List Call) (call : Call) (next : VaultState)
    (hid : isId call.command.id = true)
    (hperm : permitted (exec (step localeCompare) start.state calls) call.actor
      call.command.body.type)
    (hnew : (exec (step localeCompare) start.state calls).receipts.get? call.command.id = none)
    (hguards : prepare (exec (step localeCompare) start.state calls) call.actor call.command
      call.policy (fingerprint localeCompare call.actor call.command call.policy) = .ok next) :
    Consistent next ∧
      ((assertInvariant next = .ok () ∧
          step localeCompare call (exec (step localeCompare) start.state calls) = .ok next) ∨
        ∃ amount ∈ allAmounts next, maxInteger < amount) := by
  have hreached := reached_in_every_run localeCompare start calls
  have hbefore := assertInvariant_eq_ok.mpr ⟨hreached.toConsistent, hreached.bounded⟩
  obtain ⟨hconsistent, _⟩ :=
    prepare_consistent hreached.toConsistent hreached.toTables hid hnew hguards
  refine ⟨hconsistent, (bounded_or_overflow hconsistent).imp_left fun hbounded => ?_⟩
  have hafter := assertInvariant_eq_ok.mpr ⟨hconsistent, hbounded⟩
  refine ⟨hafter, ?_⟩
  rw [step, execute_of_prepare hbefore hid hperm hnew hguards, hafter]
  rfl

/-! A vault with five passes and an open lock, and its first deposit. -/

def firstInput : VaultInput :=
  { scope := "TEST_ONLY", id := "vault", ownerId := "owner", executorId := "executor",
    strategyId := "strategy", passes := "5", passLock := some openLock }

def firstVault : Fresh where
  input := firstInput
  state := created firstInput 5
  created := by decide
  lock := .inr rfl

def firstDeposit : Call where
  actor := { id := "owner", role := .owner }
  command := { id := "deposit-1", expectedRevision := 0, body := .deposit "1", metadata := [],
               distinct := by decide }
  policy := none

theorem first_deposit_suffices : ∃ next, Consistent next ∧
    ((assertInvariant next = .ok () ∧ step compare firstDeposit firstVault.state = .ok next) ∨
      ∃ amount ∈ allAmounts next, maxInteger < amount) :=
  ⟨_, guards_suffice_in_every_run compare firstVault [] firstDeposit _ (by decide)
    (by decide) rfl rfl⟩

end DomainVault
end AlphaForge
