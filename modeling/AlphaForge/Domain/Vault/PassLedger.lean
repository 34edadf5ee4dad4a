/-
The principal of a pass lock over a whole run.

The parts of a withdrawal are fixed when it is asked for and leave the lock when it is
confirmed.  While the lock is open its principal is what was deposited less the
principal parts that were confirmed, and all that was paid is what the confirmed parts
sum to.  A closed lock stays closed, and the vault takes no further command.
-/
import AlphaForge.Domain.Vault.Run
import Mathlib.Algebra.Group.Prod

namespace AlphaForge
namespace DomainVault

open Evm Machine

/-- The parts of the withdrawal that a confirmation takes out of the lock. -/
def partOf (lock : PassLock) (body : Body) : PassPart :=
  match body with
  | .confirmWithdrawal withdrawalId =>
      (lock.withdrawals.get? withdrawalId).getD { profit := 0, principal := 0 }
  | _ => { profit := 0, principal := 0 }

/-- The parts that a step of a run confirms: those of a fresh command under a lock. -/
def confirmedPart (t : Transition VaultState Call) : PassPart :=
  match t.pre.passLock, t.pre.receipts.get? t.action.command.id with
  | some lock, none => partOf lock t.action.command.body
  | _, _ => { profit := 0, principal := 0 }

section Step

variable {s next : VaultState} {lock lock' : PassLock} {command : Command} {amount : Int}
  {actor : Actor} {policy : Option SettlementPolicy} {fingerprint : String}

/-- What a command does to an open lock's principal, beside the deposits and the
withdrawals paid. -/
theorem lockCommand_principal (h : LockConsistent s lock) (hopen : lock.closed = false)
    (hamount : commandAmount command = .ok amount) (hclose : command.body ≠ .closeVault)
    (hcommand : lockCommand s lock command = .ok lock') :
    lock'.closed = false ∧
      lock'.principal - depositsAfter s command amount =
        lock.principal - s.deposits - (partOf lock command.body).principal ∧
      paidAfter s command = s.withdrawalsPaid + (partOf lock command.body).profit +
        (partOf lock command.body).principal := by
  simp only [lockCommand, bind_eq_ok] at hcommand
  obtain ⟨a, _, hcommand⟩ := hcommand
  cases hbody : command.body with
  | deposit text =>
      obtain ⟨_, htext⟩ := commandAmount_pos hamount (by rw [hbody]; rfl)
      simp only [hbody, bind_eq_ok, pure_eq_ok, htext, Except.ok.injEq] at hcommand
      obtain ⟨_, rfl, _, _, _, _, _, _, rfl⟩ := hcommand
      refine ⟨hopen, ?_, ?_⟩ <;> simp only [depositsAfter, paidAfter, partOf, hbody] <;> omega
  | requestWithdrawal text =>
      simp only [hbody, bind_eq_ok, pure_eq_ok] at hcommand
      obtain ⟨_, _, _, _, _, _, _, _, _, _, rfl⟩ := hcommand
      refine ⟨hopen, ?_, ?_⟩ <;> simp only [depositsAfter, paidAfter, partOf, hbody] <;> omega
  | confirmWithdrawal withdrawalId =>
      simp only [hbody] at hcommand
      cases hget : lock.withdrawals.get? withdrawalId with
      | none => simp only [hget] at hcommand; cases hcommand
      | some part =>
          simp only [hget, bind_eq_ok, pure_eq_ok] at hcommand
          obtain ⟨_, _, rfl⟩ := hcommand
          have howed := (h.parts _ (OrderedMap.mem_of_get? hget)).2.2
          simp only at howed
          refine ⟨hopen, ?_, ?_⟩ <;>
            simp only [depositsAfter, paidAfter, partOf, owed, hbody, hget, howed,
              Option.getD_some] <;> omega
  | cancelWithdrawal withdrawalId =>
      simp only [hbody] at hcommand
      split at hcommand
      · cases hcommand
      · cases hcommand
        refine ⟨hopen, ?_, ?_⟩ <;> simp only [depositsAfter, paidAfter, partOf, hbody] <;> omega
  | closeVault => exact absurd hbody hclose
  | _ =>
      simp only [hbody, pure_eq_ok] at hcommand
      subst hcommand
      refine ⟨hopen, ?_, ?_⟩ <;> simp only [depositsAfter, paidAfter, partOf, hbody] <;> omega

/-- The totals of the confirmed parts, profit first, that go with a state. -/
def LedgerOf (s : VaultState) (total : Int × Int) : Prop :=
  match s.passLock with
  | none => total = 0
  | some lock => lock.closed = false →
      lock.principal = s.deposits - total.2 ∧ s.withdrawalsPaid = total.1 + total.2

theorem prepare_ledgerOf {total : Int × Int} (h : Consistent s) (hledger : LedgerOf s total)
    (hnew : s.receipts.get? command.id = none)
    (hprepare : prepare s actor command policy fingerprint = .ok next) :
    LedgerOf next (total + ((confirmedPart ⟨s, ⟨actor, command, policy⟩, next⟩).profit,
      (confirmedPart ⟨s, ⟨actor, command, policy⟩, next⟩).principal)) := by
  obtain ⟨_, amount, found, _, hamount, hfound, _, _, hsettled⟩ := prepare_eq_ok hprepare
  rcases applyPassCommand_cases hfound with ⟨hbody, hnone, hsafe, rfl⟩ | ⟨hnone, _, _, rfl⟩ |
    ⟨lock, lock', hlock, hopen, _, hcommand, rfl⟩
  · have htotal : total = 0 := by simpa only [LedgerOf, hnone] using hledger
    simp only [LedgerOf, hsettled.passLock, hsettled.deposits, hsettled.paid, confirmedPart, hnone,
      Option.some_or, depositsAfter, paidAfter, hbody, hsafe.2.1, htotal]
    intro _
    exact ⟨by simp, by simp⟩
  · have htotal : total = 0 := by simpa only [LedgerOf, hnone] using hledger
    simp only [LedgerOf, hsettled.passLock, confirmedPart, hnone, Option.none_or, htotal]
    rfl
  · have hpart : confirmedPart ⟨s, ⟨actor, command, policy⟩, next⟩ = partOf lock command.body := by
      simp only [confirmedPart, hlock, hnew]
    simp only [LedgerOf, hlock] at hledger
    obtain ⟨hprincipal, hpaid⟩ := hledger hopen
    rw [hpart]
    simp only [LedgerOf, hsettled.passLock, hsettled.deposits, hsettled.paid, Option.some_or]
    intro hstill
    by_cases hbody : command.body = .closeVault
    · rw [(lockCommand_closeVault hbody hcommand).2] at hstill
      cases hstill
    · obtain ⟨_, hmoved, hpaidAfter⟩ :=
        lockCommand_principal (h.lock lock hlock) hopen hamount hbody hcommand
      simp only [Prod.snd_add, Prod.fst_add]
      constructor <;> omega

theorem execute_ledgerOf {localeCompare : String → String → Ordering} {total : Int × Int}
    (h : Reached s) (hledger : LedgerOf s total)
    (hstep : execute localeCompare s actor command policy = .ok next) :
    LedgerOf next (total + ((confirmedPart ⟨s, ⟨actor, command, policy⟩, next⟩).profit,
      (confirmedPart ⟨s, ⟨actor, command, policy⟩, next⟩).principal)) := by
  obtain ⟨_, _, _, ⟨previous, hprevious, _, rfl⟩ | ⟨hnew, hprepare, _⟩⟩ := execute_eq_ok hstep
  · -- A repetition confirms nothing.
    have hpart : confirmedPart ⟨next, ⟨actor, command, policy⟩, next⟩ =
        { profit := 0, principal := 0 } := by
      simp only [confirmedPart, hprevious]
      split <;> simp_all
    have hsame : total + (0, 0) = total := add_zero total
    rw [hpart, hsame]
    exact hledger
  · exact prepare_ledgerOf h.toConsistent hledger hnew hprepare

/-- A closed lock refuses whatever is fresh. -/
theorem prepare_closed (hlock : s.passLock = some lock) (hclosed : lock.closed = true) :
    prepare s actor command policy fingerprint ≠ .ok next := by
  intro hprepare
  obtain ⟨_, _, _, _, _, hfound, _⟩ := prepare_eq_ok hprepare
  rcases applyPassCommand_cases hfound with ⟨_, hnone, _⟩ | ⟨hnone, _⟩ | ⟨_, _, hsome, hopen, _⟩
  · rw [hlock] at hnone
    cases hnone
  · rw [hlock] at hnone
    cases hnone
  · rw [hlock, Option.some.injEq] at hsome
    rw [← hsome, hclosed] at hopen
    cases hopen

end Step

/-- The lock of the vault is closed. -/
def LockClosed (s : VaultState) : Prop := ∃ lock, s.passLock = some lock ∧ lock.closed = true

theorem LockClosed.refuses {s : VaultState} (h : LockClosed s)
    (localeCompare : String → String → Ordering) {call : Call}
    (hnew : s.receipts.get? call.command.id = none) :
    ∃ e, step localeCompare call s = .error e := by
  obtain ⟨lock, hlock, hclosed⟩ := h
  cases hstep : step localeCompare call s with
  | error e => exact ⟨e, rfl⟩
  | ok next =>
      obtain ⟨_, _, _, ⟨_, hprevious, _⟩ | ⟨_, hprepare, _⟩⟩ := execute_eq_ok hstep
      · rw [hnew] at hprevious
        cases hprevious
      · exact absurd hprepare (prepare_closed hlock hclosed)

theorem LockClosed.step {localeCompare : String → String → Ordering} {call : Call}
    {s next : VaultState} (h : LockClosed s) (hstep : step localeCompare call s = .ok next) :
    LockClosed next := by
  obtain ⟨_, _, _, ⟨_, _, _, rfl⟩ | ⟨hnew, _⟩⟩ := execute_eq_ok hstep
  · exact h
  · obtain ⟨e, herror⟩ := h.refuses localeCompare hnew
    rw [hstep] at herror
    cases herror

/-- `closeVault` closes the lock. -/
theorem lockClosed_of_closeVault {localeCompare : String → String → Ordering} {call : Call}
    {s next : VaultState} (hbody : call.command.body = .closeVault)
    (hnew : s.receipts.get? call.command.id = none)
    (hstep : step localeCompare call s = .ok next) : LockClosed next := by
  obtain ⟨_, _, _, ⟨_, hprevious, _⟩ | ⟨_, hprepare, _⟩⟩ := execute_eq_ok hstep
  · rw [hnew] at hprevious
    cases hprevious
  · obtain ⟨_, _, _, _, _, hfound, _, _, hsettled⟩ := prepare_eq_ok hprepare
    rcases applyPassCommand_cases hfound with ⟨hother, _⟩ | ⟨_, _, hother, _⟩ |
      ⟨_, _, _, _, _, hcommand, rfl⟩
    · rw [hbody] at hother
      cases hother
    · exact absurd hbody hother
    · rw [(lockCommand_closeVault hbody hcommand).2] at hsettled
      exact ⟨_, hsettled.passLock, rfl⟩

theorem Fresh.ledgerOf (start : Fresh) : LedgerOf start.state 0 := by
  have hcreated := start.created
  simp only [createVault, bind_eq_ok, pure_eq_ok] at hcreated
  obtain ⟨_, _, _, _, passes, _, _, _, hstate⟩ := hcreated
  rw [← hstate]
  rcases start.lock with hnone | hopen
  · simp only [LedgerOf, DomainVault.created, hnone]
  · simp only [LedgerOf, DomainVault.created, hopen, openLock]
    intro _
    exact ⟨rfl, rfl⟩

theorem ledgerOf_in_every_run (localeCompare : String → String → Ordering) (start : Fresh)
    (calls : List Call) :
    LedgerOf (exec (step localeCompare) start.state calls)
      ((history (step localeCompare) start.state calls).map
        (fun t => ((confirmedPart t).profit, (confirmedPart t).principal))).sum := by
  have htotal : Reached (exec (step localeCompare) start.state calls) ∧
      LedgerOf (exec (step localeCompare) start.state calls)
        (0 + ((history (step localeCompare) start.state calls).map
          (fun t => ((confirmedPart t).profit, (confirmedPart t).principal))).sum) :=
    exec_total (R := fun s total => Reached s ∧ LedgerOf s total)
      (fun _ _ _ _ h hstep => ⟨execute_reached h.1 hstep, execute_ledgerOf h.1 h.2 hstep⟩)
      ⟨start.reached, start.ledgerOf⟩ calls
  rw [zero_add] at htotal
  exact htotal.2

/-- The principal of the lock in every state of a run, and the end of the run that
`closeVault` brings. -/
theorem pass_ledger_in_every_run (localeCompare : String → String → Ordering) (start : Fresh)
    (calls : List Call) :
    (∀ lock, (exec (step localeCompare) start.state calls).passLock = some lock →
      (lock.closed = false →
        lock.principal = (exec (step localeCompare) start.state calls).deposits -
          ((history (step localeCompare) start.state calls).map
            (fun t => (confirmedPart t).principal)).sum ∧
        ((history (step localeCompare) start.state calls).map
            (fun t => (confirmedPart t).profit + (confirmedPart t).principal)).sum =
          (exec (step localeCompare) start.state calls).withdrawalsPaid) ∧
      lock.principal ≤ (exec (step localeCompare) start.state calls).passes * 10 ^ 6 ∧
      lock.reservedPrincipal ≤ lock.principal) ∧
    (∀ call closed, call.command.body = .closeVault →
      (exec (step localeCompare) start.state calls).receipts.get? call.command.id = none →
      step localeCompare call (exec (step localeCompare) start.state calls) = .ok closed →
      ∀ later more,
        (exec (step localeCompare) closed later).receipts.get? more.command.id = none →
        ∃ e, step localeCompare more (exec (step localeCompare) closed later) = .error e) := by
  constructor
  · intro lock hlock
    have hlocked := (reached_in_every_run localeCompare start calls).lock lock hlock
    refine ⟨fun hopen => ?_, hlocked.capacity, hlocked.reserved⟩
    have hledger := ledgerOf_in_every_run localeCompare start calls
    simp only [LedgerOf, hlock] at hledger
    obtain ⟨hprincipal, hpaid⟩ := hledger hopen
    have hfst := map_list_sum (AddMonoidHom.fst Int Int)
      ((history (step localeCompare) start.state calls).map
        (fun t => ((confirmedPart t).profit, (confirmedPart t).principal)))
    have hsnd := map_list_sum (AddMonoidHom.snd Int Int)
      ((history (step localeCompare) start.state calls).map
        (fun t => ((confirmedPart t).profit, (confirmedPart t).principal)))
    rw [List.map_map] at hfst hsnd
    constructor
    · rw [hprincipal]
      exact congrArg _ hsnd
    · rw [hpaid, List.sum_map_add]
      exact congrArg₂ _ hfst.symm hsnd.symm
  · intro call closed hbody hnew hstep later more hmore
    have hclosed := lockClosed_of_closeVault hbody hnew hstep
    have hlater : LockClosed (exec (step localeCompare) closed later) :=
      exec_invariant (fun _ _ _ h hnext => h.step hnext) hclosed later
    exact hlater.refuses localeCompare hmore

end DomainVault
end AlphaForge
