/-
What can be asked for is what is advertised.

`passAccounting` advertises a limit from idle cash and profit, and a request is checked
against the principal of the lock, the parts already reserved and the exposure.  The two
agree in every state of a run: what is pending is what the lock has reserved, fees are
funded by active cash, and the profit fits an amount since it was realised.
-/
import AlphaForge.Domain.Vault.PassLedger
import AlphaForge.Domain.Vault.Status

namespace AlphaForge
namespace DomainVault

open Evm Machine

/-! ## The books of an open lock -/

/-- The profit that `passAccounting` finds. -/
def profitOf (s : VaultState) (lock : PassLock) : Int :=
  let cash := s.idle + s.activeCash + sum s.pendingWithdrawals - s.feeLiability
  if lock.principal + lock.reservedProfit < cash then
    cash - lock.principal - lock.reservedProfit else 0

/-- The limit that `passAccounting` advertises for an open lock. -/
def limitOf (s : VaultState) (lock : PassLock) : Int :=
  if exposed s then (if s.idle < profitOf s lock then s.idle else profitOf s lock) else s.idle

section Books

variable {s : VaultState} {lock : PassLock}

/-- What is pending is what the lock has reserved. -/
theorem sum_pending (h : LockConsistent s lock) (hkeys : lock.withdrawals.keys.Nodup) :
    sum s.pendingWithdrawals = lock.reservedProfit + lock.reservedPrincipal := by
  have hnodup : (lock.withdrawals.map fun e => (e.1, e.2.profit + e.2.principal)).Nodup := by
    refine List.Nodup.of_map Prod.fst ?_
    rw [List.map_map]
    exact hkeys
  have hsub : (lock.withdrawals.map fun e => (e.1, e.2.profit + e.2.principal)) ⊆
      s.pendingWithdrawals := by
    intro e he
    obtain ⟨part, hpart, rfl⟩ := List.mem_map.mp he
    exact OrderedMap.mem_of_get? (h.parts part hpart).2.2
  have hperm : (lock.withdrawals.map fun e => (e.1, e.2.profit + e.2.principal)).Perm
      s.pendingWithdrawals := by
    refine (List.subperm_of_subset hnodup hsub).perm_of_length_le ?_
    rw [List.length_map, h.length]
  have hsum := (hperm.map Prod.snd).sum_eq
  rw [List.map_map] at hsum
  exact hsum.symm.trans List.sum_map_add

theorem reservedProfit_nonneg (h : LockConsistent s lock) : 0 ≤ lock.reservedProfit := by
  refine List.sum_nonneg fun x hx => ?_
  obtain ⟨e, he, rfl⟩ := List.mem_map.mp hx
  exact (h.parts e he).1

theorem exposed_iff (h : Ledger s) : exposed s = true ↔ ¬ flat s := by
  have hnonneg := amounts_nonneg_iff.mp h.nonneg
  rw [exposed, decide_eq_true_eq, flat, ← List.length_eq_zero_iff]
  omega

/-- The accounting of a reached vault never fails. -/
theorem passAccounting_ok (h : Reached s) (hlock : s.passLock = some lock)
    (hopen : lock.closed = false) : ∃ a, passAccounting s lock = .ok a ∧
      a.withdrawable = limitOf s lock ∧ a.availableProfit = profitOf s lock ∧
      a.reservedPrincipal = lock.reservedPrincipal := by
  have hconsistent := h.lock lock hlock
  have hnonneg := hconsistent.nonneg
  have hcapacity := hconsistent.capacity
  have hraw : s.passes * 1000000 * 1000000000000 ≤ maxInteger := by
    refine ((bounded_iff.mp h.bounded).2.2.2.2.2 _ ?_).2
    rw [lockAmounts, hlock]
    exact List.mem_cons_self
  have htotal : capacityToPassRaw (s.passes * 1000000) =
      .ok (s.passes * 1000000 * 1000000000000) :=
    capacityToPassRaw_eq_ok.mpr ⟨⟨by omega, hraw⟩, rfl⟩
  have hlocked : capacityToPassRaw lock.principal = .ok (lock.principal * 1000000000000) :=
    capacityToPassRaw_eq_ok.mpr ⟨⟨hnonneg, by omega⟩, rfl⟩
  have hfree : capacityToPassRaw (s.passes * 1000000 - lock.principal) =
      .ok ((s.passes * 1000000 - lock.principal) * 1000000000000) :=
    capacityToPassRaw_eq_ok.mpr ⟨⟨by omega, by omega⟩, rfl⟩
  let a : PassAccounting := {
    totalPassRaw := s.passes * 1000000 * 1000000000000
    lockedPassRaw := lock.principal * 1000000000000
    freePassRaw := (s.passes * 1000000 - lock.principal) * 1000000000000
    withdrawable := limitOf s lock
    availableProfit := profitOf s lock
    reservedPrincipal := lock.reservedPrincipal }
  have haccount : passAccounting s lock = .ok a := by
    simp only [passAccounting, htotal, hlocked, hfree, ok_bind, hopen, Bool.false_eq_true, if_false]
    rfl
  exact ⟨a, haccount, rfl, rfl, rfl⟩

/-- Idle cash is covered by the profit and the principal that is not reserved. -/
theorem idle_le (h : Reached s) (hlock : s.passLock = some lock) :
    s.idle ≤ profitOf s lock + (lock.principal - lock.reservedPrincipal) := by
  have hpending := sum_pending (h.lock lock hlock) (h.parts lock hlock)
  have hfunded := h.funded
  simp only [profitOf]
  split <;> omega

/-- The lock's principal is no less than what was deposited and not paid. -/
def PrincipalCovers (s : VaultState) : Prop :=
  ∀ lock, s.passLock = some lock → lock.closed = false →
    s.deposits - s.withdrawalsPaid ≤ lock.principal

theorem profitOf_le (h : Reached s) (hcovers : PrincipalCovers s) (hlock : s.passLock = some lock)
    (hopen : lock.closed = false) : 0 ≤ profitOf s lock ∧ profitOf s lock ≤ maxInteger := by
  have hmax : (0 : Int) ≤ maxInteger := by decide
  have hprincipal := hcovers lock hlock hopen
  have hequity := equity_iff.mp h.equity
  have hnonneg := amounts_nonneg_iff.mp h.nonneg
  have horders := sum_nonneg fun e he => (h.orders e he).2
  have hreserved := reservedProfit_nonneg (h.lock lock hlock)
  have hrealized := (bounded_iff.mp h.bounded).2.1
  simp only [profitOf]
  split <;> omega

end Books

/-! ## The principal over a run -/

theorem prepare_covers {s next : VaultState} {actor : Actor} {command : Command}
    {policy : Option SettlementPolicy} {fingerprint : String} (h : Consistent s)
    (hcovers : PrincipalCovers s)
    (hprepare : prepare s actor command policy fingerprint = .ok next) : PrincipalCovers next := by
  obtain ⟨_, amount, found, _, hamount, hfound, _, _, hsettled⟩ := prepare_eq_ok hprepare
  intro lock' hlock' hopen'
  rw [hsettled.passLock] at hlock'
  rw [hsettled.deposits, hsettled.paid]
  rcases applyPassCommand_cases hfound with ⟨hbody, _, hsafe, rfl⟩ | ⟨hnone, _, _, rfl⟩ |
    ⟨lock, _, hlock, hopen, _, hcommand, rfl⟩
  · obtain rfl := Option.some.inj hlock'
    simp only [depositsAfter, paidAfter, hbody, hsafe.2.1]
    omega
  · rw [hnone] at hlock'
    cases hlock'
  · obtain rfl := Option.some.inj hlock'
    by_cases hclose : command.body = .closeVault
    · rw [(lockCommand_closeVault hclose hcommand).2] at hopen'
      cases hopen'
    · obtain ⟨_, hprincipal, hpaid⟩ :=
        lockCommand_principal (h.lock lock hlock) hopen hamount hclose hcommand
      have hbefore := hcovers lock hlock hopen
      have hprofit : 0 ≤ (partOf lock command.body).profit := by
        unfold partOf
        split
        · next withdrawalId _ =>
          cases hget : lock.withdrawals.get? withdrawalId with
          | none => exact Int.le_refl 0
          | some part =>
              exact ((h.lock lock hlock).parts _ (OrderedMap.mem_of_get? hget)).1
        · exact Int.le_refl 0
      omega

theorem covers_in_every_run (localeCompare : String → String → Ordering) {input : VaultInput}
    {start : VaultState} (hcreated : createVault input = .ok start) (calls : List Call) :
    Reached (exec (step localeCompare) start calls) ∧
      PrincipalCovers (exec (step localeCompare) start calls) := by
  have hreached := created_reached hcreated
  refine exec_invariant (P := fun s => Reached s ∧ PrincipalCovers s)
    (fun call s next h hstep => ?_) ⟨hreached, fun lock hlock _ => ?_⟩ calls
  · refine ⟨execute_reached h.1 hstep, ?_⟩
    obtain ⟨_, _, _, ⟨_, _, _, rfl⟩ | ⟨_, hprepare, _⟩⟩ := execute_eq_ok hstep
    · exact h.2
    · exact prepare_covers h.1.toConsistent h.2 hprepare
  · have hnonneg := (hreached.lock lock hlock).nonneg
    simp only [createVault, bind_eq_ok, pure_eq_ok] at hcreated
    obtain ⟨_, _, _, _, _, _, _, _, rfl⟩ := hcreated
    exact hnonneg

/-! ## A request -/

/-- The parts in which a withdrawal is recorded. -/
def requestPart (s : VaultState) (lock : PassLock) (amount : Int) : PassPart :=
  { profit := min amount (profitOf s lock), principal := amount - min amount (profitOf s lock) }

/-- The books with a withdrawal under `id`. -/
def requested (s : VaultState) (lock : PassLock) (id : String) (amount : Int) : VaultState :=
  { s with
    passLock := some { lock with withdrawals := lock.withdrawals.set id (requestPart s lock amount) }
    idle := s.idle - amount
    pendingWithdrawals := s.pendingWithdrawals.set id amount }

section Request

variable {s next : VaultState} {lock : PassLock} {command : Command} {text print : String}
  {actor : Actor} {policy : Option SettlementPolicy}

/-- The lock takes the request if its principal part is free and exposes nothing. -/
theorem lockCommand_request (h : Reached s) (hcovers : PrincipalCovers s)
    (hlock : s.passLock = some lock) (hopen : lock.closed = false)
    (hbody : command.body = .requestWithdrawal text) {amount : Int}
    (htext : unsignedText text = .ok amount) {lock' : PassLock} :
    lockCommand s lock command = .ok lock' ↔
      ((requestPart s lock amount).principal ≤ lock.principal - lock.reservedPrincipal ∧
        ((requestPart s lock amount).principal ≤ 0 ∨ flat s)) ∧
      lock' = { lock with withdrawals :=
        lock.withdrawals.set command.id (requestPart s lock amount) } := by
  obtain ⟨a, haccount, _, hprofit, hreserved⟩ := passAccounting_ok h hlock hopen
  have hconsistent := h.lock lock hlock
  obtain ⟨hprofit0, hprofitMax⟩ := profitOf_le h hcovers hlock hopen
  have hprofitOk : unsigned a.availableProfit = .ok (profitOf s lock) :=
    unsigned_eq_ok.mpr ⟨hprofit ▸ ⟨hprofit0, hprofitMax⟩, hprofit⟩
  have hreservedOk : unsigned a.reservedPrincipal = .ok lock.reservedPrincipal := by
    have hbound := (bounded_iff.mp h.bounded).2.2.2.2.2 lock.principal (by
      rw [lockAmounts, hlock]
      exact List.mem_cons_of_mem _ List.mem_cons_self)
    have hle := hconsistent.reserved
    have hnonneg : 0 ≤ lock.reservedPrincipal := by
      refine List.sum_nonneg fun x hx => ?_
      obtain ⟨e, he, rfl⟩ := List.mem_map.mp hx
      exact (hconsistent.parts e he).2.1
    exact unsigned_eq_ok.mpr ⟨hreserved ▸ ⟨hnonneg, by omega⟩, hreserved⟩
  have hmin : (if amount < profitOf s lock then amount else profitOf s lock) =
      min amount (profitOf s lock) := by
    split <;> omega
  simp only [lockCommand, haccount, hbody, htext, hprofitOk, hreservedOk, hmin, ok_bind, bind_eq_ok,
    ensure_eq_ok, pure_eq_ok, requestPart]
  constructor
  · rintro ⟨_, hroom, _, hflat, rfl⟩
    exact ⟨⟨hroom, hflat⟩, rfl⟩
  · rintro ⟨⟨hroom, hflat⟩, rfl⟩
    exact ⟨(), hroom, (), hflat, rfl⟩

/-- What the lock and the vault ask of an amount is that it is within the limit. -/
theorem within_limit (h : Reached s) (hcovers : PrincipalCovers s) (hlock : s.passLock = some lock)
    (hopen : lock.closed = false) {amount : Int} :
    ((requestPart s lock amount).principal ≤ lock.principal - lock.reservedPrincipal ∧
        ((requestPart s lock amount).principal ≤ 0 ∨ flat s)) ∧ amount ≤ s.idle ↔
      amount ≤ limitOf s lock := by
  have hidle := idle_le h hlock
  have hreserved := (h.lock lock hlock).reserved
  obtain ⟨hprofit, _⟩ := profitOf_le h hcovers hlock hopen
  simp only [requestPart, limitOf]
  by_cases hexposed : exposed s = true
  · have hflat := (exposed_iff h.toLedger).mp hexposed
    rw [if_pos hexposed]
    constructor
    · rintro ⟨⟨_, hpart | hrest⟩, hle⟩
      · split <;> omega
      · exact absurd hrest hflat
    · intro hle
      split at hle
      · exact ⟨⟨by omega, Or.inl (by omega)⟩, hle⟩
      · exact ⟨⟨by omega, Or.inl (by omega)⟩, by omega⟩
  · have hflat : flat s := Decidable.not_not.mp fun hopen => hexposed
      ((exposed_iff h.toLedger).mpr hopen)
    rw [if_neg hexposed]
    constructor
    · exact fun h => h.2
    · intro hle
      exact ⟨⟨by omega, Or.inr hflat⟩, hle⟩

/-- A fresh request that passes its guards. -/
theorem prepare_request (h : Reached s) (hcovers : PrincipalCovers s)
    (hlock : s.passLock = some lock) (hopen : lock.closed = false)
    (hbody : command.body = .requestWithdrawal text) (hrevision : command.expectedRevision = s.revision) :
    prepare s actor command policy print = .ok next ↔
      s.revision < 10000 ∧ ∃ amount, unsignedText text = .ok amount ∧ 0 < amount ∧
        amount ≤ limitOf s lock ∧
        next = record (settleStatus (requested s lock command.id amount)) command.id print
          (.command .requestWithdrawal) actor.id := by
  have hsafe : -maxSafeInteger ≤ command.expectedRevision ∧
      command.expectedRevision ≤ maxSafeInteger ∧ command.expectedRevision = s.revision := by
    have hle := h.revision
    have hmax : (0 : Int) ≤ maxSafeInteger := by decide
    exact ⟨by omega, by omega, hrevision⟩
  have happlied : ∀ found, applyPassCommand s command = .ok found ↔
      ∃ lock', lockCommand s lock command = .ok lock' ∧ found = some lock' := by
    intro found
    simp only [applyPassCommand, hbody, hlock, hopen, ensure_of, ok_bind, map_eq_ok]
    exact ⟨fun ⟨l, hl, hf⟩ => ⟨l, hl, hf.symm⟩, fun ⟨l, hl, hf⟩ => ⟨l, hl, hf.symm⟩⟩
  have hamount : ∀ amount, commandAmount command = .ok amount ↔
      unsignedText text = .ok amount ∧ 0 < amount := by
    intro amount
    simp only [commandAmount, hbody, Body.amount, bind_eq_ok, ensure_eq_ok, pure_eq_ok]
    constructor
    · rintro ⟨a, ha, _, hpos, rfl⟩
      exact ⟨ha, hpos⟩
    · rintro ⟨ha, hpos⟩
      exact ⟨amount, ha, (), hpos, rfl⟩
  simp only [prepare, bind_eq_ok, ensure_eq_ok, pure_eq_ok]
  constructor
  · rintro ⟨_, _, _, hlimit, amount, ha, found, hfound, mid, hmid, rfl⟩
    obtain ⟨htext, hpos⟩ := (hamount amount).mp ha
    obtain ⟨lock', hcommand, rfl⟩ := (happlied found).mp hfound
    obtain ⟨hguards, rfl⟩ := (lockCommand_request h hcovers hlock hopen hbody htext).mp hcommand
    simp only [applyBody, hbody, bind_eq_ok, ensure_eq_ok, pure_eq_ok] at hmid
    obtain ⟨_, hidle, rfl⟩ := hmid
    refine ⟨hlimit, amount, htext, hpos, (within_limit h hcovers hlock hopen).mp ⟨hguards, hidle⟩, ?_⟩
    rw [hbody]
    rfl
  · rintro ⟨hlimit, amount, htext, hpos, hle, rfl⟩
    obtain ⟨hguards, hidle⟩ := (within_limit h hcovers hlock hopen).mpr hle
    refine ⟨(), hsafe, (), hlimit, amount, (hamount amount).mpr ⟨htext, hpos⟩, _,
      (happlied _).mpr ⟨_, (lockCommand_request h hcovers hlock hopen hbody htext).mpr ⟨hguards, rfl⟩,
        rfl⟩, requested s lock command.id amount, ?_, ?_⟩
    · simp only [applyBody, hbody, bind_eq_ok, ensure_eq_ok, pure_eq_ok]
      exact ⟨(), hidle, rfl⟩
    · rw [hbody]
      rfl

/-- A request makes no amount larger. -/
theorem requested_le (h : Reached s) (hlock : s.passLock = some lock) {id : String} {amount : Int}
    (hprofit : 0 ≤ profitOf s lock) (hpos : 0 < amount) (hidle : amount ≤ s.idle) :
    ∀ x ∈ allAmounts (requested s lock id amount), x ≤ maxInteger := by
  have hbound : ∀ x ∈ allAmounts s, x ≤ maxInteger := fun x hx => (h.bounded x hx).2
  have hidleMax := hbound s.idle (by simp [allAmounts, amounts])
  have hlocked : ∀ x ∈ lockAmounts s, x ≤ maxInteger := fun x hx =>
    hbound x (List.mem_append_right _ hx)
  intro x hx
  simp only [allAmounts, List.mem_append, List.mem_cons] at hx
  rcases hx with ((hx | hx | hx | hx) | hx) | hx
  · simp only [amounts, requested, List.mem_cons] at hx
    rcases hx with rfl | rfl | hx
    · exact hbound _ (by simp [allAmounts, amounts])
    · omega
    · refine hbound x (List.mem_append_left _ (List.mem_append_left _ (List.mem_append_left _ ?_)))
      exact List.mem_cons_of_mem _ (List.mem_cons_of_mem _ (by simpa only [List.mem_cons] using hx))
  · rw [hx]
    exact hbound _ (by simp [allAmounts, requested])
  · rw [hx]
    exact hbound _ (by simp [allAmounts, requested])
  · refine hbound x ?_
    simp only [allAmounts, List.mem_append, List.mem_cons]
    exact Or.inl (Or.inl (Or.inr (Or.inr (Or.inr hx))))
  · obtain ⟨e, he, rfl⟩ := List.mem_map.mp hx
    rcases OrderedMap.mem_of_mem_set he with rfl | hold
    · show amount ≤ maxInteger
      omega
    · refine hbound _ (List.mem_append_left _ (List.mem_append_right _ ?_))
      exact List.mem_map_of_mem hold
  · simp only [lockAmounts, hlock, List.mem_cons, List.mem_flatMap, List.not_mem_nil,
      or_false] at hlocked
    simp only [lockAmounts, requested, List.mem_cons, List.mem_flatMap, List.not_mem_nil,
      or_false] at hx
    rcases hx with rfl | rfl | ⟨e, he, hx⟩
    · exact hlocked _ (Or.inl rfl)
    · exact hlocked _ (Or.inr (Or.inl rfl))
    · rcases OrderedMap.mem_of_mem_set he with rfl | hold
      · simp only [requestPart] at hx
        omega
      · exact hlocked x (Or.inr (Or.inr ⟨e, hold, hx⟩))

/-- A fresh request of the owner, the closing assertion included. -/
theorem execute_request {localeCompare : String → String → Ordering} (h : Reached s)
    (hcovers : PrincipalCovers s) (hlock : s.passLock = some lock) (hopen : lock.closed = false)
    (howner : actor.role = .owner ∧ actor.id = s.ownerId)
    (hbody : command.body = .requestWithdrawal text)
    (hnew : s.receipts.get? command.id = none) (hrevision : command.expectedRevision = s.revision) :
    execute localeCompare s actor command policy = .ok next ↔
      isId command.id = true ∧ s.revision < 10000 ∧ ∃ amount, unsignedText text = .ok amount ∧
        0 < amount ∧ amount ≤ limitOf s lock ∧
        next = record (settleStatus (requested s lock command.id amount)) command.id
          (fingerprint localeCompare actor command policy) (.command .requestWithdrawal)
          actor.id := by
  constructor
  · intro hstep
    obtain ⟨_, hid, _, ⟨_, hprevious, _⟩ | ⟨_, hprepare, _⟩⟩ := execute_eq_ok hstep
    · rw [hnew] at hprevious
      cases hprevious
    · exact ⟨hid, (prepare_request h hcovers hlock hopen hbody hrevision).mp hprepare⟩
  · rintro ⟨hid, hrequest⟩
    have hprepare : prepare s actor command policy (fingerprint localeCompare actor command policy) =
        .ok next := (prepare_request h hcovers hlock hopen hbody hrevision).mpr hrequest
    obtain ⟨_, amount, _, hpos, hle, rfl⟩ := hrequest
    obtain ⟨hconsistent, _⟩ := prepare_consistent h.toConsistent h.toTables hid hnew hprepare
    have hsame : allAmounts (record (settleStatus (requested s lock command.id amount)) command.id
        (fingerprint localeCompare actor command policy) (.command .requestWithdrawal) actor.id) =
        allAmounts (requested s lock command.id amount) := by
      rcases settleStatus_keeps (requested s lock command.id amount) with heq | heq
      · rw [heq]
        rfl
      · rw [heq]
        rfl
    have hbounded := (bounded_or_overflow hconsistent).resolve_right fun ⟨x, hx, hlarge⟩ => by
      have hidle := ((within_limit h hcovers hlock hopen).mpr hle).2
      have hprofit := (profitOf_le h hcovers hlock hopen).1
      rw [hsame] at hx
      exact absurd (requested_le h hlock hprofit hpos hidle x hx) (Int.not_le.mpr hlarge)
    have hbefore := assertInvariant_eq_ok.mpr ⟨h.toConsistent, h.bounded⟩
    have hafter := assertInvariant_eq_ok.mpr ⟨hconsistent, hbounded⟩
    have hpermitted : permitted s actor command.body.type := by
      rw [hbody]
      exact howner
    rw [execute_of_prepare hbefore hid hpermitted hnew hprepare, hafter]
    rfl

end Request

/-! ## Runs -/

/-- The states that calls of `execute` reach from a vault that `createVault` returns. -/
def Reachable (localeCompare : String → String → Ordering) (s : VaultState) : Prop :=
  ∃ input start calls, createVault input = .ok start ∧ s = exec (step localeCompare) start calls

theorem Reachable.covers {localeCompare : String → String → Ordering} {s : VaultState}
    (h : Reachable localeCompare s) : Reached s ∧ PrincipalCovers s := by
  obtain ⟨input, start, calls, hcreated, rfl⟩ := h
  exact covers_in_every_run localeCompare hcreated calls

/-- A fresh request is accepted exactly within the advertised limit, as long as the history
has room for it, and its profit part is what profit there is. -/
theorem request_accepted_in_every_run {localeCompare : String → String → Ordering} {s : VaultState}
    (hreachable : Reachable localeCompare s) {lock : PassLock} (hlock : s.passLock = some lock)
    (hopen : lock.closed = false) {actor : Actor} (howner : actor.role = .owner ∧ actor.id = s.ownerId)
    {command : Command} {text : String} (hbody : command.body = .requestWithdrawal text)
    (hnew : s.receipts.get? command.id = none) (hrevision : command.expectedRevision = s.revision)
    (policy : Option SettlementPolicy) :
    ∃ a, passAccounting s lock = .ok a ∧
      ((∃ next, step localeCompare ⟨actor, command, policy⟩ s = .ok next) ↔
        isId command.id = true ∧ s.revision < 10000 ∧
          ∃ amount, unsignedText text = .ok amount ∧ 0 < amount ∧ amount ≤ a.withdrawable) ∧
      ∀ next amount, step localeCompare ⟨actor, command, policy⟩ s = .ok next →
        unsignedText text = .ok amount → ∃ lock', next.passLock = some lock' ∧
          lock'.withdrawals.get? command.id = some {
            profit := min amount a.availableProfit
            principal := amount - min amount a.availableProfit } := by
  obtain ⟨hreached, hcovers⟩ := hreachable.covers
  obtain ⟨a, haccount, hlimit, hprofit, _⟩ := passAccounting_ok hreached hlock hopen
  refine ⟨a, haccount, ⟨?_, ?_⟩, ?_⟩
  · rintro ⟨next, hstep⟩
    obtain ⟨hid, hroom, amount, htext, hpos, hle, _⟩ :=
      (execute_request hreached hcovers hlock hopen howner hbody hnew hrevision).mp hstep
    exact ⟨hid, hroom, amount, htext, hpos, hlimit ▸ hle⟩
  · rintro ⟨hid, hroom, amount, htext, hpos, hle⟩
    exact ⟨_, (execute_request hreached hcovers hlock hopen howner hbody hnew hrevision).mpr
      ⟨hid, hroom, amount, htext, hpos, hlimit ▸ hle, rfl⟩⟩
  · intro next amount hstep htext
    obtain ⟨_, _, amount', htext', _, _, rfl⟩ :=
      (execute_request hreached hcovers hlock hopen howner hbody hnew hrevision).mp hstep
    obtain rfl := Except.ok.inj (htext.symm.trans htext')
    rw [hprofit]
    refine ⟨{ lock with withdrawals :=
      lock.withdrawals.set command.id (requestPart s lock amount) }, ?_, ?_⟩
    · rcases settleStatus_keeps (requested s lock command.id amount) with heq | heq
      · rw [heq]
        rfl
      · rw [heq]
        rfl
    · exact OrderedMap.get?_set_self _ _ _

/-! ## A full history

A stopped vault may be stopped again, which writes a receipt and changes nothing else.
After ten thousand receipts no request is taken, whatever its amount. -/

/-- A stop of a vault at rest only goes into the history. -/
theorem stop_accepted {localeCompare : String → String → Ordering} {s : VaultState}
    (h : Reached s) {lock : PassLock} (hlock : s.passLock = some lock) (hopen : lock.closed = false)
    (hflat : flat s) (hstopped : s.status = .stopped) {actor : Actor}
    (howner : actor.role = .owner ∧ actor.id = s.ownerId) {command : Command}
    (hbody : command.body = .stop) (hid : isId command.id = true)
    (hnew : s.receipts.get? command.id = none) (hrevision : command.expectedRevision = s.revision)
    (hroom : s.revision < 10000) :
    execute localeCompare s actor command none =
      .ok (record s command.id (fingerprint localeCompare actor command none) (.command .stop)
        actor.id) := by
  have hsafe : -maxSafeInteger ≤ command.expectedRevision ∧
      command.expectedRevision ≤ maxSafeInteger ∧ command.expectedRevision = s.revision := by
    have hle := h.revision
    have hmax : (0 : Int) ≤ maxSafeInteger := by decide
    exact ⟨by omega, by omega, hrevision⟩
  have hamount : commandAmount command = .ok 0 := by
    simp only [commandAmount, hbody, Body.amount]
  have hfound : applyPassCommand s command = .ok (some lock) := by
    obtain ⟨a, haccount, _⟩ := passAccounting_ok h hlock hopen
    simp only [applyPassCommand, hbody, hlock, ensure_of hopen, ok_bind, lockCommand, haccount]
    rfl
  have hsame : applyBody { s with passLock := (some lock).or s.passLock } command 0 none = .ok s := by
    obtain ⟨hcost, _, horders⟩ := hflat
    have hquiet : ¬ (0 < s.positionCost ∨ 0 < s.orders.length) := by
      rw [hcost, horders]
      decide
    simp only [applyBody, hbody, Option.some_or, if_neg hquiet]
    rw [← hlock, ← hstopped]
  have hsettled : settleStatus s = s := if_neg fun hstopping => by
    rw [hstopped] at hstopping
    cases hstopping.1
  have hprepare : prepare s actor command none (fingerprint localeCompare actor command none) =
      .ok (record s command.id (fingerprint localeCompare actor command none) (.command .stop)
        actor.id) := by
    rw [prepare, ensure_of hsafe, ok_bind, ensure_of hroom, ok_bind, hamount, ok_bind, hfound,
      ok_bind, hsame, ok_bind, hsettled, hbody]
    rfl
  obtain ⟨hconsistent, _⟩ := prepare_consistent h.toConsistent h.toTables hid hnew hprepare
  have hpermitted : permitted s actor command.body.type := by
    rw [hbody]
    exact howner
  rw [execute_of_prepare (assertInvariant_eq_ok.mpr ⟨h.toConsistent, h.bounded⟩) hid hpermitted hnew
    hprepare, assertInvariant_eq_ok.mpr ⟨hconsistent, h.bounded⟩]
  rfl

/-- Four digits name the stops of a full history. -/
def stopId (k : Nat) : String :=
  String.ofList [(k / 1000 % 10).digitChar, (k / 100 % 10).digitChar, (k / 10 % 10).digitChar,
    (k % 10).digitChar]

theorem stopId_injective {j k : Nat} (hj : j < 10000) (hk : k < 10000) (h : stopId j = stopId k) :
    j = k := by
  have hdigits := String.ofList_injective h
  simp only [List.cons.injEq, and_true] at hdigits
  obtain ⟨h3, h2, h1, h0⟩ := hdigits
  have heq3 := Text.digitChar_injective (by omega) (by omega) h3
  have heq2 := Text.digitChar_injective (by omega) (by omega) h2
  have heq1 := Text.digitChar_injective (by omega) (by omega) h1
  have heq0 := Text.digitChar_injective (by omega) (by omega) h0
  omega

theorem isId_stopId (k : Nat) : isId (stopId k) = true := by
  have hdigit : ∀ d : Nat, d < 10 → isIdChar d.digitChar = true := by decide
  have h3 := hdigit (k / 1000 % 10) (by omega)
  have h2 := hdigit (k / 100 % 10) (by omega)
  have h1 := hdigit (k / 10 % 10) (by omega)
  have h0 := hdigit (k % 10) (by omega)
  simp [isId, stopId, h3, h2, h1, h0]

theorem ne_stopId {v : String} (h : v.length ≠ 4) (k : Nat) : v ≠ stopId k := by
  intro heq
  rw [heq, stopId, String.length_ofList] at h
  exact h rfl

theorem plain_distinct : (Command.names ++ ([] : List (String × Json)).map (·.1)).Nodup := by decide

def stopCall (k : Nat) : Call where
  actor := { id := "owner", role := .owner }
  command := { id := stopId k, expectedRevision := k + 1, body := .stop, metadata := []
               distinct := plain_distinct }
  policy := none

def lateRequest : Call where
  actor := { id := "owner", role := .owner }
  command := { id := "request-1", expectedRevision := 10000, body := .requestWithdrawal "1"
               metadata := [], distinct := plain_distinct }
  policy := none

/-- A vault with one unit at rest, after its deposit and `n` stops. -/
structure AtRest (n : Nat) (s : VaultState) : Prop where
  reachable : Reachable compare s
  revision : s.revision = n + 1
  ownerId : s.ownerId = "owner"
  passLock : s.passLock = some { openLock with principal := 1 }
  stopped : s.status = .stopped
  idle : s.idle = 1
  flat : flat s
  fresh : ∀ k, n ≤ k → k < 10000 → s.receipts.get? (stopId k) = none
  unasked : s.receipts.get? "request-1" = none

theorem atRest_zero : AtRest 0 (exec (step compare) firstVault.state [firstDeposit]) where
  reachable := ⟨firstInput, _, [firstDeposit], firstVault.created, rfl⟩
  revision := rfl
  ownerId := rfl
  passLock := rfl
  stopped := rfl
  idle := rfl
  flat := ⟨rfl, rfl, rfl⟩
  fresh := fun k _ _ => if_neg (ne_stopId (by decide) k)
  unasked := rfl

theorem atRest_succ {n : Nat} (hn : n < 9999) {s : VaultState} (h : AtRest n s) :
    AtRest (n + 1) (apply (step compare) s (stopCall n)) := by
  obtain ⟨input, start, calls, hcreated, hs⟩ := h.reachable
  have hstep : step compare (stopCall n) s = .ok (record s (stopId n)
      (fingerprint compare (stopCall n).actor (stopCall n).command none) (.command .stop) "owner") :=
    stop_accepted h.reachable.covers.1 h.passLock rfl h.flat h.stopped ⟨rfl, h.ownerId.symm⟩ rfl
      (isId_stopId n) (h.fresh n (Nat.le_refl n) (by omega)) (by rw [h.revision]; rfl)
      (by rw [h.revision]; omega)
  rw [apply_ok hstep]
  refine ⟨⟨input, start, calls ++ [stopCall n], hcreated, ?_⟩, ?_, h.ownerId, h.passLock, h.stopped,
    h.idle, h.flat, fun k hle hlt => ?_, ?_⟩
  · rw [exec_append, ← hs, exec_cons, apply_ok hstep]
    rfl
  · show s.revision + 1 = n + 1 + 1
    rw [h.revision]
  · refine (OrderedMap.get?_set_of_ne (fun heq => ?_) _ _).trans (h.fresh k (by omega) hlt)
    have hsame := stopId_injective hlt (by omega) heq
    omega
  · exact (OrderedMap.get?_set_of_ne (ne_stopId (by decide) n) _ _).trans h.unasked

theorem atRest {n : Nat} (hn : n ≤ 9999) :
    AtRest n (exec (step compare) firstVault.state
      (firstDeposit :: (List.range n).map stopCall)) := by
  induction n with
  | zero => exact atRest_zero
  | succ n ih =>
      rw [List.range_succ, List.map_append, ← List.cons_append, exec_append]
      exact atRest_succ (by omega) (ih (by omega))

def fullHistory : VaultState :=
  exec (step compare) firstVault.state (firstDeposit :: (List.range 9999).map stopCall)

theorem full_history_refuses :
    Reachable compare fullHistory ∧ fullHistory.passLock = some { openLock with principal := 1 } ∧
      (lateRequest.actor.role = .owner ∧ lateRequest.actor.id = fullHistory.ownerId) ∧
      isId lateRequest.command.id = true ∧
      fullHistory.receipts.get? lateRequest.command.id = none ∧
      lateRequest.command.expectedRevision = fullHistory.revision ∧
      ∃ a, passAccounting fullHistory { openLock with principal := 1 } = .ok a ∧
        ¬ ((∃ next, step compare lateRequest fullHistory = .ok next) ↔
          ∃ amount, unsignedText "1" = .ok amount ∧ 0 < amount ∧ amount ≤ a.withdrawable) := by
  have h : AtRest 9999 fullHistory := atRest (Nat.le_refl 9999)
  have hreached := h.reachable.covers.1
  obtain ⟨a, haccount, hlimit, _⟩ := passAccounting_ok hreached h.passLock rfl
  refine ⟨h.reachable, h.passLock, ⟨rfl, h.ownerId.symm⟩, by decide, h.unasked, ?_, a, haccount, ?_⟩
  · rw [h.revision]
    rfl
  · intro hclaim
    have hquiet : exposed fullHistory ≠ true := fun hexposed =>
      (exposed_iff hreached.toLedger).mp hexposed h.flat
    have hwithin : 1 ≤ a.withdrawable := by
      rw [hlimit, limitOf, if_neg hquiet, h.idle]
    obtain ⟨next, hstep⟩ := hclaim.mpr ⟨1, rfl, by decide, hwithin⟩
    obtain ⟨_, _, _, ⟨_, hprevious, _⟩ | ⟨_, hprepare, _⟩⟩ := execute_eq_ok hstep
    · have hnone : fullHistory.receipts.get? lateRequest.command.id = none := h.unasked
      rw [hnone] at hprevious
      cases hprevious
    · have hroom := (prepare_eq_ok hprepare).1
      rw [h.revision] at hroom
      exact absurd hroom (by decide)

def firstRequest : Command where
  id := "request-1"
  expectedRevision := 1
  body := .requestWithdrawal "1"
  metadata := []
  distinct := plain_distinct

theorem first_request_accepted :
    ∃ a, passAccounting (exec (step compare) firstVault.state [firstDeposit])
        { openLock with principal := 1 } = .ok a ∧
      ((∃ next, step compare ⟨firstDeposit.actor, firstRequest, none⟩
          (exec (step compare) firstVault.state [firstDeposit]) = .ok next) ↔
        isId firstRequest.id = true ∧
          (exec (step compare) firstVault.state [firstDeposit]).revision < 10000 ∧
          ∃ amount, unsignedText "1" = .ok amount ∧ 0 < amount ∧ amount ≤ a.withdrawable) :=
  let ⟨a, haccount, haccepted, _⟩ := request_accepted_in_every_run atRest_zero.reachable
    atRest_zero.passLock rfl ⟨rfl, rfl⟩ rfl rfl rfl none
  ⟨a, haccount, haccepted⟩

end DomainVault
end AlphaForge
