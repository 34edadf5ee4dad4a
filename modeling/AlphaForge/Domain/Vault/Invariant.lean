/-
The guards of the vault's commands keep its invariant.

What `assertInvariant` asks for is that the books are `Consistent` and that no amount
is out of range.  Every command that passes its own guards leaves the books
consistent, so the closing assertion refuses it only for an amount that is too large.
-/
import AlphaForge.Domain.Vault
import AlphaForge.Machine.Run
import Mathlib.Algebra.Order.BigOperators.Group.List
import Mathlib.Algebra.Order.Group.Int

namespace AlphaForge
namespace DomainVault

open Evm

/-! ## What the assertion says -/

/-- The parts of pending withdrawals in a lock's books. -/
structure LockConsistent (s : VaultState) (lock : PassLock) : Prop where
  version : lock.version = 1
  nonneg : 0 ≤ lock.principal
  capacity : lock.principal ≤ s.passes * 1000000
  length : lock.withdrawals.length = s.pendingWithdrawals.length
  parts : ∀ e ∈ lock.withdrawals, 0 ≤ e.2.profit ∧ 0 ≤ e.2.principal ∧
    s.pendingWithdrawals.get? e.1 = some (e.2.profit + e.2.principal)
  reserved : lock.reservedPrincipal ≤ lock.principal
  closed : lock.closed = true → lock.principal = 0 ∧ s.status = .stopped ∧ s.idle = 0 ∧
    s.activeCash = 0 ∧ flat s ∧ s.feeLiability = 0 ∧ s.pendingWithdrawals = []

/-- The balances, without regard to their size. -/
structure Ledger (s : VaultState) : Prop where
  nonneg : ∀ amount ∈ amounts s, 0 ≤ amount
  orders : ∀ e ∈ s.orders, isId e.1 = true ∧ 0 < e.2
  pending : ∀ e ∈ s.pendingWithdrawals, isId e.1 = true ∧ 0 < e.2
  funded : s.feeLiability ≤ s.activeCash
  fees : s.feesAccrued = s.feesPaid + s.feeLiability
  equity : (balances s).equity =
    s.deposits - s.withdrawalsPaid + s.realizedPnl + (balances s).unrealized - s.feesAccrued

structure Consistent (s : VaultState) : Prop extends Ledger s where
  scope : s.scope = "TEST_ONLY" ∧ s.schemaVersion = 1
  ids : ∀ id ∈ [s.id, s.ownerId, s.executorId, s.strategyId], isId id = true
  revision : (s.revision : Int) ≤ maxSafeInteger
  activeNet : 0 ≤ (balances s).activeNet
  lock : ∀ lock, s.passLock = some lock → LockConsistent s lock
  history : historyMatches s

/-- The amounts that a lock brings into the books. -/
def lockAmounts (s : VaultState) : List Int :=
  match s.passLock with
  | none => []
  | some lock => s.passes * 1000000 * 1000000000000 :: lock.principal ::
      lock.withdrawals.flatMap (fun e => [e.2.profit, e.2.principal])

/-- Every amount that the assertion looks at. -/
def allAmounts (s : VaultState) : List Int :=
  amounts s ++ s.realizedPnl :: s.passes * 1000000 :: s.orders.map (·.2) ++
    s.pendingWithdrawals.map (·.2) ++ lockAmounts s

/-- No amount is out of range. -/
def Bounded (s : VaultState) : Prop :=
  ∀ amount ∈ allAmounts s, -maxInteger ≤ amount ∧ amount ≤ maxInteger

theorem unsigned_eq_ok {value r : Int} :
    unsigned value = .ok r ↔ (0 ≤ value ∧ value ≤ maxInteger) ∧ value = r := by
  have hmax : maxInteger < 10 ^ 78 := by decide
  simp only [unsigned, bind_eq_ok, ensure_eq_ok, pure_eq_ok, exists_and_left, exists_const]
  constructor
  · rintro ⟨⟨hnonneg, _⟩, hle, heq⟩
    exact ⟨⟨hnonneg, hle⟩, heq⟩
  · rintro ⟨⟨hnonneg, hle⟩, heq⟩
    exact ⟨⟨hnonneg, by omega⟩, hle, heq⟩

theorem signed_eq_ok {value r : Int} :
    signed value = .ok r ↔ (-maxInteger ≤ value ∧ value ≤ maxInteger) ∧ value = r := by
  have hmax : maxInteger < 10 ^ 78 := by decide
  simp only [signed, bind_eq_ok, ensure_eq_ok, pure_eq_ok, exists_and_left, exists_const]
  constructor
  · rintro ⟨_, ⟨hle, hge⟩, heq⟩
    exact ⟨⟨hge, hle⟩, heq⟩
  · rintro ⟨⟨hge, hle⟩, heq⟩
    exact ⟨⟨by omega, by omega⟩, ⟨hle, hge⟩, heq⟩

theorem unsignedText_nonneg {text : String} {r : Int} (h : unsignedText text = .ok r) : 0 ≤ r := by
  simp only [unsignedText, bind_eq_ok, ensure_eq_ok, pure_eq_ok] at h
  obtain ⟨_, _, _, _, rfl⟩ := h
  exact Int.natCast_nonneg _

theorem capacityToPassRaw_eq_ok {value r : Int} :
    capacityToPassRaw value = .ok r ↔
      (0 ≤ value ∧ value * 1000000000000 ≤ maxInteger) ∧ value * 1000000000000 = r := by
  simp only [capacityToPassRaw, bind_eq_ok, unsigned_eq_ok, ensure_eq_ok, pure_eq_ok]
  constructor
  · rintro ⟨_, ⟨⟨hnonneg, _⟩, rfl⟩, _, hle, heq⟩
    exact ⟨⟨hnonneg, by omega⟩, heq⟩
  · rintro ⟨⟨hnonneg, hle⟩, heq⟩
    exact ⟨value, ⟨⟨hnonneg, by omega⟩, rfl⟩, (), by omega, heq⟩

theorem discard_eq_ok {α : Type} {x : Except String α} {u : Unit} :
    discard x = .ok u ↔ ∃ a, x = .ok a := by
  cases x with
  | ok a => exact ⟨fun _ => ⟨a, rfl⟩, fun _ => rfl⟩
  | error e =>
      constructor
      · intro h
        cases h
      · rintro ⟨a, h⟩
        cases h

theorem assertReservation_eq_ok {e : String × Int} :
    assertReservation e = .ok () ↔ (isId e.1 = true ∧ 0 < e.2) ∧ e.2 ≤ maxInteger := by
  simp only [assertReservation, validId, bind_eq_ok, ensure_eq_ok, unsigned_eq_ok]
  constructor
  · rintro ⟨_, hid, _, ⟨⟨_, hle⟩, rfl⟩, hpos⟩
    exact ⟨⟨hid, hpos⟩, hle⟩
  · rintro ⟨⟨hid, hpos⟩, hle⟩
    exact ⟨(), hid, e.2, ⟨⟨by omega, hle⟩, rfl⟩, hpos⟩

theorem assertPart_eq_ok {s : VaultState} {e : String × PassPart} :
    assertPart s e = .ok () ↔ (0 ≤ e.2.profit ∧ 0 ≤ e.2.principal ∧
      s.pendingWithdrawals.get? e.1 = some (e.2.profit + e.2.principal)) ∧
      e.2.profit ≤ maxInteger ∧ e.2.principal ≤ maxInteger := by
  unfold assertPart
  cases s.pendingWithdrawals.get? e.1 with
  | none => simp
  | some pending =>
      simp only [bind_eq_ok, unsigned_eq_ok, ensure_eq_ok, Option.some.injEq]
      constructor
      · rintro ⟨_, ⟨⟨hprofit, hprofit'⟩, rfl⟩, _, ⟨⟨hprincipal, hprincipal'⟩, rfl⟩, hsum⟩
        exact ⟨⟨hprofit, hprincipal, hsum.symm⟩, hprofit', hprincipal'⟩
      · rintro ⟨⟨hprofit, hprincipal, hsum⟩, hprofit', hprincipal'⟩
        exact ⟨_, ⟨⟨hprofit, hprofit'⟩, rfl⟩, _, ⟨⟨hprincipal, hprincipal'⟩, rfl⟩, hsum.symm⟩

theorem assertLock_eq_ok {s : VaultState} {lock : PassLock} (hpasses : 0 ≤ s.passes) :
    assertLock s lock = .ok () ↔ LockConsistent s lock ∧
      s.passes * 1000000 * 1000000000000 ≤ maxInteger ∧ lock.principal ≤ maxInteger ∧
      ∀ e ∈ lock.withdrawals, e.2.profit ≤ maxInteger ∧ e.2.principal ≤ maxInteger := by
  simp only [assertLock, bind_eq_ok, capacityToPassRaw_eq_ok, ensure_eq_ok, unsigned_eq_ok,
    forM_eq_ok, assertPart_eq_ok]
  constructor
  · rintro ⟨_, ⟨⟨_, hraw⟩, _⟩, _, hversion, _, ⟨⟨hnonneg, hle⟩, rfl⟩, _, hcapacity, _, hlength, _,
      hparts, _, hreserved, hclosed⟩
    exact ⟨⟨hversion, hnonneg, hcapacity, hlength, fun e he => (hparts e he).1, hreserved, hclosed⟩,
      hraw, hle, fun e he => (hparts e he).2⟩
  · rintro ⟨hlock, hraw, hle, hparts⟩
    exact ⟨_, ⟨⟨by omega, hraw⟩, rfl⟩, (), hlock.version, _, ⟨⟨hlock.nonneg, hle⟩, rfl⟩, (),
      hlock.capacity, (), hlock.length, (), fun e he => ⟨hlock.parts e he, hparts e he⟩, (),
      hlock.reserved, hlock.closed⟩

theorem bounded_iff {s : VaultState} :
    Bounded s ↔ (∀ amount ∈ amounts s, -maxInteger ≤ amount ∧ amount ≤ maxInteger) ∧
      (-maxInteger ≤ s.realizedPnl ∧ s.realizedPnl ≤ maxInteger) ∧
      (-maxInteger ≤ s.passes * 1000000 ∧ s.passes * 1000000 ≤ maxInteger) ∧
      (∀ e ∈ s.orders, -maxInteger ≤ e.2 ∧ e.2 ≤ maxInteger) ∧
      (∀ e ∈ s.pendingWithdrawals, -maxInteger ≤ e.2 ∧ e.2 ≤ maxInteger) ∧
      ∀ amount ∈ lockAmounts s, -maxInteger ≤ amount ∧ amount ≤ maxInteger := by
  simp only [Bounded, allAmounts, List.forall_mem_append, List.forall_mem_cons, List.forall_mem_map,
    and_assoc]

theorem assertPassLock_eq_ok {s : VaultState} (hpasses : 0 ≤ s.passes) :
    assertPassLock s = .ok () ↔ (∀ lock, s.passLock = some lock → LockConsistent s lock) ∧
      ∀ amount ∈ lockAmounts s, -maxInteger ≤ amount ∧ amount ≤ maxInteger := by
  have hmax : (0 : Int) ≤ maxInteger := by decide
  unfold assertPassLock lockAmounts
  cases s.passLock with
  | none => simp
  | some lock =>
      simp only [assertLock_eq_ok hpasses, Option.some.injEq, forall_eq', List.forall_mem_cons,
        List.forall_mem_flatMap, List.not_mem_nil, IsEmpty.forall_iff, implies_true, and_true]
      refine and_congr_right fun hlock => ?_
      have hnonneg := hlock.nonneg
      constructor
      · rintro ⟨hraw, hle, hparts⟩
        refine ⟨⟨by omega, hraw⟩, ⟨by omega, hle⟩, fun e he => ?_⟩
        obtain ⟨hprofit, hprincipal, _⟩ := hlock.parts e he
        exact ⟨⟨by omega, (hparts e he).1⟩, ⟨by omega, (hparts e he).2⟩⟩
      · rintro ⟨⟨_, hraw⟩, ⟨_, hle⟩, hparts⟩
        exact ⟨hraw, hle, fun e he => ⟨(hparts e he).1.2, (hparts e he).2.2⟩⟩

theorem passes_mem (s : VaultState) : s.passes ∈ amounts s := List.mem_cons_self

/-- What the assertion asks for. -/
theorem assertInvariant_eq_ok {s : VaultState} :
    assertInvariant s = .ok () ↔ Consistent s ∧ Bounded s := by
  have hmax : (0 : Int) ≤ maxInteger := by decide
  rw [bounded_iff]
  simp only [assertInvariant, validId, bind_eq_ok, ensure_eq_ok, forM_eq_ok, discard_eq_ok,
    unsigned_eq_ok, signed_eq_ok, assertReservation_eq_ok]
  constructor
  · rintro ⟨_, hscope, _, hids, _, hrevision, _, hamounts, _, ⟨_, hrealized, _⟩, _, horders, _,
      hpending, _, hlock, _, ⟨_, ⟨hallowance, hallowance'⟩, _⟩, _, hnet, _, hfunded, _, hfees, _,
      hequity, hhistory⟩
    have hnonneg : ∀ amount ∈ amounts s, 0 ≤ amount ∧ amount ≤ maxInteger := fun amount h =>
      (hamounts amount h).choose_spec.1
    obtain ⟨hlock, hlocked⟩ := (assertPassLock_eq_ok (hnonneg _ (passes_mem s)).1).mp hlock
    refine ⟨{ nonneg := fun amount h => (hnonneg amount h).1, orders := fun e he => (horders e he).1,
              pending := fun e he => (hpending e he).1, funded := hfunded, fees := hfees,
              equity := hequity, scope := hscope, ids := hids, revision := hrevision,
              activeNet := hnet, lock := hlock, history := hhistory },
      fun amount h => ?_, hrealized, ⟨?_, hallowance'⟩, fun e he => ?_, fun e he => ?_, hlocked⟩
    · have := hnonneg amount h
      omega
    · have := hnonneg _ (passes_mem s)
      omega
    · have := horders e he
      omega
    · have := hpending e he
      omega
  · rintro ⟨h, hamounts, hrealized, hpasses, horders, hpending, hlock⟩
    have hpass := h.nonneg _ (passes_mem s)
    exact ⟨(), h.scope, (), h.ids, (), h.revision, (),
      fun amount ha => ⟨amount, ⟨h.nonneg amount ha, (hamounts amount ha).2⟩, rfl⟩, (),
      ⟨_, hrealized, rfl⟩, (), fun e he => ⟨h.orders e he, (horders e he).2⟩, (),
      fun e he => ⟨h.pending e he, (hpending e he).2⟩, (),
      (assertPassLock_eq_ok hpass).mpr ⟨h.lock, hlock⟩, (),
      ⟨_, ⟨by show 0 ≤ s.passes * 10 ^ 6; omega, hpasses.2⟩, rfl⟩, (), h.activeNet, (), h.funded, (),
      h.fees, (), h.equity, h.history⟩

/-! ## Sums -/

theorem sum_set {m : OrderedMap String Int} {k : String} (h : m.get? k = none) (v : Int) :
    sum (m.set k v) = sum m + v := by
  rw [OrderedMap.set_eq_append h, sum, sum, List.map_append, List.sum_append]
  simp

theorem sum_delete {m : OrderedMap String Int} (hkeys : m.keys.Nodup) {k : String} {v : Int}
    (h : m.get? k = some v) : sum m = v + sum (m.filter (fun e => e.1 ≠ k)) := by
  have hperm := ((OrderedMap.perm_delete hkeys h).map (·.2)).sum_eq
  rw [List.map_cons, List.sum_cons] at hperm
  exact hperm

theorem sum_nonneg {m : OrderedMap String Int} (h : ∀ e ∈ m, 0 < e.2) : 0 ≤ sum m := by
  refine List.sum_nonneg fun x hx => ?_
  obtain ⟨e, he, rfl⟩ := List.mem_map.mp hx
  exact Int.le_of_lt (h e he)

/-! ## Balances -/

theorem amounts_nonneg_iff {s : VaultState} : (∀ amount ∈ amounts s, 0 ≤ amount) ↔
    0 ≤ s.passes ∧ 0 ≤ s.idle ∧ 0 ≤ s.activeCash ∧ 0 ≤ s.positionCost ∧ 0 ≤ s.positionValue ∧
      0 ≤ s.feeLiability ∧ 0 ≤ s.deposits ∧ 0 ≤ s.withdrawalsPaid ∧ 0 ≤ s.feesAccrued ∧
      0 ≤ s.feesPaid := by
  simp [amounts]

/-- The equity equation, without the unrealized part that is on both sides. -/
theorem equity_iff {s : VaultState} : (balances s).equity =
      s.deposits - s.withdrawalsPaid + s.realizedPnl + (balances s).unrealized - s.feesAccrued ↔
    s.idle + s.activeCash + sum s.orders + s.positionCost - s.feeLiability +
      sum s.pendingWithdrawals = s.deposits - s.withdrawalsPaid + s.realizedPnl - s.feesAccrued := by
  simp only [balances]
  omega

theorem Ledger.activeNet {s : VaultState} (h : Ledger s) : 0 ≤ (balances s).activeNet := by
  have hsum := sum_nonneg fun e he => (h.orders e he).2
  obtain ⟨_, _, _, _, hvalue, _⟩ := amounts_nonneg_iff.mp h.nonneg
  have hfunded := h.funded
  show 0 ≤ s.activeCash + sum s.orders + s.positionValue - s.feeLiability
  omega

/-- A table of reservations after one more. -/
theorem reservations_set {m : OrderedMap String Int} (h : ∀ e ∈ m, isId e.1 = true ∧ 0 < e.2)
    {k : String} {v : Int} (hid : isId k = true) (hpos : 0 < v) :
    ∀ e ∈ m.set k v, isId e.1 = true ∧ 0 < e.2 := by
  intro e he
  rcases OrderedMap.mem_of_mem_set he with rfl | hold
  · exact ⟨hid, hpos⟩
  · exact h e hold

theorem reservations_delete {m : OrderedMap String Int} (h : ∀ e ∈ m, isId e.1 = true ∧ 0 < e.2)
    (k : String) : ∀ e ∈ m.filter (fun e => e.1 ≠ k), isId e.1 = true ∧ 0 < e.2 :=
  fun e he => h e (List.mem_of_mem_filter he)

theorem settlePosition_ledger {s next : VaultState} (h : Ledger s) {proceeds : Int}
    (hproceeds : 0 ≤ proceeds) {policy : SettlementPolicy}
    (hsettle : settlePosition s proceeds policy = .ok next) : Ledger next := by
  have hnonneg := amounts_nonneg_iff.mp h.nonneg
  have hequity := equity_iff.mp h.equity
  have hfees := h.fees
  have hfunded := h.funded
  simp only [settlePosition, bind_eq_ok, unsigned_eq_ok, ensure_eq_ok, pure_eq_ok] at hsettle
  obtain ⟨fee, ⟨⟨hfee, _⟩, hassess⟩, excess, ⟨⟨hexcess, _⟩, hassess'⟩, _, hlimit, _, hroom, rfl⟩ :=
    hsettle
  rw [hassess] at hfee
  rw [hassess'] at hexcess
  have hgain : fee ≤ proceeds := by
    refine Int.le_trans hlimit ?_
    split <;> omega
  refine ⟨amounts_nonneg_iff.mpr ?_, h.orders, h.pending, ?_, ?_, equity_iff.mpr ?_⟩
  · simp only
    omega
  · simp only
    omega
  · simp only
    omega
  · simp only
    omega

/-! ## What a command moves -/

/-- The fields that no command touches before its receipt is written. -/
structure Frame (s next : VaultState) : Prop where
  scope : next.scope = s.scope
  schemaVersion : next.schemaVersion = s.schemaVersion
  id : next.id = s.id
  ownerId : next.ownerId = s.ownerId
  executorId : next.executorId = s.executorId
  strategyId : next.strategyId = s.strategyId
  passes : next.passes = s.passes
  passLock : next.passLock = s.passLock
  revision : next.revision = s.revision
  receipts : next.receipts = s.receipts
  events : next.events = s.events

def depositsAfter (s : VaultState) (command : Command) (amount : Int) : Int :=
  match command.body with
  | .deposit _ => s.deposits + amount
  | _ => s.deposits

def owed (s : VaultState) (withdrawalId : String) : Int :=
  (s.pendingWithdrawals.get? withdrawalId).getD 0

def paidAfter (s : VaultState) (command : Command) : Int :=
  match command.body with
  | .confirmWithdrawal withdrawalId => s.withdrawalsPaid + owed s withdrawalId
  | .closeVault => s.withdrawalsPaid + s.idle + s.activeCash
  | _ => s.withdrawalsPaid

def pendingAfter (s : VaultState) (command : Command) (amount : Int) : OrderedMap String Int :=
  match command.body with
  | .requestWithdrawal _ => s.pendingWithdrawals.set command.id amount
  | .confirmWithdrawal withdrawalId | .cancelWithdrawal withdrawalId =>
      s.pendingWithdrawals.filter (fun e => e.1 ≠ withdrawalId)
  | _ => s.pendingWithdrawals

def ordersAfter (s : VaultState) (command : Command) (amount : Int) : OrderedMap String Int :=
  match command.body with
  | .reserveBuy orderId _ => s.orders.set orderId amount
  | .cancelOrder orderId | .fillBuy orderId => s.orders.filter (fun e => e.1 ≠ orderId)
  | _ => s.orders

/-- The books that a command leaves, apart from the balances. -/
structure Moved (s : VaultState) (command : Command) (amount : Int) (next : VaultState) : Prop
    extends Frame s next where
  deposits : next.deposits = depositsAfter s command amount
  paid : next.withdrawalsPaid = paidAfter s command
  pending : next.pendingWithdrawals = pendingAfter s command amount
  orders : next.orders = ordersAfter s command amount

theorem settlePosition_moved {s next : VaultState} {command : Command} {amount proceeds : Int}
    {policy : SettlementPolicy} {text : String} (hbody : command.body = .settlePosition text)
    (hsettle : settlePosition s proceeds policy = .ok next) : Moved s command amount next := by
  simp only [settlePosition, bind_eq_ok, ensure_eq_ok, pure_eq_ok] at hsettle
  obtain ⟨_, _, _, _, _, _, _, _, rfl⟩ := hsettle
  constructor
  · constructor <;> rfl
  all_goals simp only [depositsAfter, paidAfter, pendingAfter, ordersAfter, hbody]

theorem applyBody_moved {s next : VaultState} {command : Command} {amount : Int}
    {policy : Option SettlementPolicy} (h : applyBody s command amount policy = .ok next) :
    Moved s command amount next := by
  unfold applyBody at h
  cases hbody : command.body with
  | settlePosition proceeds =>
      simp only [hbody, bind_eq_ok] at h
      obtain ⟨_, _, _, _, h⟩ := h
      cases policy with
      | none => cases h
      | some policy =>
          simp only [bind_eq_ok] at h
          obtain ⟨_, _, _, _, proceeds, _, h⟩ := h
          exact settlePosition_moved hbody h
  | confirmWithdrawal withdrawalId | cancelWithdrawal withdrawalId | cancelOrder orderId
  | fillBuy orderId =>
      simp only [hbody, bind_eq_ok] at h
      obtain ⟨_, _, h⟩ := h
      split at h
      · cases h
      next hget =>
        cases h
        constructor
        · constructor <;> rfl
        all_goals simp only [depositsAfter, paidAfter, pendingAfter, ordersAfter, hbody, owed, hget,
          Option.getD_some]
  | enablePassLocking | closeVault | deposit text | stop =>
      simp only [hbody, Except.ok.injEq] at h
      subst h
      constructor
      · constructor <;> rfl
      all_goals simp only [depositsAfter, paidAfter, pendingAfter, ordersAfter, hbody]
  | allocate text | start | markPosition value =>
      simp only [hbody, bind_eq_ok, pure_eq_ok] at h
      obtain ⟨_, _, _, _, rfl⟩ := h
      constructor
      · constructor <;> rfl
      all_goals simp only [depositsAfter, paidAfter, pendingAfter, ordersAfter, hbody]
  | deallocate text | requestWithdrawal text | payFees text =>
      simp only [hbody, bind_eq_ok, pure_eq_ok] at h
      obtain ⟨_, _, rfl⟩ := h
      constructor
      · constructor <;> rfl
      all_goals simp only [depositsAfter, paidAfter, pendingAfter, ordersAfter, hbody]
  | reserveBuy orderId text =>
      simp only [hbody, bind_eq_ok, pure_eq_ok] at h
      obtain ⟨_, _, _, _, _, _, _, _, rfl⟩ := h
      constructor
      · constructor <;> rfl
      all_goals simp only [depositsAfter, paidAfter, pendingAfter, ordersAfter, hbody]

/-! ## Balances after a command -/

/-- The records of the books have one row for a key, and a withdrawal is under the id of
the command that asked for it. -/
structure Tables (s : VaultState) : Prop where
  orderKeys : s.orders.keys.Nodup
  pendingKeys : s.pendingWithdrawals.keys.Nodup
  receipts : s.receipts.keys.Nodup
  parts : ∀ lock, s.passLock = some lock → lock.withdrawals.keys.Nodup
  requested : ∀ id, s.receipts.get? id = none → s.pendingWithdrawals.get? id = none

theorem commandAmount_pos {command : Command} {amount : Int} {text : String}
    (h : commandAmount command = .ok amount) (htext : command.body.amount = some text) :
    0 < amount ∧ unsignedText text = .ok amount := by
  simp only [commandAmount, htext, bind_eq_ok, ensure_eq_ok, pure_eq_ok] at h
  obtain ⟨_, hamount, _, hpos, rfl⟩ := h
  exact ⟨hpos, hamount⟩

theorem applyBody_ledger {s next : VaultState} {command : Command} {amount : Int}
    {policy : Option SettlementPolicy} (h : Ledger s) (horders : s.orders.keys.Nodup)
    (hpending : s.pendingWithdrawals.keys.Nodup) (hid : isId command.id = true) (hnew : s.pendingWithdrawals.get? command.id = none)
    (hamount : commandAmount command = .ok amount)
    (hclose : command.body = .closeVault → s.feeLiability = 0)
    (happly : applyBody s command amount policy = .ok next) : Ledger next := by
  have hnonneg := amounts_nonneg_iff.mp h.nonneg
  have hequity := equity_iff.mp h.equity
  have hfees := h.fees
  have hfunded := h.funded
  unfold applyBody at happly
  cases hbody : command.body with
  | enablePassLocking =>
      simp only [hbody, Except.ok.injEq] at happly
      rw [← happly]
      exact h
  | closeVault =>
      have hclear := hclose hbody
      simp only [hbody, Except.ok.injEq] at happly
      subst happly
      refine ⟨amounts_nonneg_iff.mpr ?_, h.orders, h.pending, ?_, h.fees, equity_iff.mpr ?_⟩ <;>
        simp only <;> omega
  | deposit text =>
      have hpos := (commandAmount_pos hamount (by rw [hbody]; rfl)).1
      simp only [hbody, Except.ok.injEq] at happly
      subst happly
      refine ⟨amounts_nonneg_iff.mpr ?_, h.orders, h.pending, h.funded, h.fees, equity_iff.mpr ?_⟩ <;>
        simp only <;> omega
  | allocate text =>
      have hpos := (commandAmount_pos hamount (by rw [hbody]; rfl)).1
      simp only [hbody, bind_eq_ok, ensure_eq_ok, pure_eq_ok] at happly
      obtain ⟨_, hidle, _, _, rfl⟩ := happly
      refine ⟨amounts_nonneg_iff.mpr ?_, h.orders, h.pending, ?_, h.fees, equity_iff.mpr ?_⟩ <;>
        simp only <;> omega
  | deallocate text =>
      have hpos := (commandAmount_pos hamount (by rw [hbody]; rfl)).1
      simp only [hbody, bind_eq_ok, ensure_eq_ok, pure_eq_ok] at happly
      obtain ⟨_, hcash, rfl⟩ := happly
      refine ⟨amounts_nonneg_iff.mpr ?_, h.orders, h.pending, ?_, h.fees, equity_iff.mpr ?_⟩ <;>
        simp only <;> omega
  | requestWithdrawal text =>
      have hpos := (commandAmount_pos hamount (by rw [hbody]; rfl)).1
      simp only [hbody, bind_eq_ok, ensure_eq_ok, pure_eq_ok] at happly
      obtain ⟨_, hidle, rfl⟩ := happly
      have hsum := sum_set hnew amount
      refine ⟨amounts_nonneg_iff.mpr ?_, h.orders, reservations_set h.pending hid hpos, h.funded,
        h.fees, equity_iff.mpr ?_⟩ <;> simp only <;> omega
  | confirmWithdrawal withdrawalId | cancelWithdrawal withdrawalId =>
      simp only [hbody, bind_eq_ok] at happly
      obtain ⟨_, _, happly⟩ := happly
      split at happly
      · cases happly
      next owed hget =>
        have hpos := (h.pending _ (OrderedMap.mem_of_get? hget)).2
        have hsum := sum_delete hpending hget
        cases happly
        refine ⟨amounts_nonneg_iff.mpr ?_, h.orders, reservations_delete h.pending _, h.funded,
          h.fees, equity_iff.mpr ?_⟩ <;> simp only at hpos ⊢ <;> omega
  | start =>
      simp only [hbody, bind_eq_ok, pure_eq_ok] at happly
      obtain ⟨_, _, _, _, rfl⟩ := happly
      exact ⟨h.nonneg, h.orders, h.pending, h.funded, h.fees, h.equity⟩
  | stop =>
      simp only [hbody, Except.ok.injEq] at happly
      subst happly
      exact ⟨h.nonneg, h.orders, h.pending, h.funded, h.fees, h.equity⟩
  | reserveBuy orderId text =>
      have hpos := (commandAmount_pos hamount (by rw [hbody]; rfl)).1
      simp only [hbody, bind_eq_ok, ensure_eq_ok, validId, pure_eq_ok] at happly
      obtain ⟨_, horder, _, _, _, hfree, _, hcash, rfl⟩ := happly
      have hsum := sum_set hfree amount
      refine ⟨amounts_nonneg_iff.mpr ?_, reservations_set h.orders horder hpos, h.pending, ?_, h.fees,
        equity_iff.mpr ?_⟩ <;> simp only <;> omega
  | cancelOrder orderId | fillBuy orderId =>
      simp only [hbody, bind_eq_ok] at happly
      obtain ⟨_, _, happly⟩ := happly
      split at happly
      · cases happly
      next reserved hget =>
        have hpos := (h.orders _ (OrderedMap.mem_of_get? hget)).2
        have hsum := sum_delete horders hget
        cases happly
        refine ⟨amounts_nonneg_iff.mpr ?_, reservations_delete h.orders _, h.pending, ?_, h.fees,
          equity_iff.mpr ?_⟩ <;> simp only at hpos ⊢ <;> omega
  | markPosition value =>
      simp only [hbody, bind_eq_ok, pure_eq_ok] at happly
      obtain ⟨_, _, amount, hvalue, rfl⟩ := happly
      have hamount := unsignedText_nonneg hvalue
      refine ⟨amounts_nonneg_iff.mpr ?_, h.orders, h.pending, h.funded, h.fees, equity_iff.mpr ?_⟩ <;>
        simp only <;> omega
  | settlePosition proceeds =>
      simp only [hbody, bind_eq_ok] at happly
      obtain ⟨_, _, _, _, happly⟩ := happly
      cases policy with
      | none => cases happly
      | some policy =>
          simp only [bind_eq_ok] at happly
          obtain ⟨_, _, _, _, proceeds, hproceeds, hsettle⟩ := happly
          exact settlePosition_ledger h (unsignedText_nonneg hproceeds) hsettle
  | payFees text =>
      have hpos := (commandAmount_pos hamount (by rw [hbody]; rfl)).1
      simp only [hbody, bind_eq_ok, ensure_eq_ok, pure_eq_ok] at happly
      obtain ⟨_, hliability, rfl⟩ := happly
      refine ⟨amounts_nonneg_iff.mpr ?_, h.orders, h.pending, ?_, ?_, equity_iff.mpr ?_⟩ <;>
        simp only <;> omega

/-! ## The lock after a command -/

def principals (withdrawals : OrderedMap String PassPart) : Int :=
  (withdrawals.map (·.2.principal)).sum

theorem principals_set {m : OrderedMap String PassPart} {k : String} (h : m.get? k = none)
    (part : PassPart) : principals (m.set k part) = principals m + part.principal := by
  rw [OrderedMap.set_eq_append h, principals, principals, List.map_append, List.sum_append]
  simp

theorem principals_delete {m : OrderedMap String PassPart} (hkeys : m.keys.Nodup) {k : String}
    {part : PassPart} (h : m.get? k = some part) :
    principals m = part.principal + principals (m.filter (fun e => e.1 ≠ k)) := by
  have hperm := ((OrderedMap.perm_delete hkeys h).map (·.2.principal)).sum_eq
  rw [List.map_cons, List.sum_cons] at hperm
  exact hperm

theorem length_delete {ν : Type} {m : OrderedMap String ν} (hkeys : m.keys.Nodup) {k : String}
    {v : ν} (h : m.get? k = some v) : m.length = (m.filter (fun e => e.1 ≠ k)).length + 1 :=
  (OrderedMap.perm_delete hkeys h).length_eq

/-- The lock names the withdrawals that are pending. -/
theorem LockConsistent.get?_eq_none {s : VaultState} {lock : PassLock} (h : LockConsistent s lock)
    {id : String} (hnone : s.pendingWithdrawals.get? id = none) :
    lock.withdrawals.get? id = none := by
  cases hget : lock.withdrawals.get? id with
  | none => rfl
  | some part =>
      have hpart := (h.parts _ (OrderedMap.mem_of_get? hget)).2.2
      rw [hnone] at hpart
      cases hpart

theorem passAccounting_eq_ok {s : VaultState} {lock : PassLock} {a : PassAccounting}
    (h : passAccounting s lock = .ok a) :
    a.freePassRaw = (s.passes * 1000000 - lock.principal) * 1000000000000 ∧
      0 ≤ a.availableProfit ∧ a.reservedPrincipal = principals lock.withdrawals := by
  simp only [passAccounting, bind_eq_ok, capacityToPassRaw_eq_ok, pure_eq_ok] at h
  obtain ⟨_, _, _, _, _, ⟨_, rfl⟩, rfl⟩ := h
  refine ⟨rfl, ?_, rfl⟩
  simp only
  split <;> omega

/-- A lock whose withdrawals are as they were. -/
theorem LockConsistent.keep {s next : VaultState} {lock lock' : PassLock} (h : LockConsistent s lock)
    (hpasses : next.passes = s.passes) (hpending : next.pendingWithdrawals = s.pendingWithdrawals)
    (hversion : lock'.version = lock.version) (hwithdrawals : lock'.withdrawals = lock.withdrawals)
    (hle : lock.principal ≤ lock'.principal) (hcap : lock'.principal ≤ s.passes * 1000000)
    (hopen : lock'.closed = false) : LockConsistent next lock' := by
  have hnonneg := h.nonneg
  have hreserved := h.reserved
  refine ⟨hversion.trans h.version, by omega, by rw [hpasses]; exact hcap, ?_, ?_, ?_, ?_⟩
  · rw [hwithdrawals, hpending]
    exact h.length
  · rw [hwithdrawals, hpending]
    exact h.parts
  · show principals lock'.withdrawals ≤ _
    rw [hwithdrawals]
    exact Int.le_trans hreserved hle
  · rw [hopen]
    intro hfalse
    cases hfalse

theorem LockConsistent.request {s next : VaultState} {lock : PassLock} (h : LockConsistent s lock)
    (hpasses : next.passes = s.passes) {id : String} {part : PassPart}
    (hnew : s.pendingWithdrawals.get? id = none)
    (hpending : next.pendingWithdrawals =
      s.pendingWithdrawals.set id (part.profit + part.principal))
    (hprofit : 0 ≤ part.profit) (hprincipal : 0 ≤ part.principal)
    (hroom : part.principal ≤ lock.principal - principals lock.withdrawals)
    (hopen : lock.closed = false) :
    LockConsistent next { lock with withdrawals := lock.withdrawals.set id part } := by
  have hlocked := h.get?_eq_none hnew
  refine ⟨h.version, h.nonneg, by rw [hpasses]; exact h.capacity, ?_, ?_, ?_, ?_⟩
  · show (lock.withdrawals.set id part).length = _
    rw [hpending, OrderedMap.set_eq_append hlocked, OrderedMap.set_eq_append hnew,
      List.length_append, List.length_append, h.length]
    rfl
  · intro e he
    rw [hpending]
    rcases OrderedMap.mem_of_mem_set he with rfl | hold
    · exact ⟨hprofit, hprincipal, OrderedMap.get?_set_self _ _ _⟩
    · obtain ⟨hpart, hpart', hget⟩ := h.parts e hold
      have hne : e.1 ≠ id := by
        intro heq
        rw [heq, hnew] at hget
        cases hget
      exact ⟨hpart, hpart', (OrderedMap.get?_set_of_ne hne _ _).trans hget⟩
  · show principals (lock.withdrawals.set id part) ≤ lock.principal
    rw [principals_set hlocked]
    omega
  · intro hclosed
    exact absurd (hopen.symm.trans hclosed) (by decide)

/-- A withdrawal leaves the lock, and takes at most its principal with it. -/
theorem LockConsistent.release {s next : VaultState} {lock : PassLock} (h : LockConsistent s lock)
    (ht : s.pendingWithdrawals.keys.Nodup) (hkeys : lock.withdrawals.keys.Nodup)
    (hpasses : next.passes = s.passes) {id : String} {part : PassPart}
    (hget : lock.withdrawals.get? id = some part)
    (hpending : next.pendingWithdrawals = s.pendingWithdrawals.filter (fun e => e.1 ≠ id))
    {principal : Int} (hle : principal ≤ lock.principal)
    (hge : lock.principal - part.principal ≤ principal) (hopen : lock.closed = false) :
    LockConsistent next { lock with
      principal := principal, withdrawals := lock.withdrawals.filter (fun e => e.1 ≠ id) } := by
  obtain ⟨_, hpart, howed⟩ := h.parts _ (OrderedMap.mem_of_get? hget)
  have hreserved : principals lock.withdrawals ≤ lock.principal := h.reserved
  have hsum := principals_delete hkeys hget
  have hrest : 0 ≤ principals (lock.withdrawals.filter (fun e => e.1 ≠ id)) := by
    refine List.sum_nonneg fun x hx => ?_
    obtain ⟨e, he, rfl⟩ := List.mem_map.mp hx
    exact (h.parts e (List.mem_of_mem_filter he)).2.1
  have hcapacity := h.capacity
  have hlength := h.length
  rw [length_delete hkeys hget, length_delete ht howed] at hlength
  refine ⟨h.version, ?_, ?_, ?_, ?_, ?_, ?_⟩
  · show 0 ≤ principal
    omega
  · show principal ≤ next.passes * 1000000
    rw [hpasses]
    omega
  · rw [hpending]
    exact Nat.succ.inj hlength
  · intro e he
    obtain ⟨hold, hne⟩ := List.mem_filter.mp he
    obtain ⟨hprofit, hprincipal, hamount⟩ := h.parts e hold
    rw [hpending, OrderedMap.get?_delete_of_ne (of_decide_eq_true hne)]
    exact ⟨hprofit, hprincipal, hamount⟩
  · show principals (lock.withdrawals.filter (fun e => e.1 ≠ id)) ≤ principal
    omega
  · intro hclosed
    exact absurd (hopen.symm.trans hclosed) (by decide)

section Lock

variable {s next : VaultState} {lock lock' : PassLock} {command : Command} {amount : Int}

theorem lockCommand_consistent (h : LockConsistent s lock) (ht : Tables s)
    (hlock : s.passLock = some lock) (hnew : s.pendingWithdrawals.get? command.id = none)
    (hopen : lock.closed = false) (hamount : commandAmount command = .ok amount)
    (hclose : command.body ≠ .closeVault) (hcommand : lockCommand s lock command = .ok lock')
    (hpasses : next.passes = s.passes)
    (hpending : next.pendingWithdrawals = pendingAfter s command amount) :
    LockConsistent next lock' ∧ lock'.withdrawals.keys.Nodup := by
  have hkeys := ht.parts lock hlock
  simp only [lockCommand, bind_eq_ok] at hcommand
  obtain ⟨a, haccount, hcommand⟩ := hcommand
  obtain ⟨hfree, hprofit, hreserved⟩ := passAccounting_eq_ok haccount
  cases hbody : command.body with
  | deposit text =>
      obtain ⟨hpos, htext⟩ := commandAmount_pos hamount (by rw [hbody]; rfl)
      simp only [hbody, bind_eq_ok, passRawToCapacity, unsigned_eq_ok, ensure_eq_ok, pure_eq_ok,
        htext, Except.ok.injEq] at hcommand
      obtain ⟨_, rfl, _, ⟨_, ⟨_, rfl⟩, _, _, rfl⟩, _, ⟨_, rfl⟩, _, hroom, rfl⟩ := hcommand
      simp only [pendingAfter, hbody] at hpending
      refine ⟨h.keep hpasses hpending rfl rfl ?_ ?_ hopen, hkeys⟩ <;> simp only <;> omega
  | requestWithdrawal text =>
      obtain ⟨hpos, htext⟩ := commandAmount_pos hamount (by rw [hbody]; rfl)
      simp only [hbody, bind_eq_ok, unsigned_eq_ok, ensure_eq_ok, pure_eq_ok, htext,
        Except.ok.injEq] at hcommand
      obtain ⟨_, rfl, _, ⟨_, rfl⟩, _, ⟨_, rfl⟩, _, hroom, _, _, rfl⟩ := hcommand
      simp only [pendingAfter, hbody] at hpending
      rw [hreserved] at hroom
      refine ⟨h.request hpasses hnew ?_ ?_ ?_ hroom hopen, OrderedMap.nodup_keys_set hkeys⟩
      · rw [hpending]
        congr 1
        simp only
        omega
      · simp only
        split <;> omega
      · simp only
        split <;> omega
  | confirmWithdrawal withdrawalId =>
      simp only [hbody] at hcommand
      cases hget : lock.withdrawals.get? withdrawalId with
      | none => simp only [hget] at hcommand; cases hcommand
      | some part =>
          simp only [hget, bind_eq_ok, pure_eq_ok] at hcommand
          obtain ⟨_, _, rfl⟩ := hcommand
          simp only [pendingAfter, hbody] at hpending
          have hpart := (h.parts _ (OrderedMap.mem_of_get? hget)).2.1
          refine ⟨h.release ht.pendingKeys hkeys hpasses hget hpending ?_ ?_ hopen,
            OrderedMap.nodup_keys_filter hkeys _⟩ <;> simp only at hpart ⊢ <;> omega
  | cancelWithdrawal withdrawalId =>
      simp only [hbody] at hcommand
      cases hget : lock.withdrawals.get? withdrawalId with
      | none => simp only [hget] at hcommand; cases hcommand
      | some part =>
          simp only [hget, pure_eq_ok] at hcommand
          subst hcommand
          simp only [pendingAfter, hbody] at hpending
          have hpart := (h.parts _ (OrderedMap.mem_of_get? hget)).2.1
          refine ⟨h.release ht.pendingKeys hkeys hpasses hget hpending ?_ ?_ hopen,
            OrderedMap.nodup_keys_filter hkeys _⟩ <;> simp only at hpart ⊢ <;> omega
  | closeVault => exact absurd hbody hclose
  | _ =>
      simp only [hbody, pure_eq_ok] at hcommand
      subst hcommand
      simp only [pendingAfter, hbody] at hpending
      exact ⟨h.keep hpasses hpending rfl rfl (Int.le_refl _) h.capacity hopen, hkeys⟩

/-- What has to hold for the vault to be closed. -/
theorem lockCommand_closeVault (hbody : command.body = .closeVault)
    (hcommand : lockCommand s lock command = .ok lock') :
    (s.status = .stopped ∧ flat s ∧ s.pendingWithdrawals = [] ∧ s.feeLiability = 0) ∧
      lock' = { version := 1, principal := 0, closed := true, withdrawals := [] } := by
  simp only [lockCommand, hbody, bind_eq_ok, ensure_eq_ok, pure_eq_ok] at hcommand
  obtain ⟨_, _, _, hready, rfl⟩ := hcommand
  exact ⟨hready, rfl⟩

theorem applyPassCommand_cases {found : Option PassLock}
    (h : applyPassCommand s command = .ok found) :
    (command.body = .enablePassLocking ∧ s.passLock = none ∧
      (s.status = .stopped ∧ s.withdrawalsPaid = 0 ∧ s.pendingWithdrawals = [] ∧ flat s ∧
        s.feeLiability = 0 ∧ s.deposits ≤ (balances s).allowance) ∧
      found = some { version := 1, principal := s.deposits, closed := false, withdrawals := [] }) ∨
    (s.passLock = none ∧ command.body ≠ .enablePassLocking ∧ command.body ≠ .closeVault ∧
      found = none) ∨
    ∃ lock lock', s.passLock = some lock ∧ lock.closed = false ∧
      command.body ≠ .enablePassLocking ∧ lockCommand s lock command = .ok lock' ∧
      found = some lock' := by
  unfold applyPassCommand at h
  cases hlock : s.passLock with
  | none =>
      cases hbody : command.body with
      | enablePassLocking =>
          simp only [hbody, hlock, bind_eq_ok, ensure_eq_ok, pure_eq_ok] at h
          obtain ⟨_, hsafe, rfl⟩ := h
          exact .inl ⟨rfl, rfl, hsafe, rfl⟩
      | closeVault => simp only [hbody, hlock] at h; cases h
      | _ =>
          simp only [hbody, hlock, Except.ok.injEq] at h
          exact .inr (.inl ⟨rfl, by simp, by simp, h.symm⟩)
  | some lock =>
      cases hbody : command.body with
      | enablePassLocking => simp only [hbody, hlock] at h; cases h
      | _ =>
          simp only [hbody, hlock, bind_eq_ok, ensure_eq_ok, map_eq_ok] at h
          obtain ⟨_, hopen, lock', hcommand, hfound⟩ := h
          exact .inr (.inr ⟨lock, lock', rfl, hopen, by simp, hcommand, hfound.symm⟩)

end Lock

/-! ## A fresh command -/

section Prepare

variable {s next : VaultState} {actor : Actor} {command : Command} {policy : Option SettlementPolicy}
  {fingerprint : String}

theorem settleStatus_keeps (s : VaultState) : settleStatus s = s ∨
    settleStatus s = { s with status := .stopped } := by
  unfold settleStatus
  split
  · exact .inr rfl
  · exact .inl rfl

theorem settleStatus_ledger (h : Ledger s) : Ledger (settleStatus s) := by
  rcases settleStatus_keeps s with heq | heq <;> rw [heq]
  · exact h
  · exact ⟨h.nonneg, h.orders, h.pending, h.funded, h.fees, h.equity⟩

theorem settleStatus_lock {lock : PassLock} (h : LockConsistent s lock) :
    LockConsistent (settleStatus s) lock := by
  rcases settleStatus_keeps s with heq | heq <;> rw [heq]
  · exact h
  · refine ⟨h.version, h.nonneg, h.capacity, h.length, h.parts, h.reserved, fun hclosed => ?_⟩
    obtain ⟨hprincipal, _, hrest⟩ := h.closed hclosed
    exact ⟨hprincipal, rfl, hrest⟩

/-- One more entry in the history. -/
structure Recorded (s : VaultState) (id fingerprint : String) (next : VaultState) : Prop where
  revision : next.revision = s.revision + 1
  receipts : next.receipts = s.receipts.set id { fingerprint, revision := s.revision + 1 }
  events : ∃ event : Event, event.revision = s.revision + 1 ∧ event.commandId = id ∧
    next.events = s.events ++ [event]

/-- The books that a fresh command leaves, apart from the balances. -/
structure Settled (s : VaultState) (command : Command) (amount : Int) (lock : Option PassLock)
    (fingerprint : String) (next : VaultState) : Prop extends
    Recorded s command.id fingerprint next where
  scope : next.scope = s.scope
  schemaVersion : next.schemaVersion = s.schemaVersion
  id : next.id = s.id
  ownerId : next.ownerId = s.ownerId
  executorId : next.executorId = s.executorId
  strategyId : next.strategyId = s.strategyId
  passes : next.passes = s.passes
  passLock : next.passLock = lock
  deposits : next.deposits = depositsAfter s command amount
  paid : next.withdrawalsPaid = paidAfter s command
  pending : next.pendingWithdrawals = pendingAfter s command amount
  orders : next.orders = ordersAfter s command amount

theorem Moved.settled {lock : Option PassLock} {amount : Int} {mid : VaultState}
    (h : Moved { s with passLock := lock } command amount mid) (type : EventType) (actorId : String) :
    Settled s command amount lock fingerprint
      (record (settleStatus mid) command.id fingerprint type actorId) := by
  obtain ⟨status, hstatus⟩ : ∃ status, settleStatus mid = { mid with status := status } := by
    rcases settleStatus_keeps mid with heq | heq
    · exact ⟨mid.status, heq⟩
    · exact ⟨.stopped, heq⟩
  rw [hstatus]
  refine { h with revision := ?_, receipts := ?_, events := ?_ }
  · show mid.revision + 1 = s.revision + 1
    rw [h.revision]
  · show mid.receipts.set command.id { fingerprint, revision := mid.revision + 1 } = _
    rw [h.revision, h.receipts]
  · refine ⟨{ revision := s.revision + 1, commandId := command.id, type, actorId }, rfl, rfl, ?_⟩
    show mid.events ++ [{ revision := mid.revision + 1, commandId := command.id, type, actorId }] = _
    rw [h.revision, h.events]

/-- The stages of a fresh command. -/
theorem prepare_eq_ok (h : prepare s actor command policy fingerprint = .ok next) :
    s.revision < 10000 ∧ ∃ amount found mid, commandAmount command = .ok amount ∧
      applyPassCommand s command = .ok found ∧
      applyBody { s with passLock := found.or s.passLock } command amount policy = .ok mid ∧
      next = record (settleStatus mid) command.id fingerprint (.command command.body.type) actor.id ∧
      Settled s command amount (found.or s.passLock) fingerprint next := by
  simp only [prepare, bind_eq_ok, ensure_eq_ok, pure_eq_ok] at h
  obtain ⟨_, _, _, hlimit, amount, hamount, found, hfound, mid, hmid, rfl⟩ := h
  exact ⟨hlimit, amount, found, mid, hamount, hfound, hmid, rfl, (applyBody_moved hmid).settled _ _⟩

theorem historyMatches_iff : historyMatches s ↔
    s.events.length = s.revision ∧ s.receipts.length = s.revision ∧
      ∀ i event, s.events[i]? = some event → event.revision = i + 1 ∧
        (s.receipts.get? event.commandId).map (·.revision) = some event.revision := by
  unfold historyMatches
  refine and_congr_right fun _ => and_congr_right fun _ => ?_
  constructor
  · intro h i event hevent
    obtain ⟨hi, rfl⟩ := List.getElem?_eq_some_iff.mp hevent
    exact h i hi
  · intro h i hi
    exact h i _ (List.getElem?_eq_getElem hi)

theorem history_of_recorded {id : String} (h : historyMatches s) (hnew : s.receipts.get? id = none)
    (hrec : Recorded s id fingerprint next) : historyMatches next := by
  obtain ⟨hevents, hreceipts, hmatch⟩ := historyMatches_iff.mp h
  obtain ⟨last, hrevision, hcommand, hnext⟩ := hrec.events
  refine historyMatches_iff.mpr ⟨?_, ?_, fun i event hevent => ?_⟩
  · rw [hnext, hrec.revision, List.length_append, hevents]
    rfl
  · rw [hrec.receipts, hrec.revision, OrderedMap.set_eq_append hnew, List.length_append, hreceipts]
    rfl
  · rw [hnext, List.getElem?_append] at hevent
    rw [hrec.receipts]
    split at hevent
    · obtain ⟨hnumber, hreceipt⟩ := hmatch i event hevent
      have hne : event.commandId ≠ id := by
        intro heq
        rw [heq, hnew] at hreceipt
        cases hreceipt
      exact ⟨hnumber, by rw [OrderedMap.get?_set_of_ne hne]; exact hreceipt⟩
    · obtain ⟨hi, rfl⟩ := List.getElem?_eq_some_iff.mp hevent
      have hlast : i = s.events.length := by
        simp only [List.length_singleton] at hi
        omega
      simp only [List.getElem_singleton, hcommand, hrevision, OrderedMap.get?_set_self,
        Option.map_some, and_true]
      omega

theorem nodup_ordersAfter {amount : Int} (h : s.orders.keys.Nodup) :
    (ordersAfter s command amount).keys.Nodup := by
  unfold ordersAfter
  split
  · exact OrderedMap.nodup_keys_set h
  · exact OrderedMap.nodup_keys_filter h _
  · exact OrderedMap.nodup_keys_filter h _
  · exact h

theorem nodup_pendingAfter {amount : Int} (h : s.pendingWithdrawals.keys.Nodup) :
    (pendingAfter s command amount).keys.Nodup := by
  unfold pendingAfter
  split
  · exact OrderedMap.nodup_keys_set h
  · exact OrderedMap.nodup_keys_filter h _
  · exact OrderedMap.nodup_keys_filter h _
  · exact h

/-- A command adds no withdrawal but its own. -/
theorem get?_pendingAfter {amount : Int} {id : String} (hne : id ≠ command.id)
    (h : s.pendingWithdrawals.get? id = none) : (pendingAfter s command amount).get? id = none := by
  rw [OrderedMap.get?_eq_none_iff] at h
  unfold pendingAfter
  split
  · rw [OrderedMap.get?_set_of_ne hne, OrderedMap.get?_eq_none_iff]
    exact h
  · rw [OrderedMap.get?_eq_none_iff]
    exact fun hmem => h ((List.filter_sublist.map Prod.fst).subset hmem)
  · rw [OrderedMap.get?_eq_none_iff]
    exact fun hmem => h ((List.filter_sublist.map Prod.fst).subset hmem)
  · rw [OrderedMap.get?_eq_none_iff]
    exact h

theorem applyBody_lock {amount : Int} {found : Option PassLock} {mid : VaultState}
    (h : Consistent s) (ht : Tables s) (hnew : s.pendingWithdrawals.get? command.id = none)
    (hamount : commandAmount command = .ok amount) (hfound : applyPassCommand s command = .ok found)
    (happly : applyBody { s with passLock := found.or s.passLock } command amount policy = .ok mid) :
    ∀ lock, mid.passLock = some lock →
      LockConsistent mid lock ∧ lock.withdrawals.keys.Nodup := by
  have hmoved := applyBody_moved happly
  intro lock hlock
  rw [hmoved.passLock] at hlock
  rcases applyPassCommand_cases hfound with ⟨hbody, _, hsafe, rfl⟩ | ⟨hnone, _, _, rfl⟩ |
    ⟨before, after, hbefore, hopen, _, hcommand, rfl⟩
  · obtain ⟨_, _, hempty, _, _, hcovered⟩ := hsafe
    rw [Option.some_or, Option.some.injEq] at hlock
    subst hlock
    have hdeposits := (amounts_nonneg_iff.mp h.nonneg).2.2.2.2.2.2.1
    have hpending : mid.pendingWithdrawals = [] := by
      rw [hmoved.pending, pendingAfter, hbody]
      exact hempty
    refine ⟨⟨rfl, hdeposits, ?_, by rw [hpending]; rfl, ?_, hdeposits, ?_⟩, List.nodup_nil⟩
    · rw [hmoved.passes]
      exact hcovered
    · intro e he
      cases he
    · intro hclosed
      cases hclosed
  · rw [Option.none_or, hnone] at hlock
    cases hlock
  · rw [Option.some_or, Option.some.injEq] at hlock
    subst hlock
    by_cases hbody : command.body = .closeVault
    · obtain ⟨⟨hstatus, hflat, hempty, hfees⟩, rfl⟩ := lockCommand_closeVault hbody hcommand
      have hpasses := (amounts_nonneg_iff.mp h.nonneg).1
      simp only [applyBody, hbody, Except.ok.injEq] at happly
      subst happly
      refine ⟨⟨rfl, Int.le_refl 0, ?_, ?_, ?_, Int.le_refl 0, fun _ => ?_⟩, List.nodup_nil⟩
      · show 0 ≤ s.passes * 1000000
        omega
      · show 0 = s.pendingWithdrawals.length
        rw [hempty]
        rfl
      · intro e he
        cases he
      · exact ⟨rfl, hstatus, rfl, rfl, hflat, hfees, hempty⟩
    · exact lockCommand_consistent (h.lock before hbefore) ht hbefore hnew hopen hamount hbody
        hcommand hmoved.passes hmoved.pending

/-- A command that passes its guards leaves the books consistent. -/
theorem prepare_consistent (h : Consistent s) (ht : Tables s) (hid : isId command.id = true)
    (hnew : s.receipts.get? command.id = none)
    (hprepare : prepare s actor command policy fingerprint = .ok next) :
    Consistent next ∧ Tables next := by
  obtain ⟨hlimit, amount, found, mid, hamount, hfound, happly, hnext, hsettled⟩ :=
    prepare_eq_ok hprepare
  have hunasked := ht.requested _ hnew
  have hclose : command.body = .closeVault → s.feeLiability = 0 := by
    intro hbody
    rcases applyPassCommand_cases hfound with ⟨hother, _⟩ | ⟨_, _, hother, _⟩ |
      ⟨_, _, _, _, _, hcommand, _⟩
    · rw [hbody] at hother
      cases hother
    · exact absurd hbody hother
    · exact (lockCommand_closeVault hbody hcommand).1.2.2.2
  have hstart : Ledger { s with passLock := found.or s.passLock } :=
    ⟨h.nonneg, h.orders, h.pending, h.funded, h.fees, h.equity⟩
  have hledger : Ledger (settleStatus mid) := settleStatus_ledger
    (applyBody_ledger hstart ht.orderKeys ht.pendingKeys hid hunasked hamount hclose happly)
  have hlocks := applyBody_lock h ht hunasked hamount hfound happly
  have hpassLock : next.passLock = mid.passLock := by
    rw [hsettled.passLock, (applyBody_moved happly).passLock]
  constructor
  · refine { nonneg := ?_, orders := ?_, pending := ?_, funded := ?_, fees := ?_, equity := ?_,
             scope := ?_, ids := ?_, revision := ?_, activeNet := ?_, lock := ?_,
             history := history_of_recorded h.history hnew hsettled.toRecorded }
    · rw [hnext]; exact hledger.nonneg
    · rw [hnext]; exact hledger.orders
    · rw [hnext]; exact hledger.pending
    · rw [hnext]; exact hledger.funded
    · rw [hnext]; exact hledger.fees
    · rw [hnext]; exact hledger.equity
    · rw [hsettled.scope, hsettled.schemaVersion]
      exact h.scope
    · rw [hsettled.id, hsettled.ownerId, hsettled.executorId, hsettled.strategyId]
      exact h.ids
    · rw [hsettled.revision]
      unfold maxSafeInteger
      omega
    · rw [hnext]; exact hledger.activeNet
    · intro lock hlock
      have hmid := settleStatus_lock (hlocks lock (hpassLock.symm.trans hlock)).1
      rw [hnext]
      exact ⟨hmid.version, hmid.nonneg, hmid.capacity, hmid.length, hmid.parts, hmid.reserved,
        hmid.closed⟩
  · refine ⟨?_, ?_, ?_, ?_, ?_⟩
    · rw [hsettled.orders]
      exact nodup_ordersAfter ht.orderKeys
    · rw [hsettled.pending]
      exact nodup_pendingAfter ht.pendingKeys
    · rw [hsettled.receipts]
      exact OrderedMap.nodup_keys_set ht.receipts
    · intro lock hlock
      exact (hlocks lock (hpassLock.symm.trans hlock)).2
    · intro id hid'
      rw [hsettled.receipts, OrderedMap.get?_set] at hid'
      split at hid'
      · cases hid'
      next hne =>
        rw [hsettled.pending]
        exact get?_pendingAfter hne (ht.requested id hid')

end Prepare

end DomainVault
end AlphaForge
