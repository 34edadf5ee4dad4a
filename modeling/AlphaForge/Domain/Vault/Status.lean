/-
What the status of a vault says about its exposure.

No command asserts it.  A stop looks at the position and the orders, only a running vault
reserves for an order, and after every command a vault that was stopping stops when both
are gone; a position that is worth something has a cost.
-/
import AlphaForge.Domain.Vault.Run

namespace AlphaForge
namespace DomainVault

open Evm Machine

/-- A stopped vault has no order and no position. -/
structure Rests (s : VaultState) : Prop where
  stopped : s.status = .stopped → flat s
  valued : 0 < s.positionValue → 0 < s.positionCost

/-- The status of a vault tells whether it is exposed. -/
structure StatusMeans (s : VaultState) : Prop extends Rests s where
  stopping : s.status = .stopping → 0 < s.positionCost ∨ s.orders ≠ []

section Step

variable {s next : VaultState} {command : Command} {amount : Int} {policy : Option SettlementPolicy}
  {actor : Actor} {fingerprint : String}

/-- A command that leaves the status, the position and the orders. -/
theorem Rests.keep (h : Rests s) (hstatus : next.status = s.status)
    (hcost : next.positionCost = s.positionCost) (hvalue : next.positionValue = s.positionValue)
    (horders : next.orders = s.orders) : Rests next := by
  refine ⟨fun hstopped => ?_, ?_⟩
  · rw [flat, hcost, hvalue, horders]
    exact h.stopped (hstatus.symm.trans hstopped)
  · rw [hcost, hvalue]
    exact h.valued

/-- A vault with a position or an order has not stopped. -/
theorem Rests.not_stopped (h : Rests s) (hexposed : 0 < s.positionCost ∨ s.orders ≠ []) :
    s.status ≠ .stopped := by
  intro hstopped
  obtain ⟨hcost, _, horders⟩ := h.stopped hstopped
  rcases hexposed with hpos | hne
  · omega
  · exact hne horders

theorem settlePosition_rests {proceeds : Int} {policy : SettlementPolicy} (horders : s.orders = [])
    (h : settlePosition s proceeds policy = .ok next) : Rests next := by
  simp only [settlePosition, bind_eq_ok, pure_eq_ok] at h
  obtain ⟨_, _, _, _, _, _, _, _, rfl⟩ := h
  refine ⟨fun _ => ⟨rfl, rfl, horders⟩, fun hpos => ?_⟩
  exact absurd hpos (Int.lt_irrefl 0)

theorem applyBody_rests (h : Rests s) (hledger : Ledger s)
    (happly : applyBody s command amount policy = .ok next) : Rests next := by
  have hnonneg := amounts_nonneg_iff.mp hledger.nonneg
  unfold applyBody at happly
  cases hbody : command.body with
  | enablePassLocking | closeVault | deposit text =>
      simp only [hbody, Except.ok.injEq] at happly
      subst happly
      exact h.keep rfl rfl rfl rfl
  | allocate text =>
      simp only [hbody, bind_eq_ok, pure_eq_ok] at happly
      obtain ⟨_, _, _, _, rfl⟩ := happly
      exact h.keep rfl rfl rfl rfl
  | deallocate text | requestWithdrawal text | payFees text =>
      simp only [hbody, bind_eq_ok, pure_eq_ok] at happly
      obtain ⟨_, _, rfl⟩ := happly
      exact h.keep rfl rfl rfl rfl
  | confirmWithdrawal withdrawalId | cancelWithdrawal withdrawalId =>
      simp only [hbody, bind_eq_ok] at happly
      obtain ⟨_, _, happly⟩ := happly
      split at happly
      · cases happly
      · cases happly
        exact h.keep rfl rfl rfl rfl
  | start =>
      simp only [hbody, bind_eq_ok, pure_eq_ok] at happly
      obtain ⟨_, _, _, _, rfl⟩ := happly
      refine ⟨fun hstopped => ?_, h.valued⟩
      cases hstopped
  | stop =>
      simp only [hbody, Except.ok.injEq] at happly
      subst happly
      refine ⟨fun hstopped => ?_, h.valued⟩
      by_cases hexposed : 0 < s.positionCost ∨ 0 < s.orders.length
      · simp only [if_pos hexposed] at hstopped
        cases hstopped
      · have hvalue := h.valued
        obtain ⟨hcost, horders⟩ := not_or.mp hexposed
        refine ⟨?_, ?_, List.length_eq_zero_iff.mp (Nat.eq_zero_of_not_pos horders)⟩
        · show s.positionCost = 0
          omega
        · show s.positionValue = 0
          omega
  | reserveBuy orderId text =>
      simp only [hbody, bind_eq_ok, ensure_eq_ok, pure_eq_ok] at happly
      obtain ⟨_, _, _, hrunning, _, _, _, _, rfl⟩ := happly
      refine ⟨fun hstopped => ?_, h.valued⟩
      have hboth : s.status = .stopped := hstopped
      rw [hrunning] at hboth
      cases hboth
  | cancelOrder orderId | fillBuy orderId =>
      simp only [hbody, bind_eq_ok] at happly
      obtain ⟨_, _, happly⟩ := happly
      split at happly
      · cases happly
      next reserved hget =>
        have hmem := OrderedMap.mem_of_get? hget
        have hpos := (hledger.orders _ hmem).2
        have hrunning := h.not_stopped (Or.inr (List.ne_nil_of_mem hmem))
        have hvalue := h.valued
        cases happly
        refine ⟨fun hstopped => absurd hstopped hrunning, ?_⟩
        simp only at hpos ⊢
        omega
  | markPosition value =>
      simp only [hbody, bind_eq_ok, ensure_eq_ok, pure_eq_ok] at happly
      obtain ⟨_, hcost, _, _, rfl⟩ := happly
      exact ⟨fun hstopped => absurd hstopped (h.not_stopped (Or.inl hcost)), fun _ => hcost⟩
  | settlePosition proceeds =>
      simp only [hbody, bind_eq_ok, ensure_eq_ok] at happly
      obtain ⟨_, _, _, horders, happly⟩ := happly
      cases policy with
      | none => cases happly
      | some policy =>
          simp only [bind_eq_ok] at happly
          obtain ⟨_, _, _, _, proceeds, _, hsettle⟩ := happly
          exact settlePosition_rests horders hsettle

/-- The last lines of `execute`: a stopping vault is still exposed. -/
theorem settleStatus_means (h : Rests s) (hnonneg : 0 ≤ s.positionCost ∧ 0 ≤ s.positionValue) :
    StatusMeans (settleStatus s) := by
  have hvalue := h.valued
  unfold settleStatus
  split
  · next hdone =>
    obtain ⟨_, hcost, horders⟩ := hdone
    refine ⟨⟨fun _ => ⟨hcost, ?_, List.length_eq_zero_iff.mp horders⟩, h.valued⟩, fun hstopping => ?_⟩
    · show s.positionValue = 0
      omega
    · cases hstopping
  · next hopen =>
    refine ⟨h, fun hstopping => ?_⟩
    by_cases hcost : 0 < s.positionCost
    · exact Or.inl hcost
    · refine Or.inr fun horders => hopen ⟨hstopping, ?_, by rw [horders]; rfl⟩
      omega

theorem prepare_means (h : StatusMeans s) (hconsistent : Consistent s) (ht : Tables s)
    (hid : isId command.id = true) (hnew : s.receipts.get? command.id = none)
    (hprepare : prepare s actor command policy fingerprint = .ok next) : StatusMeans next := by
  obtain ⟨hafter, _⟩ := prepare_consistent hconsistent ht hid hnew hprepare
  obtain ⟨_, amount, found, mid, _, _, happly, hnext, _⟩ := prepare_eq_ok hprepare
  have hstart : Ledger { s with passLock := found.or s.passLock } :=
    ⟨hconsistent.nonneg, hconsistent.orders, hconsistent.pending, hconsistent.funded,
      hconsistent.fees, hconsistent.equity⟩
  have hlocked : Rests { s with passLock := found.or s.passLock } := h.toRests.keep rfl rfl rfl rfl
  have hrests : Rests mid := applyBody_rests hlocked hstart happly
  have hnonneg := amounts_nonneg_iff.mp hafter.nonneg
  rw [hnext] at hnonneg ⊢
  have hpositions : 0 ≤ mid.positionCost ∧ 0 ≤ mid.positionValue := by
    rcases settleStatus_keeps mid with heq | heq
    · rw [heq] at hnonneg
      exact ⟨hnonneg.2.2.2.1, hnonneg.2.2.2.2.1⟩
    · rw [heq] at hnonneg
      exact ⟨hnonneg.2.2.2.1, hnonneg.2.2.2.2.1⟩
  have hmeans := settleStatus_means hrests hpositions
  exact ⟨⟨hmeans.stopped, hmeans.valued⟩, hmeans.stopping⟩

/-- Only a running vault takes a new order. -/
theorem prepare_orders (hrunning : s.status ≠ .running)
    (hprepare : prepare s actor command policy fingerprint = .ok next) {id : String} {reserved : Int}
    (horder : next.orders.get? id = some reserved) : s.orders.get? id = some reserved := by
  obtain ⟨_, amount, found, mid, _, _, happly, _, hsettled⟩ := prepare_eq_ok hprepare
  have hdelete : ∀ orderId, OrderedMap.get? id (s.orders.filter (fun e => e.1 ≠ orderId)) =
      some reserved → s.orders.get? id = some reserved := by
    intro orderId hget
    by_cases hsame : id = orderId
    · rw [hsame, OrderedMap.get?_delete_self] at hget
      cases hget
    · rwa [OrderedMap.get?_delete_of_ne hsame] at hget
  rw [hsettled.orders] at horder
  cases hbody : command.body with
  | reserveBuy orderId text =>
      simp only [applyBody, hbody, bind_eq_ok, ensure_eq_ok] at happly
      obtain ⟨_, _, _, hstatus, _⟩ := happly
      exact absurd hstatus hrunning
  | cancelOrder orderId | fillBuy orderId =>
      simp only [ordersAfter, hbody] at horder
      exact hdelete orderId horder
  | _ =>
      simp only [ordersAfter, hbody] at horder
      exact horder

end Step

/-! ## Runs -/

/-- A lock that `createVault` accepts has no withdrawal yet. -/
theorem created_reached {input : VaultInput} {s : VaultState} (h : createVault input = .ok s) :
    Reached s := by
  simp only [createVault, bind_eq_ok, pure_eq_ok] at h
  obtain ⟨_, _, _, _, passes, _, _, hassert, rfl⟩ := h
  obtain ⟨hconsistent, hbounded⟩ := assertInvariant_eq_ok.mp hassert
  refine { toConsistent := hconsistent, bounded := hbounded, toTables := ?_ }
  refine ⟨List.nodup_nil, List.nodup_nil, List.nodup_nil, fun lock hlock => ?_, fun _ _ => rfl⟩
  have hlength : lock.withdrawals.length = 0 := (hconsistent.lock lock hlock).length
  rw [List.length_eq_zero_iff.mp hlength]
  exact List.nodup_nil

theorem created_means {input : VaultInput} {s : VaultState} (h : createVault input = .ok s) :
    StatusMeans s := by
  simp only [createVault, bind_eq_ok, pure_eq_ok] at h
  obtain ⟨_, _, _, _, _, _, _, _, rfl⟩ := h
  refine ⟨⟨fun _ => ⟨rfl, rfl, rfl⟩, fun hpos => ?_⟩, fun hstopping => ?_⟩
  · exact absurd hpos (Int.lt_irrefl 0)
  · cases hstopping

theorem execute_means {localeCompare : String → String → Ordering} {s next : VaultState}
    {call : Call} (h : Reached s ∧ StatusMeans s)
    (hstep : step localeCompare call s = .ok next) : Reached next ∧ StatusMeans next := by
  refine ⟨execute_reached h.1 hstep, ?_⟩
  obtain ⟨_, hid, _, ⟨_, _, _, rfl⟩ | ⟨hnew, hprepare, _⟩⟩ := execute_eq_ok hstep
  · exact h.2
  · exact prepare_means h.2 h.1.toConsistent h.1.toTables hid hnew hprepare

/-- Status means exposure, in every state of a run. -/
theorem status_in_every_run (localeCompare : String → String → Ordering) {input : VaultInput}
    {start : VaultState} (hcreated : createVault input = .ok start) (calls : List Call) :
    ((exec (step localeCompare) start calls).status = .stopped →
      (exec (step localeCompare) start calls).orders = [] ∧
        (exec (step localeCompare) start calls).positionCost = 0 ∧
        (exec (step localeCompare) start calls).positionValue = 0) ∧
    ((exec (step localeCompare) start calls).status = .stopping →
      0 < (exec (step localeCompare) start calls).positionCost ∨
        (exec (step localeCompare) start calls).orders ≠ []) ∧
    (0 < (exec (step localeCompare) start calls).positionValue →
      0 < (exec (step localeCompare) start calls).positionCost) ∧
    ((exec (step localeCompare) start calls).status = .stopping →
      ∀ call next, step localeCompare call (exec (step localeCompare) start calls) = .ok next →
        ∀ id reserved, next.orders.get? id = some reserved →
          (exec (step localeCompare) start calls).orders.get? id = some reserved) := by
  have hrun : Reached (exec (step localeCompare) start calls) ∧
      StatusMeans (exec (step localeCompare) start calls) :=
    exec_invariant (fun _ _ _ h hstep => execute_means h hstep)
      ⟨created_reached hcreated, created_means hcreated⟩ calls
  refine ⟨fun hstopped => ?_, hrun.2.stopping, hrun.2.valued,
    fun hstopping call next hstep id reserved horder => ?_⟩
  · obtain ⟨hcost, hvalue, horders⟩ := hrun.2.stopped hstopped
    exact ⟨horders, hcost, hvalue⟩
  · obtain ⟨_, _, _, ⟨_, _, _, rfl⟩ | ⟨_, hprepare, _⟩⟩ := execute_eq_ok hstep
    · exact horder
    · refine prepare_orders (fun hrunning => ?_) hprepare horder
      rw [hstopping] at hrunning
      cases hrunning

theorem first_deposit_rests :
    (exec (step compare) firstVault.state [firstDeposit]).idle = 1 ∧
      (exec (step compare) firstVault.state [firstDeposit]).orders = [] ∧
      (exec (step compare) firstVault.state [firstDeposit]).positionCost = 0 ∧
      (exec (step compare) firstVault.state [firstDeposit]).positionValue = 0 :=
  ⟨rfl, (status_in_every_run compare firstVault.created [firstDeposit]).1 rfl⟩

end DomainVault
end AlphaForge
