/-
What an executor's grant lets through, over whole runs.

The owner's trades use up the same version counter and the same buy total as the
executor's, and a grant change resets the total and moves the version on.
-/
import AlphaForge.Vault.StrategyVault.Backing

namespace AlphaForge
namespace StrategyVault

open Evm Machine

variable {c : Config} {s s' : State}

/-- The arguments of an `execute` call. -/
structure Order where
  m : Msg
  buy : Bool
  input : Nat
  minOutput : Nat
  deadline : Nat
  expectedVersion : Nat

def Action.order : Action → Option Order
  | .execute m buy input minOutput deadline expectedVersion =>
      some ⟨m, buy, input, minOutput, deadline, expectedVersion⟩
  | _ => none

def Action.expectedVersion (a : Action) : Option Nat := a.order.map Order.expectedVersion

/-- `configureExecutor` and `revokeExecutor`. -/
def Action.changesGrant : Action → Bool
  | .configureExecutor _ _ | .revokeExecutor _ => true
  | _ => false

def Action.configures : Action → Bool
  | .configureExecutor _ _ => true
  | _ => false

/-- The AF-USDC a buy that is not the owner's spends. -/
def executorBuy (c : Config) (t : Transition State Action) : Nat :=
  match t.action with
  | .execute m true input _ _ _ => if m.sender = c.base.owner then 0 else input
  | _ => 0

/-- What a trade credits: stock on a buy, cash on a sell. -/
def credited (c : Config) (buy : Bool) (s : State) : Nat :=
  if buy then s.base.trackedPosition c.targetStock else s.base.trackedUsdcBalance

theorem order_executed (hv : Venue c) {a : Action} {o : Order} (ho : a.order = some o)
    (h : step c a s = .ok s') :
    ∃ output, Executed c o.m o.buy o.input o.minOutput o.deadline o.expectedVersion output s s' := by
  cases step_accepted hv h with
  | executed hexec =>
      simp only [Action.order, Option.some.injEq] at ho
      subst ho
      exact ⟨_, hexec⟩
  | native ha => rcases ha with ⟨m, x, rfl⟩ | ⟨m, rfl⟩ <;> cases ho
  | venue ha =>
      rcases ha with ⟨m, _, _, _, rfl⟩ | ⟨m, _, _, _, _, rfl⟩ | ⟨m, _, rfl⟩ <;> cases ho
  | _ => cases ho

/-! ## The version counter -/

/-- The version moves on by one in a trade or a grant change, and stays otherwise. -/
theorem step_version (hv : Venue c) {a : Action} (h : step c a s = .ok s') :
    s'.executionVersion =
      s.executionVersion + if a.order.isSome ∨ a.changesGrant then 1 else 0 := by
  cases step_accepted hv h with
  | executed hexec => exact hexec.version
  | configured _ _ => rfl
  | revoked _ => rfl
  | native ha => rcases ha with ⟨m, x, rfl⟩ | ⟨m, rfl⟩ <;> rfl
  | venue ha => rcases ha with ⟨m, _, _, _, rfl⟩ | ⟨m, _, _, _, _, rfl⟩ | ⟨m, _, rfl⟩ <;> rfl
  | _ => rfl

theorem order_version (hv : Venue c) {a : Action} {v : Nat} (hk : a.expectedVersion = some v)
    (h : step c a s = .ok s') : v = s.executionVersion ∧ s'.executionVersion = v + 1 := by
  obtain ⟨o, ho, rfl⟩ := Option.map_eq_some_iff.mp hk
  obtain ⟨output, hexec⟩ := order_executed hv ho h
  have hversion := hexec.validated.version
  exact ⟨hversion, by rw [hversion]; exact hexec.version⟩

/-! ## The buy total -/

/-- Outside grant changes the grant stays, the total counts every buy, and a buy
that is not the owner's fits in what is left. -/
theorem step_budget (hv : Venue c) {a : Action} (hkeep : a.changesGrant = false)
    (h : step c a s = .ok s') :
    s'.grant = s.grant ∧ s.totalBuyUsdc + executorBuy c ⟨s, a, s'⟩ ≤ s'.totalBuyUsdc ∧
      (executorBuy c ⟨s, a, s'⟩ = 0 ∨
        s.totalBuyUsdc + executorBuy c ⟨s, a, s'⟩ ≤ s.grant.maxTotalBuyUsdc) := by
  cases step_accepted hv h with
  | @executed m buy input minOutput deadline expectedVersion output s' hexec =>
      have htrade := hexec.trade
      refine ⟨hexec.booked.grant, ?_⟩
      cases buy with
      | true =>
          simp only [if_true] at htrade
          have htotal := htrade.total
          simp only [executorBuy]
          by_cases howner : m.sender = c.base.owner
          · rw [if_pos howner]
            exact ⟨by omega, Or.inl rfl⟩
          · rw [if_neg howner]
            exact ⟨by omega, Or.inr (hexec.validated.budget howner rfl)⟩
      | false =>
          simp only [Bool.false_eq_true, if_false] at htrade
          exact ⟨Nat.le_of_eq htrade.total.symm, Or.inl rfl⟩
  | configured _ _ => cases hkeep
  | revoked _ => cases hkeep
  | native ha =>
      rcases ha with ⟨m, x, rfl⟩ | ⟨m, rfl⟩ <;> exact ⟨rfl, Nat.le_refl _, Or.inl rfl⟩
  | venue ha =>
      rcases ha with ⟨m, _, _, _, rfl⟩ | ⟨m, _, _, _, _, rfl⟩ | ⟨m, _, rfl⟩ <;>
        exact ⟨rfl, Nat.le_refl _, Or.inl rfl⟩
  | _ => exact ⟨rfl, Nat.le_refl _, Or.inl rfl⟩

/-! ## After the end of a grant or of the vault -/

theorem step_deleted (hv : Venue c) {a : Action} (hs : s.grant = .deleted)
    (hkeep : a.configures = false) (h : step c a s = .ok s') : s'.grant = .deleted := by
  cases step_accepted hv h with
  | executed hexec => exact hexec.booked.grant.trans hs
  | configured _ _ => cases hkeep
  | revoked _ => rfl
  | _ => exact hs

theorem step_closed (hv : Venue c) {a : Action} (hs : s.base.closed = true)
    (h : step c a s = .ok s') : s'.base.closed = true := by
  cases step_accepted hv h with
  | deposited _ hdep =>
      have hopen := hdep.active.1
      rw [hs] at hopen
      cases hopen
  | withdrawn _ hwith =>
      have hopen := hwith.active.1
      rw [hs] at hopen
      cases hopen
  | closing _ hclose => exact hclose.closed
  | rescued hrescue => exact hrescue.closed.2
  | executed hexec => exact hexec.booked.closed.trans hs
  | _ => exact hs

/-- An order that is not the owner's comes from the grant's executor before the
grant expires. -/
theorem Executed.executor {o : Order} {output : Nat}
    (h : Executed c o.m o.buy o.input o.minOutput o.deadline o.expectedVersion output s s')
    (hne : o.m.sender ≠ c.base.owner) :
    o.m.sender = s.grant.executor ∧ o.m.timestamp < s.grant.expiresAt := by
  rcases h.validated.authority with howner | ⟨hexecutor, _, hexpiry⟩
  · exact absurd howner hne
  · exact ⟨hexecutor, hexpiry⟩

theorem Executed.credited {m : Msg} {buy : Bool}
    {input minOutput deadline expectedVersion output : Nat}
    (h : Executed c m buy input minOutput deadline expectedVersion output s s') :
    credited c buy s' = credited c buy s + output := by
  have htrade := h.trade
  cases buy with
  | true =>
      simp only [if_true] at htrade
      exact htrade.position
  | false =>
      simp only [Bool.false_eq_true, if_false] at htrade
      exact htrade.tracked

/-- Every accepted order of a run is priced by the feed as it stood, fills at least
the floor its sender's slippage allows, and, when it is not the owner's, comes
from the executor of a live grant and keeps to its order limit. -/
theorem order_terms (hv : Venue c) {a : Action} {o : Order} (ho : a.order = some o)
    (h : step c a s = .ok s') :
    ∃ price, stockPrice c o.m s = .ok price ∧
      (o.m.sender ≠ c.base.owner → notional o.buy o.input price ≤ s.grant.maxOrderUsdc ∧
        o.m.sender = s.grant.executor ∧ o.m.timestamp < s.grant.expiresAt) ∧
      credited c o.buy s +
          expectedOutput o.buy o.input price * (10000 - slippage c o.m s) / 10000 ≤
        credited c o.buy s' := by
  obtain ⟨output, hexec⟩ := order_executed hv ho h
  obtain ⟨price, hprice, hfloor, hlimit⟩ := hexec.validated.price
  refine ⟨price, hprice, fun hne => ⟨hlimit hne, hexec.executor hne⟩, ?_⟩
  rw [hexec.credited]
  exact Nat.add_le_add_left (Nat.le_trans hfloor hexec.filled.2) _

/-! ## Every run -/

/-- The executor's authority over a run: its buys in any stretch without a grant
change stay in the grant's total; versions are used once and never after they
have passed; nothing of the executor's is accepted after a revocation, an expiry
or the closing; and every order gets its floor at the price of its block. -/
theorem executor_authority_in_every_run {m : Msg} {x : View} {self lockerSelf owner creator pass usdc
    targetStock otherStock : Address} {stockReserve : StockReserve.Config}
    {referenceFeed : ReferenceFeed.Config} {strategyRef : Bytes32} {maxPriceAge : Nat}
    {tokens : Tokens} {balance : Nat} {paused : Bool} {feed : ReferenceFeed.State}
    (hnew : constructor m x self lockerSelf owner creator pass usdc targetStock otherStock
      stockReserve referenceFeed strategyRef maxPriceAge tokens balance paused feed = .ok (c, s))
    (as : List Action) :
    (∀ before window rest, as = before ++ window ++ rest →
      (∀ t ∈ history (step c) (exec (step c) s before) window, t.action.changesGrant = false) →
      ((history (step c) (exec (step c) s before) window).map (executorBuy c)).sum ≤
        (exec (step c) s before).grant.maxTotalBuyUsdc) ∧
    ((history (step c) s as).filterMap (fun t => t.action.expectedVersion)).Nodup ∧
    (history (step c) s as).Pairwise (fun t u => ∀ v, u.action.expectedVersion = some v →
      t.action.order.isSome ∨ t.action.changesGrant → t.pre.executionVersion < v) ∧
    (∀ before m after u, as = before ++ .revokeExecutor m :: after →
      step c (.revokeExecutor m) (exec (step c) s before) = .ok u →
      (∀ t ∈ history (step c) u after, t.action.configures = false) →
      ∀ t ∈ history (step c) u after, ∀ o, t.action.order = some o →
        o.m.sender = c.base.owner) ∧
    (∀ before m after u, as = before ++ .close m :: after →
      step c (.close m) (exec (step c) s before) = .ok u →
      ∀ t ∈ history (step c) u after, t.action.order = none) ∧
    ∀ t ∈ history (step c) s as, ∀ o, t.action.order = some o →
      ∃ price, stockPrice c o.m t.pre = .ok price ∧
        (o.m.sender ≠ c.base.owner → notional o.buy o.input price ≤ t.pre.grant.maxOrderUsdc ∧
          o.m.sender = t.pre.grant.executor ∧ o.m.timestamp < t.pre.grant.expiresAt) ∧
        credited c o.buy t.pre +
            expectedOutput o.buy o.input price * (10000 - slippage c o.m t.pre) / 10000 ≤
          credited c o.buy t.post := by
  obtain ⟨⟨_, hv, _⟩, _⟩ := constructor_ok hnew
  refine ⟨?_, ?_, ?_, ?_, ?_, fun t ht o ho => order_terms hv ho (history_step ht)⟩
  · intro before window rest _ hkeep
    have hbudget := history_budget State.totalBuyUsdc (fun u => u.grant.maxTotalBuyUsdc)
      (executorBuy c) (fun t (ht : t ∈ history (step c) (exec (step c) s before) window) =>
        have hstep := step_budget hv (hkeep t ht) (history_step ht)
        ⟨by rw [hstep.1], hstep.2⟩)
    omega
  · refine (history_keys_nodup Action.expectedVersion (fun u v => v < u.executionVersion)
      (fun a u u' v h hused => ?_) (fun a u u' v h hk => ?_) s as).1
    · rw [step_version hv h]
      omega
    · have hversion := order_version hv hk h
      omega
  · have hpairs := history_pairwise_le (m := State.executionVersion)
      (fun a u u' (h : step c a u = .ok u') => by rw [step_version hv h]; omega) s as
    refine List.Pairwise.imp_of_mem (fun {t u} ht hu hle v hk hmoves => ?_) hpairs
    have hmove := step_version hv (history_step ht)
    have hcurrent := order_version hv hk (history_step hu)
    rw [if_pos hmoves] at hmove
    omega
  · intro before m after u _ hrevoke hkeep t ht o ho
    have hdeleted : u.grant = .deleted := by
      cases step_accepted hv hrevoke with
      | revoked _ => rfl
      | native ha => rcases ha with ⟨_, _, he⟩ | ⟨_, he⟩ <;> cases he
      | venue ha => rcases ha with ⟨_, _, _, _, he⟩ | ⟨_, _, _, _, _, he⟩ | ⟨_, _, he⟩ <;> cases he
    have hpre := history_pre (P := fun w : State => w.grant = .deleted)
      (fun w hw hs => step_deleted hv hs (hkeep w hw) (history_step hw)) hdeleted t ht
    obtain ⟨output, hexec⟩ := order_executed hv ho (history_step ht)
    by_contra hne
    have hexpiry := (hexec.executor hne).2
    rw [hpre] at hexpiry
    exact absurd hexpiry (Nat.not_lt_zero _)
  · intro before m after u _ hclose t ht
    have hclosed : u.base.closed = true := by
      cases step_accepted hv hclose with
      | closing _ h => exact h.closed
      | native ha => rcases ha with ⟨_, _, he⟩ | ⟨_, he⟩ <;> cases he
      | venue ha => rcases ha with ⟨_, _, _, _, he⟩ | ⟨_, _, _, _, _, he⟩ | ⟨_, _, he⟩ <;> cases he
    have hpre := history_pre (P := fun w : State => w.base.closed = true)
      (fun w hw hs => step_closed hv hs (history_step hw)) hclosed t ht
    by_contra hne
    obtain ⟨o, ho⟩ := Option.ne_none_iff_exists'.mp hne
    obtain ⟨output, hexec⟩ := order_executed hv ho (history_step ht)
    rw [hexec.active] at hpre
    cases hpre

theorem executor_budget_after_trades :
    ∃ c s, constructor (exampleMsg 3 99) exampleView 1 2 3 4 5 6 7 8 ⟨9, 13, 6, 7, 10, 60⟩ ⟨10, 11⟩ 1
        60 exampleTokens 0 false exampleFeed = .ok (c, s) ∧
      ((history (step c) (exec (step c) s (exampleRun.take 2)) (exampleRun.drop 2)).map
        (executorBuy c)).sum = 400 ∧
      ((history (step c) (exec (step c) s (exampleRun.take 2)) (exampleRun.drop 2)).map
        (executorBuy c)).sum ≤ (exec (step c) s (exampleRun.take 2)).grant.maxTotalBuyUsdc := by
  have h : constructor (exampleMsg 3 99) exampleView 1 2 3 4 5 6 7 8 ⟨9, 13, 6, 7, 10, 60⟩ ⟨10, 11⟩ 1
      60 exampleTokens 0 false exampleFeed = .ok (_, _) := rfl
  exact ⟨_, _, h, by decide, (executor_authority_in_every_run h exampleRun).1 (exampleRun.take 2)
    (exampleRun.drop 2) [] rfl (by decide)⟩

end StrategyVault
end AlphaForge
