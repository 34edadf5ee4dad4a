/-
The events of each call to the trading vault.

`Emits` says for every entry point which events an accepted call adds to the log.
A call that only sets the latch adds none when the latch was set already, so its
events do not tell that it was made.
-/
import AlphaForge.Vault.TradingVault.Latch

namespace AlphaForge
namespace TradingVault

open Evm Machine

variable {c : Config} {m : Msg} {s s' : State} {es : List Event}

/-- What setting the latch emits. -/
def MayLiquidate (es : List Event) : Prop :=
  es = [] ∨ ∃ until_ version, es = [.liquidationStarted until_ version]

/-- The fill of `action`. -/
def Filled (c : Config) (action : Swap) (s' : State) (es : List Event) : Prop :=
  ∃ grantVersion i output,
    es = [.swapExecuted (action.expectedVersion + 1) grantVersion (c.stocks i)
      (decide (action.tokenIn = c.afUsdc)) action.amountIn output] ∧
    action.minAmountOut ≤ output ∧ output ≤ maxUint256 ∧
    (if action.tokenIn = c.afUsdc then action.tokenOut = c.stocks i
      else action.tokenIn = c.stocks i ∧ action.tokenOut = c.afUsdc) ∧
    s'.stateVersion = action.expectedVersion + 1

/-- A buy that a risk bound cancelled. -/
def Cancelled (c : Config) (action : Swap) (s' : State) (es : List Event) : Prop :=
  action.tokenIn = c.afUsdc ∧ (∃ i, action.tokenOut = c.stocks i) ∧
    s'.stateVersion = action.expectedVersion + 1 ∧
    ∃ until_, es = [.liquidationStarted until_ (action.expectedVersion + 1),
      .riskOrderCancelled (action.expectedVersion + 1)]

def Emits (c : Config) (s' : State) (es : List Event) : Action → Prop
  | .deposit _ amount => ∃ principal locked, es = [.deposited amount principal locked]
  | .withdraw _ amount => ∃ exited principal, es = [.withdrawn amount exited principal]
  | .allocate _ _ amount => ∃ units version, es = [.capitalChanged true amount units version]
  | .deallocate _ _ amount => ∃ units version, es = [.capitalChanged false amount units version]
  | .authorizeExecutor _ next =>
      ∃ version, es = [.grantAuthorized version next.executor next.expiresAt]
  | .revokeExecutor _ | .stop _ => MayLiquidate es ∧ s'.liquidating = true
  | .checkRisk _ _ => MayLiquidate es
  | .setBounds _ _ _ _ _ _ => ∃ version later, es = .boundsChanged version :: later ∧
      MayLiquidate later
  | .execute _ _ _ action => action.expectedVersion + 1 ≤ maxUint256 ∧
      (Filled c action s' es ∨ Cancelled c action s' es)
  | .close _ => (∃ returned unlocked, es = [.closed returned unlocked]) ∧ s'.closed = true
  | .rescueUntrackedToken _ token => ∃ amount, es = [.dustRescued token amount]
  | .rescueNative _ _ => ∃ amount, es = [.dustRescued 0 amount]
  | .receive _ | .outside _ => es = []

theorem beginLiquidation_emits (h : beginLiquidation m s = .ok s') :
    s'.liquidating = true ∧ s.stateVersion ≤ s'.stateVersion ∧
      ∃ es, s'.log = s.log ++ es ∧ MayLiquidate es ∧ (s.liquidating = false →
        s'.stateVersion = s.stateVersion + 1 ∧ s.stateVersion + 1 ≤ maxUint256 ∧
        ∃ until_, es = [.liquidationStarted until_ (s.stateVersion + 1)]) := by
  unfold beginLiquidation at h
  split at h
  · next hset =>
    simp only [Except.ok.injEq] at h
    subst h
    refine ⟨hset, Nat.le_refl _, [], (List.append_nil _).symm, Or.inl rfl, fun hopen => ?_⟩
    rw [hset] at hopen
    cases hopen
  · simp only [bind_eq_ok, checkedAdd_eq_ok, pure_eq_ok] at h
    obtain ⟨_, ⟨_, rfl⟩, _, ⟨_, rfl⟩, _, ⟨hfits, rfl⟩, rfl⟩ := h
    exact ⟨rfl, Nat.le_succ _, _, rfl, Or.inr ⟨_, _, rfl⟩, fun _ => ⟨rfl, hfits, _, rfl⟩⟩

theorem beginLiquidation_if_emits {due : Bool}
    (h : (if due then beginLiquidation m s else .ok s) = .ok s') :
    s.stateVersion ≤ s'.stateVersion ∧ ∃ es, s'.log = s.log ++ es ∧ MayLiquidate es := by
  split at h
  · obtain ⟨_, hversion, es, hlog, hes, _⟩ := beginLiquidation_emits h
    exact ⟨hversion, es, hlog, hes⟩
  · rw [← Except.ok.inj h]
    exact ⟨Nat.le_refl _, [], (List.append_nil _).symm, Or.inl rfl⟩

theorem cancel_emits (hopen : s.liquidating = false) (h : cancel m s = .ok s') :
    s'.stateVersion = s.stateVersion + 1 ∧ s.stateVersion + 1 ≤ maxUint256 ∧
      ∃ until_, s'.log = s.log ++ [.liquidationStarted until_ (s.stateVersion + 1),
        .riskOrderCancelled (s.stateVersion + 1)] := by
  simp only [cancel, bind_eq_ok, pure_eq_ok] at h
  obtain ⟨t, ht, rfl⟩ := h
  obtain ⟨_, _, es, hlog, _, hnew⟩ := beginLiquidation_emits ht
  obtain ⟨hversion, hfits, until_, rfl⟩ := hnew hopen
  refine ⟨hversion, hfits, until_, ?_⟩
  simp [State.emit, hlog, hversion]

theorem bookBuy_keeps {feeds : Feeds} {amountIn output quote : Nat} {i : Fin 3}
    (h : bookBuy c m feeds amountIn output i quote s = .ok s') :
    s'.log = s.log ∧ s'.stateVersion = s.stateVersion ∧ output ≤ maxUint256 := by
  simp only [bookBuy, bind_eq_ok, checkedSub_eq_ok, checkedAdd_eq_ok, require_eq_ok, pure_eq_ok] at h
  obtain ⟨_, ⟨_, rfl⟩, _, ⟨_, rfl⟩, _, ⟨hfits, rfl⟩, _, _, _, _, _, _, _, _, _, _, rfl⟩ := h
  exact ⟨rfl, rfl, by omega⟩

theorem bookSell_keeps {amountIn output : Nat} {i : Fin 3}
    (h : bookSell c amountIn output i s = .ok s') :
    s'.log = s.log ∧ s'.stateVersion = s.stateVersion ∧ output ≤ maxUint256 := by
  simp only [bookSell, bind_eq_ok, checkedSub_eq_ok, checkedAdd_eq_ok, pure_eq_ok] at h
  obtain ⟨_, ⟨hfits, rfl⟩, _, ⟨_, rfl⟩, _, _, rfl⟩ := h
  exact ⟨rfl, rfl, by omega⟩

theorem swap_bounded {r : RouterCall} {action : Swap} {k : Tokens} {output : Nat}
    (h : swap c r action s = .ok (k, output)) : action.minAmountOut ≤ output := by
  simp only [swap, bind_eq_ok] at h
  obtain ⟨_, _, _, _, _, _, h⟩ := h
  split at h
  · cases h
  · simp only [bind_eq_ok, require_eq_ok, pure_eq_ok, Prod.mk.injEq] at h
    obtain ⟨_, _, _, ⟨_, _, _, _, hmin, _⟩, _, rfl⟩ := h
    exact hmin

theorem trade_emits {feeds : Feeds} {r : RouterCall} {action : Swap} {buy : Bool} {i : Fin 3}
    {quote : Nat} (h : trade c m feeds r action buy i quote s = .ok s') :
    s'.stateVersion = s.stateVersion + 1 ∧ s.stateVersion + 1 ≤ maxUint256 ∧
      ∃ grantVersion output, action.minAmountOut ≤ output ∧ output ≤ maxUint256 ∧
        s'.log = s.log ++ [.swapExecuted (s.stateVersion + 1) grantVersion (c.stocks i) buy
          action.amountIn output] := by
  simp only [trade, bind_eq_ok, checkedAdd_eq_ok, pure_eq_ok] at h
  obtain ⟨_, _, ⟨k, output⟩, hswap, t, hbook, _, ⟨hfits, rfl⟩, rfl⟩ := h
  have hmin := swap_bounded hswap
  have hkeeps : t.log = s.log ∧ t.stateVersion = s.stateVersion ∧ output ≤ maxUint256 := by
    split at hbook
    · have hbought := bookBuy_keeps hbook
      exact hbought
    · have hsold := bookSell_keeps hbook
      exact hsold
  obtain ⟨hlog, hversion, hout⟩ := hkeeps
  rw [hversion] at hfits
  refine ⟨by rw [← hversion]; rfl, hfits, t.grantVersion, output, hmin, hout, ?_⟩
  simp only [State.emit, hlog, hversion]

theorem execute_emits {feeds : Feeds} {r : RouterCall} {action : Swap}
    (h : execute c m feeds r action s = .ok s') :
    s.stateVersion ≤ s'.stateVersion ∧
      ∃ es, s'.log = s.log ++ es ∧ action.expectedVersion + 1 ≤ maxUint256 ∧
        (Filled c action s' es ∨ Cancelled c action s' es) := by
  simp only [execute, active, bind_eq_ok, require_eq_ok] at h
  obtain ⟨_, _, _, _, _, ⟨hversion, _, _⟩, i, hi, _, hroute, _, hauth, quote, _, halted, hhalted,
    h⟩ := h
  have hindex := stockIndex_ok hi
  split at h
  · next hstop =>
    have hbuy : action.tokenIn = c.afUsdc := by
      by_contra hsell
      rw [decide_eq_false hsell, if_neg (by decide)] at hhalted
      rw [← Except.ok.inj hhalted] at hstop
      cases hstop
    rw [decide_eq_true hbuy, if_pos rfl] at hindex
    have hopen := (validateAuthority_ok hauth).buying (decide_eq_true hbuy)
    obtain ⟨hnext, hfits, until_, hlog⟩ := cancel_emits hopen h
    rw [← hversion] at hnext hfits hlog ⊢
    exact ⟨by omega, _, hlog, hfits, Or.inr ⟨hbuy, ⟨i, hindex.symm⟩, hnext, until_, rfl⟩⟩
  · obtain ⟨hnext, hfits, grantVersion, output, hmin, hout, hlog⟩ := trade_emits h
    rw [← hversion] at hnext hfits hlog ⊢
    refine ⟨by omega, _, hlog, hfits, Or.inl ⟨grantVersion, i, output, rfl, hmin, hout, ?_, hnext⟩⟩
    by_cases hbuy : action.tokenIn = c.afUsdc
    · rw [decide_eq_true hbuy, if_pos rfl] at hindex
      rw [if_pos hbuy]
      exact hindex.symm
    · rw [decide_eq_false hbuy, if_neg (by decide)] at hindex
      rw [if_neg hbuy]
      refine ⟨hindex.symm, ?_⟩
      by_contra hout
      exact hroute (Or.inl ⟨by simpa using hbuy, hout⟩)

/-- Every accepted call adds its own events to the log and no others, and the
version of the state does not fall. -/
theorem step_emits {a : Action} (h : step c a s = .ok s') :
    s.stateVersion ≤ s'.stateVersion ∧ ∃ es, s'.log = s.log ++ es ∧ Emits c s' es a := by
  cases a with
  | deposit m amount =>
      simp only [step, callFrom_eq_ok, deposit, bind_eq_ok, checkedAdd_eq_ok, pure_eq_ok] at h
      obtain ⟨_, _, _, _, _, _, _, _, _, _, _, _, _, _, _, ⟨_, rfl⟩, _, _, _, _, _, _, rfl⟩ := h
      exact ⟨Nat.le_succ _, _, rfl, _, _, rfl⟩
  | allocate m feeds amount =>
      simp only [step, callFrom_eq_ok, allocate, bind_eq_ok, checkedAdd_eq_ok, pure_eq_ok] at h
      obtain ⟨_, _, _, _, _, _, _, _, _, _, _, _, _, _, _, _, _, _, _, _, _, ⟨_, rfl⟩, rfl⟩ := h
      exact ⟨Nat.le_succ _, _, rfl, _, _, rfl⟩
  | deallocate m feeds amount =>
      simp only [step, callFrom_eq_ok, deallocate, bind_eq_ok, checkedAdd_eq_ok, pure_eq_ok] at h
      obtain ⟨_, _, _, _, _, _, _, _, _, _, _, _, _, _, _, _, _, _, _, _, _, ⟨_, rfl⟩, rfl⟩ := h
      exact ⟨Nat.le_succ _, _, rfl, _, _, rfl⟩
  | withdraw m amount =>
      simp only [step, callFrom_eq_ok, withdraw, bind_eq_ok, checkedAdd_eq_ok, pure_eq_ok] at h
      obtain ⟨_, _, _, _, _, _, _, _, _, _, _, _, _, _, _, _, _, ⟨_, rfl⟩, _, _, _, _, rfl⟩ := h
      exact ⟨Nat.le_succ _, _, rfl, _, _, rfl⟩
  | authorizeExecutor m next =>
      simp only [step, callFrom_eq_ok, authorizeExecutor, bind_eq_ok, checkedAdd_eq_ok,
        pure_eq_ok] at h
      obtain ⟨_, _, _, _, _, _, _, _, _, _, _, ⟨_, rfl⟩, rfl⟩ := h
      exact ⟨Nat.le_succ _, _, rfl, _, rfl⟩
  | revokeExecutor m =>
      simp only [step, callFrom_eq_ok, revokeExecutor, bind_eq_ok, checkedAdd_eq_ok] at h
      obtain ⟨_, _, _, _, _, _, _, ⟨_, rfl⟩, h⟩ := h
      obtain ⟨hset, hversion, es, hlog, hes, _⟩ := beginLiquidation_emits h
      exact ⟨Nat.le_of_succ_le hversion, es, hlog, hes, hset⟩
  | stop m =>
      simp only [step, callFrom_eq_ok, stop, bind_eq_ok] at h
      obtain ⟨_, _, _, _, _, _, h⟩ := h
      obtain ⟨hset, hversion, es, hlog, hes, _⟩ := beginLiquidation_emits h
      exact ⟨hversion, es, hlog, hes, hset⟩
  | setBounds m feeds lower upper priceLower priceUpper =>
      simp only [step, callFrom_eq_ok, setBounds, bind_eq_ok, checkedAdd_eq_ok] at h
      obtain ⟨_, _, _, _, _, _, _, _, _, _, _, ⟨_, rfl⟩, _, _, h⟩ := h
      obtain ⟨hversion, es, hlog, hes⟩ := beginLiquidation_if_emits h
      refine ⟨Nat.le_of_succ_le hversion, .boundsChanged (s.stateVersion + 1) :: es, ?_,
        s.stateVersion + 1, es, rfl, hes⟩
      rw [hlog]
      simp [State.emit]
  | checkRisk m feeds =>
      simp only [step, callFrom_eq_ok, checkRisk, bind_eq_ok] at h
      obtain ⟨_, _, _, _, _, _, h⟩ := h
      exact beginLiquidation_if_emits h
  | execute m feeds r action =>
      simp only [step, callFrom_eq_ok] at h
      exact execute_emits h.2.2
  | close m =>
      simp only [step, callFrom_eq_ok, close, bind_eq_ok, checkedAdd_eq_ok, pure_eq_ok] at h
      obtain ⟨_, _, _, _, _, _, _, _, _, _, _, ⟨_, rfl⟩, _, _, _, _, rfl⟩ := h
      exact ⟨Nat.le_succ _, _, rfl, ⟨_, _, rfl⟩, rfl⟩
  | rescueUntrackedToken m token =>
      simp only [step, callFrom_eq_ok, rescueUntrackedToken, bind_eq_ok, pure_eq_ok] at h
      obtain ⟨_, _, _, _, _, _, _, _, _, _, _, _, rfl⟩ := h
      exact ⟨Nat.le_refl _, _, rfl, _, rfl⟩
  | rescueNative m x =>
      simp only [step, callFrom_eq_ok, rescueNative, bind_eq_ok, pure_eq_ok] at h
      obtain ⟨_, _, _, _, _, _, _, _, rfl⟩ := h
      exact ⟨Nat.le_refl _, _, rfl, _, rfl⟩
  | receive m =>
      simp only [step, payFrom_eq_ok, Except.ok.injEq] at h
      obtain ⟨_, rfl⟩ := h
      exact ⟨Nat.le_refl _, [], (List.append_nil _).symm, rfl⟩
  | outside calls =>
      simp only [step, Except.ok.injEq] at h
      subst h
      exact ⟨Nat.le_refl _, [], (List.append_nil _).symm, rfl⟩

/-- A closed vault stays closed. -/
theorem step_closed {a : Action} (hs : s.closed = true) (h : step c a s = .ok s') :
    s'.closed = true := by
  cases step_accepted h with
  | deposited _ hdep => exact absurd (hdep.active.symm.trans hs) (by decide)
  | withdrawn hwith => exact absurd (hwith.active.symm.trans hs) (by decide)
  | traded _ _ htrade => exact absurd (htrade.active.symm.trans hs) (by decide)
  | closing hclose => exact absurd (hclose.active.symm.trans hs) (by decide)
  | rescued hrescue =>
      obtain ⟨_, _, hstate⟩ := hrescue.state
      rw [hstate]
      exact hs
  | _ => exact hs

theorem step_grants {a : Action} (ha : a.authorizes = true) (h : step c a s = .ok s') :
    s'.liquidating = false := by
  cases a with
  | authorizeExecutor m next =>
      simp only [step, callFrom_eq_ok, authorizeExecutor, bind_eq_ok, pure_eq_ok] at h
      obtain ⟨_, _, _, _, _, _, _, _, _, _, _, _, rfl⟩ := h
      rfl
  | _ => cases ha

/-- A step after which the latch is open found it so, or is a new grant. -/
theorem step_lifts {a : Action} (hopen : s'.liquidating = false) (h : step c a s = .ok s') :
    s.liquidating = false ∨ a.authorizes = true := by
  by_cases hs : s.liquidating = true
  · right
    by_contra ha
    have hheld := (step_held hs (by simpa using ha) h).1.liquidating
    rw [hopen] at hheld
    cases hheld
  · exact Or.inl (by simpa using hs)

/-- In these steps a grant lifted the latch, and nothing set it again. -/
def Lifted (ts : List (Transition State Action)) : Prop :=
  ∃ before t after, ts = before ++ t :: after ∧ t.action.authorizes = true ∧
    ∀ v ∈ after, v.post.liquidating = false

theorem lifted_cons {t : Transition State Action} {ts : List (Transition State Action)} :
    Lifted (t :: ts) ↔
      (t.action.authorizes = true ∧ ∀ v ∈ ts, v.post.liquidating = false) ∨ Lifted ts := by
  constructor
  · rintro ⟨before, u, after, hts, hu, hafter⟩
    cases before with
    | nil =>
        obtain ⟨rfl, rfl⟩ := List.cons.inj hts
        exact Or.inl ⟨hu, hafter⟩
    | cons first before =>
        obtain ⟨_, hrest⟩ := List.cons.inj hts
        exact Or.inr ⟨before, u, after, hrest, hu, hafter⟩
  · rintro (⟨ht, hts⟩ | ⟨before, u, after, rfl, hu, hafter⟩)
    · exact ⟨[], t, ts, rfl, ht, hts⟩
    · exact ⟨t :: before, u, after, rfl, hu, hafter⟩

/-- How the latch comes to be open at the end of a run. -/
theorem exec_open_iff (as : List Action) : (exec (step c) s as).liquidating = false ↔
    (s.liquidating = false ∧ ∀ t ∈ history (step c) s as, t.post.liquidating = false) ∨
      Lifted (history (step c) s as) := by
  induction as generalizing s with
  | nil => simp [exec, history, Lifted]
  | cons a rest ih =>
      rw [exec_cons]
      cases h : step c a s with
      | error e =>
          rw [apply_error h, ih]
          simp only [history, h]
      | ok s' =>
          rw [apply_ok h, ih]
          simp only [history, h, lifted_cons, List.mem_cons, forall_eq_or_imp]
          constructor
          · rintro (⟨hopen, hrest⟩ | hlifted)
            · rcases step_lifts hopen h with hs | ha
              · exact Or.inl ⟨hs, hopen, hrest⟩
              · exact Or.inr (Or.inl ⟨ha, hrest⟩)
            · exact Or.inr (Or.inr hlifted)
          · rintro (⟨_, hopen, hrest⟩ | ⟨ha, hrest⟩ | hlifted)
            · exact Or.inl ⟨hopen, hrest⟩
            · exact Or.inl ⟨step_grants ha h, hrest⟩
            · exact Or.inr hlifted

/-- What anybody may call. -/
def Action.open : Action → Bool
  | .checkRisk _ _ | .execute _ _ _ _ | .receive _ => true
  | _ => false

theorem step_owner {a : Action} (hm : a.msg = some m) (ha : a.open = false)
    (h : step c a s = .ok s') : m.sender = c.owner := by
  cases a with
  | checkRisk _ _ => cases ha
  | execute _ _ _ _ => cases ha
  | receive _ => cases ha
  | outside _ => cases hm
  | _ =>
      cases hm
      simp only [step, callFrom_eq_ok, deposit, allocate, deallocate, withdraw, authorizeExecutor,
        revokeExecutor, stop, setBounds, close, rescueUntrackedToken, rescueNative, onlyOwner,
        bind_eq_ok, require_eq_ok] at h
      obtain ⟨_, _, _, howner, _⟩ := h
      exact howner

end TradingVault
end AlphaForge
