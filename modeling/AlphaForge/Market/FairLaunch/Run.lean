/-
Every run of the fair launch.

While the sale is open the launch holds the unsold half, the pool's PASS and the
pool's AF-USDC, and the factory waits for it: that is what the last subscription
needs, and no earlier call or outside account can take it away.
-/
import AlphaForge.Market.FairLaunch

namespace AlphaForge
namespace FairLaunch

open Evm Machine MarketTypes

variable {c : Config} {g : Signatures} {m : Msg} {x : View} {s s' : State}

/-- Facts of the deployment that no code checks: these contracts sit at different
addresses, and a pool created later gets an address none of them has. -/
structure Deployed (c : Config) : Prop where
  selfNonzero : c.self ≠ 0
  factoryNonzero : c.factory.self ≠ 0
  selfReserve : c.self ≠ c.reserve.self
  newPool : ∀ n, c.factory.newPool n ≠ 0 ∧ c.factory.newPool n ≠ c.self ∧
    c.factory.newPool n ≠ c.pass ∧ c.factory.newPool n ≠ c.usdc

/-- What the constructor checked of the immutables. -/
structure Identity (c : Config) : Prop where
  tokens : c.pass ≠ c.usdc
  factoryUsdc : c.factory.usdc = c.usdc
  lpRecipient : c.lpRecipient ≠ 0 ∧ c.lpRecipient ≠ c.factory.self

/-- `passAmount` of a `Subscription`. -/
def Event.passSubscribed : Event → Nat
  | .subscription _ passAmount _ _ _ => passAmount
  | _ => 0

/-- `usdcAmount` of a `Subscription`. -/
def Event.usdcSubscribed : Event → Nat
  | .subscription _ _ usdcAmount _ _ => usdcAmount
  | _ => 0

/-- What the sale has promised so far. -/
structure Accounts (s : State) : Prop where
  multiple : s.sold % (2 * 10 ^ 12) = 0
  bound : s.sold ≤ publicSupply
  passTotal : (s.log.map Event.passSubscribed).sum = s.sold
  usdcTotal : (s.log.map Event.usdcSubscribed).sum = s.sold / (2 * 10 ^ 12)
  notSoldOut : s.phase ≠ .soldOut
  launched : s.phase = .launched ↔ s.sold = publicSupply

/-- What the launch must hold for its last subscription to go through. -/
structure Stocked (c : Config) (s : State) : Prop where
  pass : lpPass + publicSupply - s.sold ≤ s.tokens.balanceOf c.pass c.self
  usdc : lpUsdc ≤ s.tokens.balanceOf c.usdc c.self
  quietPass : s.tokens.QuietAt c.pass c.self
  quietUsdc : s.tokens.QuietAt c.usdc c.self
  initializer : s.factory.initializer c.pass = c.self
  noPool : s.factory.getPool c.pass = 0

structure Invariant (c : Config) (s : State) : Prop where
  accounts : Accounts s
  preparing : s.phase = .preparing →
    s.sold = 0 ∧ s.tokens.QuietAt c.pass c.self ∧ s.tokens.QuietAt c.usdc c.self
  minting : s.phase = .minting → Stocked c s

/-! ## What other accounts leave alone -/

structure Undisturbed (c : Config) (s s' : State) : Prop where
  phase : s'.phase = s.phase
  sold : s'.sold = s.sold
  log : s'.log = s.log
  factory : s.factory.initializer c.pass = c.self →
    s'.factory.initializer c.pass = c.self ∧
      s'.factory.getPool c.pass = s.factory.getPool c.pass
  pass : Tokens.Spares c.pass c.self s.tokens s'.tokens
  usdc : Tokens.Spares c.usdc c.self s.tokens s'.tokens

theorem Undisturbed.refl (s : State) : Undisturbed c s s :=
  ⟨rfl, rfl, rfl, fun h => ⟨h, rfl⟩, Tokens.Spares.refl _, Tokens.Spares.refl _⟩

theorem Undisturbed.trans {s'' : State} (h₁ : Undisturbed c s s') (h₂ : Undisturbed c s' s'') :
    Undisturbed c s s'' where
  phase := h₂.phase.trans h₁.phase
  sold := h₂.sold.trans h₁.sold
  log := h₂.log.trans h₁.log
  factory h := by
    have hfirst := h₁.factory h
    have hsecond := h₂.factory hfirst.1
    exact ⟨hsecond.1, hsecond.2.trans hfirst.2⟩
  pass := h₁.pass.trans h₂.pass
  usdc := h₁.usdc.trans h₂.usdc

theorem Undisturbed.stocked (h : Undisturbed c s s') (hs : Stocked c s) : Stocked c s' := by
  obtain ⟨hquietPass, hpass⟩ := h.pass hs.quietPass
  obtain ⟨hquietUsdc, husdc⟩ := h.usdc hs.quietUsdc
  obtain ⟨hinit, hpool⟩ := h.factory hs.initializer
  refine ⟨?_, Nat.le_trans hs.usdc husdc, hquietPass, hquietUsdc, hinit, hpool.trans hs.noPool⟩
  rw [h.sold]
  exact Nat.le_trans hs.pass hpass

theorem Undisturbed.invariant (h : Undisturbed c s s') (hi : Invariant c s) : Invariant c s' := by
  refine ⟨⟨?_, ?_, ?_, ?_, ?_, ?_⟩, fun hp => ?_, fun hp => ?_⟩
  · rw [h.sold]; exact hi.accounts.multiple
  · rw [h.sold]; exact hi.accounts.bound
  · rw [h.log, h.sold]; exact hi.accounts.passTotal
  · rw [h.log, h.sold]; exact hi.accounts.usdcTotal
  · rw [h.phase]; exact hi.accounts.notSoldOut
  · rw [h.phase, h.sold]; exact hi.accounts.launched
  · rw [h.phase] at hp
    obtain ⟨hsold, hquietPass, hquietUsdc⟩ := hi.preparing hp
    exact ⟨h.sold.trans hsold, (h.pass hquietPass).1, (h.usdc hquietUsdc).1⟩
  · rw [h.phase] at hp
    exact h.stocked (hi.minting hp)

theorem environmentStep_undisturbed (hd : Deployed c) {e : Environment}
    (h : environmentStep c g e s = .ok s') : Undisturbed c s s' := by
  cases e with
  | outside calls =>
      simp only [environmentStep, Except.ok.injEq] at h
      subst h
      have hout : Tokens.OutsideStep (own c) s.tokens (s.tokens.outside (own c) calls) :=
        Tokens.outside_step s.tokens calls
      have hself : c.self ∈ own c := by simp [own]
      exact ⟨rfl, rfl, rfl, fun h => ⟨h, rfl⟩, Tokens.Spares.of_outsideStep hout hself,
        Tokens.Spares.of_outsideStep hout hself⟩
  | configureInitializer m x pass launcher =>
      simp only [environmentStep, callFrom_eq_ok, bind_eq_ok, pure_eq_ok] at h
      obtain ⟨_, _, factory, hf, rfl⟩ := h
      obtain ⟨hzero, hinit, hpool⟩ := PassFactory.configureInitializer_ok hf
      refine ⟨rfl, rfl, rfl, fun hself => ?_, Tokens.Spares.refl _, Tokens.Spares.refl _⟩
      -- an initializer is set once, so another configuration is for another token
      have hne : c.pass ≠ pass := by
        intro he
        rw [← he, hself] at hzero
        exact hd.selfNonzero hzero
      refine ⟨?_, by rw [hpool]⟩
      rw [hinit, Function.update_of_ne hne]
      exact hself
  | createPool m x pass lpRecipient =>
      simp only [environmentStep, callFrom_eq_ok, bind_eq_ok, pure_eq_ok] at h
      obtain ⟨hout, _, ⟨k, factory, pool, shares⟩, hf, rfl⟩ := h
      obtain ⟨hsender, _, _, _, _, hinit, hpool, _⟩ := PassFactory.createPool_ok hf
      have hcaller : c.self ≠ m.sender := fun e => hout (by simp [own, ← e])
      have hnew := hd.newPool s.factory.created
      refine ⟨rfl, rfl, rfl, fun hself => ?_,
        PassFactory.createPool_spares hcaller hnew.2.2.1.symm hf,
        PassFactory.createPool_spares hcaller hnew.2.2.2.symm hf⟩
      -- only the launch may create the pool of its own token
      have hne : c.pass ≠ pass := by
        intro he
        rw [← he, hself] at hsender
        exact hcaller hsender.symm
      refine ⟨by rw [hinit]; exact hself, ?_⟩
      rw [hpool, Function.update_of_ne hne]
  | reserve a =>
      simp only [environmentStep, bind_eq_ok, require_eq_ok, pure_eq_ok] at h
      obtain ⟨_, hcallers, r, hr, rfl⟩ := h
      have hcaller : c.self ∉ a.callers := fun hmem => hcallers c.self hmem (by simp [own])
      exact ⟨rfl, rfl, rfl, fun h => ⟨h, rfl⟩,
        NativeReserve.step_spares hd.selfReserve hcaller hr,
        NativeReserve.step_spares hd.selfReserve hcaller hr⟩

theorem callback_undisturbed (hd : Deployed c) (callback : List Environment) :
    Undisturbed c s (exec (environmentStep c g) s callback) :=
  exec_invariant (P := fun t => Undisturbed c s t)
    (fun _ _ _ ht h => ht.trans (environmentStep_undisturbed hd h)) (Undisturbed.refl s) callback

/-! ## What an accepted call did -/

theorem mintCost_ok {passAmount cost : Nat} (h : mintCost passAmount = .ok cost) :
    passAmount ≠ 0 ∧ passAmount % (2 * 10 ^ 12) = 0 ∧ cost = passAmount / (2 * 10 ^ 12) := by
  simp only [mintCost, bind_eq_ok, require_eq_ok, pure_eq_ok] at h
  obtain ⟨_, ⟨hne, hmod⟩, rfl⟩ := h
  exact ⟨hne, hmod, rfl⟩

theorem validate_ok {passAmount deadline : Nat} {u : Unit}
    (h : validate c m passAmount deadline s = .ok u) :
    s.phase = .minting ∧ s.sold + passAmount ≤ publicSupply := by
  simp only [validate, bind_eq_ok, require_eq_ok, checkedSub_eq_ok] at h
  obtain ⟨_, ⟨_, hphase, _⟩, _, _, _, ⟨hle, rfl⟩, _, hleft, _⟩ := h
  exact ⟨hphase, by omega⟩

theorem launch_ok (h : launch c m x s = .ok s') :
    s'.phase = .launched ∧ s'.sold = s.sold ∧
      (s'.log.map Event.passSubscribed).sum = (s.log.map Event.passSubscribed).sum ∧
      (s'.log.map Event.usdcSubscribed).sum = (s.log.map Event.usdcSubscribed).sum := by
  simp only [launch, bind_eq_ok] at h
  obtain ⟨k₁, _, k₂, _, ⟨k₃, factory, pool, shares⟩, _, k₄, _, k₅, _, h⟩ := h
  dsimp only at h
  split at h
  · cases h
  · next market _ =>
    simp only [bind_eq_ok, require_eq_ok, pure_eq_ok] at h
    obtain ⟨_, _, rfl⟩ := h
    exact ⟨rfl, rfl, by simp [State.emit, Event.passSubscribed],
      by simp [State.emit, Event.usdcSubscribed]⟩

/-- A delivery moves the PASS out and books it; the last one ends in `LAUNCHED`. -/
theorem deliver_ok {passAmount cost nativeAmount : Nat}
    (h : deliver c m x passAmount cost nativeAmount s = .ok s') :
    s'.sold = s.sold + passAmount ∧
      (s'.log.map Event.passSubscribed).sum = (s.log.map Event.passSubscribed).sum + passAmount ∧
      (s'.log.map Event.usdcSubscribed).sum = (s.log.map Event.usdcSubscribed).sum + cost ∧
      (s.sold + passAmount = publicSupply ∧ s'.phase = .launched ∨
        s.sold + passAmount ≠ publicSupply ∧ s'.phase = s.phase ∧ s'.factory = s.factory ∧
          s.tokens.Moved s'.tokens c.pass c.self m.sender passAmount) := by
  simp only [deliver, bind_eq_ok, checkedAdd_eq_ok] at h
  obtain ⟨_, ⟨_, rfl⟩, k, hk, h⟩ := h
  have hmoved := Tokens.sendExactBoth_ok hk
  split at h
  · next hlast =>
    obtain ⟨hphase, hsold, hpass, husdc⟩ := launch_ok h
    refine ⟨hsold, hpass.trans ?_, husdc.trans ?_, Or.inl ⟨hlast, hphase⟩⟩
    · simp [State.emit, Event.passSubscribed]
    · simp [State.emit, Event.usdcSubscribed]
  · next hlast =>
    simp only [pure_eq_ok] at h
    subst h
    refine ⟨rfl, ?_, ?_, Or.inr ⟨hlast, rfl, rfl, hmoved⟩⟩
    · simp [State.emit, Event.passSubscribed]
    · simp [State.emit, Event.usdcSubscribed]

/-- A delivery of whole units from an open sale that has them keeps the
invariant. -/
theorem deliver_invariant {passAmount cost nativeAmount : Nat} (hid : Identity c)
    (hi : Invariant c s)
    (hphase : s.phase = .minting) (hle : s.sold + passAmount ≤ publicSupply)
    (hcost : mintCost passAmount = .ok cost)
    (h : deliver c m x passAmount cost nativeAmount s = .ok s') : Invariant c s' := by
  obtain ⟨_, hmod, rfl⟩ := mintCost_ok hcost
  obtain ⟨hsold, hpassLog, husdcLog, hcases⟩ := deliver_ok h
  have hmultiple := hi.accounts.multiple
  have hpassTotal := hi.accounts.passTotal
  have husdcTotal := hi.accounts.usdcTotal
  have hstock := hi.minting hphase
  have hpasses : (s'.log.map Event.passSubscribed).sum = s'.sold := by
    rw [hpassLog, hpassTotal, hsold]
  have husdcs : (s'.log.map Event.usdcSubscribed).sum = s'.sold / (2 * 10 ^ 12) := by
    rw [husdcLog, husdcTotal, hsold]
    omega
  rcases hcases with ⟨hlast, hlaunched⟩ | ⟨hmore, hsame, hfactory, hmoved⟩
  · refine ⟨⟨by omega, by omega, hpasses, husdcs, ?_, ?_⟩, fun hp => ?_, fun hp => ?_⟩
    · rw [hlaunched]; decide
    · exact ⟨fun _ => hsold.trans hlast, fun _ => hlaunched⟩
    · rw [hlaunched] at hp; cases hp
    · rw [hlaunched] at hp; cases hp
  · have hminting : s'.phase = .minting := hsame.trans hphase
    refine ⟨⟨by omega, by omega, hpasses, husdcs, ?_, ?_⟩, fun hp => ?_, fun _ => ?_⟩
    · rw [hminting]; decide
    · rw [hminting, hsold]
      exact ⟨fun hp => (by cases hp), fun he => absurd he hmore⟩
    · rw [hminting] at hp; cases hp
    · have hpass := hmoved.balance_src
      have hfunded := hstock.pass
      refine ⟨by omega, ?_, ?_, ?_, ?_, ?_⟩
      · rw [hmoved.balance_token hid.tokens.symm]; exact hstock.usdc
      · exact hmoved.quietAt hstock.quietPass
      · exact hmoved.quietAt hstock.quietUsdc
      · rw [hfactory]; exact hstock.initializer
      · rw [hfactory]; exact hstock.noPool

/-! ## One step and a whole run -/

theorem openMint_invariant (hi : Invariant c s) (h : openMint c m x s = .ok s') :
    Invariant c s' := by
  simp only [openMint, bind_eq_ok, require_eq_ok, pure_eq_ok] at h
  obtain ⟨_, ⟨_, _, hphase⟩, _, ⟨hinit, hpool⟩, _, ⟨hpass, husdc⟩, _, _, _, _, _, _, _, _, rfl⟩ := h
  obtain ⟨hsold, hquietPass, hquietUsdc⟩ := hi.preparing hphase
  have hacc := hi.accounts
  refine ⟨⟨hacc.multiple, hacc.bound, ?_, ?_, by simp [State.emit], ?_⟩, fun hp => ?_, fun _ => ?_⟩
  · simpa [State.emit, Event.passSubscribed] using hacc.passTotal
  · simpa [State.emit, Event.usdcSubscribed] using hacc.usdcTotal
  · have hzero : s.sold ≠ publicSupply := by rw [hsold]; decide
    simp [State.emit, hzero]
  · cases hp
  · refine ⟨?_, husdc, hquietPass, hquietUsdc, hinit, hpool⟩
    have htotal : lpPass + publicSupply - s.sold = totalSupply := by rw [hsold]; rfl
    show lpPass + publicSupply - s.sold ≤ s.tokens.balanceOf c.pass c.self
    rw [htotal]
    exact hpass

theorem step_invariant (hd : Deployed c) (hid : Identity c) (a : Action) (hi : Invariant c s)
    (h : step c g a s = .ok s') : Invariant c s' := by
  cases a with
  | openMint m x =>
      simp only [step, callFrom_eq_ok] at h
      exact openMint_invariant hi h.2.2
  | subscribeUsdc m x passAmount deadline =>
      simp only [step, callFrom_eq_ok, subscribeUsdc, bind_eq_ok] at h
      obtain ⟨hout, _, _, hv, cost, hcost, k, hk, h⟩ := h
      obtain ⟨hphase, hle⟩ := validate_ok hv
      have hcaller : c.self ≠ m.sender := fun e => hout (by simp [own, ← e])
      have hmoved := Tokens.pullExact_ok hk
      have hpaid : Undisturbed c s { s with tokens := k } :=
        ⟨rfl, rfl, rfl, fun h => ⟨h, rfl⟩, Tokens.Spares.of_moved hmoved hcaller,
          Tokens.Spares.of_moved hmoved hcaller⟩
      exact deliver_invariant hid (hpaid.invariant hi) hphase hle hcost h
  | subscribeEth m x passAmount quote signature callback =>
      simp only [step, payFrom_eq_ok, subscribeEth, bind_eq_ok, require_eq_ok] at h
      obtain ⟨_, _, hv, _, _, r, hr, _, _, cost, hcost, h⟩ := h
      obtain ⟨hphase, hle⟩ := validate_ok hv
      obtain ⟨_, _, hres⟩ := NativeReserve.consume_ok (NativeReserve.consumeMintQuote_ok hr)
      have htokens : r.tokens = s.tokens := by rw [hres]; rfl
      have hquote : Undisturbed c s { s with tokens := r.tokens, reserve := r } := by
        rw [htokens]
        exact ⟨rfl, rfl, rfl, fun h => ⟨h, rfl⟩, Tokens.Spares.refl _, Tokens.Spares.refl _⟩
      have hcall := hquote.trans (callback_undisturbed (g := g) hd callback)
      refine deliver_invariant hid (hcall.invariant hi) (hcall.phase.trans hphase) ?_ hcost h
      rw [hcall.sold]
      exact hle
  | environment e =>
      exact (environmentStep_undisturbed hd h).invariant hi

end FairLaunch
end AlphaForge
