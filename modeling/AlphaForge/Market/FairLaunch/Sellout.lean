/-
The last subscription of the fair launch.

Whoever can pay for all that is left ends the sale: the delivery, the pool's
creation by the factory, its funding and every check of the final validation
follow from what the open sale holds.
-/
import AlphaForge.Market.FairLaunch.Run

namespace AlphaForge
namespace FairLaunch

open Evm Machine MarketTypes

variable {c : Config} {g : Signatures} {m : Msg} {x : View} {s s' : State}

/-- A sale that has ended: its pool has exactly the promised reserves, and every
LP share there is belongs to `lpRecipient`. -/
structure Live (c : Config) (s : State) : Prop where
  phase : s.phase = .launched
  pool : s.factory.getPool c.pass = s.pool
  reserves : ∃ market, s.factory.market s.pool = some market ∧ market.initialized = true ∧
    market.reservePass = lpPass ∧ market.reserveUsdc = lpUsdc
  supply : s.tokens.totalSupply s.pool = s.lpShares ∧ s.lpShares ≠ 0
  shares : ∀ a, s.tokens.balanceOf s.pool a = if a = c.lpRecipient then s.lpShares else 0

theorem launch_succeeds (hd : Deployed c) (hid : Identity c) (hchain : m.chainId = testnetChainId)
    (hcode : x.hasCode c.pass = true ∧ x.hasCode c.usdc = true)
    (hpass : lpPass ≤ s.tokens.balanceOf c.pass c.self)
    (husdc : lpUsdc ≤ s.tokens.balanceOf c.usdc c.self)
    (hinit : s.factory.initializer c.pass = c.self) (hpool : s.factory.getPool c.pass = 0) :
    ∃ s', launch c m x s = .ok s' ∧ Live c s' := by
  let k := (s.tokens.setAllowance c.pass c.self c.factory.self lpPass).setAllowance
    c.usdc c.self c.factory.self lpUsdc
  obtain ⟨hnew0, hnewSelf, hnewPass, hnewUsdc⟩ := hd.newPool s.factory.created
  have husdcIs := hid.factoryUsdc
  obtain ⟨⟨k', factory, pool, shares⟩, hcreate⟩ :=
    PassFactory.createPool_succeeds (c := c.factory) (m := { m with sender := c.self, value := 0 })
      (x := x) (k := k) (s := s.factory) hchain hinit.symm hpool hid.lpRecipient
      ⟨by rw [husdcIs]; exact hid.tokens, hcode.1, by rw [husdcIs]; exact hcode.2⟩
      hd.factoryNonzero hd.selfNonzero
      ⟨hnew0, hnewSelf, hnewPass, by rw [husdcIs]; exact hnewUsdc⟩
      ⟨by simp [k, hid.tokens, lpPass], hpass⟩
      ⟨by simp [k, husdcIs, lpUsdc], by rw [husdcIs]; exact husdc⟩
  obtain ⟨_, _, _, _, hne, _, hget, hmarket⟩ := PassFactory.createPool_ok hcreate
  obtain ⟨hsupply, hshares⟩ := PassFactory.createPool_shares hnewPass
    (by rw [husdcIs]; exact hnewUsdc) hcreate
  have hvalid : k'.balanceOf pool c.lpRecipient = shares := by rw [hshares, if_pos rfl]
  simp only [launch, State.emit, Tokens.approve_of hd.selfNonzero hd.factoryNonzero, ok_bind]
  simp only [k] at hcreate
  simp only [hcreate, ok_bind, hmarket, Tokens.balanceOf_setAllowance, bind_eq_ok, require_eq_ok,
    pure_eq_ok]
  refine ⟨_, ⟨(), ⟨trivial, rfl, rfl, hvalid, hne, trivial⟩, rfl⟩, ?_⟩
  exact ⟨rfl, by rw [hget, Function.update_self], ⟨_, hmarket, rfl, rfl, rfl⟩, ⟨hsupply, hne⟩,
    hshares⟩

/-- A buyer who can pay for `passAmount`: it holds and has approved the cost. -/
structure Funded (c : Config) (s : State) (m : Msg) (passAmount : Nat) : Prop where
  balance : passAmount / (2 * 10 ^ 12) ≤ s.tokens.balanceOf c.usdc m.sender
  allowance : passAmount / (2 * 10 ^ 12) ≤ s.tokens.allowance c.usdc m.sender c.self

theorem subscribeUsdc_succeeds {deadline : Nat} (hd : Deployed c) (hid : Identity c)
    (hi : Invariant c s) (hphase : s.phase = .minting) (hchain : m.chainId = testnetChainId)
    (hcode : x.hasCode c.pass = true ∧ x.hasCode c.usdc = true) (hdeadline : m.timestamp ≤ deadline)
    (hsender : m.sender ≠ 0 ∧ m.sender ≠ c.self ∧ m.sender ≠ proceedsRecipient)
    (hfunded : Funded c s m (remaining s)) :
    ∃ s', subscribeUsdc c m x (remaining s) deadline s = .ok s' ∧ Live c s' := by
  have hacc := hi.accounts
  have hstock := hi.minting hphase
  have hbound := hacc.bound
  have hopen : s.sold ≠ publicSupply := by
    intro he
    have hl := hacc.launched.mpr he
    rw [hphase] at hl
    cases hl
  have hunits : remaining s ≠ 0 ∧ remaining s % (2 * 10 ^ 12) = 0 := by
    have hmod := hacc.multiple
    unfold remaining
    unfold publicSupply at hopen hbound ⊢
    omega
  have hcost : mintCost (remaining s) = .ok (remaining s / (2 * 10 ^ 12)) := by
    rw [mintCost, require_of hunits, ok_bind]
    rfl
  have hvalid : validate c m (remaining s) deadline s = .ok () := by
    have hlive : m.chainId = testnetChainId ∧ s.phase = .minting ∧ m.timestamp ≤ deadline :=
      ⟨hchain, hphase, hdeadline⟩
    have hleft : remaining s ≤ publicSupply - s.sold := Nat.le_refl _
    rw [validate, require_of hlive, ok_bind, hcost, ok_bind, checkedSub_of hbound, ok_bind,
      require_of hleft, ok_bind, require_of hsender.2.1]
  obtain ⟨k₁, hk₁⟩ := Tokens.pullExact_of (.reason "PAYMENT_MISMATCH" : Revert Empty)
    hd.selfNonzero hsender.1 (by decide) hsender.2.2 hfunded.allowance hfunded.balance
  have hpaid := Tokens.pullExact_ok hk₁
  have hpassKept : k₁.balanceOf c.pass c.self = s.tokens.balanceOf c.pass c.self :=
    hpaid.balance_token hid.tokens c.self
  have hpassHeld := hstock.pass
  have henough : remaining s ≤ k₁.balanceOf c.pass c.self := by
    rw [hpassKept]
    unfold remaining
    omega
  obtain ⟨k₂, hk₂⟩ := Tokens.sendExactBoth_of (.reason "DELIVERY_MISMATCH" : Revert Empty)
    hd.selfNonzero hsender.1 hsender.2.1.symm henough
  have hsent := Tokens.sendExactBoth_ok hk₂
  have hlpPass : lpPass ≤ k₂.balanceOf c.pass c.self := by
    rw [hsent.balance_src, hpassKept]
    unfold remaining
    omega
  have hlpUsdc : lpUsdc ≤ k₂.balanceOf c.usdc c.self := by
    rw [hsent.balance_token hid.tokens.symm]
    exact Nat.le_trans hstock.usdc (hpaid.balance_le hsender.2.1.symm c.usdc)
  have hall : s.sold + remaining s = publicSupply := by
    unfold remaining
    omega
  have hsum : s.sold + remaining s ≤ maxUint256 := by
    rw [hall]
    decide
  obtain ⟨s', hs', hlive⟩ := launch_succeeds (m := m) (x := x)
    (s := { s with sold := s.sold + remaining s, tokens := k₂ }.emit
      (.subscription m.sender (remaining s) (remaining s / (2 * 10 ^ 12)) 0 (s.sold + remaining s)))
    hd hid hchain hcode hlpPass hlpUsdc hstock.initializer hstock.noPool
  refine ⟨s', ?_, hlive⟩
  rw [subscribeUsdc, hvalid, ok_bind, hcost, ok_bind, hk₁, ok_bind, deliver, checkedAdd_of hsum,
    ok_bind, hk₂, ok_bind]
  exact (if_pos hall).trans hs'

/-! ## Every run -/

theorem constructor_invariant {self owner pass usdc lpRecipient : Address}
    {factory : PassFactory.Config} {reserve : NativeReserve.Config} {tokens : Tokens}
    {factoryState : PassFactory.State} {reserveState : NativeReserve.State}
    (h : constructor m x self owner pass usdc factory reserve lpRecipient tokens factoryState
      reserveState = .ok (c, s))
    (hpass : s.tokens.QuietAt c.pass c.self) (husdc : s.tokens.QuietAt c.usdc c.self) :
    Identity c ∧ Invariant c s := by
  simp only [constructor, bind_eq_ok, require_eq_ok, pure_eq_ok, Prod.mk.injEq] at h
  obtain ⟨_, _, _, _, _, ⟨hlp, _, hlpFactory, _⟩, _, ⟨hne, _⟩, _, ⟨hfactory, _⟩, rfl, rfl⟩ := h
  refine ⟨⟨hne, hfactory, hlp, hlpFactory⟩, ⟨?_, fun _ => ⟨rfl, hpass, husdc⟩, fun hp => ?_⟩⟩
  · refine ⟨rfl, Nat.zero_le _, rfl, by simp, by simp, ?_⟩
    simp [publicSupply]
  · cases hp

/-- From its construction on, whatever is called by whomever, the sale's books
agree with its events, an open sale holds what it still owes the buyers and the
pool, and anybody who can pay for the rest ends it with the pool as promised. -/
theorem sale_accounts_and_last_subscription {self owner pass usdc lpRecipient : Address}
    {factory : PassFactory.Config} {reserve : NativeReserve.Config} {tokens : Tokens}
    {factoryState : PassFactory.State} {reserveState : NativeReserve.State}
    (hnew : constructor m x self owner pass usdc factory reserve lpRecipient tokens factoryState
      reserveState = .ok (c, s))
    (hd : Deployed c) (hpass : s.tokens.QuietAt c.pass c.self)
    (husdc : s.tokens.QuietAt c.usdc c.self) (as : List Action) :
    Accounts (exec (step c g) s as) ∧
      ((exec (step c g) s as).phase = .minting →
        lpPass + publicSupply - (exec (step c g) s as).sold ≤
            (exec (step c g) s as).tokens.balanceOf c.pass c.self ∧
          lpUsdc ≤ (exec (step c g) s as).tokens.balanceOf c.usdc c.self) ∧
      ∀ (m : Msg) (x : View) (deadline : Nat), (exec (step c g) s as).phase = .minting →
        m.chainId = testnetChainId → m.value = 0 → m.timestamp ≤ deadline →
        x.hasCode c.pass = true ∧ x.hasCode c.usdc = true →
        m.sender ∉ own c → m.sender ≠ 0 → m.sender ≠ proceedsRecipient →
        Funded c (exec (step c g) s as) m (remaining (exec (step c g) s as)) →
        ∃ s', step c g (.subscribeUsdc m x (remaining (exec (step c g) s as)) deadline)
          (exec (step c g) s as) = .ok s' ∧ Live c s' := by
  obtain ⟨hid, hstart⟩ := constructor_invariant hnew hpass husdc
  have hi : Invariant c (exec (step c g) s as) :=
    exec_invariant (P := Invariant c) (fun a _ _ hi h => step_invariant hd hid a hi h) hstart as
  refine ⟨hi.accounts, fun hphase => ⟨(hi.minting hphase).pass, (hi.minting hphase).usdc⟩, ?_⟩
  intro m x deadline hphase hchain hvalue hdeadline hcode hout hzero hproceeds hfunded
  have hself : m.sender ≠ c.self := fun e => hout (by simp [own, e])
  obtain ⟨s', hs', hlive⟩ := subscribeUsdc_succeeds hd hid hi hphase hchain hcode hdeadline
    ⟨hzero, hself, hproceeds⟩ hfunded
  refine ⟨s', ?_, hlive⟩
  rw [step, callFrom_eq_ok]
  exact ⟨hout, hvalue, hs'⟩

def exampleView : View :=
  { hasCode := fun a => a = 3 ∨ a = 4 ∨ a = 5 ∨ a = 6, router := fun _ => ⟨6, 4, 5⟩,
    decimals := fun a => if a = 3 then 18 else 6, strategyId := fun _ => none,
    acceptsValue := fun _ => true }

/-- The launch at 1 holds the whole PASS supply and the pool's AF-USDC, and the
buyer at 9 has approved the price of the public half. -/
def exampleTokens : Tokens :=
  { balanceOf := fun token holder =>
      if token = 3 ∧ holder = 1 then totalSupply
      else if token = 4 ∧ holder = 6 then 1
      else if token = 4 ∧ (holder = 1 ∨ holder = 9) then 250000 * 10 ^ 6 else 0
    allowance := fun token owner spender =>
      if token = 4 ∧ owner = 9 ∧ spender = 1 then 250000 * 10 ^ 6 else 0
    totalSupply := fun token => if token = 3 then totalSupply else 0 }

def exampleFactory : PassFactory.State :=
  { initializer := fun token => if token = 3 then 1 else 0, getPool := fun _ => 0, created := 0,
    market := fun _ => none, log := [] }

def exampleReserve : NativeReserve.State :=
  { tokens := exampleTokens, balance := 10, quoteSigner := 10, quoteEpoch := 1,
    ethInputPaused := false, ethOutputPaused := false, authorizedRouter := fun a => a = 1 ∨ a = 8,
    tradingRouter := 8, usedNonce := fun _ _ => false, accountDaySpent := fun _ _ => 0,
    globalDaySpent := fun _ => 0, limits := ⟨1, 2, 3, 4⟩, log := [] }

theorem sale_opened_and_sold_out :
    ∃ c s, constructor ⟨2, 0, 99, testnetChainId⟩ exampleView 1 2 3 4 ⟨5, 2, 4, fun _ => 100⟩
        ⟨6, 2, 4, 30⟩ 7 exampleTokens exampleFactory exampleReserve = .ok (c, s) ∧
      ∃ s', step c ⟨fun _ => 0, fun _ _ _ _ => 0⟩
        (.subscribeUsdc ⟨9, 0, 101, testnetChainId⟩ exampleView publicSupply 200)
        (exec (step c ⟨fun _ => 0, fun _ _ _ _ => 0⟩) s
          [.openMint ⟨2, 0, 100, testnetChainId⟩ exampleView]) = .ok s' ∧ Live c s' := by
  have h : constructor ⟨2, 0, 99, testnetChainId⟩ exampleView 1 2 3 4 ⟨5, 2, 4, fun _ => 100⟩
      ⟨6, 2, 4, 30⟩ 7 exampleTokens exampleFactory exampleReserve = .ok (_, _) := rfl
  have hd : Deployed ⟨1, 2, 3, 4, ⟨5, 2, 4, fun _ => 100⟩, ⟨6, 2, 4, 30⟩, 7⟩ :=
    ⟨by decide, by decide, by decide, fun _ => ⟨by simp, by simp, by simp, by simp⟩⟩
  have hrun := sale_accounts_and_last_subscription (g := ⟨fun _ => 0, fun _ _ _ _ => 0⟩) h hd
    (fun _ => by simp [exampleTokens]) (fun _ => by simp [exampleTokens])
    [.openMint ⟨2, 0, 100, testnetChainId⟩ exampleView]
  exact ⟨_, _, h, hrun.2.2 ⟨9, 0, 101, testnetChainId⟩ exampleView 200 rfl rfl rfl (by decide)
    (by decide) (by decide) (by decide) (by decide) ⟨by decide, by decide⟩⟩

end FairLaunch
end AlphaForge
