/-
No operation on the pool lowers the worth of an LP share.

The fee rounds up, the swap output down, a deposit up and a withdrawal down, so
each of the four calls falls under one of the rounding lemmas of `Amm.Share`.
The supply never reaches zero, because the last share cannot be removed, and so
the comparison composes along a run.
-/
import AlphaForge.Market.PassPool
import AlphaForge.Amm.Share

namespace AlphaForge
namespace PassPool

open Evm Machine Amm

variable {c : Config} {m : Msg} {recipient : Address} {deadline : Nat} {s s' : State}

/-- The pool as a pair of holdings against its LP supply. -/
def State.shares (c : Config) (s : State) : Shares :=
  ⟨s.reservePass, s.reserveUsdc, s.totalSupply c⟩

/-- `output` as the rounded-down quotient that the swap lemma asks for. -/
theorem quote_output_mul_le {initialized : Bool} {reserveIn reserveOut amount output fee : Nat}
    (h : quote initialized reserveIn reserveOut amount = .ok (output, fee)) :
    output * (reserveIn + (amount - fee)) ≤ reserveOut * (amount - fee) := by
  obtain ⟨_, _, _, _, _, ho⟩ := quote_ok h
  rw [ho]
  exact Nat.div_mul_le_self _ _

theorem quote_product {initialized : Bool} {reserveIn reserveOut amount output fee : Nat}
    (h : quote initialized reserveIn reserveOut amount = .ok (output, fee)) :
    reserveIn * reserveOut ≤ (reserveIn + amount) * (reserveOut - output) := by
  have hq := quote_ok h
  exact swap_product (Nat.sub_le amount fee) (Nat.le_of_lt hq.2.2.2.1) (quote_output_mul_le h)

theorem buy_noWorse {amount minOut output : Nat}
    (h : buy c m amount minOut recipient deadline s = .ok (s', output)) :
    (s.shares c).NoWorse (s'.shares c) ∧ s'.totalSupply c = s.totalSupply c := by
  obtain ⟨_, ⟨fee, hq⟩, _, _, ⟨k, hk, hk'⟩, _, hu, hp⟩ := buy_ok h
  have hs : s'.totalSupply c = s.totalSupply c := by
    simp only [State.totalSupply, hk'.supply, hk.supply]
  refine ⟨noWorse_of_product hs ?_, hs⟩
  have hprod := quote_product hq
  simp only [State.shares, hu, hp]
  rw [Nat.mul_comm, Nat.mul_comm (s.reservePass - output)]
  exact hprod

theorem sell_noWorse {amount minOut output : Nat}
    (h : sell c m amount minOut recipient deadline s = .ok (s', output)) :
    (s.shares c).NoWorse (s'.shares c) ∧ s'.totalSupply c = s.totalSupply c := by
  obtain ⟨_, ⟨fee, hq⟩, _, _, ⟨k, hk, hk'⟩, _, hp, hu⟩ := sell_ok h
  have hs : s'.totalSupply c = s.totalSupply c := by
    simp only [State.totalSupply, hk'.supply, hk.supply]
  refine ⟨noWorse_of_product hs ?_, hs⟩
  simp only [State.shares, hu, hp]
  exact quote_product hq

theorem addLiquidity_noWorse {shares maxPass maxUsdc passAmount usdcAmount : Nat}
    (h : addLiquidity c m shares maxPass maxUsdc recipient deadline s =
      .ok (s', passAmount, usdcAmount)) :
    (s.shares c).NoWorse (s'.shares c) ∧ s'.totalSupply c = s.totalSupply c + shares := by
  obtain ⟨_, _, _, hp, hu, ⟨k, k', hk, hk', hmint⟩, _, hp', hu'⟩ := addLiquidity_ok h
  have hs : s'.totalSupply c = s.totalSupply c + shares := by
    have hsup := (Tokens.mint_ok hmint).2.1
    simp only [State.totalSupply, hsup, hk'.supply, hk.supply]
  have hpass := (mulDivCeil_eq_ok hp).2.2.1
  have husdc := (mulDivCeil_eq_ok hu).2.2.1
  refine ⟨noWorse_of_scale ?_ ?_, hs⟩
  · simp only [State.shares, hp', hs]
    exact deposit_scale hpass
  · simp only [State.shares, hu', hs]
    exact deposit_scale husdc

theorem removeLiquidity_noWorse {shares minPass minUsdc passAmount usdcAmount : Nat}
    (h : removeLiquidity c m shares minPass minUsdc recipient deadline s =
      .ok (s', passAmount, usdcAmount)) :
    (s.shares c).NoWorse (s'.shares c) ∧ s'.totalSupply c = s.totalSupply c - shares ∧
      shares < s.totalSupply c := by
  obtain ⟨_, _, hlt, hp, hu, ⟨k, k', hburn, hk, hk'⟩, _, hple, hp', hule, hu'⟩ :=
    removeLiquidity_ok h
  have hs : s'.totalSupply c = s.totalSupply c - shares := by
    have hsup := (Tokens.burn_ok hburn).2.1
    simp only [State.totalSupply, hk'.supply, hk.supply, hsup]
  have hpass : passAmount * s.totalSupply c ≤ shares * s.reservePass := by
    rw [hp]
    exact Nat.div_mul_le_self _ _
  have husdc : usdcAmount * s.totalSupply c ≤ shares * s.reserveUsdc := by
    rw [hu]
    exact Nat.div_mul_le_self _ _
  refine ⟨noWorse_of_scale ?_ ?_, hs, hlt⟩
  · simp only [State.shares, hp', hs]
    exact withdraw_scale (Nat.le_of_lt hlt) hple hpass
  · simp only [State.shares, hu', hs]
    exact withdraw_scale (Nat.le_of_lt hlt) hule husdc

/-- Every accepted action, whoever takes it, keeps the worth of a share and leaves
shares outstanding. -/
theorem step_noWorse {a : Action} (hpos : 0 < s.totalSupply c) (h : step c a s = .ok s') :
    (s.shares c).NoWorse (s'.shares c) ∧ 0 < s'.totalSupply c := by
  cases a with
  | buy m amount minOut recipient deadline =>
      simp only [step, callFrom_eq_ok, map_eq_ok] at h
      obtain ⟨_, _, ⟨t, output⟩, hb, rfl⟩ := h
      obtain ⟨hw, hs⟩ := buy_noWorse hb
      exact ⟨hw, by rw [hs]; exact hpos⟩
  | sell m amount minOut recipient deadline =>
      simp only [step, callFrom_eq_ok, map_eq_ok] at h
      obtain ⟨_, _, ⟨t, output⟩, hb, rfl⟩ := h
      obtain ⟨hw, hs⟩ := sell_noWorse hb
      exact ⟨hw, by rw [hs]; exact hpos⟩
  | addLiquidity m shares maxPass maxUsdc recipient deadline =>
      simp only [step, callFrom_eq_ok, map_eq_ok] at h
      obtain ⟨_, _, ⟨t, passAmount, usdcAmount⟩, hb, rfl⟩ := h
      obtain ⟨hw, hs⟩ := addLiquidity_noWorse hb
      exact ⟨hw, by rw [hs]; omega⟩
  | removeLiquidity m shares minPass minUsdc recipient deadline =>
      simp only [step, callFrom_eq_ok, map_eq_ok] at h
      obtain ⟨_, _, ⟨t, passAmount, usdcAmount⟩, hb, rfl⟩ := h
      obtain ⟨hw, hs, hlt⟩ := removeLiquidity_noWorse hb
      exact ⟨hw, by rw [hs]; omega⟩
  | outside calls =>
      simp only [step, Except.ok.injEq] at h
      subst h
      have hs : (s.tokens.outside [c.self] calls).totalSupply = s.tokens.totalSupply :=
        (Tokens.outside_step s.tokens calls).supply
      refine ⟨noWorse_of_product ?_ (Nat.le_refl _), ?_⟩
      · simp only [State.shares, State.totalSupply, hs]
      · simp only [State.totalSupply, hs]
        exact hpos

theorem exec_noWorse (hpos : 0 < s.totalSupply c) (as : List Action) :
    (s.shares c).NoWorse ((exec (step c) s as).shares c) ∧
      0 < (exec (step c) s as).totalSupply c := by
  refine exec_invariant (P := fun t : State => (s.shares c).NoWorse (t.shares c) ∧
    0 < t.totalSupply c) ?_ ⟨Shares.NoWorse.refl _, hpos⟩ as
  intro a t t' ⟨hw, ht⟩ hstep
  obtain ⟨hw', ht'⟩ := step_noWorse ht hstep
  exact ⟨Shares.NoWorse.trans ht hw hw', ht'⟩

theorem initialise_supply_pos {passAmount usdcAmount shares : Nat}
    (h : initialise c m passAmount usdcAmount s = .ok (s', shares)) :
    0 < s'.totalSupply c ∧ 0 < s'.reservePass ∧ 0 < s'.reserveUsdc := by
  obtain ⟨_, _, rfl, rfl, _, _, hshares, hmint, _, hp, hu⟩ := initialise_ok h
  have hsup := (Tokens.mint_ok hmint).2.1
  refine ⟨?_, by omega, by omega⟩
  have hsqrt : 0 < shares := by
    rw [hshares]
    exact Nat.sqrt_pos.mpr (by norm_num)
  simp only [State.totalSupply, hsup]
  omega

/-- From a pool that has been initialized, over every sequence of calls by any
accounts and any token movements in between: each accepted call keeps
`reservePass * reserveUsdc / totalSupply ^ 2` from falling, so does every run from
one moment to a later one, and neither reserve is ever emptied. -/
theorem lp_share_worth_monotone {passAmount usdcAmount shares : Nat}
    (h : initialise c m passAmount usdcAmount s = .ok (s', shares)) (as bs : List Action) :
    (∀ t ∈ history (step c) s' as,
      t.pre.reservePass * t.pre.reserveUsdc * t.post.totalSupply c * t.post.totalSupply c ≤
        t.post.reservePass * t.post.reserveUsdc * t.pre.totalSupply c * t.pre.totalSupply c) ∧
    ((exec (step c) s' as).shares c).worth ≤ ((exec (step c) s' (as ++ bs)).shares c).worth ∧
    0 < (exec (step c) s' as).reservePass ∧ 0 < (exec (step c) s' as).reserveUsdc := by
  obtain ⟨hpos, hp, hu⟩ := initialise_supply_pos h
  refine ⟨fun t ht => ?_, ?_, ?_⟩
  · obtain ⟨hpre, hstep, _⟩ := history_invariant (P := fun t : State => 0 < t.totalSupply c)
      (fun a t t' ht hs => (step_noWorse ht hs).2) hpos ht
    exact (step_noWorse hpre hstep).1
  · have has := (exec_noWorse hpos as).2
    obtain ⟨hw, hbs⟩ := exec_noWorse has bs
    rw [exec_append]
    exact Shares.worth_le_worth has hbs hw
  · obtain ⟨hw, has⟩ := exec_noWorse hpos as
    exact Shares.NoWorse.positive hp hu has hw

def exampleConfig : Config :=
  { self := 1, factory := 2, pass := 3, usdc := 4, initialLpRecipient := 5 }

/-- A pool funded with exactly its initial reserves, and a trader with 1000 USDC
who has approved it. -/
def exampleState : State :=
  State.fresh
    { balanceOf := fun t a =>
        if t = 3 ∧ a = 1 then 500000 * 10 ^ 18
        else if t = 4 ∧ a = 1 then 250000 * 10 ^ 6
        else if t = 4 ∧ a = 6 then 1000 * 10 ^ 6 else 0
      allowance := fun t o s => if t = 4 ∧ o = 6 ∧ s = 1 then 1000 * 10 ^ 6 else 0
      totalSupply := fun t => if t = 3 then 1000000 * 10 ^ 18 else 0 }

def exampleBuy : Action :=
  .buy ⟨6, 0, 100, testnetChainId⟩ (1000 * 10 ^ 6) 1 6 200

theorem lp_share_worth_after_buy :
    ∃ s', initialise exampleConfig ⟨2, 0, 100, testnetChainId⟩ (500000 * 10 ^ 18)
        (250000 * 10 ^ 6) exampleState =
          .ok (s', Nat.sqrt (500000 * 10 ^ 18 * (250000 * 10 ^ 6))) ∧
      (s'.shares exampleConfig).worth ≤
        ((exec (step exampleConfig) s' [exampleBuy]).shares exampleConfig).worth := by
  obtain ⟨s', hs⟩ := initialise_succeeds (c := exampleConfig) (m := ⟨2, 0, 100, testnetChainId⟩)
    (s := exampleState) rfl rfl (by decide) (by decide) (by decide) (by decide)
  exact ⟨s', hs, (lp_share_worth_monotone hs [] [exampleBuy]).2.1⟩

end PassPool
end AlphaForge
