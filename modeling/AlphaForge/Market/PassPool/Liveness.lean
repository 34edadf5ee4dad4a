/-
The pool's own checks on its reserves never stop it.

The reserves are written before the tokens move, in four calls and two tokens.
What ties them to the balances is that each call moves exactly what it books, and
that nobody but the pool can take tokens out of the pool: it has approved nobody.
That the reserves stay positive comes from `Value`, where a share never loses
worth and shares never run out.
-/
import AlphaForge.Market.PassPool.Value

namespace AlphaForge
namespace PassPool

open Evm Machine Amm

variable {c : Config} {m : Msg} {recipient : Address} {deadline : Nat} {s s' : State}

/-- The pool holds what its reserves say, and no other account may spend it. -/
structure Solvent (c : Config) (s : State) : Prop where
  live : s.initialized = true
  quiet : s.tokens.Quiet [c.self]
  pass : s.reservePass ≤ s.tokens.balanceOf c.pass c.self
  usdc : s.reserveUsdc ≤ s.tokens.balanceOf c.usdc c.self

theorem constructor_ok {hasCode : Address → Bool} {self pass usdc lpRecipient : Address}
    (h : constructor m hasCode self pass usdc lpRecipient = .ok c) : c.pass ≠ c.usdc := by
  simp only [constructor, bind_eq_ok, require_eq_ok, pure_eq_ok] at h
  obtain ⟨_, _, _, ⟨hne, _⟩, rfl⟩ := h
  exact hne

/-- New shares are not the pool's, so they touch neither of its balances unless to
raise it. -/
theorem mint_solvent {k k' : Tokens} {token account : Address} {amount : Nat}
    (h : k.mint token account amount = (.ok k' : Result Empty Tokens)) (hq : k.Quiet [c.self]) :
    k'.Quiet [c.self] ∧ ∀ t, k.balanceOf t c.self ≤ k'.balanceOf t c.self := by
  obtain ⟨_, _, hbal, hallow⟩ := Tokens.mint_ok h
  refine ⟨fun t a ha spender => ?_, fun t => ?_⟩
  · rw [hallow]
    exact hq t a ha spender
  · rw [hbal, Tokens.balanceOf_credit]
    split
    · exact Nat.le_add_right _ _
    · exact Nat.le_refl _

/-- Burned shares are the caller's, and the caller is not the pool. -/
theorem burn_solvent {k k' : Tokens} {token account : Address} {amount : Nat}
    (h : k.burn token account amount = (.ok k' : Result Empty Tokens)) (ha : account ≠ c.self)
    (hq : k.Quiet [c.self]) :
    k'.Quiet [c.self] ∧ ∀ t, k'.balanceOf t c.self = k.balanceOf t c.self := by
  obtain ⟨_, _, hbal, hallow⟩ := Tokens.burn_ok h
  refine ⟨fun t a hmem spender => ?_, fun t => ?_⟩
  · rw [hallow]
    exact hq t a hmem spender
  · rw [hbal, Tokens.balanceOf_debit, if_neg (fun e => ha e.2.symm)]

theorem initialise_solvent {passAmount usdcAmount shares : Nat} (hq : s.tokens.Quiet [c.self])
    (h : initialise c m passAmount usdcAmount s = .ok (s', shares)) : Solvent c s' := by
  obtain ⟨_, _, _, _, hbp, hbu, _, hmint, hi, hp, hu⟩ := initialise_ok h
  obtain ⟨hquiet, hle⟩ := mint_solvent hmint hq
  refine ⟨hi, hquiet, ?_, ?_⟩
  · rw [hp]
    exact Nat.le_trans hbp (hle c.pass)
  · rw [hu]
    exact Nat.le_trans hbu (hle c.usdc)

section Calls

variable (hne : c.pass ≠ c.usdc)

include hne

theorem buy_solvent {amount minOut output : Nat} (hs : Solvent c s)
    (h : buy c m amount minOut recipient deadline s = .ok (s', output)) : Solvent c s' := by
  obtain ⟨_, _, _, _, ⟨k, hin, hout⟩, hi, hu, hp⟩ := buy_ok h
  have hpass := hs.pass
  have husdc := hs.usdc
  refine ⟨hi.trans hs.live, hout.quiet (hin.quiet hs.quiet), ?_, ?_⟩
  · have hsent := hout.balance_src
    have hkept := hin.balance_token hne c.self
    omega
  · have hgot := hin.balance_dst
    have hkept := hout.balance_token (Ne.symm hne) c.self
    omega

theorem sell_solvent {amount minOut output : Nat} (hs : Solvent c s)
    (h : sell c m amount minOut recipient deadline s = .ok (s', output)) : Solvent c s' := by
  obtain ⟨_, _, _, _, ⟨k, hin, hout⟩, hi, hp, hu⟩ := sell_ok h
  have hpass := hs.pass
  have husdc := hs.usdc
  refine ⟨hi.trans hs.live, hout.quiet (hin.quiet hs.quiet), ?_, ?_⟩
  · have hgot := hin.balance_dst
    have hkept := hout.balance_token hne c.self
    omega
  · have hsent := hout.balance_src
    have hkept := hin.balance_token (Ne.symm hne) c.self
    omega

theorem addLiquidity_solvent {shares maxPass maxUsdc passAmount usdcAmount : Nat}
    (hs : Solvent c s)
    (h : addLiquidity c m shares maxPass maxUsdc recipient deadline s =
      .ok (s', passAmount, usdcAmount)) : Solvent c s' := by
  obtain ⟨_, _, _, _, _, ⟨k, k', hfirst, hsecond, hmint⟩, hi, hp, hu⟩ := addLiquidity_ok h
  have hpass := hs.pass
  have husdc := hs.usdc
  obtain ⟨hquiet, hle⟩ := mint_solvent hmint (hsecond.quiet (hfirst.quiet hs.quiet))
  refine ⟨hi.trans hs.live, hquiet, ?_, ?_⟩
  · have hgot := hfirst.balance_dst
    have hkept := hsecond.balance_token hne c.self
    have hminted := hle c.pass
    omega
  · have hgot := hsecond.balance_dst
    have hkept := hfirst.balance_token (Ne.symm hne) c.self
    have hminted := hle c.usdc
    omega

theorem removeLiquidity_solvent {shares minPass minUsdc passAmount usdcAmount : Nat}
    (hs : Solvent c s) (hm : m.sender ≠ c.self)
    (h : removeLiquidity c m shares minPass minUsdc recipient deadline s =
      .ok (s', passAmount, usdcAmount)) : Solvent c s' := by
  obtain ⟨_, _, _, _, _, ⟨k, k', hburn, hfirst, hsecond⟩, hi, hple, hp, hule, hu⟩ :=
    removeLiquidity_ok h
  have hpass := hs.pass
  have husdc := hs.usdc
  obtain ⟨hquiet, hsame⟩ := burn_solvent hburn hm hs.quiet
  refine ⟨hi.trans hs.live, hsecond.quiet (hfirst.quiet hquiet), ?_, ?_⟩
  · have hsent := hfirst.balance_src
    have hkept := hsecond.balance_token hne c.self
    have hburned := hsame c.pass
    omega
  · have hsent := hsecond.balance_src
    have hkept := hfirst.balance_token (Ne.symm hne) c.self
    have hburned := hsame c.usdc
    omega

theorem step_solvent {a : Action} (hs : Solvent c s) (h : step c a s = .ok s') :
    Solvent c s' := by
  cases a with
  | buy m amount minOut recipient deadline =>
      simp only [step, callFrom_eq_ok, map_eq_ok] at h
      obtain ⟨_, _, ⟨t, output⟩, hb, rfl⟩ := h
      exact buy_solvent hne hs hb
  | sell m amount minOut recipient deadline =>
      simp only [step, callFrom_eq_ok, map_eq_ok] at h
      obtain ⟨_, _, ⟨t, output⟩, hb, rfl⟩ := h
      exact sell_solvent hne hs hb
  | addLiquidity m shares maxPass maxUsdc recipient deadline =>
      simp only [step, callFrom_eq_ok, map_eq_ok] at h
      obtain ⟨_, _, ⟨t, passAmount, usdcAmount⟩, hb, rfl⟩ := h
      exact addLiquidity_solvent hne hs hb
  | removeLiquidity m shares minPass minUsdc recipient deadline =>
      simp only [step, callFrom_eq_ok, map_eq_ok] at h
      obtain ⟨hm, _, ⟨t, passAmount, usdcAmount⟩, hb, rfl⟩ := h
      exact removeLiquidity_solvent hne hs (by simpa using hm) hb
  | outside calls =>
      simp only [step, Except.ok.injEq] at h
      subst h
      have hout : Tokens.OutsideStep [c.self] s.tokens (s.tokens.outside [c.self] calls) :=
        Tokens.outside_step s.tokens calls
      have hself : c.self ∈ [c.self] := List.mem_singleton.mpr rfl
      refine ⟨hs.live, hout.quiet hs.quiet, ?_, ?_⟩
      · exact Nat.le_trans hs.pass (hout.balance_le c.pass c.self hself (hs.quiet c.pass c.self hself))
      · exact Nat.le_trans hs.usdc (hout.balance_le c.usdc c.self hself (hs.quiet c.usdc c.self hself))

end Calls

/-! ## The two checks -/

/-- A solvent pool is stopped, if at all, by the deadline or the recipient. -/
theorem Solvent.validate_ne (hs : Solvent c s) (m : Msg) (recipient : Address) (deadline : Nat) :
    validate c m recipient deadline s ≠ .error (.reason "RESERVE_DEFICIT") := by
  intro h
  simp only [validate, bind_eq_error, require_eq_error, Revert.reason.injEq] at h
  rcases h with ⟨_, he⟩ | ⟨_, _, ⟨_, he⟩ | ⟨_, _, hdeficit, _⟩⟩
  · exact absurd he (by decide)
  · exact absurd he (by decide)
  · exact hdeficit ⟨hs.pass, hs.usdc⟩

/-- With both reserves positive only an empty order finds no liquidity. -/
theorem quote_liquidity_iff {reserveIn reserveOut amount : Nat} (hin : 0 < reserveIn)
    (hout : 0 < reserveOut) :
    quote true reserveIn reserveOut amount = .error (.reason "LIQUIDITY") ↔ amount = 0 := by
  constructor
  · intro h
    simp only [quote, bind_eq_error, require_eq_error, checkedSub_eq_error, checkedAdd_eq_error,
      mulDiv_ne_reason, mulDivCeil_ne_reason, arithmeticPanic, reduceCtorEq, and_false,
      false_or, Revert.reason.injEq] at h
    rcases h with ⟨hfailed, _⟩ | ⟨_, _, _, _, _, _, _, _, _, _, ⟨_, he⟩ | ⟨_, _, hok⟩⟩
    · by_contra hamount
      exact hfailed ⟨trivial, hamount, by omega, by omega⟩
    · exact absurd he (by decide)
    · cases hok
  · intro h
    have hfailed : ¬ ((true = true) ∧ amount ≠ 0 ∧ reserveIn ≠ 0 ∧ reserveOut ≠ 0) :=
      fun e => e.2.1 h
    rw [quote, require, if_neg hfailed]
    rfl

/-- Whatever is done to a pool after its initialization, it holds at least its
reserves, both of which are positive, and shares are outstanding.  So neither the
check of `_validate` on the balances nor the check of `_quote` on the reserves ever
fails: the first error does not occur, and the second only for an amount of zero. -/
theorem pool_stays_live {mc : Msg} {hasCode : Address → Bool}
    {self pass usdc lpRecipient : Address} {passAmount usdcAmount shares : Nat}
    (hc : constructor mc hasCode self pass usdc lpRecipient = .ok c)
    (hq : s.tokens.Quiet [c.self])
    (hi : initialise c m passAmount usdcAmount s = .ok (s', shares)) (as : List Action) :
    (exec (step c) s' as).reservePass ≤ (exec (step c) s' as).tokens.balanceOf c.pass c.self ∧
    (exec (step c) s' as).reserveUsdc ≤ (exec (step c) s' as).tokens.balanceOf c.usdc c.self ∧
    0 < (exec (step c) s' as).reservePass ∧ 0 < (exec (step c) s' as).reserveUsdc ∧
    0 < (exec (step c) s' as).totalSupply c ∧
    (∀ m recipient deadline, validate c m recipient deadline (exec (step c) s' as) ≠
      .error (.reason "RESERVE_DEFICIT")) ∧
    (∀ amount, quoteBuy (exec (step c) s' as) amount = .error (.reason "LIQUIDITY") ↔
      amount = 0) ∧
    (∀ amount, quoteSell (exec (step c) s' as) amount = .error (.reason "LIQUIDITY") ↔
      amount = 0) := by
  obtain ⟨hsupply, hpass, husdc⟩ := initialise_supply_pos hi
  have hs : Solvent c (exec (step c) s' as) :=
    exec_invariant (P := Solvent c) (fun a t t' ht hstep => step_solvent (constructor_ok hc) ht hstep)
      (initialise_solvent hq hi) as
  obtain ⟨hworth, hsupply'⟩ := exec_noWorse hsupply as
  obtain ⟨hpass', husdc'⟩ := Shares.NoWorse.positive hpass husdc hsupply' hworth
  refine ⟨hs.pass, hs.usdc, hpass', husdc', hsupply', hs.validate_ne, fun amount => ?_,
    fun amount => ?_⟩
  · rw [quoteBuy, hs.live]
    exact quote_liquidity_iff husdc' hpass'
  · rw [quoteSell, hs.live]
    exact quote_liquidity_iff hpass' husdc'

/-- The pool of `exampleConfig` after one purchase. -/
theorem pool_live_after_buy :
    ∃ s', constructor ⟨2, 0, 100, testnetChainId⟩ (fun a => a = 3 ∨ a = 4) 1 3 4 5 =
        .ok exampleConfig ∧
      initialise exampleConfig ⟨2, 0, 100, testnetChainId⟩ (500000 * 10 ^ 18)
        (250000 * 10 ^ 6) exampleState =
          .ok (s', Nat.sqrt (500000 * 10 ^ 18 * (250000 * 10 ^ 6))) ∧
      (exec (step exampleConfig) s' [exampleBuy]).reservePass ≤
        (exec (step exampleConfig) s' [exampleBuy]).tokens.balanceOf 3 1 := by
  have hc : constructor ⟨2, 0, 100, testnetChainId⟩ (fun a => a = 3 ∨ a = 4) 1 3 4 5 =
    .ok exampleConfig := rfl
  have hq : exampleState.tokens.Quiet [exampleConfig.self] := by
    intro t a ha spender
    have hself : a = 1 := List.mem_singleton.mp ha
    subst hself
    exact if_neg (fun e => absurd e.2.1 (by decide))
  obtain ⟨s', hs⟩ := initialise_succeeds (c := exampleConfig) (m := ⟨2, 0, 100, testnetChainId⟩)
    (s := exampleState) rfl rfl (by decide) (by decide) (by decide) (by decide)
  exact ⟨s', hc, hs, (pool_stays_live hc hq hs [exampleBuy]).1⟩

end PassPool
end AlphaForge
