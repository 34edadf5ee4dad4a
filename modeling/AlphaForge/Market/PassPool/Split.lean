/-
Splitting a swap never helps.

The fee is rounded up once per swap and stays in the pool, so two swaps trade no more
than one of both amounts, against a reserve that has grown by the first in full.  With
`swapOutput_split` the two outputs together are at most that of the single swap, which
the pool quotes whenever it took the two.
-/
import AlphaForge.Amm.Swap
import AlphaForge.Market.PassPool.Value

namespace AlphaForge
namespace PassPool

open Evm Machine Amm

variable {c : Config} {m : Msg} {recipient : Address} {deadline : Nat} {s s' : State}

/-- The fee of an amount, as the least one that covers its share. -/
theorem quote_fee {initialized : Bool} {reserveIn reserveOut amount output fee : Nat}
    (h : quote initialized reserveIn reserveOut amount = .ok (output, fee)) :
    (mulDivCeil amount feeBps 10000 : Result Empty Nat) = .ok fee ∧ reserveOut ≠ 0 ∧
      output = swapOutput reserveIn reserveOut (amount - fee) := by
  have hquote := quote_ok h
  simp only [quote, bind_eq_ok, require_eq_ok, pure_eq_ok, Prod.mk.injEq] at h
  obtain ⟨_, ⟨_, _, _, hout⟩, f, hf, _, _, _, _, _, _, _, _, _, rfl⟩ := h
  exact ⟨hf, hout, hquote.2.2.2.2.2⟩

/-- The pool quotes every amount that trades for something. -/
theorem quote_of {reserveIn reserveOut amount : Nat} (hin : 0 < reserveIn) (hout : 0 < reserveOut)
    (hamount : 0 < amount) (hword : reserveOut ≤ maxUint256)
    (hfits : reserveIn + amount ≤ maxUint256)
    (hpositive : ∀ fee, (mulDivCeil amount feeBps 10000 : Result Empty Nat) = .ok fee →
      0 < swapOutput reserveIn reserveOut (amount - fee)) :
    ∃ fee, (mulDivCeil amount feeBps 10000 : Result Empty Nat) = .ok fee ∧
      quote true reserveIn reserveOut amount =
        .ok (swapOutput reserveIn reserveOut (amount - fee), fee) := by
  have hceil : (amount * feeBps + 10000 - 1) / 10000 ≤ amount := by
    unfold feeBps
    omega
  have hfee : (mulDivCeil amount feeBps 10000 : Result Empty Nat) =
      .ok ((amount * feeBps + 10000 - 1) / 10000) :=
    mulDivCeil_of (by decide) (by omega)
  generalize (amount * feeBps + 10000 - 1) / 10000 = fee at hceil hfee
  have hlt : swapOutput reserveIn reserveOut (amount - fee) < reserveOut :=
    swapOutput_lt hin hout
  have hopen : (true : Bool) = true ∧ amount ≠ 0 ∧ reserveIn ≠ 0 ∧ reserveOut ≠ 0 :=
    ⟨rfl, by omega, by omega, by omega⟩
  have houtput : swapOutput reserveIn reserveOut (amount - fee) ≠ 0 ∧
      swapOutput reserveIn reserveOut (amount - fee) < reserveOut :=
    ⟨Nat.pos_iff_ne_zero.mp (hpositive fee hfee), hlt⟩
  have hquotient : reserveOut * (amount - fee) / (reserveIn + (amount - fee)) ≤ maxUint256 :=
    Nat.le_trans (Nat.le_of_lt hlt) hword
  refine ⟨fee, hfee, ?_⟩
  rw [quote, require_of hopen, ok_bind, hfee, ok_bind, checkedSub_of hceil, ok_bind,
    checkedAdd_of (by omega), ok_bind, mulDiv_of (by omega) hquotient, ok_bind]
  exact congrArg (fun x => x >>= fun _ =>
    .ok (swapOutput reserveIn reserveOut (amount - fee), fee)) (require_of houtput _)

/-- Two quotes in a row, and the quote of both amounts at once. -/
theorem quote_split {reserveIn reserveOut a₁ a₂ o₁ o₂ f₁ f₂ : Nat}
    (h₁ : quote true reserveIn reserveOut a₁ = .ok (o₁, f₁))
    (h₂ : quote true (reserveIn + a₁) (reserveOut - o₁) a₂ = .ok (o₂, f₂))
    (hword : reserveOut ≤ maxUint256) (hfits : reserveIn + a₁ + a₂ ≤ maxUint256) :
    ∃ o f, quote true reserveIn reserveOut (a₁ + a₂) = .ok (o, f) ∧ o₁ + o₂ ≤ o := by
  obtain ⟨_, hin, hpositive, hlt, hle₁, _⟩ := quote_ok h₁
  obtain ⟨_, _, _, _, hle₂, _⟩ := quote_ok h₂
  obtain ⟨hfee₁, _, ho₁⟩ := quote_fee h₁
  obtain ⟨hfee₂, _, ho₂⟩ := quote_fee h₂
  have hshare₁ := (mulDivCeil_eq_ok hfee₁).2.2.1
  have hshare₂ := (mulDivCeil_eq_ok hfee₂).2.2.1
  have hboth : ∀ fee, (mulDivCeil (a₁ + a₂) feeBps 10000 : Result Empty Nat) = .ok fee →
      o₁ + o₂ ≤ swapOutput reserveIn reserveOut (a₁ + a₂ - fee) := by
    intro fee hfee
    have hleast := (mulDivCeil_eq_ok hfee).2.2.2
    have hfees : fee ≤ f₁ + f₂ := by
      unfold feeBps at hshare₁ hshare₂ hleast
      omega
    have hsplit : o₁ + o₂ ≤ swapOutput reserveIn reserveOut ((a₁ - f₁) + (a₂ - f₂)) := by
      rw [ho₂, ho₁]
      exact swapOutput_split (Nat.pos_of_ne_zero hin) (by omega)
    exact Nat.le_trans hsplit (swapOutput_mono (Nat.pos_of_ne_zero hin) (by omega))
  have hamount : 0 < a₁ := by
    rw [ho₁] at hpositive
    by_contra hzero
    refine hpositive ?_
    rw [Nat.eq_zero_of_not_pos hzero, Nat.zero_sub]
    exact Nat.zero_div _
  obtain ⟨fee, hfee, hquote⟩ := quote_of (Nat.pos_of_ne_zero hin) (by omega : 0 < reserveOut)
    (show 0 < a₁ + a₂ by omega) hword (by omega) fun fee hfee => by
      have := hboth fee hfee
      omega
  exact ⟨_, fee, hquote, hboth fee hfee⟩

/-! ## The two directions -/

theorem buy_quote {amount minOut output : Nat}
    (h : buy c m amount minOut recipient deadline s = .ok (s', output)) :
    (∃ fee, quote true s.reserveUsdc s.reservePass amount = .ok (output, fee)) ∧
      s'.reserveUsdc = s.reserveUsdc + amount ∧ s'.reservePass = s.reservePass - output ∧
      s.reserveUsdc + amount ≤ maxUint256 := by
  obtain ⟨hv, ⟨fee, hq⟩, _, _, _, _, hu, hp⟩ := buy_ok h
  rw [quoteBuy, (validate_ok hv).1] at hq
  simp only [buy, bind_eq_ok, require_eq_ok, checkedAdd_eq_ok] at h
  obtain ⟨_, _, _, _, _, _, _, ⟨hfits, _⟩, _⟩ := h
  exact ⟨⟨fee, hq⟩, hu, hp, hfits⟩

theorem sell_quote {amount minOut output : Nat}
    (h : sell c m amount minOut recipient deadline s = .ok (s', output)) :
    (∃ fee, quote true s.reservePass s.reserveUsdc amount = .ok (output, fee)) ∧
      s'.reservePass = s.reservePass + amount ∧ s'.reserveUsdc = s.reserveUsdc - output ∧
      s.reservePass + amount ≤ maxUint256 := by
  obtain ⟨hv, ⟨fee, hq⟩, _, _, _, _, hp, hu⟩ := sell_ok h
  rw [quoteSell, (validate_ok hv).1] at hq
  simp only [sell, bind_eq_ok, require_eq_ok, checkedAdd_eq_ok] at h
  obtain ⟨_, _, _, _, _, _, _, ⟨hfits, _⟩, _⟩ := h
  exact ⟨⟨fee, hq⟩, hp, hu, hfits⟩

/-- Where the pool takes two purchases in a row, it quotes the purchase of both amounts
at once, for at least what the two brought together, and every single purchase of both
amounts brings that quote.  The same holds of two sales. -/
theorem splitting_never_helps (c : Config) (s s₁ s₂ : State)
    (hwords : s.reservePass ≤ maxUint256 ∧ s.reserveUsdc ≤ maxUint256)
    (m₁ m₂ : Msg) (recipient₁ recipient₂ : Address)
    (deadline₁ deadline₂ a₁ a₂ minOut₁ minOut₂ o₁ o₂ : Nat) :
    (buy c m₁ a₁ minOut₁ recipient₁ deadline₁ s = .ok (s₁, o₁) →
      buy c m₂ a₂ minOut₂ recipient₂ deadline₂ s₁ = .ok (s₂, o₂) →
      ∃ o fee, quoteBuy s (a₁ + a₂) = .ok (o, fee) ∧ o₁ + o₂ ≤ o ∧
        ∀ m minOut recipient deadline s' output,
          buy c m (a₁ + a₂) minOut recipient deadline s = .ok (s', output) → output = o) ∧
    (sell c m₁ a₁ minOut₁ recipient₁ deadline₁ s = .ok (s₁, o₁) →
      sell c m₂ a₂ minOut₂ recipient₂ deadline₂ s₁ = .ok (s₂, o₂) →
      ∃ o fee, quoteSell s (a₁ + a₂) = .ok (o, fee) ∧ o₁ + o₂ ≤ o ∧
        ∀ m minOut recipient deadline s' output,
          sell c m (a₁ + a₂) minOut recipient deadline s = .ok (s', output) → output = o) := by
  constructor
  · intro h₁ h₂
    obtain ⟨⟨f₁, hq₁⟩, hu, hp, _⟩ := buy_quote h₁
    obtain ⟨⟨f₂, hq₂⟩, _, _, hfits⟩ := buy_quote h₂
    rw [hu] at hq₂ hfits
    rw [hp] at hq₂
    obtain ⟨o, fee, hquote, hle⟩ := quote_split hq₁ hq₂ hwords.1 hfits
    have hlive := (validate_ok (buy_ok h₁).1).1
    refine ⟨o, fee, by rw [quoteBuy, hlive]; exact hquote, hle, ?_⟩
    intro m minOut recipient deadline s' output h
    obtain ⟨⟨fee', hq⟩, _⟩ := buy_quote h
    rw [hquote] at hq
    exact (Prod.mk.inj (Except.ok.inj hq)).1.symm
  · intro h₁ h₂
    obtain ⟨⟨f₁, hq₁⟩, hp, hu, _⟩ := sell_quote h₁
    obtain ⟨⟨f₂, hq₂⟩, _, _, hfits⟩ := sell_quote h₂
    rw [hp] at hq₂ hfits
    rw [hu] at hq₂
    obtain ⟨o, fee, hquote, hle⟩ := quote_split hq₁ hq₂ hwords.2 hfits
    have hlive := (validate_ok (sell_ok h₁).1).1
    refine ⟨o, fee, by rw [quoteSell, hlive]; exact hquote, hle, ?_⟩
    intro m minOut recipient deadline s' output h
    obtain ⟨⟨fee', hq⟩, _⟩ := sell_quote h
    rw [hquote] at hq
    exact (Prod.mk.inj (Except.ok.inj hq)).1.symm

/-- A pool in use, and a trader with 300 of the USDC who has approved it. -/
def splitState : State :=
  { tokens :=
      { balanceOf := fun t a => if a = 1 then 1000 else if t = 4 ∧ a = 6 then 300 else 0
        allowance := fun t o s => if t = 4 ∧ o = 6 ∧ s = 1 then 300 else 0
        totalSupply := fun _ => 1000 }
    reservePass := 1000
    reserveUsdc := 1000
    initialized := true
    log := [] }

theorem splitting_bought_less :
    ∃ s₁ s₂, buy exampleConfig ⟨6, 0, 100, testnetChainId⟩ 10 1 6 200 splitState =
        .ok (s₁, 8) ∧
      buy exampleConfig ⟨6, 0, 100, testnetChainId⟩ 20 1 6 200 s₁ = .ok (s₂, 18) ∧
      ∃ o fee, quoteBuy splitState (10 + 20) = .ok (o, fee) ∧ 8 + 18 ≤ o ∧
        ∀ m minOut recipient deadline s' output,
          buy exampleConfig m (10 + 20) minOut recipient deadline splitState =
            .ok (s', output) → output = o :=
  ⟨_, _, rfl, rfl, (splitting_never_helps exampleConfig splitState _ _
    ⟨by decide, by decide⟩ ⟨6, 0, 100, testnetChainId⟩ ⟨6, 0, 100, testnetChainId⟩ 6 6
    200 200 10 20 1 1 8 18).1 rfl rfl⟩

end PassPool
end AlphaForge
