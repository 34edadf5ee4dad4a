/-
What the client accepts of a trade is bounded by the slippage that was asked for.

The bound is on the minimum that the contract enforces, which the client reads from the
calldata: in USDC before the conversion for a sale for ETH, and in the output asset
otherwise.
-/
import AlphaForge.Client.QuoteReview
import AlphaForge.Market.LaunchMarket.Executable

namespace AlphaForge
namespace QuoteReview

open Evm
open LaunchMarket (minOutput)
open PaymentEstimate (Failure uint uint_eq_ok)
open QuoteTransaction

/-! ## Results -/

theorem market_eq_ok {α : Type} {x : Except LaunchMarket.Thrown α} {a : α} :
    market x = .ok a ↔ x = .ok a :=
  mapError_eq_ok

theorem eq_eq_ok {a : Nat} {b : String} {u : Unit} :
    eq a b = .ok u ↔ LaunchMarket.uint b = .ok a := by
  simp only [eq, bind_eq_ok, ensure_eq_ok]
  constructor
  · rintro ⟨n, hn, rfl⟩
    exact hn
  · intro h
    exact ⟨a, h, rfl⟩

/-! ## What an accepted quote enforces -/

/-- The least output that the contract enforces for a trade. -/
def enforced : Call → Option Nat
  | .buyNative q _ => some q.minOut
  | .sellNative q _ => some q.usdcAmount
  | .buy _ minPass _ _ => some minPass
  | .sell _ minUsdc _ _ => some minUsdc
  | _ => none

/-- What the trade is expected to bring: gross USDC for a sale for ETH, and the output
asset otherwise. -/
def expected (quote : MarketQuote) : Except Failure Nat :=
  if quote.operation = .sell ∧ quote.asset = .eth then grossUsdc quote
  else uint quote.estimatedOutRaw

/-- The interface of a trade. -/
def tradeInterface (quote : MarketQuote) : Interface :=
  if quote.asset = .eth then .router else .pool

/-- The call of the quote enforces a minimum that is in the bounds of the slippage. -/
def Bounded (ethers : Ethers) (quote : MarketQuote) (slippageBps : Int) : Prop :=
  ∃ call minimum out,
    ethers.parseTransaction (tradeInterface quote) quote.transaction.data = some call ∧
    enforced call = some minimum ∧ expected quote = .ok out ∧
    (out : Int) * (10000 - slippageBps) / 10000 ≤ minimum

theorem ediv_le_tdiv (a : Int) : a / 10000 ≤ a.tdiv 10000 := by
  rw [Int.tdiv_eq_ediv]
  split <;> simp

section Accepted

variable {ethers : Ethers} {held : Held} {quote : MarketQuote} {request : QuoteRequest}

theorem sale_bounded (hsell : quote.operation = .sell) (heth : quote.asset = .eth)
    (h : checkNativeSale ethers held quote request = .ok ()) :
    Bounded ethers quote request.slippageBps := by
  simp only [checkNativeSale, bind_eq_ok] at h
  obtain ⟨price, _, gross, hgross, h⟩ := h
  split at h
  · next q signature _ hparsed =>
    simp only [bind_eq_ok, ensure_eq_ok, market_eq_ok] at h
    obtain ⟨_, _, _, _, _, _, _, _, _, _, _, _, least, hleast, _, hle, _⟩ := h
    refine ⟨.sellNative q signature, q.usdcAmount, gross, ?_, rfl, ?_, ?_⟩
    · rw [tradeInterface, if_pos heth]
      exact hparsed
    · rw [expected, if_pos ⟨hsell, heth⟩]
      exact hgross
    · simp only [minOutput, bind_eq_ok, ensure_eq_ok, pure_eq_ok] at hleast
      obtain ⟨_, ⟨hlow, hhigh⟩, _, _, rfl⟩ := hleast
      obtain ⟨factor, hfactor⟩ := Int.eq_ofNat_of_zero_le (a := 10000 - request.slippageBps) (by omega)
      rw [hfactor, Int.toNat_natCast] at hle
      rw [hfactor]
      exact_mod_cast hle
  · cases h

/-- A minimum that the client compares with the output it is shown. -/
theorem output_bounded (hother : ¬ (quote.operation = .sell ∧ quote.asset = .eth))
    (h : checkOutput quote request = .ok ()) {call : Call} {minimum : Nat}
    (hparsed : ethers.parseTransaction (tradeInterface quote) quote.transaction.data = some call)
    (henforced : enforced call = some minimum)
    (hminimum : LaunchMarket.uint quote.minOutRaw = .ok minimum) :
    Bounded ethers quote request.slippageBps := by
  simp only [checkOutput, bind_eq_ok, ensure_eq_ok] at h
  obtain ⟨out, hout, minOut, hminOut, hle⟩ := h
  rw [uint_eq_ok, hminimum, Except.ok.injEq] at hminOut
  subst hminOut
  refine ⟨call, minimum, out, hparsed, henforced, ?_, Int.le_trans (ediv_le_tdiv _) hle⟩
  rw [expected, if_neg hother]
  exact hout

theorem native_minimum {manifest : Manifest} {owner target : Address}
    (hbuy : quote.operation = .buy) (heth : quote.asset = .eth)
    (h : checkNative ethers quote manifest owner target = .ok ()) :
    ∃ call minimum,
      ethers.parseTransaction (tradeInterface quote) quote.transaction.data = some call ∧
      enforced call = some minimum ∧ LaunchMarket.uint quote.minOutRaw = .ok minimum := by
  simp only [checkNative, hbuy, bind_eq_ok, reduceCtorEq, if_false] at h
  obtain ⟨_, _, h⟩ := h
  split at h
  · next passAmount q hcall =>
    simp only [bind_eq_ok, checkNativeAmounts, hbuy, eq_eq_ok] at h
    obtain ⟨_, _, _, hmin, _⟩ := h
    unfold nativeCall at hcall
    split at hcall
    · next hmint _ => cases hmint
    · next signature hparsed =>
      obtain ⟨rfl, rfl⟩ := Option.some.inj hcall |> Prod.mk.inj
      exact ⟨_, _, by rw [tradeInterface, if_pos heth]; exact hparsed, rfl, hmin⟩
    · next hsell _ => cases hsell
    · cases hcall
  · cases h

theorem pool_minimum {manifest : Manifest} {snapshot : Option MarketSnapshot}
    {owner target : Address} (husdc : quote.asset ≠ .eth)
    (h : checkPool ethers quote manifest snapshot owner target = .ok ()) :
    ∃ call minimum,
      ethers.parseTransaction (tradeInterface quote) quote.transaction.data = some call ∧
      enforced call = some minimum ∧ LaunchMarket.uint quote.minOutRaw = .ok minimum := by
  simp only [checkPool, bind_eq_ok, eq_eq_ok] at h
  obtain ⟨_, _, _, _, h⟩ := h
  split at h
  · next amount minimum recipient deadline hcall =>
    simp only [bind_eq_ok, eq_eq_ok] at h
    obtain ⟨_, _, _, hmin, _⟩ := h
    have hinterface : tradeInterface quote = .pool := by rw [tradeInterface, if_neg husdc]
    rw [hinterface]
    unfold poolCall at hcall
    split at hcall
    · next hparsed =>
      obtain ⟨rfl, rfl, rfl, rfl⟩ := by simpa using hcall
      exact ⟨_, _, hparsed, rfl, hmin⟩
    · next hparsed =>
      obtain ⟨rfl, rfl, rfl, rfl⟩ := by simpa using hcall
      exact ⟨_, _, hparsed, rfl, hmin⟩
    · cases hcall
  · cases h

theorem validateQuote_ok {now : Clock} (h : validateQuote ethers held quote request now = .ok ()) :
    ∃ manifest, held.manifest = some manifest ∧ checkRequest quote request now = .ok () ∧
      checkSlippage ethers held quote request = .ok () ∧
      validateQuoteTransaction ethers quote manifest held.snapshot held.wallet = .ok () := by
  unfold validateQuote at h
  split at h
  · cases h
  · next manifest hmanifest =>
    simp only [bind_eq_ok, market_eq_ok] at h
    obtain ⟨_, hrequest, _, _, _, _, _, _, _, _, _, _, _, _, _, hslippage, hvalid⟩ := h
    exact ⟨manifest, hmanifest, hrequest, hslippage, hvalid⟩

/-- An accepted trade is bounded by the slippage of the request. -/
theorem accepted_bounded {now : Clock} (h : validateQuote ethers held quote request now = .ok ())
    (htrade : quote.operation = .buy ∨ quote.operation = .sell) :
    Bounded ethers quote request.slippageBps := by
  obtain ⟨manifest, _, _, hslippage, hvalid⟩ := validateQuote_ok h
  simp only [validateQuoteTransaction, bind_eq_ok] at hvalid
  obtain ⟨owner, _, target, _, _, _, _, hcall, _⟩ := hvalid
  unfold checkSlippage at hslippage
  unfold checkCall at hcall
  by_cases heth : quote.asset = .eth
  · rcases htrade with hbuy | hsell
    · simp only [hbuy, heth, if_true] at hslippage hcall
      obtain ⟨call, minimum, hparsed, henforced, hmin⟩ := native_minimum hbuy heth hcall
      exact output_bounded (by simp [hbuy]) hslippage hparsed henforced hmin
    · simp only [hsell, heth] at hslippage
      exact sale_bounded hsell heth hslippage
  · have husdc : quote.asset = .afUsdc := by
      cases hasset : quote.asset
      · exact absurd hasset heth
      · rfl
    have hother : ¬ (quote.operation = .sell ∧ quote.asset = .eth) := fun hboth => heth hboth.2
    rcases htrade with hop | hop
    all_goals
      simp only [hop, husdc, reduceCtorEq, if_false] at hslippage hcall
      obtain ⟨call, minimum, hparsed, henforced, hmin⟩ := pool_minimum heth hcall
      exact output_bounded hother hslippage hparsed henforced hmin

end Accepted

end QuoteReview
end AlphaForge
