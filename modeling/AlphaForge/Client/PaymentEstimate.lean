/-
What an order pays, `buyPayment` of `payment-estimate.ts`.

The form of an order asks for PASS, and the pool quotes what a payment gets.
`buyPayment` goes the other way: it rounds up where the quote rounds down, and a
floor and the ceiling across it are adjoint, so that a payment reaches the PASS asked
for exactly from `buyPayment` on.
-/
import AlphaForge.Market.LaunchMarket.Inverse

namespace AlphaForge
namespace PaymentEstimate

open Evm
open LaunchMarket (ceilDiv ammQuote AmmQuote)

/-- An `Error` of the page, or what the market's own functions throw. -/
inductive Failure where
  | error (message : String)
  | market (thrown : LaunchMarket.Thrown)
  deriving DecidableEq, Repr

/-- `uint` of `config.ts`. -/
def uint (value : String) : Except Failure Nat := (LaunchMarket.uint value).mapError .market

def buyPayment (pass reservePass reserveUsdc : Nat) (feeBps : Int) : Except Failure Nat := do
  ensure (0 < pass ∧ pass < reservePass ∧ 0 < reserveUsdc ∧ 0 ≤ feeBps ∧ feeBps ≤ 1000)
    (.error "Requested PASS exceeds available pool liquidity.")
  let net := ceilDiv (pass * reserveUsdc) (reservePass - pass)
  uint (ceilDiv (net * 10000) (10000 - feeBps).toNat).repr

/-! ## Numbers as text -/

theorem uint_repr (n : Nat) :
    uint n.repr = if n < 2 ^ 256 then .ok n
      else .error (.market (.launchMarket "INVALID_AMOUNT" 400)) := by
  unfold uint LaunchMarket.uint
  rw [Text.ofDecimal_repr]
  by_cases hfits : n < 2 ^ 256
  · have hdecimal : Text.isDecimal 77 n.repr = true :=
      Text.isDecimal_repr (Nat.lt_of_lt_of_le hfits (by decide))
    rw [ensure_of hdecimal, ok_bind, ensure_of hfits, ok_bind, if_pos hfits]
    rfl
  · rw [ensure, ensure, if_neg hfits, if_neg hfits]
    split <;> rfl

theorem uint_eq_ok {v : String} {n : Nat} : uint v = .ok n ↔ LaunchMarket.uint v = .ok n :=
  mapError_eq_ok

theorem uint_of_lt {n : Nat} (h : n < 2 ^ 256) : uint n.repr = .ok n := by
  rw [uint_repr, if_pos h]

/-! ## The quote of a payment -/

section Pool

variable {pass reservePass reserveUsdc : Nat} {feeBps : Int}

/-- What is left of a payment after the fee. -/
def effective (feeBps : Int) (a : Nat) : Nat := a - ceilDiv (a * feeBps.toNat) 10000

/-- The payment reaches the PASS asked for: the pool quotes it at that much or more. -/
def Reaches (pass reservePass reserveUsdc : Nat) (feeBps : Int) (a : Nat) : Prop :=
  ∃ q, ammQuote a reserveUsdc reservePass feeBps = .ok q ∧ pass ≤ q.output

/-- The pool hands out as much as asked for exactly when its product is kept. -/
theorem le_output_iff {e : Nat} (husdc : 0 < reserveUsdc) (hless : pass < reservePass) :
    pass ≤ e * reservePass / (reserveUsdc + e) ↔
      ceilDiv (pass * reserveUsdc) (reservePass - pass) ≤ e := by
  have hgap : 0 < reservePass - pass := Nat.sub_pos_of_lt hless
  rw [Nat.le_div_iff_mul_le (Nat.add_pos_left husdc e), LaunchMarket.ceilDiv_le_iff hgap,
    Nat.mul_add, Nat.mul_sub, Nat.mul_comm e pass]
  have hle : pass * e ≤ e * reservePass := by
    rw [Nat.mul_comm pass e]
    exact Nat.mul_le_mul_left e (Nat.le_of_lt hless)
  omega

theorem output_lt {e : Nat} (husdc : 0 < reserveUsdc) (hpass : 0 < reservePass) :
    e * reservePass / (reserveUsdc + e) < reservePass := by
  rw [Nat.div_lt_iff_lt_mul (Nat.add_pos_left husdc e), Nat.mul_comm e, Nat.mul_add]
  exact Nat.lt_add_of_pos_left (Nat.mul_pos hpass husdc)

theorem reaches_iff {a : Nat} (ha : 0 < a) (husdc : 0 < reserveUsdc) (hpass : 0 < pass)
    (hless : pass < reservePass) (hfee : 0 ≤ feeBps ∧ feeBps ≤ 1000) :
    Reaches pass reservePass reserveUsdc feeBps a ↔
      pass ≤ effective feeBps a * reservePass / (reserveUsdc + effective feeBps a) := by
  have hreserve : 0 < reservePass := Nat.zero_lt_of_lt hless
  have hopen : 0 < a ∧ 0 < reserveUsdc ∧ 0 < reservePass := ⟨ha, husdc, hreserve⟩
  simp only [Reaches, ammQuote, bind_eq_ok, ensure_eq_ok, pure_eq_ok]
  constructor
  · rintro ⟨q, ⟨_, -, _, -, _, -, rfl⟩, hq⟩
    exact hq
  · intro hle
    refine ⟨_, ⟨(), hopen, (), hfee, (), ⟨?_, output_lt husdc hreserve⟩, rfl⟩, hle⟩
    exact Nat.ne_of_gt (Nat.lt_of_lt_of_le hpass hle)

/-- What `buyPayment` computes, before it is held to a word. -/
def leastPayment (pass reservePass reserveUsdc : Nat) (feeBps : Int) : Nat :=
  ceilDiv (ceilDiv (pass * reserveUsdc) (reservePass - pass) * 10000) (10000 - feeBps).toNat

theorem reaches_iff_least {a : Nat} (ha : 0 < a) (husdc : 0 < reserveUsdc) (hpass : 0 < pass)
    (hless : pass < reservePass) (hfee : 0 ≤ feeBps ∧ feeBps ≤ 1000) :
    Reaches pass reservePass reserveUsdc feeBps a ↔
      leastPayment pass reservePass reserveUsdc feeBps ≤ a := by
  have hnet : (10000 - feeBps).toNat = 10000 - feeBps.toNat := by omega
  rw [reaches_iff ha husdc hpass hless hfee, le_output_iff husdc hless, effective,
    LaunchMarket.le_net_iff (by omega), leastPayment, hnet]

theorem leastPayment_pos (husdc : 0 < reserveUsdc) (hpass : 0 < pass) (hless : pass < reservePass)
    (hfee : feeBps ≤ 1000) : 0 < leastPayment pass reservePass reserveUsdc feeBps := by
  have hnet : 0 < ceilDiv (pass * reserveUsdc) (reservePass - pass) :=
    LaunchMarket.ceilDiv_pos (Nat.mul_pos hpass husdc) (Nat.sub_pos_of_lt hless)
  exact LaunchMarket.ceilDiv_pos (by omega) (by omega)

theorem buyPayment_eq (husdc : 0 < reserveUsdc) (hpass : 0 < pass) (hless : pass < reservePass)
    (hfee : 0 ≤ feeBps ∧ feeBps ≤ 1000) :
    buyPayment pass reservePass reserveUsdc feeBps =
      if leastPayment pass reservePass reserveUsdc feeBps < 2 ^ 256 then
        .ok (leastPayment pass reservePass reserveUsdc feeBps)
      else .error (.market (.launchMarket "INVALID_AMOUNT" 400)) := by
  rw [buyPayment, ensure_of ⟨hpass, hless, husdc, hfee⟩, ok_bind, uint_repr]
  rfl

/-- Whatever the reserves and the fee, what `buyPayment` gives is the least payment that
reaches the PASS asked for, and every payment from it on reaches it; it gives nothing
only where that payment does not fit a word. -/
theorem buyPayment_least (husdc : 0 < reserveUsdc) (hpass : 0 < pass) (hless : pass < reservePass)
    (hlow : 0 ≤ feeBps) (hhigh : feeBps ≤ 1000) :
    ∃ payment, buyPayment pass reservePass reserveUsdc feeBps =
        (if payment < 2 ^ 256 then .ok payment
          else .error (.market (.launchMarket "INVALID_AMOUNT" 400))) ∧
      (∀ a, 0 < a → (Reaches pass reservePass reserveUsdc feeBps a ↔ payment ≤ a)) ∧
      IsLeast {a | 0 < a ∧ Reaches pass reservePass reserveUsdc feeBps a} payment := by
  have hfee : 0 ≤ feeBps ∧ feeBps ≤ 1000 := ⟨hlow, hhigh⟩
  have hiff : ∀ a, 0 < a → (Reaches pass reservePass reserveUsdc feeBps a ↔
      leastPayment pass reservePass reserveUsdc feeBps ≤ a) := fun a ha =>
    reaches_iff_least ha husdc hpass hless hfee
  have hpos := leastPayment_pos husdc hpass hless hhigh
  refine ⟨_, buyPayment_eq husdc hpass hless hfee, hiff, ⟨hpos, ?_⟩, ?_⟩
  · exact (hiff _ hpos).mpr (Nat.le_refl _)
  · rintro a ⟨ha, hreaches⟩
    exact (hiff a ha).mp hreaches

/-- Ten PASS of a pool of a thousand PASS and five hundred USDC, at 30 basis points. -/
theorem buyPayment_least_ten :
    ∃ payment, buyPayment (10 * 10 ^ 18) (1000 * 10 ^ 18) 500000000 30 =
        (if payment < 2 ^ 256 then .ok payment
          else .error (.market (.launchMarket "INVALID_AMOUNT" 400))) ∧
      (∀ a, 0 < a → (Reaches (10 * 10 ^ 18) (1000 * 10 ^ 18) 500000000 30 a ↔ payment ≤ a)) ∧
      IsLeast {a | 0 < a ∧ Reaches (10 * 10 ^ 18) (1000 * 10 ^ 18) 500000000 30 a} payment :=
  buyPayment_least (by decide) (by decide) (by decide) (by decide) (by decide)

end Pool

end PaymentEstimate
end AlphaForge
