/-
One moving average, computed twice: `reference-ema.ts` price by price, and `ema` of
`ema-strategy.ts` from the whole history.

After any number of prices an accumulator is the one of their history, so that the
switch from averaging to smoothing is one case of the step lemma.  An average stays
between bounds that every price keeps, as a mean does and then each weighted mean.
-/
import AlphaForge.Reference.Engine
import Mathlib.Data.List.Induction
import Mathlib.Tactic.Ring

namespace AlphaForge
namespace Reference

open Evm

def precision : Nat := 1000000

/-- The mean of the first prices, smoothed by each later one. -/
def ema (values : List Nat) (period : Nat) : Nat :=
  (values.drop period).foldl
    (fun value price => (2 * price * precision + (period - 1) * value) / (period + 1))
    ((values.take period).foldl (fun n price => n + price * precision) 0 / period)

/-! ## An accumulator of a history -/

def total (values : List Nat) : Nat := values.foldl (fun n price => n + price * precision) 0

theorem total_append (values : List Nat) (price : Nat) :
    total (values ++ [price]) = total values + price * precision := by
  rw [total, List.foldl_append, List.foldl_cons, List.foldl_nil, ← total]

def accumulatorOf (period : Nat) (values : List Nat) : Accumulator :=
  if values.length < period then ⟨values.length, total values, none⟩
  else ⟨period, 0, some (ema values period)⟩

theorem ema_of_length {values : List Nat} {period : Nat} (h : values.length = period) :
    ema values period = total values / period := by
  rw [ema, List.drop_of_length_le (Nat.le_of_eq h), List.take_of_length_le (Nat.le_of_eq h)]
  rfl

theorem ema_append {values : List Nat} {period : Nat} (h : period ≤ values.length) (price : Nat) :
    ema (values ++ [price]) period =
      (2 * (price * precision) + (period - 1) * ema values period) / (period + 1) := by
  rw [ema, List.drop_append_of_le_length h, List.take_append_of_le_length h, List.foldl_append,
    List.foldl_cons, List.foldl_nil, ← ema, Nat.mul_assoc]

/-- One more price is one more in the history. -/
theorem accumulate_append (period : Nat) (values : List Nat) (price : Nat) :
    accumulate period (accumulatorOf period values) (price * precision) =
      .ok (accumulatorOf period (values ++ [price])) := by
  have hlength : (values ++ [price]).length = values.length + 1 := List.length_append
  by_cases hshort : values.length < period
  · rw [accumulatorOf, if_pos hshort, accumulate, if_pos hshort, accumulatorOf, hlength]
    by_cases hfull : values.length + 1 = period
    · -- the mean of all prices so far is the first value
      rw [if_pos hfull, if_neg (by omega), ema_of_length (hlength.trans hfull), total_append]
      exact congrArg (fun count => Except.ok (Accumulator.mk count 0 _)) hfull
    · rw [if_neg hfull, if_pos (by omega), total_append]
  · rw [accumulatorOf, if_neg hshort, accumulate, if_neg (Nat.lt_irrefl period), accumulatorOf,
      hlength, if_neg (by omega), ema_append (Nat.le_of_not_lt hshort)]

theorem advanceEma_append {price : String} (h : isPrice price = true) (values : List Nat) :
    advanceEma ⟨accumulatorOf 15 values, accumulatorOf 30 values⟩ price =
      .ok ⟨accumulatorOf 15 (values ++ [Text.ofDecimal price]),
        accumulatorOf 30 (values ++ [Text.ofDecimal price])⟩ := by
  have hfast := accumulate_append 15 values (Text.ofDecimal price)
  have hslow := accumulate_append 30 values (Text.ofDecimal price)
  rw [advanceEma, ensure_of h]
  show (do
    return { fast := ← accumulate 15 _ (Text.ofDecimal price * precision)
             slow := ← accumulate 30 _ (Text.ofDecimal price * precision) } :
      Except String EmaState) = _
  rw [hfast, hslow]
  rfl

/-- The state after a history is the one of its prices. -/
theorem foldlM_advanceEma {prices : List String} (h : ∀ p ∈ prices, isPrice p = true) :
    prices.foldlM advanceEma createEma =
      .ok ⟨accumulatorOf 15 (prices.map Text.ofDecimal),
        accumulatorOf 30 (prices.map Text.ofDecimal)⟩ := by
  induction prices using List.reverseRecOn with
  | nil => rfl
  | append_singleton rest price ih =>
      have hrest := ih fun p hp => h p (List.mem_append_left _ hp)
      have hprice := h price (List.mem_append_right _ List.mem_cons_self)
      rw [List.foldlM_append, hrest, ok_bind, List.map_append, List.foldlM_cons,
        advanceEma_append hprice]
      rfl

/-! ## Bounds -/

section Bounds

variable {lo hi : Nat}

theorem total_bounds {values : List Nat} (h : ∀ v ∈ values, lo ≤ v ∧ v ≤ hi) :
    values.length * (lo * precision) ≤ total values ∧
      total values ≤ values.length * (hi * precision) := by
  induction values using List.reverseRecOn with
  | nil => exact ⟨by simp, by simp [total]⟩
  | append_singleton rest price ih =>
      obtain ⟨hlo, hhi⟩ := ih fun v hv => h v (List.mem_append_left _ hv)
      obtain ⟨hplo, hphi⟩ := h price (List.mem_append_right _ List.mem_cons_self)
      have hmullo : lo * precision ≤ price * precision := Nat.mul_le_mul_right _ hplo
      have hmulhi : price * precision ≤ hi * precision := Nat.mul_le_mul_right _ hphi
      rw [total_append, List.length_append, List.length_singleton, Nat.add_one_mul, Nat.add_one_mul]
      omega

/-- A weighted mean of two values between the bounds is between them. -/
theorem smoothed_bounds {period x y a b : Nat} (hperiod : 0 < period) (hx : a ≤ x ∧ x ≤ b)
    (hy : a ≤ y ∧ y ≤ b) :
    a ≤ (2 * x + (period - 1) * y) / (period + 1) ∧
      (2 * x + (period - 1) * y) / (period + 1) ≤ b := by
  obtain ⟨k, rfl⟩ : ∃ k, period = k + 1 := ⟨period - 1, by omega⟩
  have hlow : k * a ≤ k * y := Nat.mul_le_mul_left k hy.1
  have hhigh : k * y ≤ k * b := Nat.mul_le_mul_left k hy.2
  have hsub : k + 1 - 1 = k := by omega
  rw [hsub]
  constructor
  · rw [Nat.le_div_iff_mul_le (by omega)]
    have hexpand : a * (k + 1 + 1) = k * a + 2 * a := by ring
    omega
  · rw [← Nat.lt_add_one_iff, Nat.div_lt_iff_lt_mul (by omega)]
    have hexpand : (b + 1) * (k + 1 + 1) = k * b + 2 * b + k + 2 := by ring
    omega

theorem ema_bounds {values : List Nat} {period : Nat} (hperiod : 0 < period)
    (hlength : period ≤ values.length) (h : ∀ v ∈ values, lo ≤ v ∧ v ≤ hi) :
    lo * precision ≤ ema values period ∧ ema values period ≤ hi * precision := by
  induction values using List.reverseRecOn with
  | nil => exact absurd hlength (Nat.not_le_of_lt hperiod)
  | append_singleton rest price ih =>
      by_cases hfull : period ≤ rest.length
      · have hrest := ih hfull fun v hv => h v (List.mem_append_left _ hv)
        obtain ⟨hplo, hphi⟩ := h price (List.mem_append_right _ List.mem_cons_self)
        rw [ema_append hfull]
        exact smoothed_bounds hperiod
          ⟨Nat.mul_le_mul_right _ hplo, Nat.mul_le_mul_right _ hphi⟩ hrest
      · have heq : (rest ++ [price]).length = period := by
          rw [List.length_append, List.length_singleton] at hlength ⊢
          omega
        obtain ⟨hlo, hhi⟩ := total_bounds h
        rw [heq] at hlo hhi
        rw [ema_of_length heq]
        constructor
        · rw [Nat.le_div_iff_mul_le hperiod, Nat.mul_comm]
          exact hlo
        · exact Nat.div_le_of_le_mul hhi

end Bounds

/-- After 30 prices or more, each price one that `advanceEma` takes, the incremental
averages are those of the whole history, and between what all prices are between. -/
theorem incremental_ema_exact {prices : List String} (hlength : 30 ≤ prices.length)
    (hprices : ∀ p ∈ prices, isPrice p = true) :
    ∃ s fast slow, prices.foldlM advanceEma createEma = .ok s ∧
      s.fast.value = some fast ∧ fast = ema (prices.map Text.ofDecimal) 15 ∧
      s.slow.value = some slow ∧ slow = ema (prices.map Text.ofDecimal) 30 ∧
      ∀ lo hi, (∀ v ∈ prices.map Text.ofDecimal, lo ≤ v ∧ v ≤ hi) →
        (lo * 10 ^ 6 ≤ fast ∧ fast ≤ hi * 10 ^ 6) ∧ lo * 10 ^ 6 ≤ slow ∧ slow ≤ hi * 10 ^ 6 := by
  have hlong : 30 ≤ (prices.map Text.ofDecimal).length := by rwa [List.length_map]
  refine ⟨_, ema (prices.map Text.ofDecimal) 15, ema (prices.map Text.ofDecimal) 30,
    foldlM_advanceEma hprices, ?_, rfl, ?_, rfl, fun lo hi hbounds => ?_⟩
  · show (accumulatorOf 15 _).value = _
    rw [accumulatorOf, if_neg (by omega)]
  · show (accumulatorOf 30 _).value = _
    rw [accumulatorOf, if_neg (by omega)]
  · exact ⟨ema_bounds (by decide) (by omega) hbounds, ema_bounds (by decide) hlong hbounds⟩

theorem incremental_ema_exact_steps :
    ∃ s fast slow,
      (List.replicate 20 "100" ++ List.replicate 11 "107").foldlM advanceEma createEma = .ok s ∧
      s.fast.value = some fast ∧
      fast = ema ((List.replicate 20 "100" ++ List.replicate 11 "107").map Text.ofDecimal) 15 ∧
      s.slow.value = some slow ∧
      slow = ema ((List.replicate 20 "100" ++ List.replicate 11 "107").map Text.ofDecimal) 30 ∧
      ∀ lo hi, (∀ v ∈ (List.replicate 20 "100" ++ List.replicate 11 "107").map Text.ofDecimal,
          lo ≤ v ∧ v ≤ hi) →
        (lo * 10 ^ 6 ≤ fast ∧ fast ≤ hi * 10 ^ 6) ∧ lo * 10 ^ 6 ≤ slow ∧ slow ≤ hi * 10 ^ 6 :=
  incremental_ema_exact (by decide) fun p hp => by
    rcases List.mem_append.mp hp with h | h
    · rw [List.eq_of_mem_replicate h]
      decide
    · rw [List.eq_of_mem_replicate h]
      decide

end Reference
end AlphaForge
