/-
The first price of a pool, `initialPoolSqrtPrice` of `deployment-plan.ts`.

A pool is initialised at the square root of its price, in units of `2 ^ -96`.  The root
is taken of a quotient that is floored before, in the orientation that the order of the
two tokens asks for; flooring the quotient changes nothing, since a whole square is at
most a number exactly when it is at most the floor of it.
-/
import AlphaForge.Data.Newton
import AlphaForge.Testnet.OrderJournal
import Mathlib.Order.Bounds.Defs

namespace AlphaForge
namespace DeploymentPlan

open Evm
open OrderJournal (Ethers walletAddress)

/-- `uint` of a worksheet: a positive word. -/
def uint (v : String) : Except String Nat := do
  ensure (Text.isDecimal 77 v = true ∧ v ≠ "0" ∧ Text.ofDecimal v < 2 ^ 256) "DEPLOYMENT_WORKSHEET"
  return Text.ofDecimal v

/-- The loop of `sqrt`; dividing by zero throws. -/
def sqrtLoop (value a b : Nat) : Except String Nat :=
  if _h : b < a then do
    ensure (b ≠ 0) "RangeError"
    sqrtLoop value b ((b + value / b) / 2)
  else .ok a
termination_by a

def sqrt (value : Nat) : Except String Nat :=
  if value < 2 then .ok value else sqrtLoop value value ((value + 1) / 2)

def minSqrtPrice : Nat := 4295128739

def maxSqrtPrice : Nat := 1461446703485210103287273052203988822378723970342

/-- `a` and `b` are the addresses of the two tokens in lower case, `p` is the price. -/
def poolQuotient (a b : String) (p : Nat) : Nat :=
  if a < b then (10 ^ 18 <<< 192) / p else (p <<< 192) / 10 ^ 18

def initialPoolSqrtPrice (ethers : Ethers) (usdc stock priceUsdc : String) :
    Except String String := do
  let a ← walletAddress ethers usdc
  let b ← walletAddress ethers stock
  let p ← uint priceUsdc
  ensure (a ≠ b) "POOL_PRICE"
  let value ← sqrt (poolQuotient a b p)
  ensure (minSqrtPrice < value ∧ value < maxSqrtPrice) "POOL_PRICE_RANGE"
  return value.repr

/-! ## The root -/

/-- From a guess at or above the root, with the next guess at hand, the loop ends at
the root. -/
theorem sqrtLoop_eq {value a : Nat} (ha : 0 < a) (hvalue : 0 < value) (hroot : Nat.sqrt value ≤ a) :
    sqrtLoop value a (Newton.next value a) = .ok (Nat.sqrt value) := by
  induction a using Nat.strongRecOn with
  | ind a ih =>
      rw [sqrtLoop]
      split
      · next hless =>
        have hpos := Newton.next_pos ha hvalue
        rw [ensure_of (Nat.ne_of_gt hpos), ok_bind]
        exact ih _ hless hpos (Newton.sqrt_le_next ha)
      · next hstop =>
        have hle := Newton.le_sqrt_of_le_next ha (Nat.le_of_not_lt hstop)
        rw [Nat.le_antisymm hle hroot]

theorem sqrt_eq (value : Nat) : sqrt value = .ok (Nat.sqrt value) := by
  rw [sqrt]
  split
  · next hsmall =>
    have hvalue : value = 0 ∨ value = 1 := by omega
    rcases hvalue with rfl | rfl
    · rw [Nat.sqrt_zero]
    · rw [Nat.sqrt_one]
  · next hlarge =>
    have hpos : 0 < value := by omega
    have hnext : Newton.next value value = (value + 1) / 2 := by
      rw [Newton.next, Nat.div_self hpos]
    rw [← hnext]
    exact sqrtLoop_eq hpos hpos (Nat.sqrt_le_self value)

/-- A root of a floored quotient, without the quotient. -/
theorem sqrt_div_isGreatest {n p : Nat} (hp : 0 < p) :
    IsGreatest {v | v * v * p ≤ n} (Nat.sqrt (n / p)) := by
  have hiff : ∀ v, v * v * p ≤ n ↔ v ≤ Nat.sqrt (n / p) := fun v => by
    rw [Nat.le_sqrt, Nat.le_div_iff_mul_le hp]
  exact ⟨(hiff _).mpr (Nat.le_refl _), fun v hv => (hiff v).mp hv⟩

/-! ## The price -/

theorem uint_repr {p : Nat} (hpos : 1 ≤ p) (hword : p < 2 ^ 256) : uint p.repr = .ok p := by
  have hdecimal : Text.isDecimal 77 p.repr = true :=
    Text.isDecimal_repr (Nat.lt_of_lt_of_le hword (by decide))
  have hzero : p.repr ≠ "0" := fun heq => by
    have hread := congrArg Text.ofDecimal heq
    rw [Text.ofDecimal_repr] at hread
    rw [hread] at hpos
    exact absurd hpos (by decide)
  rw [uint, Text.ofDecimal_repr, ensure_of ⟨hdecimal, hzero, hword⟩]
  rfl

/-- What a first price `v` of a pool is, whichever way round the tokens are: a USDC
below the stock is priced in stock. -/
def Prices (a b : String) (p v : Nat) : Prop :=
  if a < b then v * v * p ≤ 10 ^ 18 * 2 ^ 192 else v * v * 10 ^ 18 ≤ p * 2 ^ 192

theorem sqrt_poolQuotient {a b : String} {p : Nat} (hpos : 1 ≤ p) :
    IsGreatest {v | Prices a b p v} (Nat.sqrt (poolQuotient a b p)) := by
  unfold Prices poolQuotient
  by_cases hless : a < b
  · simp only [if_pos hless, Nat.shiftLeft_eq]
    exact sqrt_div_isGreatest hpos
  · simp only [if_neg hless, Nat.shiftLeft_eq]
    exact sqrt_div_isGreatest (Nat.pow_pos (by decide))

/-- Of any two tokens and any price, the loop of the root ends at the greatest root
price, and the price is taken exactly when that lies strictly between the bounds of a
pool. -/
theorem initial_price_exact {ethers : Ethers} {usdc stock a b : String} {p : Nat}
    (husdc : walletAddress ethers usdc = .ok a) (hstock : walletAddress ethers stock = .ok b)
    (hne : a ≠ b) (hpos : 1 ≤ p) (hword : p < 2 ^ 256) :
    ∃ v, sqrt (poolQuotient a b p) = .ok v ∧
      IsGreatest {v | Prices a b p v} v ∧
      initialPoolSqrtPrice ethers usdc stock p.repr =
        if minSqrtPrice < v ∧ v < maxSqrtPrice then .ok v.repr else .error "POOL_PRICE_RANGE" := by
  refine ⟨_, sqrt_eq _, sqrt_poolQuotient hpos, ?_⟩
  rw [initialPoolSqrtPrice, husdc, ok_bind, hstock, ok_bind, uint_repr hpos hword, ok_bind,
    ensure_of hne, ok_bind, sqrt_eq, ok_bind, ensure]
  split <;> rfl

/-- Both addresses are in lower case, so that no checksum is asked for. -/
def plainEthers : Ethers where
  checksum := id
  transactionFrom := fun _ => none
  keccak256 := id
  keccak256Utf8 := id

/-- A stock of 180 USDC, on a USDC at the lower address. -/
theorem initial_price_exact_stock :
    ∃ v, sqrt (poolQuotient "0x00000000000000000000000000000000000000aa"
        "0x00000000000000000000000000000000000000bb" 180000000) = .ok v ∧
      IsGreatest {v | Prices "0x00000000000000000000000000000000000000aa"
        "0x00000000000000000000000000000000000000bb" 180000000 v} v ∧
      initialPoolSqrtPrice plainEthers "0x00000000000000000000000000000000000000aa"
          "0x00000000000000000000000000000000000000bb" (180000000 : Nat).repr =
        if minSqrtPrice < v ∧ v < maxSqrtPrice then .ok v.repr else .error "POOL_PRICE_RANGE" :=
  initial_price_exact (by decide) (by decide) (by decide) (by decide) (by decide)

end DeploymentPlan
end AlphaForge
