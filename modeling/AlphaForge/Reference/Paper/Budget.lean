/-
The budget of a buy, `buyBudget`.

The budget is searched for by halving, as though a quantity that meets the allocation
cap left every smaller one meeting it.  The charge rounds up and the worth of what is
bought rounds down, and the two step at different quantities: where the charge has just
stepped and the worth has not, the cap can fail below a quantity that meets it.  The
search finds the greatest quantity exactly when none of its midpoints falls there.
-/
import AlphaForge.Reference.Paper.Units
import Mathlib.Data.Int.LeastGreatest
import Mathlib.Order.Bounds.Defs

namespace AlphaForge
namespace Paper

open Evm Commit Machine Reference

variable {state : PaperState} {id : String}

/-! ## Halving -/

/-- The midpoints that halving meets on its way to `target`. -/
def middles (target : Int) : Nat → Int → Int → List Int
  | 0, _, _ => []
  | fuel + 1, low, high =>
      if low < high then
        let middle := (low + high + 1) / 2
        middle :: if middle ≤ target then middles target fuel middle high
          else middles target fuel low (middle - 1)
      else []

section Search

variable {fits : Int → Except String Bool} {fuel : Nat} {low high : Int}

theorem search_bounds {r : Int} (hle : low ≤ high) (h : search fits fuel low high = .ok r) :
    low ≤ r ∧ r ≤ high := by
  induction fuel generalizing low high with
  | zero =>
      cases h
      exact ⟨Int.le_refl _, hle⟩
  | succ fuel ih =>
      rw [search] at h
      split at h
      · next hless =>
        simp only [bind_eq_ok] at h
        obtain ⟨fit, -, h⟩ := h
        split at h
        · have hrest := ih (by omega) h
          omega
        · have hrest := ih (by omega) h
          omega
      · cases h
        exact ⟨Int.le_refl _, hle⟩

/-- What is found meets the predicate, unless nothing was tried that does. -/
theorem search_fits {r : Int} (h : search fits fuel low high = .ok r) :
    r = low ∨ fits r = .ok true := by
  induction fuel generalizing low high with
  | zero =>
      cases h
      exact Or.inl rfl
  | succ fuel ih =>
      rw [search] at h
      split at h
      · simp only [bind_eq_ok] at h
        obtain ⟨fit, hfit, h⟩ := h
        split at h
        · next hyes =>
          rcases ih h with rfl | hr
          · exact Or.inr (by rw [hfit, hyes])
          · exact Or.inr hr
        · exact ih h
      · cases h
        exact Or.inl rfl

/-- Halving ends at `target` exactly when every midpoint on the way there is told from
it rightly. -/
theorem search_eq_iff {target : Int} (hlow : low ≤ target) (hhigh : target ≤ high)
    (hfuel : high - low ≤ fuel) :
    search fits fuel low high = .ok target ↔
      ∀ m ∈ middles target fuel low high, fits m = .ok (decide (m ≤ target)) := by
  induction fuel generalizing low high with
  | zero =>
      have htarget : low = target := by omega
      rw [search, middles, htarget]
      exact ⟨fun _ m hm => (List.not_mem_nil hm).elim, fun _ => rfl⟩
  | succ fuel ih =>
      rw [search, middles]
      by_cases hless : low < high
      · rw [if_pos hless, if_pos hless]
        simp only [List.forall_mem_cons, bind_eq_ok]
        by_cases hmiddle : (low + high + 1) / 2 ≤ target
        · have hrest := @ih ((low + high + 1) / 2) high hmiddle hhigh (by omega)
          rw [if_pos hmiddle, decide_eq_true hmiddle, ← hrest]
          constructor
          · rintro ⟨fit, hfit, h⟩
            cases fit with
            | true => exact ⟨hfit, h⟩
            | false =>
                have hbounds := search_bounds (by omega) h
                omega
          · rintro ⟨hfit, h⟩
            exact ⟨true, hfit, h⟩
        · have hrest := @ih low ((low + high + 1) / 2 - 1) hlow (by omega) (by omega)
          rw [if_neg hmiddle, decide_eq_false hmiddle, ← hrest]
          constructor
          · rintro ⟨fit, hfit, h⟩
            cases fit with
            | true =>
                have hbounds := search_bounds (by omega) h
                omega
            | false => exact ⟨hfit, h⟩
          · rintro ⟨hfit, h⟩
            exact ⟨false, hfit, h⟩
      · have htarget : low = target := by omega
        rw [if_neg hless, if_neg hless, htarget]
        exact ⟨fun _ m hm => (List.not_mem_nil hm).elim, fun _ => rfl⟩

end Search

/-! ## Where the cap fails below a quantity that meets it -/

theorem ceil_mono {n m d : Int} (hd : 0 < d) (h : n ≤ m) : ceil n d ≤ ceil m d :=
  Int.ediv_le_ediv hd (by omega)

/-- From a smaller quantity to a larger one the worth rises by at most one more than
the gross charge. -/
theorem worthAt_le (held : Int) {bid price m q : Int} (hm : m ≤ q) (hbid : bid ≤ price) (hpos : 0 ≤ bid) :
    worthAt (held + q) bid - worthAt (held + m) bid ≤
      ceil (q * price) valueScale - ceil (m * price) valueScale + 1 := by
  obtain ⟨d, hd⟩ := Int.eq_ofNat_of_zero_le (Int.sub_nonneg.mpr hm)
  have hq : q = m + d := by omega
  have hrise : (d : Int) * bid ≤ d * price := Int.mul_le_mul_of_nonneg_left hbid (Int.natCast_nonneg d)
  have hworth : (held + q) * bid = (held + m) * bid + d * bid := by
    rw [hq, ← Int.add_assoc, Int.add_mul]
  have hgross : q * price = m * price + d * price := by rw [hq, Int.add_mul]
  rw [worthAt, worthAt, ceil, ceil, hworth, hgross]
  unfold valueScale
  have hnonneg : 0 ≤ (d : Int) * bid := Int.mul_nonneg (Int.natCast_nonneg d) hpos
  generalize (held + m) * bid = x at *
  generalize (d : Int) * bid = y at *
  generalize m * price = z at *
  generalize (d : Int) * price = w at *
  omega

def buyPrice (state : PaperState) (quote : ReferenceObservation) : Int :=
  ceil (askOf quote * (bps + state.config.slippageBps)) bps

/-- What a buy costs. -/
def charge (state : PaperState) (price quantity : Int) : Int :=
  ceil (quantity * price) valueScale +
    ceil (ceil (quantity * price) valueScale * state.config.feeBps) bps

/-- The value after a buy, less three times what is then held: the cap is that it is not
negative. -/
def slack (state : PaperState) (id : String) (price value quantity : Int) : Int :=
  let held := (heldAt state id).quantity18
  let old := worthAt held (bidAt state id)
  value - charge state price quantity + worthAt (held + quantity) (bidAt state id) - old -
    (old + charge state price quantity) * 3

/-- A state that has prices to buy a stock at: what a run keeps and what a quote is
checked for. -/
structure Offered (state : PaperState) (id : String) (quote : ReferenceObservation) : Prop where
  known : state.positions.get? id ≠ none
  fresh : freshQuote state id state.clock = some quote
  ask : 0 < askOf quote
  ordered : bidOf quote ≤ askOf quote
  rates : Rates state.config
  cash : 0 ≤ state.cash6

section Offered

variable {quote : ReferenceObservation} {value m q : Int}

theorem bidOf_nonneg : 0 ≤ bidOf quote := Int.natCast_nonneg _

theorem Offered.ask_le_price (h : Offered state id quote) : askOf quote ≤ buyPrice state quote := by
  have hslip : askOf quote * bps ≤ askOf quote * (bps + state.config.slippageBps) :=
    Int.mul_le_mul_of_nonneg_left (by have := h.rates.slippageBps; omega) (Int.le_of_lt h.ask)
  rw [buyPrice, ceil]
  unfold bps at hslip ⊢
  omega

theorem tradeNumbers_buy (hknown : state.positions.get? id ≠ none)
    (hquote : freshQuote state id state.clock = some quote) (quantity : Int) :
    tradeNumbers state id .buy quantity = .ok {
      price := buyPrice state quote, gross := ceil (quantity * buyPrice state quote) valueScale
      fee := ceil (ceil (quantity * buyPrice state quote) valueScale * state.config.feeBps) bps } := by
  rw [tradeNumbers, ensure_of hknown, ok_bind, hquote]
  rfl

theorem Offered.withinCap_eq (h : Offered state id quote) (quantity : Int) :
    withinCap state id quantity =
      if state.cash6 < charge state (buyPrice state quote) quantity then .ok false
      else do
        let value ← valuation state
        return decide (0 ≤ slack state id (buyPrice state quote) value quantity) := by
  rw [withinCap, tradeNumbers_buy h.known h.fresh, ok_bind]
  show (if state.cash6 < charge state (buyPrice state quote) quantity then .ok false
    else do
      let value ← valuation state
      return decide ((_ + charge state (buyPrice state quote) quantity) * 3 ≤
        value - charge state (buyPrice state quote) quantity + _ - _)) = _
  congr 1
  refine congrArg (valuation state >>= ·) (funext fun value => ?_)
  refine congrArg Except.ok (decide_eq_decide.mpr ?_)
  simp only [slack]
  omega

theorem Offered.withinCap_valued (h : Offered state id quote) (hvalue : valuation state = .ok value)
    (quantity : Int) :
    withinCap state id quantity = .ok (decide (charge state (buyPrice state quote) quantity ≤ state.cash6 ∧
      0 ≤ slack state id (buyPrice state quote) value quantity)) := by
  rw [h.withinCap_eq, hvalue, ok_bind]
  by_cases hpaid : charge state (buyPrice state quote) quantity ≤ state.cash6
  · rw [if_neg (Int.not_lt.mpr hpaid)]
    simp only [hpaid, true_and]
    rfl
  · rw [if_pos (Int.not_le.mp hpaid), decide_eq_false fun hmet => hpaid hmet.1]

/-- The smaller of two quantities is charged like the larger and is worth less, and the
larger meets the cap with nothing to spare. -/
structure Gap (state : PaperState) (id : String) (quote : ReferenceObservation) (m q : Int) :
    Prop where
  less : m < q
  gross : ceil (m * buyPrice state quote) valueScale = ceil (q * buyPrice state quote) valueScale
  worth : worthAt ((heldAt state id).quantity18 + m) (bidOf quote) <
    worthAt ((heldAt state id).quantity18 + q) (bidOf quote)
  tight : ∃ value, valuation state = .ok value ∧ slack state id (buyPrice state quote) value q = 0

theorem charge_congr (state : PaperState) {price : Int} (h : ceil (m * price) valueScale = ceil (q * price) valueScale) :
    charge state price m = charge state price q := by
  rw [charge, charge, h]

/-- The cap fails below a quantity that meets it exactly in a gap. -/
theorem Offered.withinCap_below (h : Offered state id quote) (hvalue : valuation state = .ok value)
    (hm : m ≤ q) (hq : withinCap state id q = .ok true) :
    withinCap state id m = .ok true ↔ ¬ Gap state id quote m q := by
  rw [h.withinCap_valued hvalue] at hq ⊢
  have hmet := of_decide_eq_true (Except.ok.inj hq)
  rw [Except.ok.injEq, decide_eq_true_iff]
  constructor
  · rintro hmets ⟨-, hgross, hworth, tightValue, htight, hzero⟩
    have hsame := charge_congr state hgross
    cases hvalue.symm.trans htight
    simp only [slack, freshQuote_bidAt h.fresh] at hmets hzero
    omega
  · intro hgap
    have hprice : bidOf quote ≤ buyPrice state quote := le_trans h.ordered h.ask_le_price
    have hrise := worthAt_le (heldAt state id).quantity18 hm hprice bidOf_nonneg
    have hworth : worthAt ((heldAt state id).quantity18 + m) (bidOf quote) ≤
        worthAt ((heldAt state id).quantity18 + q) (bidOf quote) :=
      Int.ediv_le_ediv (by decide) (Int.mul_le_mul_of_nonneg_right (by omega) bidOf_nonneg)
    have hgross : ceil (m * buyPrice state quote) valueScale ≤
        ceil (q * buyPrice state quote) valueScale :=
      ceil_mono (by decide)
        (Int.mul_le_mul_of_nonneg_right hm (le_trans (le_of_lt h.ask) h.ask_le_price))
    have hfee : ceil (ceil (m * buyPrice state quote) valueScale * state.config.feeBps) bps ≤
        ceil (ceil (q * buyPrice state quote) valueScale * state.config.feeBps) bps :=
      ceil_mono (by decide) (Int.mul_le_mul_of_nonneg_right hgross h.rates.feeBps)
    have hlevel : m = q → worthAt ((heldAt state id).quantity18 + m) (bidOf quote) =
        worthAt ((heldAt state id).quantity18 + q) (bidOf quote) := fun heq => by rw [heq]
    have hopen : m < q → ceil (m * buyPrice state quote) valueScale =
          ceil (q * buyPrice state quote) valueScale →
        worthAt ((heldAt state id).quantity18 + m) (bidOf quote) <
          worthAt ((heldAt state id).quantity18 + q) (bidOf quote) →
        slack state id (buyPrice state quote) value q ≠ 0 :=
      fun hless hsame hlower hzero => hgap ⟨hless, hsame, hlower, value, hvalue, hzero⟩
    have hsame := @charge_congr m q state (buyPrice state quote)
    simp only [slack, freshQuote_bidAt h.fresh] at hmet hopen ⊢
    unfold charge at hmet hopen hsame ⊢
    omega

end Offered

/-! ## The budget -/

/-- The quantities up to a bound that meet the cap. -/
def Affordable (state : PaperState) (id : String) (bound : Int) : Set Int :=
  {q | 0 ≤ q ∧ q ≤ bound ∧ withinCap state id q = .ok true}

/-- The greatest quantity that meets the cap, or zero if there is none. -/
def IsBudget (state : PaperState) (id : String) (bound q : Int) : Prop :=
  IsGreatest (Affordable state id bound) q ∨ (Affordable state id bound = ∅ ∧ q = 0)

/-- What the cash pays for at a price, before the fee. -/
def spendable (state : PaperState) (price : Int) : Int :=
  min (state.cash6 * valueScale / price) maxAmount

theorem exists_budget (state : PaperState) (id : String) (bound : Int) :
    ∃ q, IsBudget state id bound q := by
  rcases Set.eq_empty_or_nonempty (Affordable state id bound) with hempty | hsome
  · exact ⟨0, Or.inr ⟨hempty, rfl⟩⟩
  · obtain ⟨q, hq, hgreatest⟩ := Int.exists_greatest_of_bdd
      (P := fun q => q ∈ Affordable state id bound) ⟨bound, fun q hq => hq.2.1⟩ hsome
    exact ⟨q, Or.inl ⟨hq, fun other hother => hgreatest other hother⟩⟩

section Budget

variable {quote : ReferenceObservation} {bound q m : Int}

theorem IsBudget.bounds (h : IsBudget state id bound q) (hbound : 0 ≤ bound) : 0 ≤ q ∧ q ≤ bound := by
  rcases h with ⟨hq, -⟩ | ⟨-, rfl⟩
  · exact ⟨hq.1, hq.2.1⟩
  · exact ⟨le_refl 0, hbound⟩

/-- Nothing beyond the budget meets the cap. -/
theorem IsBudget.beyond (h : IsBudget state id bound q) (hm : 0 < m) (hbound : m ≤ bound)
    (hq : q < m) : withinCap state id m ≠ .ok true := by
  intro hfits
  have hafford : m ∈ Affordable state id bound := ⟨le_of_lt hm, hbound, hfits⟩
  rcases h with ⟨-, hgreatest⟩ | ⟨hempty, -⟩
  · exact absurd (hgreatest hafford) (not_le.mpr hq)
  · rw [hempty] at hafford
    exact hafford

/-- A quantity is told from the budget rightly: it is not valued at a stale price, and it
is not in a gap below the budget. -/
def Judged (state : PaperState) (id : String) (quote : ReferenceObservation) (q m : Int) : Prop :=
  (charge state (buyPrice state quote) m ≤ state.cash6 → ∃ value, valuation state = .ok value) ∧
    ¬ Gap state id quote m q

theorem Offered.judged_iff (h : Offered state id quote) (hq : IsBudget state id bound q)
    (hm : 0 < m) (hbound : m ≤ bound) :
    withinCap state id m = .ok (decide (m ≤ q)) ↔ Judged state id quote q m := by
  cases hvalue : valuation state with
  | error e =>
      -- then no quantity meets the cap, and the budget is zero
      have hnever : ∀ n, withinCap state id n ≠ .ok true := fun n hn => by
        rw [h.withinCap_eq, hvalue] at hn
        split at hn <;> cases hn
      have hzero : q = 0 := by
        rcases hq with ⟨hq, -⟩ | ⟨-, hq⟩
        · exact absurd hq.2.2 (hnever q)
        · exact hq
      rw [decide_eq_false (by omega), h.withinCap_eq, hvalue]
      constructor
      · intro hfalse
        refine ⟨fun hpaid => ?_, fun hgap => absurd hgap.less (by omega)⟩
        rw [if_neg (not_lt.mpr hpaid)] at hfalse
        cases hfalse
      · rintro ⟨hvalued, -⟩
        by_cases hpaid : charge state (buyPrice state quote) m ≤ state.cash6
        · obtain ⟨value, hother⟩ := hvalued hpaid
          rw [hvalue] at hother
          cases hother
        · rw [if_pos (not_le.mp hpaid)]
  | ok value =>
      have hvalued : ∃ value, valuation state = .ok value := ⟨value, hvalue⟩
      by_cases hle : m ≤ q
      · have hfits : withinCap state id q = .ok true := by
          rcases hq with ⟨hq, -⟩ | ⟨-, hq⟩
          · exact hq.2.2
          · omega
        rw [decide_eq_true hle, h.withinCap_below hvalue hle hfits]
        exact ⟨fun hgap => ⟨fun _ => hvalued, hgap⟩, And.right⟩
      · rw [decide_eq_false hle]
        refine iff_of_true ?_ ⟨fun _ => hvalued, fun hgap => hle (le_of_lt hgap.less)⟩
        have hbeyond := hq.beyond hm hbound (not_le.mp hle)
        rw [h.withinCap_valued hvalue] at hbeyond ⊢
        refine congrArg Except.ok (Bool.eq_false_iff.mpr fun htrue => hbeyond ?_)
        rw [htrue]

end Budget

theorem await_bind_throws {α β : Type} {x : Except String α} {f : α → EStateM String Desk β}
    {s s' : Desk} {e : String} (h : (await x >>= f) s = .error e s') :
    x = .error e ∨ ∃ a, x = .ok a ∧ f a s = .error e s' := by
  cases x with
  | ok a => exact Or.inr ⟨a, rfl, h⟩
  | error e' =>
      cases h
      exact Or.inl rfl

/-- A buy of nothing, or of a quantity that meets the cap, is not refused for the cap. -/
theorem execute_ne_limit {quantity : Int} {events : List PaperEvent} {e : String} {desk : Desk}
    (hcap : quantity = 0 ∨ withinCap state id quantity = .ok true)
    (h : execute id .buy quantity ⟨state, events⟩ = .error e desk) : e ≠ "ALLOCATION_LIMIT" := by
  have hensure : ∀ {p : Prop} [Decidable p] {code : String}, code ≠ "ALLOCATION_LIMIT" →
      ensure p code = .error e → e ≠ "ALLOCATION_LIMIT" := fun hcode hthrown => by
    obtain ⟨-, rfl⟩ := ensure_eq_error.mp hthrown
    exact hcode
  unfold execute at h
  rcases bind_throws h with h | ⟨d, t, hget, h⟩
  · cases h
  cases hget
  rcases await_bind_throws h with hthrown | ⟨_, hpositive, h⟩
  · exact hensure (by decide) hthrown
  have hfits : withinCap state id quantity = .ok true :=
    hcap.resolve_left fun hzero => by
      have := (ensure_eq_ok.mp hpositive).1
      omega
  obtain ⟨n, -, hn, -⟩ := withinCap_eq_true hfits
  rcases await_bind_throws h with hthrown | ⟨-, -, h⟩
  · exact hensure (by decide) hthrown
  rcases await_bind_throws h with hthrown | ⟨-, -, h⟩
  · exact hensure (by decide) hthrown
  rcases await_bind_throws h with hthrown | ⟨numbers, -, h⟩
  · rw [hn] at hthrown
    cases hthrown
  rcases await_bind_throws h with hthrown | ⟨-, -, h⟩
  · exact hensure (by decide) hthrown
  rcases await_bind_throws h with hthrown | ⟨within, hwithin, h⟩
  · rw [hfits] at hthrown
    cases hthrown
  rcases await_bind_throws h with hthrown | ⟨-, -, h⟩
  · obtain ⟨hnot, -⟩ := ensure_eq_error.mp hthrown
    exact absurd (Except.ok.inj (hwithin.symm.trans hfits)) hnot
  rcases await_bind_throws h with hthrown | ⟨-, -, h⟩
  · exact hensure (by decide) hthrown
  -- what remains writes and cannot throw
  cases h

theorem middles_bounds {target low high m : Int} {fuel : Nat} (h : m ∈ middles target fuel low high) :
    low < m ∧ m ≤ high := by
  induction fuel generalizing low high with
  | zero => exact (List.not_mem_nil h).elim
  | succ fuel ih =>
      rw [middles] at h
      split at h
      · rcases List.mem_cons.mp h with rfl | h
        · omega
        · split at h
          · have hrest := ih h
            omega
          · have hrest := ih h
            omega
      · exact (List.not_mem_nil h).elim

/-- The midpoints of the search for a budget. -/
def probes (state : PaperState) (quote : ReferenceObservation) (q : Int) : List Int :=
  middles q (spendable state (buyPrice state quote)).toNat 0 (spendable state (buyPrice state quote))

/-- There is a budget, and it is what the search returns exactly when each midpoint on the
way to it is judged rightly; and what the search returns is never refused for the cap. -/
theorem buy_budget_maximal_iff {quote : ReferenceObservation} (h : Offered state id quote) :
    (∃ q, IsBudget state id (spendable state (buyPrice state quote)) q) ∧
      (∀ q, IsBudget state id (spendable state (buyPrice state quote)) q →
        (buyBudget state id = .ok q ↔ ∀ m ∈ probes state quote q, Judged state id quote q m)) ∧
      ∀ r, buyBudget state id = .ok r → ∀ events e desk,
        execute id .buy r ⟨state, events⟩ = .error e desk → e ≠ "ALLOCATION_LIMIT" := by
  have hprice : 0 < buyPrice state quote := lt_of_lt_of_le h.ask h.ask_le_price
  have hbound : 0 ≤ spendable state (buyPrice state quote) :=
    le_min (Int.ediv_nonneg (Int.mul_nonneg h.cash (by decide)) (le_of_lt hprice)) (by decide)
  have hbudget : buyBudget state id = search (withinCap state id)
      (spendable state (buyPrice state quote)).toNat 0 (spendable state (buyPrice state quote)) := by
    rw [buyBudget, tradeNumbers_buy h.known h.fresh, ok_bind, ensure_of (Int.ne_of_gt hprice), ok_bind]
    rfl
  refine ⟨exists_budget state id _, fun q hq => ?_, fun r hr events e desk hthrown => ?_⟩
  · obtain ⟨hlow, hhigh⟩ := hq.bounds hbound
    rw [hbudget, search_eq_iff hlow hhigh (by omega)]
    refine forall_congr' fun m => forall_congr' fun hm => ?_
    obtain ⟨hpositive, hmost⟩ := middles_bounds hm
    exact h.judged_iff hq hpositive hmost
  · rw [hbudget] at hr
    exact execute_ne_limit (search_fits hr) hthrown

/-! ## A third of three hundred -/

def thirdConfig : PaperConfig := { smallConfig with initialCash6 := "300000000" }

def thirdPaper : PaperState :=
  { smallPaper with
    config := thirdConfig, cash6 := 300000000, netContributed6 := 300000000
    units := ⟨300000000, 1⟩ }

theorem thirdPaper_created : createPaper thirdConfig = .ok thirdPaper := by
  have hparsed : parsePaperConfig thirdConfig = .ok thirdConfig := by decide
  have hids : smallIds.length = 3 ∧ smallIds.Nodup := by decide
  have hcash : (Text.ofDecimal thirdConfig.initialCash6 : Int) = 300000000 := by decide
  have hminutes : createMinutes smallIds = .ok smallPaper.minutes :=
    bind_eq_ok.mpr ⟨(), ensure_eq_ok.mpr hids, rfl⟩
  rw [createPaper, hparsed]
  refine bind_eq_ok.mpr ⟨thirdConfig, rfl, bind_eq_ok.mpr ⟨smallPaper.minutes, hminutes, ?_⟩⟩
  simp only [hcash]
  rfl

def thirdId : String := "46630:" ++ exampleAddress 1

/-- The stock is quoted at four hundred, and nothing is held yet. -/
def thirdDesk : Except String Desk :=
  observeAt 1767625212000 (firstRows.map Row.observation) ⟨thirdPaper, []⟩

/-- The state that the first batch leaves. -/
def thirdState : PaperState :=
  (exec dustStep ⟨thirdPaper, []⟩ [.batch (batchOf smallMarket 1767625212000 firstRows)]).state

theorem thirdState_eq {desk : Desk} (h : thirdDesk = .ok desk) : thirdState = desk.state := by
  have hopened : dustStep (.batch (batchOf smallMarket 1767625212000 firstRows)) ⟨thirdPaper, []⟩ =
      .ok desk :=
    (paperStep_round dust_received first_round rfl (by decide)).trans h
  rw [thirdState, exec_cons, apply_ok hopened]
  rfl

def offer (state : PaperState) (id : String) : Option ReferenceObservation :=
  (freshQuote state id state.clock).filter fun quote =>
    state.positions.get? id ≠ none ∧ 0 < askOf quote ∧ bidOf quote ≤ askOf quote ∧
      0 ≤ state.config.feeBps ∧ 0 ≤ state.config.slippageBps ∧ state.config.slippageBps < 10000 ∧
      0 ≤ state.cash6

theorem offered_of_offer {quote : ReferenceObservation} (h : offer state id = some quote) :
    Offered state id quote := by
  obtain ⟨hfresh, hchecks⟩ := Option.filter_eq_some_iff.mp h
  obtain ⟨hknown, hask, hordered, hfee, hslip, hless, hcash⟩ := of_decide_eq_true hchecks
  exact ⟨hknown, hfresh, hask, hordered, ⟨hfee, hslip, hless⟩, hcash⟩

theorem thirdDesk_offers : (thirdDesk.toOption.any fun desk =>
    (offer desk.state thirdId).any fun quote =>
      spendable desk.state (buyPrice desk.state quote) = 750000000000000000 ∧
        withinCap desk.state thirdId 250000000000000000 = .ok true ∧
        buyBudget desk.state thirdId = .ok 249999997500000000) = true := by
  decide +kernel

theorem thirdState_offered : ∃ quote, Offered thirdState thirdId quote ∧
    spendable thirdState (buyPrice thirdState quote) = 750000000000000000 ∧
      withinCap thirdState thirdId 250000000000000000 = .ok true ∧
      buyBudget thirdState thirdId = .ok 249999997500000000 := by
  have hoffers := thirdDesk_offers
  rw [Option.any_eq_true] at hoffers
  obtain ⟨desk, hdesk, hoffers⟩ := hoffers
  rw [thirdState_eq (toOption_eq_some.mp hdesk)]
  rw [Option.any_eq_true] at hoffers
  obtain ⟨quote, hquote, hchecks⟩ := hoffers
  exact ⟨quote, offered_of_offer hquote, of_decide_eq_true hchecks⟩

/-- A quarter of the stock is exactly a third of the value and meets the cap; the search
stops short of it. -/
theorem third_budget_short : createPaper thirdConfig = .ok thirdPaper ∧
    ∃ quote, Offered thirdState thirdId quote ∧
      buyBudget thirdState thirdId = .ok 249999997500000000 ∧
      ¬ ∃ q, IsBudget thirdState thirdId (spendable thirdState (buyPrice thirdState quote)) q ∧
        buyBudget thirdState thirdId = .ok q := by
  obtain ⟨quote, hoffered, hbound, hfits, hbudget⟩ := thirdState_offered
  refine ⟨thirdPaper_created, quote, hoffered, hbudget, fun ⟨q, hq, hfound⟩ => ?_⟩
  cases hbudget.symm.trans hfound
  exact hq.beyond (by decide) (by rw [hbound]; decide) (by decide) hfits

theorem third_budget_iff : ∃ quote,
    (∃ q, IsBudget thirdState thirdId (spendable thirdState (buyPrice thirdState quote)) q) ∧
      (∀ q, IsBudget thirdState thirdId (spendable thirdState (buyPrice thirdState quote)) q →
        (buyBudget thirdState thirdId = .ok q ↔
          ∀ m ∈ probes thirdState quote q, Judged thirdState thirdId quote q m)) ∧
      ∀ r, buyBudget thirdState thirdId = .ok r → ∀ events e desk,
        execute thirdId .buy r ⟨thirdState, events⟩ = .error e desk → e ≠ "ALLOCATION_LIMIT" := by
  obtain ⟨quote, hoffered, -⟩ := thirdState_offered
  exact ⟨quote, buy_budget_maximal_iff hoffered⟩

end Paper
end AlphaForge
