/-
How much a buy takes of what is affordable.

What a quantity costs is two ceilings, of its gross and of the fee on it, and the engine
starts from one quotient that ignores both and then takes one unit off.  The two ceilings
have an exact bound, a quotient of a quotient.  A buy fills the largest affordable
quantity when the first quotient is at most one above the second; otherwise it is blocked.
-/
import AlphaForge.Automata.Engine.Books
import Mathlib.Order.Bounds.Defs

namespace AlphaForge
namespace Automata

open Evm

variable {run next : Run} {id : String} {q : Quote} {requested : Int} {purpose : Purpose}

/-! ## Two ceilings -/

theorem ceil_le_iff {n d m : Int} (hd : 0 < d) : ceil n d ≤ m ↔ n ≤ m * d := by
  unfold ceil
  constructor
  · intro h
    have hlt : n + d - 1 < (m + 1) * d := Int.lt_mul_of_ediv_lt hd (by omega)
    rw [Int.add_mul] at hlt
    omega
  · intro h
    refine Int.lt_add_one_iff.mp (Int.ediv_lt_of_lt_mul hd ?_)
    rw [Int.add_mul]
    omega

theorem ceil_mono {n m d : Int} (hd : 0 < d) (h : n ≤ m) : ceil n d ≤ ceil m d :=
  (ceil_le_iff hd).mpr (Int.le_trans h ((ceil_le_iff hd).mp (Int.le_refl _)))

/-- The price of a buy at a quote. -/
def buyPrice (q : Quote) : Int := Side.buy.price q.ask q.slippageBps

/-- The numbers of a buy of a quantity. -/
def buyFill (run : Run) (id : String) (q : Quote) (quantity : Int) : Fill :=
  let gross := Side.buy.gross quantity (buyPrice q)
  { quote := q, quantity, price := buyPrice q, gross, fee := feeOf run gross,
    cost := costOf (heldAt run id) quantity }

/-- The gross and the fee of a buy are covered by the cash. -/
def Affords (run : Run) (id : String) (q : Quote) (quantity : Int) : Prop :=
  (buyFill run id q quantity).gross + (buyFill run id q quantity).fee ≤ run.cash

/-- The gross of a buy exceeds its fee. -/
def Clears (run : Run) (id : String) (q : Quote) (quantity : Int) : Prop :=
  (buyFill run id q quantity).fee < (buyFill run id q quantity).gross

instance (run : Run) (id : String) (q : Quote) (quantity : Int) :
    Decidable (Affords run id q quantity) := inferInstanceAs (Decidable (_ ≤ _))

instance (run : Run) (id : String) (q : Quote) (quantity : Int) :
    Decidable (Clears run id q quantity) := inferInstanceAs (Decidable (_ < _))

/-- The exact bound of what the cash affords. -/
def reach (run : Run) (q : Quote) : Int :=
  run.cash * bps / (bps + run.parameters.feeBps) * scale / buyPrice q

/-- What is asked for, as far as the quote has capacity for it. -/
def wanted (run : Run) (id : String) (q : Quote) (requested : Int) : Int :=
  min requested (q.capacity - usedAt run id)

theorem affords_iff (hprice : 0 < buyPrice q) (hfee : 0 ≤ run.parameters.feeBps) {quantity : Int} :
    Affords run id q quantity ↔ quantity ≤ reach run q := by
  have hscale : 0 < scale := by decide
  have hbps : 0 < bps := by decide
  have hsum : 0 < bps + run.parameters.feeBps := by omega
  let gross := ceil (quantity * buyPrice q) scale
  have htotal : gross + ceil (gross * run.parameters.feeBps) bps ≤ run.cash ↔
      gross * (bps + run.parameters.feeBps) ≤ run.cash * bps := by
    have hmove : gross + ceil (gross * run.parameters.feeBps) bps ≤ run.cash ↔
        ceil (gross * run.parameters.feeBps) bps ≤ run.cash - gross := by omega
    rw [hmove, ceil_le_iff hbps, Int.sub_mul, Int.mul_add]
    omega
  show gross + ceil (gross * run.parameters.feeBps) bps ≤ run.cash ↔ _
  rw [htotal, ← Int.le_ediv_iff_mul_le hsum, reach, Int.le_ediv_iff_mul_le hprice]
  exact ceil_le_iff hscale

/-- The quotient that the engine starts from is no less. -/
theorem reach_le_most (hprice : 0 < buyPrice q) (hfee : 0 ≤ run.parameters.feeBps) (held : Int) :
    reach run q ≤ Side.buy.most held run.cash (buyPrice q) run.parameters.feeBps := by
  have hbps : 0 < bps := by decide
  have hscale : 0 < scale := by decide
  have hsum : 0 < bps + run.parameters.feeBps := by omega
  have hle : run.cash * bps / (bps + run.parameters.feeBps) * scale ≤
      run.cash * bps * scale / (bps + run.parameters.feeBps) := by
    refine (Int.le_ediv_iff_mul_le hsum).mpr ?_
    have hfloor := Int.ediv_mul_le (run.cash * bps) (Int.ne_of_gt hsum)
    calc run.cash * bps / (bps + run.parameters.feeBps) * scale * (bps + run.parameters.feeBps)
        = run.cash * bps / (bps + run.parameters.feeBps) * (bps + run.parameters.feeBps) * scale := by
          rw [Int.mul_right_comm]
      _ ≤ run.cash * bps * scale := Int.mul_le_mul_of_nonneg_right hfloor (Int.le_of_lt hscale)
  show _ ≤ run.cash * bps * scale / (buyPrice q * (bps + run.parameters.feeBps))
  rw [Int.mul_comm (buyPrice q), ← Int.ediv_ediv_of_nonneg (Int.le_of_lt hsum)]
  exact Int.ediv_le_ediv hprice hle

/-- A larger buy clears if a smaller one does. -/
theorem clears_mono {a b : Int} (hprice : 0 < buyPrice q) (ha : 0 < a) (hle : a ≤ b)
    (h : Clears run id q a) : Clears run id q b := by
  have hbps : 0 < bps := by decide
  have hgross : (buyFill run id q a).gross ≤ (buyFill run id q b).gross :=
    ceil_mono (by decide) (Int.mul_le_mul_of_nonneg_right hle (Int.le_of_lt hprice))
  have hpos : 0 < (buyFill run id q a).gross := by
    have hproduct := Int.mul_pos ha hprice
    by_contra hnot
    have hzero := (ceil_le_iff (by decide : 0 < scale)).mp (Int.not_lt.mp hnot)
    omega
  have hproduct : (buyFill run id q a).gross * run.parameters.feeBps ≤
      ((buyFill run id q a).gross - 1) * bps :=
    (ceil_le_iff hbps).mp (Int.le_sub_one_of_lt h)
  show ceil ((buyFill run id q b).gross * run.parameters.feeBps) bps < (buyFill run id q b).gross
  refine Int.lt_of_le_sub_one ((ceil_le_iff hbps).mpr ?_)
  generalize (buyFill run id q a).gross = x at *
  generalize (buyFill run id q b).gross = y at *
  rw [Int.sub_mul] at hproduct ⊢
  -- one more unit of gross brings at most one of fee, since the rate is below one
  have hrate : run.parameters.feeBps ≤ bps := by
    by_contra hnot
    have hge := Int.mul_le_mul_of_nonneg_left (Int.le_of_lt (Int.not_le.mp hnot)) (Int.le_of_lt hpos)
    omega
  have hmore := Int.mul_le_mul_of_nonneg_right hgross (Int.sub_nonneg_of_le hrate)
  rw [Int.mul_sub, Int.mul_sub] at hmore
  omega

/-! ## A buy -/

/-- A fresh quote within the slippage limit, on a run whose amounts are amounts.  The terms
are what the checks of frames and parameters let through. -/
structure Buyable (run : Run) (id : String) (q : Quote) : Prop where
  quoted : freshQuote run id = some q
  slippage : q.slippageBps ≤ run.parameters.maxSlippageBps
  terms : 0 < q.ask ∧ 0 ≤ q.slippageBps ∧ 0 ≤ run.parameters.feeBps
  amounts : ∀ a ∈ [q.ask, q.capacity, usedAt run id, run.cash, (heldAt run id).quantity,
    (heldAt run id).cost, run.fees], 0 ≤ a ∧ a < 10 ^ 24

theorem Buyable.price_pos (h : Buyable run id q) : 0 < buyPrice q := by
  have hbps : 0 < bps := by decide
  obtain ⟨hask, hslippage, _⟩ := h.terms
  have hproduct : 0 < q.ask * (bps + q.slippageBps) := Int.mul_pos hask (by omega)
  by_contra hnot
  have hzero := (ceil_le_iff hbps).mp (Int.not_lt.mp hnot)
  omega

/-- A buy, with every amount read. -/
theorem trade_buy (h : Buyable run id q) (hrequested : 0 < requested) :
    trade run id .buy requested purpose =
      if mostOf run id .buy requested q ≤ 0 then
        .ok { run with reason := some "报价容量或可用资金不足" }
      else if (fillFor run id .buy requested q).quantity ≤ 0 ∨
          (fillFor run id .buy requested q).gross ≤ (fillFor run id .buy requested q).fee ∨
          (Side.buy = .buy ∧ run.cash < (fillFor run id .buy requested q).gross +
            (fillFor run id .buy requested q).fee) then
        .ok { run with reason := some "最小成交单位或费用约束阻止成交" }
      else .ok (fillOf run id .buy purpose (fillFor run id .buy requested q)) := by
  have hamount : ∀ a ∈ [q.ask, q.capacity, usedAt run id, run.cash, (heldAt run id).quantity,
      (heldAt run id).cost, run.fees], amount a = .ok a :=
    fun a ha => amount_eq_ok.mpr ⟨h.amounts a ha, rfl⟩
  simp only [List.forall_mem_cons, List.not_mem_nil, IsEmpty.forall_iff, implies_true,
    and_true] at hamount
  obtain ⟨hask, hcapacity, hused, hcash, hheld, hspent, hfees⟩ := hamount
  have hprice : ¬ Side.buy.price q.ask q.slippageBps ≤ 0 := Int.not_le.mpr h.price_pos
  rw [trade, if_neg (Int.not_le.mpr hrequested), h.quoted]
  show (if run.parameters.maxSlippageBps < q.slippageBps then _ else _) = _
  rw [if_neg (Int.not_lt.mpr h.slippage), hcapacity, ok_bind]
  show (amount (usedAt run id) >>= _) = _
  rw [hused, ok_bind]
  show (amount q.ask >>= _) = _
  rw [hask, ok_bind]
  show (if Side.buy.price q.ask q.slippageBps ≤ 0 then _ else _) = _
  rw [if_neg hprice]
  show (amount (heldAt run id).quantity >>= _) = _
  rw [hheld, ok_bind, hcash, ok_bind]
  refine if_congr Iff.rfl rfl ?_
  refine if_congr Iff.rfl rfl ?_
  show (amount (heldAt run id).cost >>= _) = _
  rw [hspent, ok_bind, hfees, ok_bind]
  rfl

/-- A buy of the quantity that the engine settles on. -/
theorem trade_quantity (purpose : Purpose) (h : Buyable run id q) (hrequested : 0 < requested)
    {quantity : Int}
    (hmost : 0 < mostOf run id .buy requested q)
    (hquantity : (Affords run id q (mostOf run id .buy requested q) ∧
        quantity = mostOf run id .buy requested q) ∨
      (¬ Affords run id q (mostOf run id .buy requested q) ∧
        quantity = mostOf run id .buy requested q - 1)) :
    (0 < quantity ∧ Clears run id q quantity ∧ Affords run id q quantity →
      trade run id .buy requested purpose =
        .ok (fillOf run id .buy purpose (buyFill run id q quantity))) ∧
    (¬ (0 < quantity ∧ Clears run id q quantity ∧ Affords run id q quantity) →
      trade run id .buy requested purpose =
        .ok { run with reason := some "最小成交单位或费用约束阻止成交" }) := by
  have hfill : fillFor run id .buy requested q = buyFill run id q quantity := by
    show buyFill run id q (affordable run .buy run.cash (mostOf run id .buy requested q)
      (buyPrice q)) = _
    congr 1
    rcases hquantity with ⟨hafford, rfl⟩ | ⟨hafford, rfl⟩
    · exact if_neg fun hlack => Int.not_lt.mpr hafford hlack.2
    · exact if_pos ⟨rfl, Int.not_le.mp hafford⟩
  rw [trade_buy h hrequested, if_neg (Int.not_le.mpr hmost), hfill]
  constructor
  · rintro ⟨hpos, hclears, haffords⟩
    refine if_neg ?_
    rintro (hle | hfee | ⟨_, hlack⟩)
    · exact Int.not_le.mpr hpos hle
    · exact Int.not_le.mpr hclears hfee
    · exact Int.not_lt.mpr haffords hlack
  · intro hblocked
    refine if_pos ?_
    by_contra hnot
    simp only [not_or, not_and, Int.not_le, Int.not_lt] at hnot
    exact hblocked ⟨hnot.1, hnot.2.1, hnot.2.2 trivial⟩

/-- A buy executes the largest affordable quantity if that clears its fee, and it is not
blocked while there is a quantity that does. -/
def BuyFills (run : Run) (id : String) (q : Quote) (requested : Int) (purpose : Purpose) : Prop :=
  (∀ k, IsGreatest {k | 0 < k ∧ k ≤ wanted run id q requested ∧ Affords run id q k} k →
    Clears run id q k →
    trade run id .buy requested purpose = .ok (fillOf run id .buy purpose (buyFill run id q k))) ∧
  ((∃ k, 0 < k ∧ k ≤ wanted run id q requested ∧ Affords run id q k ∧ Clears run id q k) →
    ∃ k, 0 < k ∧
      trade run id .buy requested purpose = .ok (fillOf run id .buy purpose (buyFill run id q k)))

theorem fillOf_ne_reason (f : Fill) (reason : Option String) :
    fillOf run id .buy purpose f ≠ { run with reason := reason } := by
  intro heq
  have htrades := congrArg (fun r => r.trades.length) heq
  simp [fillOf] at htrades

/-- The largest quantity that the request, the capacity and the cash leave. -/
def best (run : Run) (id : String) (q : Quote) (requested : Int) : Int :=
  min (wanted run id q requested) (reach run q)

/-- A buy fills what is affordable exactly if the engine's quotient, as far as it counts, is
at most one above the exact bound, or if nothing affordable clears its fee. -/
theorem buy_fills_iff (h : Buyable run id q) (hrequested : 0 < requested) (purpose : Purpose) :
    BuyFills run id q requested purpose ↔
      min (wanted run id q requested)
          (run.cash * bps * scale / (buyPrice q * (bps + run.parameters.feeBps))) ≤
        run.cash * bps / (bps + run.parameters.feeBps) * scale / buyPrice q + 1 ∨
      ¬ (0 < best run id q requested ∧ Clears run id q (best run id q requested)) := by
  have hprice := h.price_pos
  have hfee := h.terms.2.2
  have haffords : ∀ k, Affords run id q k ↔ k ≤ reach run q := fun k => affords_iff hprice hfee
  have hreach : reach run q ≤ Side.buy.most (heldAt run id).quantity run.cash (buyPrice q)
      run.parameters.feeBps := reach_le_most hprice hfee _
  show _ ↔ mostOf run id .buy requested q ≤ reach run q + 1 ∨ _
  have hmost : mostOf run id .buy requested q = min (wanted run id q requested)
      (Side.buy.most (heldAt run id).quantity run.cash (buyPrice q) run.parameters.feeBps) := rfl
  by_cases hbest : 0 < best run id q requested ∧ Clears run id q (best run id q requested)
  · have hbound : best run id q requested ≤ wanted run id q requested ∧
        best run id q requested ≤ reach run q := ⟨min_le_left _ _, min_le_right _ _⟩
    have hgreatest : IsGreatest {k | 0 < k ∧ k ≤ wanted run id q requested ∧ Affords run id q k}
        (best run id q requested) := by
      refine ⟨⟨hbest.1, hbound.1, (haffords _).mpr hbound.2⟩, ?_⟩
      rintro k ⟨_, hle, hafford⟩
      exact le_min hle ((haffords k).mp hafford)
    have hpositive : 0 < mostOf run id .buy requested q := by
      rw [hmost]
      omega
    constructor
    · intro hfills
      have htrade := hfills.1 _ hgreatest hbest.2
      by_contra hfar
      have hlack : ∀ k, reach run q < k → ¬ Affords run id q k := fun k hk hafford =>
        Int.not_le.mpr hk ((haffords k).mp hafford)
      have hblocked := (trade_quantity purpose h hrequested hpositive
        (Or.inr ⟨hlack _ (by omega), rfl⟩)).2 fun hfilled => hlack _ (by omega) hfilled.2.2
      exact fillOf_ne_reason _ _ (Except.ok.inj (htrade.symm.trans hblocked))
    · intro hnear
      have hclose : mostOf run id .buy requested q ≤ reach run q + 1 :=
        hnear.resolve_right fun hnone => hnone hbest
      -- the quantity is the greatest one, whether a unit is taken off or not
      have hquantity : (Affords run id q (mostOf run id .buy requested q) ∧
          best run id q requested = mostOf run id .buy requested q) ∨
          (¬ Affords run id q (mostOf run id .buy requested q) ∧
            best run id q requested = mostOf run id .buy requested q - 1) := by
        rw [haffords, best]
        omega
      have htrade := (trade_quantity purpose h hrequested hpositive hquantity).1
        ⟨hbest.1, hbest.2, hgreatest.1.2.2⟩
      refine ⟨fun k hk _ => ?_, fun _ => ⟨_, hbest.1, htrade⟩⟩
      rw [hk.unique hgreatest]
      exact htrade
  · have hnone : ∀ k, 0 < k → k ≤ wanted run id q requested → Affords run id q k →
        ¬ Clears run id q k := by
      intro k hpos hle hafford hclears
      have hkbest : k ≤ best run id q requested := le_min hle ((haffords k).mp hafford)
      exact hbest ⟨by omega, clears_mono hprice hpos hkbest hclears⟩
    refine ⟨fun _ => Or.inr hbest, fun _ => ⟨fun k hk hclears => ?_, fun hfound => ?_⟩⟩
    · exact absurd hclears (hnone k hk.1.1 hk.1.2.1 hk.1.2.2)
    · obtain ⟨k, hpos, hle, hafford, hclears⟩ := hfound
      exact absurd hclears (hnone k hpos hle hafford)

/-! A run with a hundred to spend on a stock at a tenth, with a fee of thirty basis points. -/

def cheapQuote : Quote where
  assetId := "rwa-a"
  bid := 100000
  ask := 100000
  reference := none
  observedAt := 100
  expiresAt := 1100
  capacity := 1000000000
  slippageBps := 0
  available := true

def cheapRun : Run :=
  { smallRun with
    parameters := { smallParameters with feeBps := 30 }
    clock := 100
    cash := 100000000
    quotes := [("rwa-a", cheapQuote)] }

theorem cheapRun_buyable : Buyable cheapRun "rwa-a" cheapQuote where
  quoted := by decide
  slippage := by decide
  terms := by decide
  amounts := by decide

/-- 997008970 units are affordable; the engine tries two quantities above them. -/
theorem cheap_buy_blocked : ¬ BuyFills cheapRun "rwa-a" cheapQuote 1000000000 .rebalance := by
  intro hfills
  obtain ⟨k, _, htrade⟩ := hfills.2 ⟨997008970, by decide, by decide, by decide, by decide⟩
  have hblocked : trade cheapRun "rwa-a" .buy 1000000000 .rebalance =
      .ok { cheapRun with reason := some "最小成交单位或费用约束阻止成交" } := by decide
  exact fillOf_ne_reason _ _ (Except.ok.inj (htrade.symm.trans hblocked))

theorem cheap_buy_fills_when : BuyFills cheapRun "rwa-a" cheapQuote 997008971 .rebalance ↔
    min (wanted cheapRun "rwa-a" cheapQuote 997008971)
        (cheapRun.cash * bps * scale / (buyPrice cheapQuote * (bps + cheapRun.parameters.feeBps))) ≤
      cheapRun.cash * bps / (bps + cheapRun.parameters.feeBps) * scale / buyPrice cheapQuote + 1 ∨
    ¬ (0 < best cheapRun "rwa-a" cheapQuote 997008971 ∧
      Clears cheapRun "rwa-a" cheapQuote (best cheapRun "rwa-a" cheapQuote 997008971)) :=
  buy_fills_iff cheapRun_buyable (by decide) .rebalance

end Automata
end AlphaForge
