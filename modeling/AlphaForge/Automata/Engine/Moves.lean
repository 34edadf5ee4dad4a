/-
What trading does to a run.

A rebalance or a liquidation is a sequence of fills, with changes of the status, the
trigger and the reasons in between.  `Filled` says all that one fill does, and
`Moves` is a sequence of fills on given sides.  What a fill keeps is kept by every
sequence of them.
-/
import AlphaForge.Automata.Engine

namespace AlphaForge
namespace Automata

open Evm

theorem amount_eq_ok {value r : Int} :
    amount value = .ok r ↔ (0 ≤ value ∧ value < 10 ^ 24) ∧ value = r := by
  simp only [amount, bind_eq_ok, ensure_eq_ok, pure_eq_ok, exists_and_left, exists_const]

theorem amountText_eq_ok {text : String} {r : Int} (h : amountText text = .ok r) :
    0 ≤ r ∧ Text.isDecimal 23 text = true ∧ (Text.ofDecimal text : Int) = r := by
  simp only [amountText, bind_eq_ok, ensure_eq_ok, pure_eq_ok] at h
  obtain ⟨_, htext, rfl⟩ := h
  exact ⟨Int.natCast_nonneg _, htext, rfl⟩

variable {run next : Run} {id : String} {side : Side} {purpose : Purpose}

/-- The amounts of two runs are the same, whatever their status and trigger. -/
structure SameAmounts (run next : Run) : Prop where
  id : next.id = run.id
  parameters : next.parameters = run.parameters
  cursor : next.cursor = run.cursor
  clock : next.clock = run.clock
  cash : next.cash = run.cash
  positions : next.positions = run.positions
  quotes : next.quotes = run.quotes
  usedCapacity : next.usedCapacity = run.usedCapacity
  netContributed : next.netContributed = run.netContributed
  unitsNumerator : next.unitsNumerator = run.unitsNumerator
  unitsDenominator : next.unitsDenominator = run.unitsDenominator
  emptyNumerator : next.emptyNumerator = run.emptyNumerator
  emptyDenominator : next.emptyDenominator = run.emptyDenominator
  fees : next.fees = run.fees
  realizedPnl : next.realizedPnl = run.realizedPnl
  trades : next.trades = run.trades

theorem SameAmounts.refl (run : Run) : SameAmounts run run :=
  ⟨rfl, rfl, rfl, rfl, rfl, rfl, rfl, rfl, rfl, rfl, rfl, rfl, rfl, rfl, rfl, rfl⟩

def heldAt (run : Run) (id : String) : Position :=
  (run.positions.get? id).getD { quantity := 0, cost := 0 }

def usedAt (run : Run) (id : String) : Int := (run.usedCapacity.get? id).getD 0

/-- The numbers of a fill. -/
structure Fill where
  quote : Quote
  quantity : Int
  price : Int
  gross : Int
  fee : Int
  cost : Int

/-- The part of the cost that goes with a part of the position. -/
def costOf (held : Position) (quantity : Int) : Int :=
  if quantity = held.quantity then held.cost else held.cost * quantity / held.quantity

/-- The most that a trade at a quote may be for. -/
def mostOf (run : Run) (id : String) (side : Side) (requested : Int) (q : Quote) : Int :=
  min (min requested (q.capacity - usedAt run id))
    (side.most (heldAt run id).quantity run.cash (side.price (side.quoted q) q.slippageBps)
      run.parameters.feeBps)

/-- The numbers of the fill that a trade at a quote makes. -/
def fillFor (run : Run) (id : String) (side : Side) (requested : Int) (q : Quote) : Fill :=
  let price := side.price (side.quoted q) q.slippageBps
  let quantity := affordable run side run.cash (mostOf run id side requested q) price
  let gross := side.gross quantity price
  { quote := q, quantity, price, gross, fee := feeOf run gross,
    cost := costOf (heldAt run id) quantity }

/-- The run after a fill. -/
def fillOf (run : Run) (id : String) (side : Side) (purpose : Purpose) (f : Fill) : Run :=
  { run with
    cash := side.cashAfter run.cash f.gross f.fee
    realizedPnl := side.pnlAfter run.realizedPnl f.gross f.fee f.cost
    positions := run.positions.set id
      (side.position (heldAt run id).quantity (heldAt run id).cost f.quantity f.gross f.fee f.cost)
    fees := run.fees + f.fee
    usedCapacity := run.usedCapacity.set id (usedAt run id + f.quantity)
    trades := run.trades ++ [{
      id := run.id ++ "-" ++ toString (run.trades.length + 1), at' := run.clock, assetId := id,
      side, quantity := f.quantity, price := f.price, fee := f.fee,
      cashAfter := side.cashAfter run.cash f.gross f.fee, purpose }] }

/-- What is checked before a fill. -/
structure Fillable (run : Run) (id : String) (side : Side) (f : Fill) : Prop where
  quoted : freshQuote run id = some f.quote
  cash : 0 ≤ run.cash
  held : 0 ≤ (heldAt run id).quantity
  spent : 0 ≤ (heldAt run id).cost
  used : 0 ≤ usedAt run id
  price : 0 < f.price
  quantity : 0 < f.quantity
  gross : f.gross = side.gross f.quantity f.price
  fits : usedAt run id + f.quantity ≤ f.quote.capacity
  charged : f.fee < f.gross
  fee : f.fee = feeOf run f.gross
  cost : f.cost = costOf (heldAt run id) f.quantity
  sold : side = .sell → f.quantity ≤ (heldAt run id).quantity
  paid : side = .buy → f.gross + f.fee ≤ run.cash

theorem affordable_le (run : Run) (side : Side) (cash most price : Int) :
    affordable run side cash most price ≤ most := by
  simp only [affordable]
  split <;> omega

/-- A trade is refused with a reason, or it is a fill. -/
theorem trade_cases {requested : Int} (h : trade run id side requested purpose = .ok next) :
    (∃ reason, next = { run with reason := reason }) ∨
      ∃ f, Fillable run id side f ∧ next = fillOf run id side purpose f := by
  unfold trade at h
  split at h
  · cases h
    exact .inl ⟨run.reason, rfl⟩
  split at h
  · cases h
    exact .inl ⟨_, rfl⟩
  next q hquote =>
  split at h
  · cases h
    exact .inl ⟨_, rfl⟩
  simp only [bind_eq_ok, amount_eq_ok] at h
  obtain ⟨_, ⟨hcapacity, rfl⟩, _, ⟨hused, rfl⟩, _, ⟨hquoted, rfl⟩, h⟩ := h
  split at h
  · cases h
    exact .inl ⟨_, rfl⟩
  next hprice =>
  simp only [bind_eq_ok, amount_eq_ok] at h
  obtain ⟨_, ⟨hheld, rfl⟩, _, ⟨hcash, rfl⟩, h⟩ := h
  split at h
  · cases h
    exact .inl ⟨_, rfl⟩
  next hmost =>
  split at h
  · cases h
    exact .inl ⟨_, rfl⟩
  next hfill =>
  simp only [bind_eq_ok, amount_eq_ok, pure_eq_ok] at h
  obtain ⟨_, ⟨hspent, rfl⟩, _, ⟨hpaid, rfl⟩, rfl⟩ := h
  simp only [not_or, not_and, Int.not_le, Int.not_lt] at hfill hmost
  obtain ⟨hquantity, hcharged, hafford⟩ := hfill
  have hbound : (fillFor run id side requested q).quantity ≤ mostOf run id side requested q :=
    affordable_le run side run.cash _ _
  refine .inr ⟨fillFor run id side requested q, ?_, rfl⟩
  refine ⟨hquote, hcash.1, hheld.1, hspent.1, hused.1, Int.not_le.mp hprice, hquantity, rfl, ?_,
    hcharged, rfl, rfl, ?_, hafford⟩
  · have hcapacity : mostOf run id side requested q ≤ q.capacity - usedAt run id :=
      Int.le_trans (Int.min_le_left _ _) (Int.min_le_right _ _)
    show usedAt run id + (fillFor run id side requested q).quantity ≤ q.capacity
    omega
  · intro hsell
    subst hsell
    exact Int.le_trans hbound (Int.min_le_right _ _)

/-! ## Sequences of fills -/

inductive Moves (allowed : Side → Prop) : Run → Run → Prop
  | refl (run : Run) : Moves allowed run run
  | aside {run mid next : Run} (h : Moves allowed run mid) (hsame : SameAmounts mid next) :
      Moves allowed run next
  | fill {run mid : Run} {id : String} {side : Side} {f : Fill} (purpose : Purpose)
      (h : Moves allowed run mid) (hside : allowed side) (hfill : Fillable mid id side f) :
      Moves allowed run (fillOf mid id side purpose f)

variable {allowed : Side → Prop}

/-- What fills and the changes between them keep, a sequence of them keeps. -/
theorem Moves.keeps {P : Run → Prop} (haside : ∀ a b, SameAmounts a b → P a → P b)
    (hfill : ∀ a id side purpose f, allowed side → Fillable a id side f → P a →
      P (fillOf a id side purpose f)) (h : Moves allowed run next) (hrun : P run) : P next := by
  induction h with
  | refl => exact hrun
  | aside _ hsame ih => exact haside _ _ hsame ih
  | fill purpose _ hside hf ih => exact hfill _ _ _ purpose _ hside hf ih

theorem Moves.trans {a b c : Run} (hab : Moves allowed a b) (hbc : Moves allowed b c) :
    Moves allowed a c := by
  induction hbc with
  | refl => exact hab
  | aside _ hsame ih => exact .aside ih hsame
  | fill purpose _ hside hf ih => exact .fill purpose ih hside hf

theorem Moves.mono {wider : Side → Prop} (hwider : ∀ side, allowed side → wider side)
    (h : Moves allowed run next) : Moves wider run next := by
  induction h with
  | refl => exact .refl _
  | aside _ hsame ih => exact .aside ih hsame
  | fill purpose _ hside hf ih => exact .fill purpose ih (hwider _ hside) hf

theorem SameAmounts.moves (h : SameAmounts run next) : Moves allowed run next :=
  .aside (.refl run) h

theorem trade_moves {requested : Int} (h : trade run id side requested purpose = .ok next)
    (hside : allowed side) : Moves allowed run next := by
  rcases trade_cases h with ⟨reason, rfl⟩ | ⟨f, hfill, rfl⟩
  · exact SameAmounts.moves
      ⟨rfl, rfl, rfl, rfl, rfl, rfl, rfl, rfl, rfl, rfl, rfl, rfl, rfl, rfl, rfl, rfl⟩
  · exact .fill purpose (.refl run) hside hfill

theorem setTrigger_sameAmounts {reason : TriggerReason} (h : setTrigger run reason = .ok next) :
    SameAmounts run next := by
  unfold setTrigger at h
  split at h
  · cases h
    exact ⟨rfl, rfl, rfl, rfl, rfl, rfl, rfl, rfl, rfl, rfl, rfl, rfl, rfl, rfl, rfl, rfl⟩
  · simp only [bind_eq_ok, pure_eq_ok] at h
    obtain ⟨_, _, rfl⟩ := h
    exact ⟨rfl, rfl, rfl, rfl, rfl, rfl, rfl, rfl, rfl, rfl, rfl, rfl, rfl, rfl, rfl, rfl⟩

theorem limits_sameAmounts (h : limits run = .ok next) : SameAmounts run next := by
  unfold limits at h
  split at h
  · cases h
    exact SameAmounts.refl _
  · rw [bind_eq_ok] at h
    obtain ⟨found, _, h⟩ := h
    cases found with
    | none =>
        cases h
        exact SameAmounts.refl _
    | some reason => exact setTrigger_sameAmounts h

/-- A liquidation only sells. -/
theorem liquidate_moves (h : liquidate run = .ok next) : Moves (· = .sell) run next := by
  simp only [liquidate, bind_eq_ok, pure_eq_ok] at h
  obtain ⟨mid, hmid, flat, _, rfl⟩ := h
  have hstart : Moves (· = .sell) run { run with status := .liquidating } :=
    SameAmounts.moves ⟨rfl, rfl, rfl, rfl, rfl, rfl, rfl, rfl, rfl, rfl, rfl, rfl, rfl, rfl, rfl, rfl⟩
  have hmoves : Moves (· = .sell) run mid := by
    refine foldlM_keeps (P := Moves (· = .sell) run) (fun a id _ b ha hb => ?_) hstart hmid
    rw [bind_eq_ok] at hb
    obtain ⟨_, _, hb⟩ := hb
    exact ha.trans (trade_moves hb rfl)
  split
  · exact .aside hmoves
      ⟨rfl, rfl, rfl, rfl, rfl, rfl, rfl, rfl, rfl, rfl, rfl, rfl, rfl, rfl, rfl, rfl⟩
  · exact .aside hmoves
      ⟨rfl, rfl, rfl, rfl, rfl, rfl, rfl, rfl, rfl, rfl, rfl, rfl, rfl, rfl, rfl, rfl⟩

/-- Looking for intents leaves at most a reason. -/
theorem intents_reason {nav : Int} {targets : OrderedMap String Int} {ids : List String}
    {all : List Intent} (h : intents run nav targets ids = .ok (next, all)) :
    ∃ reason, next = { run with reason := reason } := by
  unfold intents at h
  refine foldlM_keeps
    (P := fun acc : Run × List Intent => ∃ reason, acc.1 = { run with reason := reason })
    (fun a id _ b ha hb => ?_) ⟨run.reason, rfl⟩ h
  obtain ⟨reason, ha⟩ := ha
  split at hb
  · cases hb
    exact ⟨some stale, by rw [ha]⟩
  · rw [bind_eq_ok] at hb
    obtain ⟨_, _, hb⟩ := hb
    cases hb
    exact ⟨reason, ha⟩

theorem tradeAll_moves {all : List Intent} (h : tradeAll run all = .ok next) :
    Moves (fun _ => True) run next := by
  induction all generalizing run with
  | nil =>
      cases h
      exact .refl _
  | cons i rest ih =>
      simp only [tradeAll, bind_eq_ok] at h
      obtain ⟨traded, htraded, limited, hlimited, h⟩ := h
      have hmoves : Moves (fun _ => True) run limited :=
        .aside (trade_moves htraded trivial) (limits_sameAmounts hlimited)
      split at h
      · exact hmoves.trans ((liquidate_moves h).mono fun _ _ => trivial)
      · exact hmoves.trans (ih h)

theorem rebalance_moves {targets : OrderedMap String Int} {scheduled : Bool}
    (h : rebalance run targets scheduled = .ok next) : Moves (fun _ => True) run next := by
  unfold rebalance at h
  split at h
  · cases h
    exact .refl _
  simp only [bind_eq_ok] at h
  obtain ⟨valued, _, h⟩ := h
  have hstart : Moves (fun _ => True) run (if scheduled then
      { run with nextDecisionAt := run.clock + run.parameters.intervalMs } else run) := by
    split
    · exact SameAmounts.moves
        ⟨rfl, rfl, rfl, rfl, rfl, rfl, rfl, rfl, rfl, rfl, rfl, rfl, rfl, rfl, rfl, rfl⟩
    · exact .refl _
  split at h
  · simp only [bind_eq_ok] at h
    obtain ⟨nav, _, found, hfound, h⟩ := h
    obtain ⟨reason, hreason⟩ := intents_reason hfound
    refine Moves.trans (.aside hstart ?_) (tradeAll_moves h)
    rw [hreason]
    exact ⟨rfl, rfl, rfl, rfl, rfl, rfl, rfl, rfl, rfl, rfl, rfl, rfl, rfl, rfl, rfl, rfl⟩
  · cases h
    exact .aside hstart
      ⟨rfl, rfl, rfl, rfl, rfl, rfl, rfl, rfl, rfl, rfl, rfl, rfl, rfl, rfl, rfl, rfl⟩

end Automata
end AlphaForge
