/-
The books of a paper run.

Cash and cost are what was contributed and realized, a position is empty when nothing
was paid for it, and the fees and fills are those of the events.  The value after a
buy is the one that the allocation cap was checked for.
-/
import AlphaForge.Reference.Paper.Course

namespace AlphaForge
namespace Paper

open Evm Commit Machine Reference

variable {state next : PaperState} {f : Fill} {id : String}

/-! ## Valuation -/

/-- Every position that is held has a fresh quote. -/
def Quoted (state : PaperState) (at_ : Int) : Prop :=
  ∀ e ∈ state.positions, e.2.quantity18 = 0 ∨ freshQuote state e.1 at_ ≠ none

def worthIn (state : PaperState) (e : String × Position) : Int :=
  worthAt e.2.quantity18 (bidAt state e.1)

theorem worthAt_zero (bid : Int) : worthAt 0 bid = 0 := by
  unfold worthAt
  rw [Int.zero_mul]
  rfl

theorem freshQuote_bidAt {at_ : Int} {q : ReferenceObservation}
    (h : freshQuote state id at_ = some q) : bidAt state id = bidOf q := by
  have hget : state.quotes.get? id = some q := (Option.filter_eq_some_iff.mp h).1
  rw [bidAt, hget]
  rfl

/-- The loop of `paperNav` adds up what the positions are worth. -/
theorem addWorth_eq_some {at_ value r : Int} {positions : List (String × Position)} :
    positions.foldlM (addWorth state at_) value = some r ↔
      (∀ e ∈ positions, e.2.quantity18 = 0 ∨ freshQuote state e.1 at_ ≠ none) ∧
        r = value + (positions.map (worthIn state)).sum := by
  induction positions generalizing value with
  | nil => simp [eq_comm]
  | cons e rest ih =>
      have hstep : ∀ v, addWorth state at_ value e = some v ↔
          (e.2.quantity18 = 0 ∨ freshQuote state e.1 at_ ≠ none) ∧ v = value + worthIn state e := by
        intro v
        unfold addWorth worthIn
        by_cases hzero : e.2.quantity18 = 0
        · rw [if_pos hzero, hzero, worthAt_zero]
          simp [eq_comm]
        · rw [if_neg hzero]
          cases hquote : freshQuote state e.1 at_ with
          | none => simp [hzero]
          | some q =>
              rw [freshQuote_bidAt hquote]
              simp [eq_comm]
      rw [List.foldlM_cons, Option.bind_eq_bind, Option.bind_eq_some_iff]
      simp only [hstep, ih, List.forall_mem_cons, List.map_cons, List.sum_cons]
      constructor
      · rintro ⟨v, ⟨hfresh, rfl⟩, hrest, hr⟩
        exact ⟨⟨hfresh, hrest⟩, by omega⟩
      · rintro ⟨⟨hfresh, hrest⟩, hr⟩
        exact ⟨_, ⟨hfresh, rfl⟩, hrest, by omega⟩

theorem paperNav_eq_some {at_ nav : Int} : paperNav state at_ = .ok (some nav) ↔
    checkClock at_ = .ok () ∧ state.clock ≤ at_ ∧ Quoted state at_ ∧
      nav = state.cash6 + (state.positions.map (worthIn state)).sum := by
  simp only [paperNav, bind_eq_ok, ensure_eq_ok, pure_eq_ok, addWorth_eq_some, Quoted]
  constructor
  · rintro ⟨_, hclock, _, hle, hquoted, hnav⟩
    exact ⟨hclock, hle, hquoted, hnav⟩
  · rintro ⟨hclock, hle, hquoted, hnav⟩
    exact ⟨(), hclock, (), hle, hquoted, hnav⟩

theorem valuation_eq_ok {nav : Int} : valuation state = .ok nav ↔
    paperNav state state.clock = .ok (some nav) := by
  unfold valuation
  rw [bind_eq_ok]
  constructor
  · rintro ⟨found, hfound, h⟩
    cases found with
    | none => cases h
    | some value =>
        cases h
        exact hfound
  · intro h
    exact ⟨some nav, h, rfl⟩

/-! ## Fills -/

theorem ceil_nonneg {n d : Int} (hn : 0 ≤ n) (hd : 0 < d) : 0 ≤ ceil n d :=
  Int.ediv_nonneg (by omega) (by omega)

theorem tradeNumbers_eq_ok {side : Side} {quantity : Int} {n : TradeNumbers}
    (h : tradeNumbers state id side quantity = .ok n) : state.positions.get? id ≠ none ∧
      ∃ q, freshQuote state id state.clock = some q ∧
        n.fee = ceil (n.gross * state.config.feeBps) bps ∧
        (side = .buy → n.price = ceil (askOf q * (bps + state.config.slippageBps)) bps ∧
          n.gross = ceil (quantity * n.price) valueScale) ∧
        (side = .sell → n.price = bidOf q * (bps - state.config.slippageBps) / bps ∧
          n.gross = quantity * n.price / valueScale) := by
  simp only [tradeNumbers, bind_eq_ok, ensure_eq_ok] at h
  obtain ⟨_, hknown, h⟩ := h
  refine ⟨hknown, ?_⟩
  cases hquote : freshQuote state id state.clock with
  | none =>
      rw [hquote] at h
      cases h
  | some q =>
      rw [hquote] at h
      cases h
      refine ⟨q, rfl, rfl, ?_, ?_⟩
      · rintro rfl
        exact ⟨rfl, rfl⟩
      · rintro rfl
        exact ⟨rfl, rfl⟩

/-- The rates of a configuration that was accepted. -/
structure Rates (config : PaperConfig) : Prop where
  feeBps : 0 ≤ config.feeBps
  slippageBps : 0 ≤ config.slippageBps ∧ config.slippageBps < 10000

theorem Fillable.charges (hf : Fillable state f) (hrates : Rates state.config) :
    0 ≤ f.gross6 ∧ 0 ≤ f.fee6 := by
  obtain ⟨_, q, _, hfee, hbuy, hsell⟩ := tradeNumbers_eq_ok hf.numbers
  simp only at hfee hbuy hsell
  have hquantity := hf.quantity
  have hslip := hrates.slippageBps
  have hgross : 0 ≤ f.gross6 := by
    cases hside : f.side with
    | buy =>
        obtain ⟨hprice, hgross⟩ := hbuy hside
        have hask : 0 ≤ askOf q * (bps + state.config.slippageBps) :=
          Int.mul_nonneg (Int.natCast_nonneg _) (by unfold bps; omega)
        have hpos : 0 ≤ f.priceUsd18 := by
          rw [hprice]
          exact ceil_nonneg hask (by decide)
        rw [hgross]
        exact ceil_nonneg (Int.mul_nonneg (Int.le_of_lt hquantity) hpos) (by decide)
    | sell =>
        obtain ⟨hprice, hgross⟩ := hsell hside
        have hbid : 0 ≤ bidOf q * (bps - state.config.slippageBps) :=
          Int.mul_nonneg (Int.natCast_nonneg _) (by unfold bps; omega)
        have hpos : 0 ≤ f.priceUsd18 := by
          rw [hprice]
          exact Int.ediv_nonneg hbid (by decide)
        rw [hgross]
        exact Int.ediv_nonneg (Int.mul_nonneg (Int.le_of_lt hquantity) hpos) (by decide)
  refine ⟨hgross, ?_⟩
  rw [hfee]
  exact ceil_nonneg (Int.mul_nonneg hgross hrates.feeBps) (by decide)

theorem withinCap_eq_true {quantity : Int} (h : withinCap state id quantity = .ok true) :
    ∃ n value, tradeNumbers state id .buy quantity = .ok n ∧ n.gross + n.fee ≤ state.cash6 ∧
      valuation state = .ok value ∧
      (worthAt (heldAt state id).quantity18 (bidAt state id) + (n.gross + n.fee)) * 3 ≤
        value - (n.gross + n.fee) +
          worthAt ((heldAt state id).quantity18 + quantity) (bidAt state id) -
          worthAt (heldAt state id).quantity18 (bidAt state id) := by
  simp only [withinCap, bind_eq_ok] at h
  obtain ⟨n, hn, h⟩ := h
  split at h
  · cases h
  next hcash =>
  simp only [bind_eq_ok, pure_eq_ok] at h
  obtain ⟨value, hvalue, hcap⟩ := h
  exact ⟨n, value, hn, by omega, hvalue, of_decide_eq_true hcap⟩

theorem worthIn_set {p : Position} (hp : state.positions.get? id = some p) (q : Position) :
    ((state.positions.set id q).map (worthIn state)).sum =
      (state.positions.map (worthIn state)).sum - worthAt p.quantity18 (bidAt state id) +
        worthAt q.quantity18 (bidAt state id) := by
  rw [OrderedMap.sum_set (worthIn state), hp]
  rfl

theorem heldAt_of_get? {p : Position} (h : state.positions.get? id = some p) : heldAt state id = p := by
  rw [heldAt, h]
  rfl

/-- A buy stays within the cap: three times what is then held of the stock, with the
charge in place of the new part, is at most the value after it. -/
theorem Fillable.capped (hf : Fillable state f) (hbuy : f.side = .buy) :
    ∃ value, valuation (fillState state f) = .ok value ∧
      (worthAt (heldAt state f.identity).quantity18 (bidAt state f.identity) +
        (f.gross6 + f.fee6)) * 3 ≤ value := by
  obtain ⟨n, value, hn, _, hvalue, hcap⟩ := withinCap_eq_true (hf.within hbuy)
  have hnumbers := hf.numbers
  rw [hbuy, hn] at hnumbers
  cases hnumbers
  obtain ⟨hknown, q, hquote, _⟩ := tradeNumbers_eq_ok hn
  obtain ⟨p, hp⟩ := Option.ne_none_iff_exists'.mp hknown
  have hheld := heldAt_of_get? hp
  obtain ⟨hclock, hle, hquoted, hnav⟩ := paperNav_eq_some.mp (valuation_eq_ok.mp hvalue)
  refine ⟨_, ?_, hcap⟩
  rw [valuation_eq_ok, paperNav_eq_some]
  simp only [fillState, hbuy]
  refine ⟨hclock, hle, fun e he => ?_, ?_⟩
  · rcases OrderedMap.mem_of_mem_set he with rfl | hin
    · refine .inr fun hnone => ?_
      cases hquote.symm.trans hnone
    · exact hquoted e hin
  · show _ = state.cash6 - f.gross6 - f.fee6 + ((state.positions.set f.identity _).map
      (worthIn state)).sum
    rw [worthIn_set hp, ← hheld, hnav]
    simp only
    omega

/-! ## Books -/

def costSum (state : PaperState) : Int := (state.positions.map (·.2.cost6)).sum

structure Books (state : PaperState) : Prop where
  rates : Rates state.config
  cash6 : 0 ≤ state.cash6
  positions : ∀ e ∈ state.positions, 0 ≤ e.2.quantity18 ∧ 0 ≤ e.2.cost6 ∧
    (e.2.quantity18 = 0 ↔ e.2.cost6 = 0)
  conserved : state.cash6 + costSum state = state.netContributed6 + state.realizedPnl6

theorem Books.aside (hsame : SameBooks state next) (h : Books state) : Books next := by
  refine ⟨by rw [hsame.config]; exact h.rates, by rw [hsame.cash6]; exact h.cash6, ?_, ?_⟩
  · rw [hsame.positions]
    exact h.positions
  · rw [costSum, hsame.positions, hsame.cash6, hsame.netContributed6, hsame.realizedPnl6]
    exact h.conserved

theorem Books.held (h : Books state) (id : String) :
    0 ≤ (heldAt state id).quantity18 ∧ 0 ≤ (heldAt state id).cost6 ∧
      ((heldAt state id).quantity18 = 0 ↔ (heldAt state id).cost6 = 0) := by
  unfold heldAt
  cases hget : state.positions.get? id with
  | none => simp
  | some p => exact h.positions (id, p) (OrderedMap.mem_of_get? hget)

/-- Part of the cost goes with part of the position, and less than all of it. -/
theorem costOf_lt {p : Position} {quantity : Int} (hcost : 0 < p.cost6) (hquantity : 0 < quantity)
    (hlt : quantity < p.quantity18) : 0 ≤ costOf p quantity ∧ costOf p quantity < p.cost6 := by
  have hheld : 0 < p.quantity18 := by omega
  rw [costOf, if_neg (by omega)]
  refine ⟨Int.ediv_nonneg (Int.mul_nonneg (by omega) (by omega)) (by omega), ?_⟩
  refine Int.ediv_lt_of_lt_mul hheld ?_
  exact Int.mul_lt_mul_of_pos_left hlt hcost

/-- A fill puts a position in place of the one held, and the books move with it. -/
theorem Books.filled {cash pnl fees fills : Int} {p : Position} (h : Books state)
    (hcash : 0 ≤ cash) (hp : 0 ≤ p.quantity18 ∧ 0 ≤ p.cost6 ∧ (p.quantity18 = 0 ↔ p.cost6 = 0))
    (hmoved : cash + p.cost6 + state.realizedPnl6 = state.cash6 + (heldAt state id).cost6 + pnl) :
    Books { state with
      cash6 := cash, positions := state.positions.set id p, realizedPnl6 := pnl, fees6 := fees,
      fills := fills } := by
  refine ⟨h.rates, hcash, fun e he => ?_, ?_⟩
  · rcases OrderedMap.mem_of_mem_set he with rfl | hin
    · exact hp
    · exact h.positions e hin
  · have hconserved := h.conserved
    have hheld : ((state.positions.get? id).map (·.cost6)).getD 0 = (heldAt state id).cost6 := by
      unfold heldAt
      cases state.positions.get? id <;> rfl
    have hsum := OrderedMap.sum_set_values (fun q : Position => q.cost6) id p state.positions
    rw [hheld] at hsum
    unfold costSum at hconserved ⊢
    simp only
    omega

theorem Books.fill (h : Books state) (hf : Fillable state f) : Books (fillState state f) := by
  obtain ⟨hgross, hfee⟩ := hf.charges h.rates
  obtain ⟨hheld, hspent, hempty⟩ := h.held f.identity
  have hquantity := hf.quantity
  have hcharged := hf.charged
  have hcash := h.cash6
  cases hside : f.side with
  | buy =>
      obtain ⟨n, _, hn, hpaid, _⟩ := withinCap_eq_true (hf.within hside)
      have hnumbers := hf.numbers
      rw [hside, hn] at hnumbers
      cases hnumbers
      simp only at hpaid
      simp only [fillState, hside]
      exact h.filled (by omega) (by simp only; omega) (by simp only; omega)
  | sell =>
      have hsold := hf.held hside
      have hcost : 0 ≤ costOf (heldAt state f.identity) f.quantity18 ∧
          costOf (heldAt state f.identity) f.quantity18 ≤ (heldAt state f.identity).cost6 ∧
          (f.quantity18 = (heldAt state f.identity).quantity18 ↔
            costOf (heldAt state f.identity) f.quantity18 = (heldAt state f.identity).cost6) := by
        by_cases hall : f.quantity18 = (heldAt state f.identity).quantity18
        · rw [costOf, if_pos hall]
          omega
        · have hpart := costOf_lt (p := heldAt state f.identity) (by omega) hquantity (by omega)
          omega
      simp only [fillState, hside]
      exact h.filled (by omega) (by simp only; omega) (by simp only; omega)

/-! ## Funding -/

/-- What funding does, for an amount and at a value. -/
structure Funding (state : PaperState) (direction : Direction) (at_ amount nav : Int)
    (units emptyValue : Ratio) : Prop where
  clock : state.clock ≤ at_
  positive : 0 < amount
  running : direction = .outward ∨ state.status = .running
  valued : paperNav { state with clock := at_ } at_ = .ok (some nav)
  solvent : 0 < nav ∨ state.units.numerator = 0
  covered : direction = .inward ∨ amount ≤ state.cash6
  empty : state.units.numerator = 0 → emptyValue = state.emptyValue ∧
    rational (amount * state.emptyValue.denominator) state.emptyValue.numerator = .ok units
  held : state.units.numerator ≠ 0 →
    rational (nav * state.units.denominator) state.units.numerator = .ok emptyValue ∧
      rational (state.units.numerator * (nav + direction.signed amount))
        (state.units.denominator * nav) = .ok units
  cash6 : 0 ≤ state.cash6 + direction.signed amount

def fundState (state : PaperState) (at_ delta : Int) (units emptyValue : Ratio) : PaperState :=
  { state with
    clock := at_, units, emptyValue, cash6 := state.cash6 + delta
    netContributed6 := state.netContributed6 + delta }

theorem fundPaper_cases {direction : Direction} {amount6 : String} {at_ : Int} {result : PaperResult}
    (h : fundPaper state direction amount6 at_ = .ok result) :
    ∃ nav units emptyValue unitValue,
      Funding state direction at_ (Text.ofDecimal amount6) nav units emptyValue ∧
      result.state = fundState state at_ (direction.signed (Text.ofDecimal amount6)) units emptyValue ∧
      paperReturn result.state at_ = .ok unitValue ∧
      result.events = [.virtualFund at_ direction amount6 unitValue] := by
  simp only [fundPaper, bind_eq_ok, ensure_eq_ok, paperAmount, pure_eq_ok, checkAmount] at h
  obtain ⟨_, _, _, hclock, _, ⟨_, _, _, ⟨_, hpositive⟩, rfl⟩, _, hrunning, nav, hnav, _, hsolvent, _,
    hcovered, mid, hmid, _, hcash, unitValue, hreturn, rfl⟩ := h
  simp only [Bool.true_eq_false, false_or] at hpositive
  have hnav' := valuation_eq_ok.mp hnav
  simp only [fundUnits] at hmid
  split at hmid
  next hzero =>
    simp only [bind_eq_ok, pure_eq_ok] at hmid
    obtain ⟨units, hunits, rfl⟩ := hmid
    refine ⟨nav, units, state.emptyValue, unitValue, ?_, rfl, hreturn, rfl⟩
    exact ⟨hclock, hpositive, hrunning, hnav', hsolvent, hcovered, fun _ => ⟨rfl, hunits⟩,
      fun hne => absurd hzero hne, hcash.1⟩
  next hne =>
    simp only [bind_eq_ok, pure_eq_ok] at hmid
    obtain ⟨emptyValue, hempty, units, hunits, rfl⟩ := hmid
    refine ⟨nav, units, emptyValue, unitValue, ?_, rfl, hreturn, rfl⟩
    exact ⟨hclock, hpositive, hrunning, hnav', hsolvent, hcovered, fun hzero => absurd hzero hne,
      fun _ => ⟨hempty, hunits⟩, hcash.1⟩

theorem Books.fund {direction : Direction} {amount6 : String} {at_ : Int} {result : PaperResult}
    (h : Books state) (hfund : fundPaper state direction amount6 at_ = .ok result) :
    Books result.state := by
  obtain ⟨nav, units, emptyValue, _, hfunding, hstate, _⟩ := fundPaper_cases hfund
  rw [hstate]
  refine ⟨h.rates, hfunding.cash6, h.positions, ?_⟩
  have hconserved := h.conserved
  show state.cash6 + _ + costSum state = state.netContributed6 + _ + state.realizedPnl6
  omega

theorem Course.books {start desk : Desk} (h : Course start desk) (hstart : Books start.state) :
    Books desk.state :=
  h.keeps (fun _ _ hsame ha => ha.aside hsame) (fun _ _ hf ha => ha.fill hf)
    (fun _ _ _ _ _ hfund ha => ha.fund hfund) hstart

theorem checkBps_eq_ok {value : Int} {u : Unit} (h : checkBps value = .ok u) :
    0 ≤ value ∧ value < 10000 := by
  simp only [checkBps, ensure_eq_ok] at h
  exact h.2

theorem createPaper_books {config : PaperConfig} (h : createPaper config = .ok state) :
    Books state := by
  simp only [createPaper, parsePaperConfig, paperAmount, bind_eq_ok, ensure_eq_ok, pure_eq_ok] at h
  obtain ⟨_, ⟨market, _, _, _, _, _, _, ⟨_, _, _, hcash, rfl⟩, _, _, _, hfee, _, hslip, rfl⟩, minutes,
    _, rfl⟩ := h
  refine ⟨⟨(checkBps_eq_ok hfee).1, checkBps_eq_ok hslip⟩, Int.natCast_nonneg _, ?_, ?_⟩
  · intro e he
    obtain ⟨id, _, rfl⟩ := List.mem_map.mp he
    exact ⟨Int.le_refl 0, Int.le_refl 0, Iff.rfl⟩
  · have hnone : ∀ ids : List String, ((ids.map fun id =>
        ((id, ⟨0, 0⟩) : String × Position)).map (·.2.cost6)).sum = 0 := by
      intro ids
      induction ids with
      | nil => rfl
      | cons id rest ih => simpa using ih
    unfold costSum
    simp only [hnone]

/-! ## Events -/

def PaperEvent.fill? : PaperEvent → Option Fill
  | .fill f => some f
  | _ => none

def fillsOf (events : List PaperEvent) : List Fill := events.filterMap PaperEvent.fill?

theorem fillsOf_append (a b : List PaperEvent) : fillsOf (a ++ b) = fillsOf a ++ fillsOf b :=
  List.filterMap_append

theorem fillsOf_other {events : List PaperEvent} (h : ∀ e ∈ events, e.ofOrder = false) :
    fillsOf events = [] := by
  refine List.filterMap_eq_nil_iff.mpr fun e he => ?_
  cases e with
  | fill f => cases h _ he
  | _ => rfl

theorem fundPaper_events {direction : Direction} {amount6 : String} {at_ : Int} {result : PaperResult}
    (h : fundPaper state direction amount6 at_ = .ok result) :
    ∀ e ∈ result.events, e.ofOrder = false := by
  obtain ⟨_, _, _, _, _, _, _, hevents⟩ := fundPaper_cases h
  intro e he
  rw [hevents] at he
  rw [List.mem_singleton.mp he]
  rfl

theorem fillsOf_blocked {event : PaperEvent} (h : event.isBlocked = true) : fillsOf [event] = [] := by
  cases event with
  | fill f => cases h
  | _ => rfl

/-- The fees and the number of fills are those of the events. -/
structure Totals (desk : Desk) : Prop where
  fees6 : desk.state.fees6 = ((fillsOf desk.events).map (·.fee6)).sum
  fills : desk.state.fills = (fillsOf desk.events).length

theorem fillState_totals (state : PaperState) (f : Fill) :
    (fillState state f).fees6 = state.fees6 + f.fee6 ∧
      (fillState state f).fills = state.fills + 1 := by
  cases hside : f.side <;> simp only [fillState, hside, and_self]

theorem Course.totals {start desk : Desk} (h : Course start desk) (hstart : Totals start) :
    Totals desk := by
  induction h with
  | refl => exact hstart
  | aside _ hsame hevents ih =>
      refine ⟨?_, ?_⟩
      · rw [hsame.books.fees6, fillsOf_append, fillsOf_other hevents, List.append_nil]
        exact ih.fees6
      · rw [hsame.books.fills, fillsOf_append, fillsOf_other hevents, List.append_nil]
        exact ih.fills
  | fill _ hf ih =>
      rename_i desk f _
      obtain ⟨hfees, hfills⟩ := fillState_totals desk.state f
      have hlast : fillsOf [PaperEvent.fill f] = [f] := rfl
      refine ⟨?_, ?_⟩
      · simp only [hfees, fillsOf_append, hlast, List.map_append, List.sum_append, ih.fees6,
          List.map_cons, List.map_nil, List.sum_cons, List.sum_nil]
        omega
      · simp only [hfills, fillsOf_append, hlast, List.length_append, ih.fills, List.length_singleton]
        omega
  | blocked _ hevent ih =>
      refine ⟨?_, ?_⟩
      · rw [fillsOf_append, fillsOf_blocked hevent, List.append_nil]
        exact ih.fees6
      · rw [fillsOf_append, fillsOf_blocked hevent, List.append_nil]
        exact ih.fills
  | fund _ hfund ih =>
      obtain ⟨_, _, _, _, _, hstate, _⟩ := fundPaper_cases hfund
      refine ⟨?_, ?_⟩
      · rw [hstate, fillsOf_append, fillsOf_other (fundPaper_events hfund), List.append_nil]
        exact ih.fees6
      · rw [hstate, fillsOf_append, fillsOf_other (fundPaper_events hfund), List.append_nil]
        exact ih.fills
  | latch _ _ _ ih => exact ⟨ih.fees6, ih.fills⟩
  | finish _ _ _ ih => exact ⟨ih.fees6, ih.fills⟩

/-! ## Moves -/

/-- One step of a course: the states around it, and what it emitted. -/
structure Move where
  before : PaperState
  events : List PaperEvent
  after : PaperState

/-- Moves that go from one state to another. -/
def Leads : PaperState → List Move → PaperState → Prop
  | state, [], next => state = next
  | state, m :: rest, next => m.before = state ∧ Leads m.after rest next

theorem Leads.append {moves : List Move} {m : Move} (h : Leads state moves m.before) :
    Leads state (moves ++ [m]) m.after := by
  induction moves generalizing state with
  | nil => exact ⟨Eq.symm h, rfl⟩
  | cons first rest ih => exact ⟨h.1, ih h.2⟩

/-- A move tells of at most one order.  A buy leaves the allocation within the cap, and an
order that is blocked leaves what it would have changed. -/
structure Orderly (m : Move) : Prop where
  single : (m.events.filter PaperEvent.ofOrder).length ≤ 1
  capped : ∀ f, .fill f ∈ m.events → f.side = .buy → ∃ value, valuation m.after = .ok value ∧
    (worthAt (heldAt m.before f.identity).quantity18 (bidAt m.before f.identity) +
      (f.gross6 + f.fee6)) * 3 ≤ value
  blocked : (∃ e ∈ m.events, e.isBlocked = true) → m.after.cash6 = m.before.cash6 ∧
    m.after.positions = m.before.positions ∧ m.after.fees6 = m.before.fees6 ∧
    m.after.fills = m.before.fills

theorem orderly_other {m : Move} (h : ∀ e ∈ m.events, e.ofOrder = false) : Orderly m := by
  refine ⟨?_, fun f hf => ?_, fun ⟨e, he, hblocked⟩ => ?_⟩
  · rw [List.filter_eq_nil_iff.mpr fun e he => by rw [h e he]; decide]
    exact Nat.zero_le 1
  · cases h _ hf
  · have hother := h e he
    cases e <;> simp [PaperEvent.isBlocked, PaperEvent.ofOrder] at hblocked hother

/-- A desk that a run comes to by moves which are all in order. -/
def Moved (start desk : Desk) : Prop :=
  ∃ moves, Leads start.state moves desk.state ∧
    desk.events = start.events ++ moves.flatMap Move.events ∧ ∀ m ∈ moves, Orderly m

theorem Moved.step {start desk : Desk} {m : Move} (h : Moved start desk)
    (hbefore : m.before = desk.state) (hm : Orderly m) :
    Moved start ⟨m.after, desk.events ++ m.events⟩ := by
  obtain ⟨moves, hleads, hevents, horderly⟩ := h
  rw [← hbefore] at hleads
  refine ⟨moves ++ [m], hleads.append, ?_, ?_⟩
  · rw [hevents, List.flatMap_append, List.flatMap_singleton, List.append_assoc]
  · intro m' hm'
    rcases List.mem_append.mp hm' with hin | hlast
    · exact horderly m' hin
    · rw [List.mem_singleton.mp hlast]
      exact hm

/-- A change that no event tells of. -/
theorem Moved.unseen {start desk : Desk} (h : Moved start desk) : Moved start ⟨next, desk.events⟩ := by
  have hstep := h.step (m := ⟨desk.state, [], next⟩) rfl (orderly_other nofun)
  rwa [List.append_nil] at hstep

theorem orderly_fill (hf : Fillable state f) : Orderly ⟨state, [.fill f], fillState state f⟩ := by
  refine ⟨Nat.le_refl 1, ?_, ?_⟩
  · intro g hg hbuy
    cases List.mem_singleton.mp hg
    exact hf.capped hbuy
  · rintro ⟨e, he, hblocked⟩
    rw [List.mem_singleton.mp he] at hblocked
    cases hblocked

theorem orderly_blocked {event : PaperEvent} (h : event.isBlocked = true) :
    Orderly ⟨state, [event], state⟩ := by
  refine ⟨List.length_filter_le _ _, ?_, fun _ => ⟨rfl, rfl, rfl, rfl⟩⟩
  intro g hg
  rw [← List.mem_singleton.mp hg] at h
  cases h

theorem Course.moved {start desk : Desk} (h : Course start desk) : Moved start desk := by
  induction h with
  | refl =>
      refine ⟨[], rfl, ?_, fun m hm => nomatch hm⟩
      rw [List.flatMap_nil, List.append_nil]
  | @aside desk next events _ _ hevents ih =>
      exact ih.step (m := ⟨desk.state, events, next⟩) rfl (orderly_other hevents)
  | fill _ hf ih => exact ih.step rfl (orderly_fill hf)
  | blocked _ hevent ih => exact ih.step rfl (orderly_blocked hevent)
  | @fund desk _ _ _ result _ hfund ih =>
      exact ih.step (m := ⟨desk.state, result.events, result.state⟩) rfl
        (orderly_other (fundPaper_events hfund))
  | @latch desk trigger _ _ ih => exact ih.unseen
  | @finish desk _ _ _ ih => exact ih.unseen

/-! ## Runs -/

section Runs

variable (jsonParse : String → Option Json) (sha256 : String → String)

end Runs

/-! A run of three stocks that starts with ten millionths. -/

def smallMarket : BatchPolicy where
  selections := [⟨46630, "0x0000000000000000000000000000000000000001", "MSFT"⟩,
    ⟨46630, "0x0000000000000000000000000000000000000002", "NVDA"⟩,
    ⟨46630, "0x0000000000000000000000000000000000000003", "AAPL"⟩]
  maxAgeMs := 30000
  maxQuoteSkewMs := 10000
  maxCaptureSpanMs := 30000

def smallConfig : PaperConfig where
  market := smallMarket
  minuteCloseMaxAgeMs := 30000
  gapPolicy := .retain
  feeBps := 0
  slippageBps := 0
  initialCash6 := "10"
  limits := .off

def smallIds : List String := smallMarket.selections.map identityOf

def smallPaper : PaperState :=
  { config := smallConfig, clock := 0, status := .running, trigger := none, cash6 := 10,
    positions := smallIds.map fun id => (id, { quantity18 := 0, cost6 := 0 }), quotes := [],
    netContributed6 := 10, fees6 := 0, realizedPnl6 := 0, units := ⟨10, 1⟩, emptyValue := ⟨1, 1⟩,
    minutes := { identities := smallIds, latest := fun _ => none, nextMinute := none, pending := [] },
    emas := smallIds.map fun id => (id, createEma), closedMinutes := 0, fills := 0 }

theorem smallPaper_created : createPaper smallConfig = .ok smallPaper := by
  have hparsed : parsePaperConfig smallConfig = .ok smallConfig := by decide
  have hids : smallIds.length = 3 ∧ smallIds.Nodup := by decide
  rw [createPaper, hparsed]
  refine bind_eq_ok.mpr ⟨smallConfig, rfl, bind_eq_ok.mpr ⟨_, ?_, rfl⟩⟩
  exact bind_eq_ok.mpr ⟨(), ensure_eq_ok.mpr hids, rfl⟩

end Paper
end AlphaForge
