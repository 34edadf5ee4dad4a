/-
What a transition of a run keeps.

A run is balanced if its cash and the cost of its positions are what was contributed
and what was realized.  Trading moves neither the run's name nor what was contributed,
so only funding and the release of a settlement's excess change the latter.
-/
import AlphaForge.Automata.Engine.Moves

namespace AlphaForge
namespace Automata

open Evm

/-! ## Cost and worth -/

def costSum (run : Run) : Int := (run.positions.map (·.2.cost)).sum

theorem positionCosts_eq_ok {run : Run} {cost : Int} : positionCosts run = .ok cost ↔
    (∀ e ∈ run.positions, 0 ≤ e.2.cost ∧ e.2.cost < 10 ^ 24) ∧ costSum run = cost := by
  unfold positionCosts costSum
  simp only [bind_eq_ok, pure_eq_ok]
  induction run.positions generalizing cost with
  | nil => simp
  | cons e rest ih =>
      simp only [List.mapM_cons, bind_eq_ok, pure_eq_ok, amount_eq_ok, List.forall_mem_cons,
        List.map_cons, List.sum_cons]
      constructor
      · rintro ⟨_, ⟨_, ⟨hcost, rfl⟩, costs, hcosts, rfl⟩, rfl⟩
        obtain ⟨hrest, hsum⟩ := ih.mp ⟨costs, hcosts, rfl⟩
        exact ⟨⟨hcost, hrest⟩, by rw [hsum, List.sum_cons]⟩
      · rintro ⟨⟨hcost, hrest⟩, rfl⟩
        obtain ⟨costs, hcosts, hsum⟩ := ih.mpr ⟨hrest, rfl⟩
        exact ⟨_, ⟨_, ⟨hcost, rfl⟩, costs, hcosts, rfl⟩, by rw [List.sum_cons, hsum]⟩

theorem positionWorth_nonneg {run : Run} {e : String × Position} {worth : Int}
    (h : positionWorth run e = .ok worth) : 0 ≤ worth := by
  simp only [positionWorth, bind_eq_ok, amount_eq_ok, pure_eq_ok] at h
  obtain ⟨_, ⟨⟨hquantity, _⟩, rfl⟩, _, ⟨⟨hbid, _⟩, rfl⟩, rfl⟩ := h
  exact Int.ediv_nonneg (Int.mul_nonneg hquantity hbid) (by decide)

theorem sum_nonneg_of_mapM {α : Type} {f : α → Except String Int} {items : List α} {r : List Int}
    (hf : ∀ a b, f a = .ok b → 0 ≤ b) (h : items.mapM f = .ok r) : 0 ≤ r.sum := by
  induction items generalizing r with
  | nil =>
      rw [List.mapM_nil, pure_eq_ok] at h
      rw [← h]
      exact Int.le_refl 0
  | cons a rest ih =>
      simp only [List.mapM_cons, bind_eq_ok, pure_eq_ok] at h
      obtain ⟨b, hb, bs, hbs, rfl⟩ := h
      have hfirst := hf a b hb
      have hrest := ih hbs
      rw [List.sum_cons]
      omega

theorem cash_le_equity {run : Run} {value : Int} (h : equity run = .ok value) :
    run.cash ≤ value := by
  simp only [equity, bind_eq_ok, amount_eq_ok, pure_eq_ok] at h
  obtain ⟨_, ⟨_, rfl⟩, worth, hworth, rfl⟩ := h
  have hnonneg := sum_nonneg_of_mapM (fun _ _ => positionWorth_nonneg) hworth
  omega

/-- The worth of the positions does not look at the cash. -/
theorem equity_cash {run next : Run} {value : Int} (h : equity run = .ok value)
    (hpositions : next.positions = run.positions) (hquotes : next.quotes = run.quotes)
    (hcash : 0 ≤ next.cash ∧ next.cash < 10 ^ 24) :
    equity next = .ok (value - run.cash + next.cash) := by
  have hworth : positionWorth next = positionWorth run := by
    funext e
    rw [positionWorth, positionWorth, bidOf, bidOf, hquotes]
  simp only [equity, bind_eq_ok, amount_eq_ok, pure_eq_ok] at h ⊢
  obtain ⟨_, ⟨_, rfl⟩, worth, hmap, rfl⟩ := h
  rw [hpositions, hworth]
  exact ⟨_, ⟨hcash, rfl⟩, worth, hmap, by omega⟩

/-- The books of a run. -/
structure Balanced (run : Run) : Prop where
  cash : 0 ≤ run.cash ∧ run.cash < 10 ^ 24
  costs : ∀ e ∈ run.positions, 0 ≤ e.2.cost ∧ e.2.cost < 10 ^ 24
  valued : ∃ value, equity run = .ok value
  conserved : run.cash + costSum run = run.netContributed + run.realizedPnl

/-! ## Trading -/

/-- What trading leaves alone. -/
structure Kept (run next : Run) : Prop where
  id : next.id = run.id
  netContributed : next.netContributed = run.netContributed

theorem Kept.refl (run : Run) : Kept run run := ⟨rfl, rfl⟩

theorem Kept.trans {a b c : Run} (hab : Kept a b) (hbc : Kept b c) : Kept a c :=
  ⟨hbc.id.trans hab.id, hbc.netContributed.trans hab.netContributed⟩

section Kept

variable {run next : Run}

theorem Moves.kept {allowed : Side → Prop} (h : Moves allowed run next) : Kept run next := by
  refine h.keeps (P := Kept run) (fun a b hsame ha => ?_) (fun a id side purpose f _ _ ha => ?_)
    (Kept.refl run)
  · exact ha.trans ⟨hsame.id, hsame.netContributed⟩
  · exact ha.trans ⟨rfl, rfl⟩

theorem limits_kept (h : limits run = .ok next) : Kept run next :=
  ⟨(limits_sameAmounts h).id, (limits_sameAmounts h).netContributed⟩

end Kept

/-! ## Funding -/

section Fund

variable {run next : Run}

/-- Only the units change. -/
theorem changeUnits_eq {cash : Int} {inward : Bool} (h : changeUnits run cash inward = .ok next) :
    ∃ un ud en ed, next = { run with
      unitsNumerator := un, unitsDenominator := ud, emptyNumerator := en, emptyDenominator := ed } := by
  simp only [changeUnits, bind_eq_ok] at h
  obtain ⟨nav, _, h⟩ := h
  split at h
  · cases h
    exact ⟨_, _, _, _, rfl⟩
  simp only [bind_eq_ok] at h
  obtain ⟨_, _, h⟩ := h
  split at h
  · cases h
    exact ⟨_, _, _, _, rfl⟩
  simp only [bind_eq_ok, pure_eq_ok] at h
  obtain ⟨_, _, _, _, rfl⟩ := h
  exact ⟨_, _, _, _, rfl⟩

theorem changeUnits_books {cash : Int} {inward : Bool} (h : changeUnits run cash inward = .ok next) :
    Kept run next ∧ next.positions = run.positions ∧ next.quotes = run.quotes ∧
      next.realizedPnl = run.realizedPnl := by
  obtain ⟨_, _, _, _, rfl⟩ := changeUnits_eq h
  exact ⟨⟨rfl, rfl⟩, rfl, rfl, rfl⟩

theorem pushHistory_eq_ok {value : Int} {reason : Option String}
    (h : pushHistory run value reason = .ok next) :
    ∃ history, next = { run with history := history } := by
  simp only [pushHistory, bind_eq_ok, pure_eq_ok] at h
  obtain ⟨_, _, rfl⟩ := h
  exact ⟨_, rfl⟩

/-- What an action contributes to the run. -/
def Action.contributed : Action → Int
  | .fund inward text => if inward then Text.ofDecimal text else -Text.ofDecimal text
  | _ => 0

theorem foldl_addQuote_kept (quotes : List Quote) : Kept run (quotes.foldl addQuote run) := by
  induction quotes generalizing run with
  | nil => exact Kept.refl run
  | cons q rest ih =>
      have hfirst : Kept run (addQuote run q) := ⟨rfl, rfl⟩
      exact hfirst.trans ih

theorem applyAction_contributed {action : Action} (h : applyAction run action = .ok next) :
    next.id = run.id ∧ next.netContributed = run.netContributed + action.contributed := by
  cases action with
  | frame frame =>
      simp only [applyAction, bind_eq_ok] at h
      obtain ⟨_, _, limited, hlimited, h⟩ := h
      have hquoted : Kept run (frame.quotes.foldl addQuote
          { run with cursor := frame.seq, clock := frame.at', lastFrame := some frame }) :=
        ⟨(foldl_addQuote_kept frame.quotes).id, (foldl_addQuote_kept frame.quotes).netContributed⟩
      have hkept := hquoted.trans (limits_kept hlimited)
      have hnext : Kept run next := by
        split at h
        · exact hkept.trans (liquidate_moves h).kept
        split at h
        · exact hkept.trans (rebalance_moves h).kept
        · cases h
          exact hkept
      exact ⟨hnext.id, by rw [hnext.netContributed]; exact (Int.add_zero _).symm⟩
  | decision id frameSeq targets =>
      simp only [applyAction, bind_eq_ok] at h
      obtain ⟨_, _, _, _, _, _, _, _, _, _, _, _, _, _, limited, hlimited, h⟩ := h
      have hkept := limits_kept hlimited
      have hnext : Kept run next := by
        split at h
        · simp only [bind_eq_ok, pure_eq_ok] at h
          obtain ⟨mid, hmid, rfl⟩ := h
          have hmid := hkept.trans (liquidate_moves hmid).kept
          exact ⟨hmid.id, hmid.netContributed⟩
        · simp only [bind_eq_ok, pure_eq_ok] at h
          obtain ⟨mid, hmid, rfl⟩ := h
          have hmid := hkept.trans (rebalance_moves hmid).kept
          exact ⟨hmid.id, hmid.netContributed⟩
      exact ⟨hnext.id, by rw [hnext.netContributed]; exact (Int.add_zero _).symm⟩
  | stop =>
      simp only [applyAction, bind_eq_ok] at h
      obtain ⟨mid, hmid, h⟩ := h
      have hset := setTrigger_sameAmounts hmid
      have hstopped : Kept run mid := ⟨hset.id, hset.netContributed⟩
      have hnext := hstopped.trans (liquidate_moves h).kept
      exact ⟨hnext.id, by rw [hnext.netContributed]; exact (Int.add_zero _).symm⟩
  | pause | resume =>
      simp only [applyAction, bind_eq_ok, pure_eq_ok] at h
      obtain ⟨_, _, rfl⟩ := h
      exact ⟨rfl, (Int.add_zero _).symm⟩
  | fund inward text =>
      simp only [applyAction, bind_eq_ok, pure_eq_ok] at h
      obtain ⟨_, _, _, _, _, _, cash, hcash, _, _, held, _, _, _, mid, hmid, rfl⟩ := h
      obtain ⟨hkept, _⟩ := changeUnits_books hmid
      obtain ⟨_, _, rfl⟩ := amountText_eq_ok hcash
      refine ⟨hkept.id, ?_⟩
      simp only [hkept.netContributed, Action.contributed]

/-- A transition leaves a balanced run, with what its action contributed. -/
theorem transition_balanced {action : Action} (hrun : Balanced run)
    (h : transition run action = .ok next) :
    Balanced next ∧ next.id = run.id ∧
      next.netContributed = run.netContributed + action.contributed := by
  unfold transition at h
  split at h
  next hreplay =>
    simp only [bind_eq_ok, pure_eq_ok] at h
    obtain ⟨_, _, rfl⟩ := h
    cases action with
    | frame frame => exact ⟨hrun, rfl, (Int.add_zero _).symm⟩
    | _ => cases hreplay
  split at h
  next hstopped =>
    cases h
    have hnone : action.contributed = 0 := by
      rcases hstopped.2 with rfl | hframe
      · rfl
      · cases action with
        | frame frame => rfl
        | _ => exact absurd rfl hframe
    exact ⟨hrun, rfl, by rw [hnone, Int.add_zero]⟩
  simp only [bind_eq_ok, ensure_eq_ok] at h
  obtain ⟨mid, hmid, _, _, cash, hcash, cost, hcost, _, hconserved, value, hvalue, hpush⟩ := h
  obtain ⟨hid, hnet⟩ := applyAction_contributed hmid
  obtain ⟨hrange, rfl⟩ := amount_eq_ok.mp hcash
  obtain ⟨hcosts, rfl⟩ := positionCosts_eq_ok.mp hcost
  obtain ⟨history, rfl⟩ := pushHistory_eq_ok hpush
  exact ⟨⟨hrange, hcosts, ⟨value, hvalue⟩, hconserved⟩, hid, hnet⟩

/-- The released excess leaves the cash and what was contributed. -/
theorem releaseSettlementExcess_balanced {excess : Int} (hrun : Balanced run)
    (h : releaseSettlementExcess run excess = .ok next) :
    Balanced next ∧ next.id = run.id ∧ 0 ≤ excess ∧
      next.netContributed = run.netContributed - excess ∧
      next.realizedPnl = run.realizedPnl := by
  simp only [releaseSettlementExcess, bind_eq_ok, amount_eq_ok, ensure_eq_ok] at h
  obtain ⟨_, ⟨hcash, rfl⟩, _, ⟨hexcess, hle⟩, _, _, _, _, h⟩ := h
  split at h
  next hzero =>
    cases h
    exact ⟨hrun, rfl, hexcess, by omega, rfl⟩
  simp only [bind_eq_ok] at h
  obtain ⟨mid, hmid, hpush⟩ := h
  obtain ⟨hkept, hpositions, hquotes, hpnl⟩ := changeUnits_books hmid
  obtain ⟨history, rfl⟩ := pushHistory_eq_ok hpush
  obtain ⟨value, hvalue⟩ := hrun.valued
  have hafter : 0 ≤ run.cash - excess ∧ run.cash - excess < 10 ^ 24 := by omega
  refine ⟨⟨hafter, ?_, ⟨_, equity_cash hvalue hpositions hquotes hafter⟩, ?_⟩, hkept.id, hexcess, ?_,
    hpnl⟩
  · show ∀ e ∈ mid.positions, _
    rw [hpositions]
    exact hrun.costs
  · have hconserved := hrun.conserved
    have hcost : costSum { mid with
        cash := run.cash - excess, netContributed := mid.netContributed - excess,
        history := history } = costSum run := by
      unfold costSum
      rw [hpositions]
    rw [hcost]
    simp only [hkept.netContributed, hpnl]
    omega
  · simp only [hkept.netContributed]

theorem createRun_balanced {id text : String} {parameters : Parameters}
    (h : createRun id text parameters = .ok next) :
    Balanced next ∧ next.id = id ∧ isId id = true ∧ 0 < next.cash ∧
      next.cash = Text.ofDecimal text ∧ next.netContributed = next.cash ∧ next.realizedPnl = 0 ∧
      next.positions = [] ∧ next.status = .running := by
  simp only [createRun, bind_eq_ok, ensure_eq_ok, pure_eq_ok] at h
  obtain ⟨_, hid, cash, hcash, _, hpos, _, _, rfl⟩ := h
  obtain ⟨hnonneg, hdecimal, rfl⟩ := amountText_eq_ok hcash
  have hbound : (Text.ofDecimal text : Int) < 10 ^ 24 := by
    have hlt := Text.ofDecimal_lt hdecimal
    omega
  refine ⟨⟨⟨hnonneg, hbound⟩, ?_, ⟨Text.ofDecimal text + 0, ?_⟩, ?_⟩, rfl, hid, hpos, rfl, rfl, rfl,
    rfl, rfl⟩
  · intro e he
    cases he
  · simp only [equity, bind_eq_ok, amount_eq_ok, pure_eq_ok]
    exact ⟨_, ⟨⟨hnonneg, hbound⟩, rfl⟩, [], rfl, rfl⟩
  · simp [costSum]

end Fund

end Automata
end AlphaForge
