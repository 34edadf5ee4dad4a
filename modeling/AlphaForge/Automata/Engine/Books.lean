/-
The books of a run.

Every fill moves cash, cost and profit by amounts that cancel, and leaves a position
with no cost exactly when it leaves it empty.  So the check that closes a transition
never finds a run whose books are off.
-/
import AlphaForge.Automata.Engine.Balanced
import AlphaForge.Automata.Engine.Errors
import AlphaForge.Machine.Run

namespace AlphaForge
namespace Automata

open Evm Machine

variable {run next : Run} {id : String} {side : Side}

structure Books (run : Run) : Prop where
  feeBps : 0 ≤ run.parameters.feeBps
  cash : 0 ≤ run.cash
  positions : ∀ e ∈ run.positions, 0 ≤ e.2.quantity ∧ 0 ≤ e.2.cost ∧ (e.2.quantity = 0 ↔ e.2.cost = 0)
  conserved : run.cash + costSum run = run.netContributed + run.realizedPnl
  fees : run.fees = (run.trades.map (·.fee)).sum
  used : ∀ id, 0 ≤ usedAt run id
  capacity : ∀ id q, run.quotes.get? id = some q → usedAt run id ≤ q.capacity

/-! ## Fills -/

theorem ceil_nonneg {n d : Int} (hn : 0 ≤ n) (hd : 0 < d) : 0 ≤ ceil n d :=
  Int.ediv_nonneg (by omega) (by omega)

theorem Books.heldAt (h : Books run) (id : String) :
    0 ≤ (heldAt run id).quantity ∧ 0 ≤ (heldAt run id).cost ∧
      ((heldAt run id).quantity = 0 ↔ (heldAt run id).cost = 0) := by
  unfold Automata.heldAt
  cases hget : run.positions.get? id with
  | none => simp
  | some p => exact h.positions (id, p) (OrderedMap.mem_of_get? hget)

/-- Part of the cost goes with part of the position, and less than all of it. -/
theorem costOf_lt {held : Position} {quantity : Int} (hcost : 0 < held.cost)
    (hquantity : 0 < quantity) (hlt : quantity < held.quantity) :
    0 ≤ costOf held quantity ∧ costOf held quantity < held.cost := by
  have hheld : 0 < held.quantity := by omega
  rw [costOf, if_neg (by omega)]
  refine ⟨Int.ediv_nonneg (Int.mul_nonneg (by omega) (by omega)) (by omega), ?_⟩
  refine Int.ediv_lt_of_lt_mul hheld ?_
  exact Int.mul_lt_mul_of_pos_left hlt hcost

theorem Fillable.charges {f : Fill} (hf : Fillable run id side f)
    (hbps : 0 ≤ run.parameters.feeBps) : 0 ≤ f.gross ∧ 0 ≤ f.fee := by
  have hproduct : 0 ≤ f.quantity * f.price :=
    Int.mul_nonneg (Int.le_of_lt hf.quantity) (Int.le_of_lt hf.price)
  have hgross : 0 ≤ f.gross := by
    rw [hf.gross]
    cases side with
    | buy => exact ceil_nonneg hproduct (by decide)
    | sell => exact Int.ediv_nonneg hproduct (by decide)
  refine ⟨hgross, ?_⟩
  rw [hf.fee, feeOf]
  exact ceil_nonneg (Int.mul_nonneg hgross hbps) (by decide)

theorem Books.filled_position {f : Fill} (h : Books run) (hf : Fillable run id side f) :
    let p := side.position (Automata.heldAt run id).quantity (Automata.heldAt run id).cost
      f.quantity f.gross f.fee f.cost
    0 ≤ p.quantity ∧ 0 ≤ p.cost ∧ (p.quantity = 0 ↔ p.cost = 0) := by
  obtain ⟨hheld, hspent, hempty⟩ := h.heldAt id
  obtain ⟨hgross, hfee⟩ := hf.charges h.feeBps
  have hquantity := hf.quantity
  have hcharged := hf.charged
  cases side with
  | buy =>
      simp only [Side.position]
      omega
  | sell =>
      have hsold := hf.sold rfl
      have hcost := hf.cost
      simp only [Side.position]
      by_cases hall : f.quantity = (Automata.heldAt run id).quantity
      · rw [costOf, if_pos hall] at hcost
        omega
      · have hspent' : 0 < (Automata.heldAt run id).cost := by omega
        have hpart := costOf_lt hspent' hquantity (by omega)
        omega

theorem heldAt_cost (run : Run) (id : String) :
    ((run.positions.get? id).map (·.cost)).getD 0 = (heldAt run id).cost := by
  unfold heldAt
  cases run.positions.get? id <;> rfl

theorem usedAt_set (run next : Run) (id other : String) (v : Int)
    (h : next.usedCapacity = run.usedCapacity.set id v) :
    usedAt next other = if other = id then v else usedAt run other := by
  unfold usedAt
  rw [h, OrderedMap.get?_set]
  split <;> rfl

theorem freshQuote_get? {q : Quote} (h : freshQuote run id = some q) :
    run.quotes.get? id = some q :=
  (Option.filter_eq_some_iff.mp h).1

theorem Books.fill {f : Fill} {purpose : Purpose} (h : Books run) (hf : Fillable run id side f) :
    Books (fillOf run id side purpose f) := by
  obtain ⟨hgross, hfee⟩ := hf.charges h.feeBps
  have hused : ∀ other, usedAt (fillOf run id side purpose f) other =
      if other = id then usedAt run id + f.quantity else usedAt run other :=
    fun other => usedAt_set run _ id other _ rfl
  have hcost : costSum (fillOf run id side purpose f) = costSum run - (Automata.heldAt run id).cost +
      (side.position (Automata.heldAt run id).quantity (Automata.heldAt run id).cost f.quantity
        f.gross f.fee f.cost).cost := by
    show ((run.positions.set id _).map (fun e => e.2.cost)).sum = _
    rw [OrderedMap.sum_set_values (fun p : Position => p.cost), heldAt_cost]
    rfl
  refine ⟨h.feeBps, ?_, ?_, ?_, ?_, ?_, ?_⟩
  · have hcash := h.cash
    cases side with
    | buy =>
        have hpaid := hf.paid rfl
        simp only [fillOf, Side.cashAfter]
        omega
    | sell =>
        have hcharged := hf.charged
        simp only [fillOf, Side.cashAfter]
        omega
  · intro e he
    rcases OrderedMap.mem_of_mem_set he with rfl | he
    · exact h.filled_position hf
    · exact h.positions e he
  · have hconserved := h.conserved
    rw [hcost]
    cases side with
    | buy =>
        simp only [fillOf, Side.cashAfter, Side.pnlAfter, Side.position]
        omega
    | sell =>
        simp only [fillOf, Side.cashAfter, Side.pnlAfter, Side.position]
        omega
  · simp only [fillOf, List.map_append, List.sum_append, List.map_cons, List.map_nil,
      List.sum_cons, List.sum_nil, h.fees]
    omega
  · intro other
    have hquantity := hf.quantity
    have hthere := h.used other
    have hown := h.used id
    rw [hused]
    split <;> omega
  · intro other q hq
    rw [hused]
    split
    next heq =>
      subst heq
      have hsame : some q = some f.quote := hq.symm.trans (freshQuote_get? hf.quoted)
      cases hsame
      exact hf.fits
    next => exact h.capacity other q hq

theorem Books.aside (hsame : SameAmounts run next) (h : Books run) : Books next := by
  have hused : ∀ id, usedAt next id = usedAt run id := fun id => by
    unfold usedAt
    rw [hsame.usedCapacity]
  have hcost : costSum next = costSum run := by
    unfold costSum
    rw [hsame.positions]
  refine ⟨by rw [hsame.parameters]; exact h.feeBps, by rw [hsame.cash]; exact h.cash,
    by rw [hsame.positions]; exact h.positions, ?_, ?_, ?_, ?_⟩
  · rw [hcost, hsame.cash, hsame.netContributed, hsame.realizedPnl]
    exact h.conserved
  · rw [hsame.fees, hsame.trades]
    exact h.fees
  · intro id
    rw [hused]
    exact h.used id
  · intro id q hq
    rw [hused]
    exact h.capacity id q (hsame.quotes ▸ hq)

theorem Books.moves {allowed : Side → Prop} (hmoves : Moves allowed run next) (h : Books run) :
    Books next :=
  hmoves.keeps (P := Books) (fun _ _ hsame ha => ha.aside hsame)
    (fun _ _ _ _ _ _ hf ha => ha.fill hf) h

/-! ## Frames -/

/-- What a frame's quotes are checked for against those there are. -/
structure Addable (run : Run) (quotes : List Quote) : Prop where
  distinct : (quotes.map (·.assetId)).Nodup
  capacity : ∀ q ∈ quotes, 0 ≤ q.capacity
  again : ∀ q ∈ quotes, ∀ before, run.quotes.get? q.assetId = some before →
    q.observedAt = before.observedAt → q = before

theorem validQuotes_eq_ok {frame : Frame} {seen : List String} {quotes : List Quote}
    (h : validQuotes run frame seen quotes = .ok ()) :
    Addable run quotes ∧ ∀ q ∈ quotes, q.assetId ∉ seen := by
  induction quotes generalizing seen with
  | nil => exact ⟨⟨List.nodup_nil, nofun, nofun⟩, nofun⟩
  | cons q rest ih =>
      simp only [validQuotes, bind_eq_ok, ensure_eq_ok] at h
      obtain ⟨_, hq, hrest⟩ := h
      obtain ⟨_, hseen, _, _, hcapacity, _, _, _, _, hbefore⟩ := hq
      obtain ⟨hadd, hnew⟩ := ih hrest
      have hfresh : q.assetId ∉ rest.map (·.assetId) := by
        intro hmem
        obtain ⟨q', hq', heq⟩ := List.mem_map.mp hmem
        exact hnew q' hq' (heq ▸ List.mem_cons_self)
      refine ⟨⟨List.nodup_cons.mpr ⟨hfresh, hadd.distinct⟩, ?_, ?_⟩, ?_⟩
      · exact List.forall_mem_cons.mpr ⟨hcapacity.1, hadd.capacity⟩
      · exact List.forall_mem_cons.mpr
          ⟨fun before hget => (hbefore before hget).2, hadd.again⟩
      · refine List.forall_mem_cons.mpr ⟨hseen, fun q' hq' hmem => ?_⟩
        exact hnew q' hq' (List.mem_cons_of_mem _ hmem)

theorem Books.addQuote {q : Quote} {rest : List Quote} (h : Books run)
    (hadd : Addable run (q :: rest)) :
    Books (Automata.addQuote run q) ∧ Addable (Automata.addQuote run q) rest := by
  have hused : ∀ other, usedAt (Automata.addQuote run q) other =
      if other = q.assetId ∧ (run.quotes.get? q.assetId).map (·.observedAt) ≠ some q.observedAt
      then 0 else usedAt run other := by
    intro other
    unfold usedAt Automata.addQuote
    simp only
    by_cases hseen : (run.quotes.get? q.assetId).map (·.observedAt) ≠ some q.observedAt
    · rw [if_pos hseen, OrderedMap.get?_set]
      by_cases heq : other = q.assetId
      · rw [if_pos heq, if_pos ⟨heq, hseen⟩]
        rfl
      · rw [if_neg heq, if_neg (fun hboth => heq hboth.1)]
    · rw [if_neg hseen, if_neg (fun hboth => hseen hboth.2)]
  have hquotes : ∀ other, (Automata.addQuote run q).quotes.get? other =
      if other = q.assetId then some q else run.quotes.get? other :=
    fun other => OrderedMap.get?_set q.assetId other q run.quotes
  obtain ⟨hown, hdistinct⟩ := List.nodup_cons.mp hadd.distinct
  refine ⟨⟨h.feeBps, h.cash, h.positions, h.conserved, h.fees, fun other => ?_,
    fun other q' hq' => ?_⟩, ⟨hdistinct, ?_, ?_⟩⟩
  · have hthere := h.used other
    rw [hused]
    split
    · exact Int.le_refl 0
    · exact hthere
  · rw [hquotes] at hq'
    rw [hused]
    by_cases heq : other = q.assetId
    · rw [if_pos heq, Option.some.injEq] at hq'
      subst heq hq'
      by_cases hseen : (run.quotes.get? q.assetId).map (·.observedAt) = some q.observedAt
      · -- The observation is the one that is there, with what was used of it.
        rw [if_neg (fun hboth => hboth.2 hseen)]
        obtain ⟨before, hbefore, hat⟩ := Option.map_eq_some_iff.mp hseen
        have hsame := hadd.again q List.mem_cons_self before hbefore hat.symm
        exact h.capacity q.assetId q (hsame ▸ hbefore)
      · rw [if_pos ⟨rfl, hseen⟩]
        exact hadd.capacity q List.mem_cons_self
    · rw [if_neg heq] at hq'
      rw [if_neg (fun hboth => heq hboth.1)]
      exact h.capacity other q' hq'
  · exact fun q' hq' => hadd.capacity q' (List.mem_cons_of_mem _ hq')
  · intro q' hq' before hbefore
    have hother : q'.assetId ≠ q.assetId := by
      intro heq
      exact hown (List.mem_map.mpr ⟨q', hq', heq⟩)
    rw [hquotes, if_neg hother] at hbefore
    exact hadd.again q' (List.mem_cons_of_mem _ hq') before hbefore

theorem Books.addQuotes {quotes : List Quote} (h : Books run) (hadd : Addable run quotes) :
    Books (quotes.foldl Automata.addQuote run) := by
  induction quotes generalizing run with
  | nil => exact h
  | cons q rest ih =>
      obtain ⟨hbooks, hrest⟩ := h.addQuote hadd
      exact ih hbooks hrest

/-! ## Transitions -/

theorem Books.changeUnits {cash : Int} {inward : Bool} (h : Books run)
    (hunits : changeUnits run cash inward = .ok next) : Books next := by
  obtain ⟨_, _, _, _, rfl⟩ := changeUnits_eq hunits
  exact ⟨h.feeBps, h.cash, h.positions, h.conserved, h.fees, h.used, h.capacity⟩

/-- Cash that comes in or goes out was contributed or is given back. -/
theorem Books.fund (h : Books run) (delta : Int) (hcash : 0 ≤ run.cash + delta) :
    Books { run with cash := run.cash + delta, netContributed := run.netContributed + delta } := by
  refine ⟨h.feeBps, hcash, h.positions, ?_, h.fees, h.used, h.capacity⟩
  have hconserved := h.conserved
  show run.cash + delta + costSum run = run.netContributed + delta + run.realizedPnl
  omega

theorem Books.history (h : Books run) (history : List HistoryEntry) :
    Books { run with history := history } :=
  ⟨h.feeBps, h.cash, h.positions, h.conserved, h.fees, h.used, h.capacity⟩

/-- The run with the quotes of a frame. -/
theorem Books.frame {frame : Frame} (h : Books run) (hframe : validateFrame run frame = .ok ()) :
    Books (frame.quotes.foldl Automata.addQuote
      { run with cursor := frame.seq, clock := frame.at', lastFrame := some frame }) := by
  simp only [validateFrame, bind_eq_ok] at hframe
  obtain ⟨_, _, _, _, hquotes⟩ := hframe
  have hadd := (validQuotes_eq_ok hquotes).1
  have hstart : Books { run with
      cursor := frame.seq, clock := frame.at', lastFrame := some frame } :=
    ⟨h.feeBps, h.cash, h.positions, h.conserved, h.fees, h.used, h.capacity⟩
  exact hstart.addQuotes ⟨hadd.distinct, hadd.capacity, hadd.again⟩

theorem Books.applyAction {action : Action} (h : Books run)
    (haction : applyAction run action = .ok next) : Books next := by
  cases action with
  | frame frame =>
      simp only [Automata.applyAction, bind_eq_ok] at haction
      obtain ⟨_, hframe, limited, hlimited, haction⟩ := haction
      have hquoted := (h.frame hframe).aside (limits_sameAmounts hlimited)
      split at haction
      · exact hquoted.moves (liquidate_moves haction)
      split at haction
      · exact hquoted.moves (rebalance_moves haction)
      · cases haction
        exact hquoted
  | decision id frameSeq targets =>
      simp only [Automata.applyAction, bind_eq_ok] at haction
      obtain ⟨_, _, _, _, _, _, _, _, _, _, _, _, _, _, limited, hlimited, haction⟩ := haction
      have hstart := h.aside (limits_sameAmounts hlimited)
      split at haction
      · simp only [bind_eq_ok, pure_eq_ok] at haction
        obtain ⟨mid, hmid, rfl⟩ := haction
        have hmid := hstart.moves (liquidate_moves hmid)
        exact ⟨hmid.feeBps, hmid.cash, hmid.positions, hmid.conserved, hmid.fees, hmid.used,
          hmid.capacity⟩
      · simp only [bind_eq_ok, pure_eq_ok] at haction
        obtain ⟨mid, hmid, rfl⟩ := haction
        have hmid := hstart.moves (rebalance_moves hmid)
        exact ⟨hmid.feeBps, hmid.cash, hmid.positions, hmid.conserved, hmid.fees, hmid.used,
          hmid.capacity⟩
  | stop =>
      simp only [Automata.applyAction, bind_eq_ok] at haction
      obtain ⟨mid, hmid, haction⟩ := haction
      exact (h.aside (setTrigger_sameAmounts hmid)).moves (liquidate_moves haction)
  | pause | resume =>
      simp only [Automata.applyAction, bind_eq_ok, pure_eq_ok] at haction
      obtain ⟨_, _, rfl⟩ := haction
      exact ⟨h.feeBps, h.cash, h.positions, h.conserved, h.fees, h.used, h.capacity⟩
  | fund inward text =>
      simp only [Automata.applyAction, bind_eq_ok, ensure_eq_ok, amount_eq_ok, pure_eq_ok]
        at haction
      obtain ⟨_, _, _, _, _, _, cash, hcash, _, hpos, _, ⟨hheld, rfl⟩, _, hout, mid, hmid, rfl⟩ :=
        haction
      obtain ⟨_, _, _, _, rfl⟩ := changeUnits_eq hmid
      refine (h.changeUnits hmid).fund (if inward then cash else -cash) ?_
      show 0 ≤ run.cash + _
      cases inward with
      | true => simp only [if_true]; omega
      | false => simp only [Bool.false_eq_true, if_false, false_or] at hout ⊢; omega

theorem Books.transition {action : Action} (h : Books run)
    (htransition : transition run action = .ok next) : Books next := by
  unfold Automata.transition at htransition
  split at htransition
  · simp only [bind_eq_ok, pure_eq_ok] at htransition
    obtain ⟨_, _, rfl⟩ := htransition
    exact h
  split at htransition
  · cases htransition
    exact h
  simp only [bind_eq_ok] at htransition
  obtain ⟨mid, hmid, _, _, _, _, _, _, _, _, _, _, hpush⟩ := htransition
  have hstart : Books { run with reason := none } :=
    ⟨h.feeBps, h.cash, h.positions, h.conserved, h.fees, h.used, h.capacity⟩
  obtain ⟨history, rfl⟩ := pushHistory_eq_ok hpush
  exact (hstart.applyAction hmid).history history

theorem Books.release {excess : Int} (h : Books run)
    (hrelease : releaseSettlementExcess run excess = .ok next) : Books next := by
  simp only [releaseSettlementExcess, bind_eq_ok, amount_eq_ok, ensure_eq_ok] at hrelease
  obtain ⟨_, ⟨hcash, rfl⟩, _, ⟨hexcess, hle⟩, _, _, _, _, hrelease⟩ := hrelease
  split at hrelease
  · cases hrelease
    exact h
  simp only [bind_eq_ok] at hrelease
  obtain ⟨mid, hmid, hpush⟩ := hrelease
  obtain ⟨history, rfl⟩ := pushHistory_eq_ok hpush
  obtain ⟨_, _, _, _, rfl⟩ := changeUnits_eq hmid
  have hafter : 0 ≤ run.cash + -excess := by omega
  have hfund := (h.changeUnits hmid).fund (-excess) hafter
  exact hfund.history history

/-- Books that are in order pass the check that closes a transition. -/
theorem Books.never_off (h : Books run) (action : Action) :
    Automata.transition run action ≠ .error "RUN_CONSERVATION" := by
  have hthrows : Throws engineErrors (Automata.transition run action) := by
    unfold Automata.transition
    refine Throws.ite (fun _ => ?_) (fun _ => Throws.ite (fun _ => Throws.ok run) (fun _ => ?_))
    · exact Throws.bind (ensure_throws (by decide)) fun _ _ => Throws.pure run
    refine Throws.bind (applyAction_throws _ action) fun mid hmid => ?_
    have hstart : Books { run with reason := none } :=
      ⟨h.feeBps, h.cash, h.positions, h.conserved, h.fees, h.used, h.capacity⟩
    have hbooks := hstart.applyAction hmid
    refine Throws.bind (ensure_throws (by decide)) fun _ _ => ?_
    refine Throws.bind (amount_throws _) fun cash hcash => ?_
    refine Throws.bind (positionCosts_throws mid) fun cost hcost => ?_
    obtain ⟨_, rfl⟩ := amount_eq_ok.mp hcash
    obtain ⟨_, rfl⟩ := positionCosts_eq_ok.mp hcost
    rw [ensure, if_pos hbooks.conserved]
    refine Throws.bind (Throws.ok ()) fun _ _ => ?_
    exact Throws.bind (equity_throws mid) fun value _ => pushHistory_throws mid value mid.reason
  have hcode : "RUN_CONSERVATION" ∉ engineErrors := by decide
  exact hthrows.ne hcode

/-! ## Runs -/

inductive EngineStep where
  | transition (action : Action)
  | release (excess : Int)

def engineStep : EngineStep → Run → Except String Run
  | .transition action, run => transition run action
  | .release excess, run => releaseSettlementExcess run excess

theorem createRun_books {name text : String} {parameters : Parameters}
    (h : createRun name text parameters = .ok next) : Books next := by
  simp only [createRun, bind_eq_ok, ensure_eq_ok, pure_eq_ok] at h
  obtain ⟨_, _, cash, hcash, _, hpos, _, hparameters, rfl⟩ := h
  simp only [validateParameters, bind_eq_ok, ensure_eq_ok] at hparameters
  obtain ⟨_, _, _, hnumbers, _⟩ := hparameters
  refine ⟨hnumbers.2.2.1.2.1, Int.le_of_lt hpos, fun e he => ?_, ?_, rfl, fun _ => Int.le_refl 0,
    fun id q hq => ?_⟩
  · cases he
  · simp [costSum]
  · cases hq

theorem run_books {name text : String} {parameters : Parameters} {created : Run}
    (h : createRun name text parameters = .ok created) (steps : List EngineStep) :
    Books (exec engineStep created steps) := by
  refine exec_invariant (fun step before after hbefore hstep => ?_) (createRun_books h) steps
  cases step with
  | transition action => exact hbefore.transition hstep
  | release excess => exact hbefore.release hstep

/-- In every run the cash is not negative, cash and cost are what was contributed and
realized, a position is empty when nothing was paid for it, the fees are those of the
trades, no quote is used beyond its capacity, and no transition finds the books off. -/
theorem conservation_in_every_run {name text : String} {parameters : Parameters} {created : Run}
    (h : createRun name text parameters = .ok created) (steps : List EngineStep) :
    let run := exec engineStep created steps
    0 ≤ run.cash ∧ run.cash + costSum run = run.netContributed + run.realizedPnl ∧
      (∀ e ∈ run.positions, e.2.quantity = 0 ↔ e.2.cost = 0) ∧
      run.fees = (run.trades.map (·.fee)).sum ∧
      (∀ id q, run.quotes.get? id = some q → usedAt run id ≤ q.capacity) ∧
      ∀ action, transition run action ≠ .error "RUN_CONSERVATION" := by
  have hbooks := run_books h steps
  refine ⟨hbooks.cash, hbooks.conserved, fun e he => (hbooks.positions e he).2.2, hbooks.fees,
    hbooks.capacity, fun action => hbooks.never_off action⟩

/-! A run that buys one unit at a price of one, and sees the price fall by a little. -/

def smallParameters : Parameters where
  strategyMode := none
  weights := [("rwa-a", 5000)]
  deviationBps := 1
  intervalMs := 1000
  feeBps := 0
  maxSlippageBps := 0
  limits := .off

def smallFrame (seq bid : Int) : Frame :=
  { seq, at' := 100 * seq,
    quotes := [{ assetId := "rwa-a", bid, ask := 1000000, reference := none,
                 observedAt := 100 * seq, expiresAt := 100 * seq + 1000, capacity := 10,
                 slippageBps := 0, available := true }] }

def smallRun : Run :=
  { id := "small", parameters := smallParameters, status := .running, cursor := 0, clock := 0,
    lastFrame := none, nextDecisionAt := 0, cash := 2, positions := [], quotes := [],
    usedCapacity := [], initialCash := 2, netContributed := 2, unitsNumerator := 2,
    unitsDenominator := 1, emptyNumerator := 1, emptyDenominator := 1, fees := 0,
    realizedPnl := 0, trades := [], trigger := none, reason := none, history := [],
    lastDecision := none }

theorem smallRun_created : createRun "small" "2" smallParameters = .ok smallRun := by
  decide

def smallSteps : List EngineStep :=
  [.transition (.frame (smallFrame 1 1000000)), .transition (.frame (smallFrame 2 999999))]

theorem first_buy_conserved : (exec engineStep smallRun smallSteps).trades.length = 1 ∧
    let run := exec engineStep smallRun smallSteps
    0 ≤ run.cash ∧ run.cash + costSum run = run.netContributed + run.realizedPnl ∧
      (∀ e ∈ run.positions, e.2.quantity = 0 ↔ e.2.cost = 0) ∧
      run.fees = (run.trades.map (·.fee)).sum ∧
      (∀ id q, run.quotes.get? id = some q → usedAt run id ≤ q.capacity) ∧
      ∀ action, transition run action ≠ .error "RUN_CONSERVATION" :=
  ⟨by decide, conservation_in_every_run smallRun_created smallSteps⟩

end Automata
end AlphaForge
