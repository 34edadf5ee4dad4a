/-
Liquidation in the engine.

A trigger is set once.  In the step that sets it, and in every later one, the engine
sells what it can: the run is blocked while something is held and stopped when nothing
is.  `Settled` is what holds between steps, and `OneWay` relates a run with a trigger to
any later one.
-/
import AlphaForge.Automata.Engine.Units

namespace AlphaForge
namespace Automata

open Evm Machine

variable {run next : Run} {id : String} {side : Side}

/-- Between steps a run trades or rests without a trigger, and with one it is blocked or
stopped, the latter exactly when it holds nothing. -/
structure Settled (run : Run) : Prop where
  active : run.trigger = none → run.status = .running ∨ run.status = .paused
  ending : run.trigger ≠ none → run.status = .blocked ∨ run.status = .stopped
  stopped : run.trigger ≠ none → (run.status = .stopped ↔ flat run)

theorem everyM_eq_false {α : Type} {p : α → Except String Bool} {items : List α}
    (h : everyM p items = .ok false) : ∃ a ∈ items, p a = .ok false := by
  induction items with
  | nil => cases h
  | cons a rest ih =>
      simp only [everyM, bind_eq_ok] at h
      obtain ⟨holds, hholds, h⟩ := h
      cases holds with
      | true =>
          obtain ⟨b, hb, hfalse⟩ := ih h
          exact ⟨b, List.mem_cons_of_mem a hb, hfalse⟩
      | false => exact ⟨a, List.mem_cons_self, hholds⟩

theorem flatPositions_not_flat (h : flatPositions run = .ok false) : ¬ flat run := by
  intro hflat
  obtain ⟨e, he, hrow⟩ := everyM_eq_false h
  simp only [bind_eq_ok, amount_eq_ok, pure_eq_ok] at hrow
  obtain ⟨_, ⟨_, rfl⟩, hheld⟩ := hrow
  exact of_decide_eq_false hheld (hflat e he)

/-! ## Status and trigger -/

theorem trade_status {requested : Int} {purpose : Purpose}
    (h : trade run id side requested purpose = .ok next) :
    next.status = run.status ∧ next.trigger = run.trigger := by
  rcases trade_cases h with ⟨reason, rfl⟩ | ⟨f, _, rfl⟩
  · exact ⟨rfl, rfl⟩
  · exact ⟨rfl, rfl⟩

/-- A limit leaves the run, or sets its trigger. -/
theorem limits_cases (h : limits run = .ok next) : next = run ∨
    run.trigger = none ∧ next.trigger ≠ none := by
  unfold limits at h
  split at h
  · cases h
    exact .inl rfl
  next hnot =>
  simp only [not_or, not_not] at hnot
  rw [bind_eq_ok] at h
  obtain ⟨found, _, h⟩ := h
  cases found with
  | none =>
      cases h
      exact .inl rfl
  | some reason =>
      simp only [setTrigger, hnot.1, bind_eq_ok, pure_eq_ok] at h
      obtain ⟨value, _, rfl⟩ := h
      exact .inr ⟨hnot.1, Option.some_ne_none _⟩

theorem liquidate_settled (h : liquidate run = .ok next) (htrigger : run.trigger ≠ none) :
    Settled next ∧ next.trigger = run.trigger := by
  simp only [liquidate, bind_eq_ok, pure_eq_ok] at h
  obtain ⟨mid, hmid, held, hheld, rfl⟩ := h
  have hkept : mid.trigger = run.trigger := by
    have hstart : { run with status := RunStatus.liquidating }.trigger = run.trigger := rfl
    refine foldlM_keeps (P := fun r : Run => r.trigger = run.trigger) (fun a id _ b ha hb => ?_)
      hstart hmid
    rw [bind_eq_ok] at hb
    obtain ⟨_, _, hb⟩ := hb
    rw [(trade_status hb).2, ha]
  have hset : mid.trigger ≠ none := by rwa [hkept]
  cases held with
  | true =>
      have hflat := flatPositions_flat hheld
      exact ⟨⟨fun hnone => absurd hnone hset, fun _ => .inr rfl, fun _ => iff_of_true rfl hflat⟩, hkept⟩
  | false =>
      have hnot := flatPositions_not_flat hheld
      exact ⟨⟨fun hnone => absurd hnone hset, fun _ => .inl rfl,
        fun _ => iff_of_false nofun hnot⟩, hkept⟩

theorem tradeAll_settled {all : List Intent} (h : tradeAll run all = .ok next)
    (htrigger : run.trigger = none) (hstatus : run.status = .running) : Settled next := by
  induction all generalizing run with
  | nil =>
      cases h
      exact ⟨fun _ => .inl hstatus, fun hset => absurd htrigger hset, fun hset => absurd htrigger hset⟩
  | cons i rest ih =>
      simp only [tradeAll, bind_eq_ok] at h
      obtain ⟨traded, htraded, limited, hlimited, h⟩ := h
      obtain ⟨hstatus', htrigger'⟩ := trade_status htraded
      split at h
      next hset => exact (liquidate_settled h hset).1
      next hnone =>
        simp only [ne_eq, not_not] at hnone
        rcases limits_cases hlimited with rfl | ⟨_, hset⟩
        · exact ih h (htrigger'.trans htrigger) (hstatus'.trans hstatus)
        · exact absurd hnone hset

theorem rebalance_settled {targets : OrderedMap String Int} {scheduled : Bool}
    (h : rebalance run targets scheduled = .ok next) (htrigger : run.trigger = none)
    (hstatus : run.status = .running) : Settled next := by
  have hrunning : ∀ r : Run, r.trigger = run.trigger → r.status = run.status → Settled r := by
    intro r htrigger' hstatus'
    have hnone := htrigger'.trans htrigger
    exact ⟨fun _ => .inl (hstatus'.trans hstatus), fun hset => absurd hnone hset,
      fun hset => absurd hnone hset⟩
  unfold rebalance at h
  split at h
  · cases h
    exact hrunning _ rfl rfl
  simp only [bind_eq_ok] at h
  obtain ⟨valued, _, h⟩ := h
  split at h
  · simp only [bind_eq_ok] at h
    obtain ⟨nav, _, ⟨mid, all⟩, hfound, h⟩ := h
    obtain ⟨reason, rfl⟩ := intents_reason hfound
    refine tradeAll_settled h ?_ ?_
    · show (if scheduled = true then _ else run).trigger = none
      split <;> exact htrigger
    · show (if scheduled = true then _ else run).status = .running
      split <;> exact hstatus
  · cases h
    refine hrunning _ ?_ ?_
    · show (if scheduled = true then _ else run).trigger = run.trigger
      split <;> rfl
    · show (if scheduled = true then _ else run).status = run.status
      split <;> rfl

/-! ## Sales -/

/-- What sales do to the trades and the positions. -/
structure Sold (run next : Run) : Prop where
  sales : ∃ sold, next.trades = run.trades ++ sold ∧ ∀ t ∈ sold, t.side = .sell
  quantities : ∀ id, (heldAt next id).quantity ≤ (heldAt run id).quantity

theorem Sold.of_eq (hpositions : next.positions = run.positions) (htrades : next.trades = run.trades) :
    Sold run next := by
  refine ⟨⟨[], ?_, nofun⟩, fun id => ?_⟩
  · rw [htrades, List.append_nil]
  · rw [heldAt, heldAt, hpositions]

theorem Sold.trans {mid : Run} (h : Sold run mid) (h' : Sold mid next) : Sold run next := by
  obtain ⟨sold, hsold, hsides⟩ := h.sales
  obtain ⟨sold', hsold', hsides'⟩ := h'.sales
  refine ⟨⟨sold ++ sold', ?_, ?_⟩, fun id => Int.le_trans (h'.quantities id) (h.quantities id)⟩
  · rw [hsold', hsold, List.append_assoc]
  · intro t ht
    rcases List.mem_append.mp ht with hfirst | hlater
    · exact hsides t hfirst
    · exact hsides' t hlater

theorem Fillable.sold_run {f : Fill} (hf : Fillable run id .sell f) (purpose : Purpose) :
    Sold run (fillOf run id .sell purpose f) := by
  have hquantity := hf.quantity
  refine ⟨⟨_, rfl, ?_⟩, fun other => ?_⟩
  · intro t ht
    rw [List.mem_singleton.mp ht]
  · have hget : heldAt (fillOf run id .sell purpose f) other = if other = id then
        { quantity := (heldAt run id).quantity - f.quantity, cost := (heldAt run id).cost - f.cost }
        else heldAt run other := by
      show Option.getD ((run.positions.set id _).get? other) _ = _
      rw [OrderedMap.get?_set]
      split
      · rfl
      · rfl
    rw [hget]
    split
    next heq =>
      rw [heq]
      show (heldAt run id).quantity - f.quantity ≤ _
      omega
    next => exact Int.le_refl _

theorem Moves.sold (h : Moves (· = .sell) run next) : Sold run next := by
  refine h.keeps (P := Sold run) (fun a b hsame ha => ?_) (fun a id side purpose f hside hf ha => ?_)
    (Sold.of_eq rfl rfl)
  · exact ha.trans (Sold.of_eq hsame.positions hsame.trades)
  · subst hside
    exact ha.trans (hf.sold_run purpose)

/-! ## Runs -/

/-- A run with a trigger, and one that it comes to. -/
structure OneWay (run next : Run) : Prop where
  trigger : next.trigger = run.trigger
  sold : Sold run next
  status : next.status = .blocked ∨ next.status = .stopped
  stopped : next.status = .stopped ↔ flat next

theorem foldl_addQuote_status (run : Run) (quotes : List Quote) :
    (quotes.foldl addQuote run).trigger = run.trigger ∧
      (quotes.foldl addQuote run).status = run.status ∧
      (quotes.foldl addQuote run).positions = run.positions ∧
      (quotes.foldl addQuote run).trades = run.trades := by
  induction quotes generalizing run with
  | nil => exact ⟨rfl, rfl, rfl, rfl⟩
  | cons q rest ih => exact ih (addQuote run q)

theorem Settled.aside (h : Settled run) (htrigger : next.trigger = run.trigger)
    (hstatus : next.status = run.status) (hpositions : next.positions = run.positions) :
    Settled next := by
  have hflat : flat next ↔ flat run := by
    unfold flat
    rw [hpositions]
  refine ⟨?_, ?_, ?_⟩
  · rw [htrigger, hstatus]
    exact h.active
  · rw [htrigger, hstatus]
    exact h.ending
  · rw [htrigger, hstatus, hflat]
    exact h.stopped

/-- A run without a trigger that trades or rests. -/
theorem Settled.of_none (htrigger : run.trigger = none)
    (hstatus : run.status = .running ∨ run.status = .paused) : Settled run :=
  ⟨fun _ => hstatus, fun hset => absurd htrigger hset, fun hset => absurd htrigger hset⟩

/-- What a frame or a decision goes on from, after it has looked at the limits. -/
theorem limits_settled {limited : Run} (h : Settled run) (hlimited : limits run = .ok limited)
    (hnone : limited.trigger = none) : limited = run ∧ Settled limited := by
  rcases limits_cases hlimited with rfl | ⟨_, hset⟩
  · exact ⟨rfl, h⟩
  · exact absurd hnone hset

theorem setTrigger_trigger {reason : TriggerReason} (h : setTrigger run reason = .ok next) :
    next.trigger ≠ none ∧ (run.trigger ≠ none → next.trigger = run.trigger) := by
  unfold setTrigger at h
  split at h
  next before hbefore =>
    cases h
    rw [hbefore]
    exact ⟨Option.some_ne_none _, fun _ => rfl⟩
  next hbefore =>
    simp only [bind_eq_ok, pure_eq_ok] at h
    obtain ⟨_, _, rfl⟩ := h
    exact ⟨Option.some_ne_none _, fun hset => absurd hbefore hset⟩

theorem applyAction_settled {action : Action} (h : Settled run)
    (haction : applyAction run action = .ok next) : Settled next := by
  cases action with
  | frame frame =>
      simp only [applyAction, bind_eq_ok] at haction
      obtain ⟨_, _, limited, hlimited, haction⟩ := haction
      obtain ⟨htrigger, hstatus, hpositions, _⟩ := foldl_addQuote_status
        { run with cursor := frame.seq, clock := frame.at', lastFrame := some frame } frame.quotes
      have hquoted := h.aside htrigger hstatus hpositions
      split at haction
      next hset => exact (liquidate_settled haction hset).1
      next hnone =>
      simp only [ne_eq, not_not] at hnone
      split at haction
      next hrunning => exact rebalance_settled haction hnone hrunning.1
      next =>
        cases haction
        exact (limits_settled hquoted hlimited hnone).2
  | decision id frameSeq targets =>
      simp only [applyAction, bind_eq_ok, ensure_eq_ok] at haction
      obtain ⟨_, hstatus, _, _, _, _, _, _, _, _, _, _, _, _, limited, hlimited, haction⟩ := haction
      split at haction
      next hset =>
        simp only [bind_eq_ok, pure_eq_ok] at haction
        obtain ⟨mid, hmid, rfl⟩ := haction
        exact (liquidate_settled hmid hset).1.aside rfl rfl rfl
      next hnone =>
        simp only [ne_eq, not_not] at hnone
        simp only [bind_eq_ok, pure_eq_ok] at haction
        obtain ⟨mid, hmid, rfl⟩ := haction
        obtain ⟨rfl, _⟩ := limits_settled h hlimited hnone
        exact (rebalance_settled hmid hnone hstatus.2).aside rfl rfl rfl
  | stop =>
      simp only [applyAction, bind_eq_ok] at haction
      obtain ⟨mid, hmid, haction⟩ := haction
      exact (liquidate_settled haction (setTrigger_trigger hmid).1).1
  | pause =>
      simp only [applyAction, bind_eq_ok, ensure_eq_ok, pure_eq_ok] at haction
      obtain ⟨_, hstatus, rfl⟩ := haction
      exact Settled.of_none hstatus.1 (.inr rfl)
  | resume =>
      simp only [applyAction, bind_eq_ok, ensure_eq_ok, pure_eq_ok] at haction
      obtain ⟨_, hstatus, rfl⟩ := haction
      exact Settled.of_none hstatus.1 (.inl rfl)
  | fund inward text =>
      simp only [applyAction, bind_eq_ok, pure_eq_ok] at haction
      obtain ⟨_, _, _, _, _, _, _, _, _, _, _, _, _, _, mid, hmid, rfl⟩ := haction
      obtain ⟨_, _, _, _, rfl⟩ := changeUnits_eq hmid
      exact h.aside rfl rfl rfl

/-- With a trigger only frames and stops are accepted, and both sell. -/
theorem applyAction_oneWay {action : Action} (htrigger : run.trigger ≠ none)
    (haction : applyAction run action = .ok next) : OneWay run next := by
  have hending : ∀ mid : Run, mid.trigger = run.trigger → Sold run mid → liquidate mid = .ok next →
      OneWay run next := by
    intro mid hkept hsold hliquidate
    obtain ⟨hsettled, hsame⟩ := liquidate_settled hliquidate (by rwa [hkept])
    have hset : next.trigger ≠ none := by rwa [hsame, hkept]
    exact ⟨hsame.trans hkept, hsold.trans (liquidate_moves hliquidate).sold, hsettled.ending hset,
      hsettled.stopped hset⟩
  cases action with
  | frame frame =>
      simp only [applyAction, bind_eq_ok] at haction
      obtain ⟨_, _, limited, hlimited, haction⟩ := haction
      obtain ⟨hsame, _, hpositions, htrades⟩ := foldl_addQuote_status
        { run with cursor := frame.seq, clock := frame.at', lastFrame := some frame } frame.quotes
      have hkept : limited.trigger = run.trigger ∧ Sold run limited := by
        rcases limits_cases hlimited with rfl | ⟨hnone, _⟩
        · exact ⟨hsame, Sold.of_eq hpositions htrades⟩
        · exact absurd (hsame.symm.trans hnone) htrigger
      rw [if_pos (by rw [hkept.1]; exact htrigger)] at haction
      exact hending limited hkept.1 hkept.2 haction
  | stop =>
      simp only [applyAction, bind_eq_ok] at haction
      obtain ⟨mid, hmid, haction⟩ := haction
      have hsame := setTrigger_sameAmounts hmid
      exact hending mid ((setTrigger_trigger hmid).2 htrigger)
        (Sold.of_eq hsame.positions hsame.trades) haction
  | decision id frameSeq targets | pause | resume | fund inward text =>
      simp only [applyAction, bind_eq_ok, ensure_eq_ok] at haction
      obtain ⟨_, hstatus, _⟩ := haction
      exact absurd hstatus.1 htrigger

theorem OneWay.refl (h : Settled run) (htrigger : run.trigger ≠ none) : OneWay run run :=
  ⟨rfl, Sold.of_eq rfl rfl, h.ending htrigger, h.stopped htrigger⟩

theorem OneWay.trans {mid : Run} (h : OneWay run mid) (h' : OneWay mid next) : OneWay run next :=
  ⟨h'.trigger.trans h.trigger, h.sold.trans h'.sold, h'.status, h'.stopped⟩

theorem transition_settled {action : Action} (h : Settled run)
    (ht : transition run action = .ok next) :
    Settled next ∧ (run.trigger ≠ none → OneWay run next) := by
  unfold transition at ht
  split at ht
  · simp only [bind_eq_ok, pure_eq_ok] at ht
    obtain ⟨_, _, rfl⟩ := ht
    exact ⟨h, OneWay.refl h⟩
  split at ht
  · cases ht
    exact ⟨h, OneWay.refl h⟩
  simp only [bind_eq_ok] at ht
  obtain ⟨mid, hmid, _, _, _, _, _, _, _, _, _, _, hpush⟩ := ht
  obtain ⟨history, rfl⟩ := pushHistory_eq_ok hpush
  have hstart : Settled { run with reason := none } := h.aside rfl rfl rfl
  refine ⟨(applyAction_settled hstart hmid).aside rfl rfl rfl, fun htrigger => ?_⟩
  have hset : { run with reason := none }.trigger ≠ none := htrigger
  have hway := applyAction_oneWay hset hmid
  have hsold := (Sold.of_eq rfl rfl : Sold run { run with reason := none }).trans hway.sold
  exact ⟨hway.trigger, hsold.trans (Sold.of_eq rfl rfl), hway.status, hway.stopped⟩

theorem release_settled {excess : Int} (h : Settled run)
    (hrelease : releaseSettlementExcess run excess = .ok next) :
    Settled next ∧ (run.trigger ≠ none → OneWay run next) := by
  simp only [releaseSettlementExcess, bind_eq_ok] at hrelease
  obtain ⟨_, _, _, _, _, _, _, _, hrelease⟩ := hrelease
  split at hrelease
  · cases hrelease
    exact ⟨h, OneWay.refl h⟩
  simp only [bind_eq_ok] at hrelease
  obtain ⟨mid, hmid, hpush⟩ := hrelease
  obtain ⟨history, rfl⟩ := pushHistory_eq_ok hpush
  obtain ⟨_, _, _, _, rfl⟩ := changeUnits_eq hmid
  have hnext : Settled { run with history := history } := h.aside rfl rfl rfl
  refine ⟨h.aside rfl rfl rfl, fun htrigger => ⟨rfl, Sold.of_eq rfl rfl, ?_, ?_⟩⟩
  · exact hnext.ending htrigger
  · exact hnext.stopped htrigger

theorem engineStep_settled {step : EngineStep} (h : Settled run) (hstep : engineStep step run = .ok next) :
    Settled next ∧ (run.trigger ≠ none → OneWay run next) := by
  cases step with
  | transition action => exact transition_settled h hstep
  | release excess => exact release_settled h hstep

theorem createRun_settled {name text : String} {parameters : Parameters}
    (h : createRun name text parameters = .ok next) : Settled next := by
  simp only [createRun, bind_eq_ok, pure_eq_ok] at h
  obtain ⟨_, _, _, _, _, _, _, _, rfl⟩ := h
  exact Settled.of_none rfl (.inl rfl)

/-- Whatever follows, a run with a trigger only goes one way. -/
theorem Settled.oneWay (h : Settled run) (htrigger : run.trigger ≠ none) (steps : List EngineStep) :
    OneWay run (exec engineStep run steps) := by
  have hboth : Settled (exec engineStep run steps) ∧ OneWay run (exec engineStep run steps) := by
    refine exec_invariant (P := fun r => Settled r ∧ OneWay run r) (fun step a b ha hstep => ?_)
      ⟨h, OneWay.refl h htrigger⟩ steps
    obtain ⟨hsettled, hway⟩ := engineStep_settled ha.1 hstep
    refine ⟨hsettled, ha.2.trans (hway ?_)⟩
    rw [ha.2.trigger]
    exact htrigger
  exact hboth.2

theorem run_settled {name text : String} {parameters : Parameters} {created : Run}
    (h : createRun name text parameters = .ok created) (steps : List EngineStep) :
    Settled (exec engineStep created steps) :=
  exec_invariant (fun _ _ _ hbefore hstep => (engineStep_settled hbefore hstep).1)
    (createRun_settled h) steps

end Automata
end AlphaForge
