/-
The errors of the engine.

`engineErrors` are all the codes that a transition can end with, apart from the one
for books that are off.
-/
import AlphaForge.Automata.Engine
import AlphaForge.Machine.Throws

namespace AlphaForge
namespace Automata

open Evm

def engineErrors : List String :=
  ["INVALID_AMOUNT", "FRAME_CONFLICT", "FRAME_ORDER", "INVALID_QUOTE", "INVALID_STATUS",
    "STRATEGY_MODE", "STRATEGY_FRAME", "INVALID_ID", "STRATEGY_TARGETS", "STALE_VALUATION",
    "INSUFFICIENT_BOT_CASH", "FUNDING_NAV", "UNIT_PRECISION_LIMIT", "Division by zero",
    "RUN_HISTORY_LIMIT"]

variable (run : Run)

theorem ensure_throws {p : Prop} [Decidable p] {code : String} (h : code ∈ engineErrors) :
    Throws engineErrors (ensure p code) := by
  unfold ensure
  exact Throws.ite (fun _ => Throws.ok ()) (fun _ => Throws.error h)

theorem amount_throws (value : Int) : Throws engineErrors (amount value) :=
  Throws.bind (ensure_throws (by decide)) fun _ _ => Throws.pure _

theorem amountText_throws (value : String) : Throws engineErrors (amountText value) :=
  Throws.bind (ensure_throws (by decide)) fun _ _ => Throws.pure _

theorem everyM_throws {α : Type} {p : α → Except String Bool} (hp : ∀ a, Throws engineErrors (p a))
    (items : List α) : Throws engineErrors (everyM p items) := by
  induction items with
  | nil => exact Throws.ok true
  | cons a rest ih =>
      refine Throws.bind (hp a) fun holds _ => ?_
      exact Throws.ite (fun _ => ih) (fun _ => Throws.pure false)

theorem positionWorth_throws (e : String × Position) : Throws engineErrors (positionWorth run e) := by
  refine Throws.bind (amount_throws _) fun quantity _ => ?_
  exact Throws.bind (amount_throws _) fun bid _ => Throws.pure _

theorem equity_throws : Throws engineErrors (equity run) := by
  refine Throws.bind (amount_throws _) fun cash _ => ?_
  exact Throws.bind (Throws.mapM fun e _ => positionWorth_throws run e) fun worth _ => Throws.pure _

theorem positionCosts_throws : Throws engineErrors (positionCosts run) :=
  Throws.bind (Throws.mapM fun _ _ => amount_throws _) fun _ _ => Throws.pure _

theorem returnBps_throws : Throws engineErrors (returnBps run) := by
  unfold returnBps
  refine Throws.ite (fun _ => ?_) (fun _ => ?_)
  · exact Throws.bind (equity_throws run) fun value _ => Throws.pure _
  · exact Throws.bind (ensure_throws (by decide)) fun _ _ => Throws.pure _

theorem valuationsFresh_throws : Throws engineErrors (valuationsFresh run) :=
  everyM_throws (fun _ => Throws.bind (amount_throws _) fun _ _ => Throws.pure _) _

theorem flatPositions_throws : Throws engineErrors (flatPositions run) :=
  everyM_throws (fun _ => Throws.bind (amount_throws _) fun _ _ => Throws.pure _) _

theorem validQuotes_throws (frame : Frame) (seen : List String) (quotes : List Quote) :
    Throws engineErrors (validQuotes run frame seen quotes) := by
  induction quotes generalizing seen with
  | nil => exact Throws.ok ()
  | cons q rest ih => exact Throws.bind (ensure_throws (by decide)) fun _ _ => ih _

theorem validateFrame_throws (frame : Frame) : Throws engineErrors (validateFrame run frame) := by
  refine Throws.bind (ensure_throws (by decide)) fun _ _ => ?_
  exact Throws.bind (ensure_throws (by decide)) fun _ _ => validQuotes_throws run frame [] _

/-! ## Trading -/

theorem setTrigger_throws (reason : TriggerReason) : Throws engineErrors (setTrigger run reason) := by
  unfold setTrigger
  cases run.trigger with
  | some t => exact Throws.pure _
  | none => exact Throws.bind (equity_throws run) fun value _ => Throws.pure _

theorem reached_throws : Throws engineErrors (reached run) := by
  unfold reached
  cases run.parameters.limits with
  | off => exact Throws.ok none
  | percent upperBps lowerBps =>
      refine Throws.ite (fun _ => ?_) (fun _ => Throws.ok none)
      refine Throws.bind (valuationsFresh_throws run) fun valued _ => ?_
      refine Throws.ite (fun _ => ?_) (fun _ => Throws.pure none)
      exact Throws.bind (equity_throws run) fun value _ => Throws.pure _
  | price assetId upper lower =>
      have hoption : ∀ text : Option String, Throws engineErrors (text.mapM amountText) := by
        intro text
        cases text with
        | none => exact Throws.pure none
        | some t => exact Throws.bind (amountText_throws t) fun v _ => Throws.pure _
      simp only
      cases freshQuote run assetId with
      | none => exact Throws.ok none
      | some q =>
          refine Throws.bind (amount_throws _) fun bid _ => ?_
          refine Throws.bind (hoption lower) fun l _ => ?_
          exact Throws.bind (hoption upper) fun u _ => Throws.pure _

theorem limits_throws : Throws engineErrors (limits run) := by
  unfold limits
  refine Throws.ite (fun _ => Throws.ok run) (fun _ => ?_)
  refine Throws.bind (reached_throws run) fun found _ => ?_
  cases found with
  | none => exact Throws.pure run
  | some reason => exact setTrigger_throws run reason

theorem trade_throws (id : String) (side : Side) (requested : Int) (purpose : Purpose) :
    Throws engineErrors (trade run id side requested purpose) := by
  unfold trade
  refine Throws.ite (fun _ => Throws.ok run) (fun _ => ?_)
  cases freshQuote run id with
  | none => exact Throws.ok _
  | some q =>
      refine Throws.ite (fun _ => Throws.ok _) (fun _ => ?_)
      refine Throws.bind (amount_throws _) fun capacity _ => ?_
      refine Throws.bind (amount_throws _) fun used _ => ?_
      refine Throws.bind (amount_throws _) fun quoted _ => ?_
      refine Throws.ite (fun _ => Throws.pure _) (fun _ => ?_)
      refine Throws.bind (amount_throws _) fun held _ => ?_
      refine Throws.bind (amount_throws _) fun cash _ => ?_
      refine Throws.ite (fun _ => Throws.pure _) (fun _ => ?_)
      refine Throws.ite (fun _ => Throws.pure _) (fun _ => ?_)
      refine Throws.bind (amount_throws _) fun spent _ => ?_
      exact Throws.bind (amount_throws _) fun paid _ => Throws.pure _

theorem liquidate_throws : Throws engineErrors (liquidate run) := by
  have hturn : ∀ (run : Run) (id : String), Throws engineErrors (do
      let quantity ← amount ((run.positions.get? id).getD { quantity := 0, cost := 0 }).quantity
      trade run id .sell quantity .liquidation) := fun run id =>
    Throws.bind (amount_throws _) fun quantity _ => trade_throws run id .sell quantity .liquidation
  refine Throws.bind (Throws.foldlM hturn _ _) fun mid _ => ?_
  exact Throws.bind (flatPositions_throws mid) fun flat _ => Throws.pure _

theorem intent_throws (nav : Int) (targets : OrderedMap String Int) (id : String) (q : Quote) :
    Throws engineErrors (intent run nav targets id q) := by
  unfold intent
  refine Throws.bind (amount_throws _) fun held _ => ?_
  refine Throws.bind (amount_throws _) fun bid _ => ?_
  refine Throws.ite (fun _ => Throws.pure none) (fun _ => ?_)
  exact Throws.bind (amount_throws _) fun price _ => Throws.pure _

theorem intents_throws (nav : Int) (targets : OrderedMap String Int) (ids : List String) :
    Throws engineErrors (intents run nav targets ids) := by
  refine Throws.foldlM (fun acc id => ?_) ids (run, [])
  cases freshQuote run id with
  | none => exact Throws.pure _
  | some q => exact Throws.bind (intent_throws run nav targets id q) fun found _ => Throws.pure _

theorem tradeAll_throws (all : List Intent) : Throws engineErrors (tradeAll run all) := by
  induction all generalizing run with
  | nil => exact Throws.ok run
  | cons i rest ih =>
      refine Throws.bind (trade_throws run i.id i.side i.quantity .rebalance) fun traded _ => ?_
      refine Throws.bind (limits_throws traded) fun limited _ => ?_
      exact Throws.ite (fun _ => liquidate_throws limited) (fun _ => ih limited)

theorem rebalance_throws (targets : OrderedMap String Int) (scheduled : Bool) :
    Throws engineErrors (rebalance run targets scheduled) := by
  unfold rebalance
  refine Throws.ite (fun _ => Throws.ok run) (fun _ => ?_)
  refine Throws.bind (valuationsFresh_throws _) fun valued _ => ?_
  refine Throws.ite (fun _ => ?_) (fun _ => Throws.pure _)
  refine Throws.bind (equity_throws _) fun nav _ => ?_
  exact Throws.bind (intents_throws _ nav targets _) fun found _ => tradeAll_throws found.1 _

/-! ## Actions -/

theorem changeUnits_throws (cash : Int) (inward : Bool) :
    Throws engineErrors (changeUnits run cash inward) := by
  unfold changeUnits
  refine Throws.bind (equity_throws run) fun nav _ => ?_
  refine Throws.ite (fun _ => Throws.pure _) (fun _ => ?_)
  refine Throws.bind (ensure_throws (by decide)) fun _ _ => ?_
  refine Throws.ite (fun _ => Throws.pure _) (fun _ => ?_)
  refine Throws.bind (ensure_throws (by decide)) fun _ _ => ?_
  exact Throws.bind (ensure_throws (by decide)) fun _ _ => Throws.pure _

theorem pushHistory_throws (equity : Int) (reason : Option String) :
    Throws engineErrors (pushHistory run equity reason) :=
  Throws.bind (returnBps_throws run) fun _ _ => Throws.pure _

theorem applyAction_throws (action : Action) : Throws engineErrors (applyAction run action) := by
  cases action with
  | frame frame =>
      refine Throws.bind (validateFrame_throws run frame) fun _ _ => ?_
      refine Throws.bind (limits_throws _) fun limited _ => ?_
      refine Throws.ite (fun _ => liquidate_throws limited) (fun _ => ?_)
      exact Throws.ite (fun _ => rebalance_throws limited _ true) (fun _ => Throws.pure limited)
  | decision id frameSeq targets =>
      refine Throws.bind (ensure_throws (by decide)) fun _ _ => ?_
      refine Throws.bind (ensure_throws (by decide)) fun _ _ => ?_
      refine Throws.bind (ensure_throws (by decide)) fun _ _ => ?_
      refine Throws.bind (ensure_throws (by decide)) fun _ _ => ?_
      refine Throws.bind (ensure_throws (by decide)) fun _ _ => ?_
      refine Throws.bind (valuationsFresh_throws run) fun valued _ => ?_
      refine Throws.bind (ensure_throws (by decide)) fun _ _ => ?_
      refine Throws.bind (limits_throws run) fun limited _ => ?_
      refine Throws.ite (fun _ => ?_) (fun _ => ?_)
      · exact Throws.bind (liquidate_throws limited) fun _ _ => Throws.pure _
      · exact Throws.bind (rebalance_throws limited targets false) fun _ _ => Throws.pure _
  | stop =>
      exact Throws.bind (setTrigger_throws run .manual) fun stopped _ => liquidate_throws stopped
  | pause => exact Throws.bind (ensure_throws (by decide)) fun _ _ => Throws.pure _
  | resume => exact Throws.bind (ensure_throws (by decide)) fun _ _ => Throws.pure _
  | fund inward text =>
      refine Throws.bind (ensure_throws (by decide)) fun _ _ => ?_
      refine Throws.bind (valuationsFresh_throws run) fun valued _ => ?_
      refine Throws.bind (ensure_throws (by decide)) fun _ _ => ?_
      refine Throws.bind (amountText_throws text) fun cash _ => ?_
      refine Throws.bind (ensure_throws (by decide)) fun _ _ => ?_
      refine Throws.bind (amount_throws _) fun held _ => ?_
      refine Throws.bind (ensure_throws (by decide)) fun _ _ => ?_
      exact Throws.bind (changeUnits_throws run cash inward) fun _ _ => Throws.pure _

end Automata
end AlphaForge
