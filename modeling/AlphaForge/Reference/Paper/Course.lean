/-
The course of a paper run.

Whatever the engine does to a run is a course of fills, orders that are reported
blocked, funding, and changes that leave the books alone.  `execute_spec` says all
that an order does, and a throw is shown to leave the desk as it was; the programs
above it are then sequences of such steps.
-/
import AlphaForge.Machine.Run
import AlphaForge.Reference.Paper

namespace AlphaForge
namespace Paper

open Evm Commit Machine Reference

variable {α β : Type} {state next : PaperState} {id : String} {side : Side} {quantity : Int}

/-- The part of the cost that goes with a part of the position. -/
def costOf (p : Position) (quantity : Int) : Int :=
  if quantity = p.quantity18 then p.cost6 else p.cost6 * quantity / p.quantity18

/-- The state after a fill. -/
def fillState (state : PaperState) (f : Fill) : PaperState :=
  let p := heldAt state f.identity
  match f.side with
  | .buy =>
      { state with
        cash6 := state.cash6 - f.gross6 - f.fee6
        positions := state.positions.set f.identity
          { quantity18 := p.quantity18 + f.quantity18, cost6 := p.cost6 + f.gross6 + f.fee6 }
        fees6 := state.fees6 + f.fee6
        fills := state.fills + 1 }
  | .sell =>
      { state with
        cash6 := state.cash6 + f.gross6 - f.fee6
        positions := state.positions.set f.identity
          { quantity18 := p.quantity18 - f.quantity18, cost6 := p.cost6 - costOf p f.quantity18 }
        realizedPnl6 := state.realizedPnl6 + f.gross6 - f.fee6 - costOf p f.quantity18
        fees6 := state.fees6 + f.fee6
        fills := state.fills + 1 }

/-- What is checked before a fill. -/
structure Fillable (state : PaperState) (f : Fill) : Prop where
  at_ : f.at_ = state.clock
  quantity : 0 < f.quantity18
  status : state.status ≠ .stopped ∧ (f.side = .sell ∨ state.status = .running)
  numbers : tradeNumbers state f.identity f.side f.quantity18 =
    .ok ⟨f.priceUsd18, f.gross6, f.fee6⟩
  charged : f.fee6 < f.gross6
  within : f.side = .buy → withinCap state f.identity f.quantity18 = .ok true
  held : f.side = .sell → f.quantity18 ≤ (heldAt state f.identity).quantity18

theorem fillState_status (state : PaperState) (f : Fill) :
    (fillState state f).status = state.status := by
  cases hside : f.side <;> simp only [fillState, hside]

/-- An order is a fill, or it throws and leaves everything as it was. -/
theorem execute_spec (desk : Desk) :
    Triple (· = desk) (execute id side quantity)
      (fun _ after => ∃ f, Fillable desk.state f ∧ f.identity = id ∧ f.side = side ∧
        after = ⟨fillState desk.state f, desk.events ++ [.fill f]⟩) (· = desk) := by
  have hsame : ∀ d : Desk, d = desk → d = desk := fun _ h => h
  unfold execute
  refine Triple.get_bind fun d hd => ?_
  subst hd
  refine Triple.await_bind (fun _ hquantity => ?_) hsame
  refine Triple.await_bind (fun _ hstatus => ?_) hsame
  refine Triple.await_bind (fun _ hfills => ?_) hsame
  refine Triple.await_bind (fun n hn => ?_) hsame
  refine Triple.await_bind (fun _ hcharged => ?_) hsame
  simp only [ensure_eq_ok] at hquantity hstatus hcharged
  cases side with
  | buy =>
      refine Triple.await_bind (fun within hwithin => ?_) hsame
      refine Triple.await_bind (fun _ hcap => ?_) hsame
      refine Triple.await_bind (fun _ hmax => ?_) hsame
      simp only [ensure_eq_ok] at hcap
      subst hcap
      refine Triple.modify_bind fun a ha => Triple.modify_bind fun b hb => ?_
      refine Triple.modify_bind fun c hc => Triple.modify_bind fun e he => ?_
      refine Triple.modify fun g hg => ?_
      subst ha hb hc he hg
      refine ⟨⟨a.state.clock, id, .buy, quantity, n.price, n.gross, n.fee⟩, ?_, rfl, rfl, rfl⟩
      refine ⟨rfl, hquantity.1, hstatus, hn, hcharged, fun _ => hwithin, fun hsell => ?_⟩
      cases hsell
  | sell =>
      refine Triple.await_bind (fun _ hheld => ?_) hsame
      refine Triple.await_bind (fun _ hmax => ?_) hsame
      simp only [ensure_eq_ok] at hheld
      refine Triple.modify_bind fun a ha => Triple.modify_bind fun b hb => ?_
      refine Triple.modify_bind fun c hc => Triple.modify_bind fun e he => ?_
      refine Triple.modify_bind fun g hg => Triple.modify fun i hi => ?_
      subst ha hb hc he hg hi
      refine ⟨⟨a.state.clock, id, .sell, quantity, n.price, n.gross, n.fee⟩, ?_, rfl, rfl, rfl⟩
      refine ⟨rfl, hquantity.1, hstatus, hn, hcharged, fun hbuy => ?_, fun _ => hheld⟩
      cases hbuy

/-! ## Steps of a course -/

/-- An event that tells of an order. -/
def PaperEvent.ofOrder : PaperEvent → Bool
  | .fill _ => true
  | .liquidationBlocked _ _ _ => true
  | .orderBlocked _ _ _ => true
  | _ => false

/-- The report of an order that was not filled. -/
def PaperEvent.isBlocked : PaperEvent → Bool
  | .liquidationBlocked _ _ _ => true
  | .orderBlocked _ _ _ => true
  | _ => false

/-- The books of two states are the same, whatever their status, quotes and averages. -/
structure SameBooks (state next : PaperState) : Prop where
  config : next.config = state.config
  cash6 : next.cash6 = state.cash6
  positions : next.positions = state.positions
  netContributed6 : next.netContributed6 = state.netContributed6
  fees6 : next.fees6 = state.fees6
  realizedPnl6 : next.realizedPnl6 = state.realizedPnl6
  units : next.units = state.units
  emptyValue : next.emptyValue = state.emptyValue
  fills : next.fills = state.fills

theorem SameBooks.refl (state : PaperState) : SameBooks state state :=
  ⟨rfl, rfl, rfl, rfl, rfl, rfl, rfl, rfl, rfl⟩

/-- A change beside the books, the status and the trigger. -/
structure Aside (state next : PaperState) : Prop where
  books : SameBooks state next
  status : next.status = state.status
  trigger : next.trigger = state.trigger

theorem Aside.refl (state : PaperState) : Aside state state := ⟨SameBooks.refl state, rfl, rfl⟩

def latched (state : PaperState) (trigger : Trigger) : PaperState :=
  { state with trigger := state.trigger.or (some trigger), status := .liquidating }

/-- What a run comes to by fills, by orders that leave no more than their report, by
funding, by a trigger and the end that follows it, and by changes beside these that tell
of no order. -/
inductive Course (start : Desk) : Desk → Prop
  | refl : Course start start
  | aside {desk : Desk} {next : PaperState} {events : List PaperEvent} (h : Course start desk)
      (hsame : Aside desk.state next) (hevents : ∀ e ∈ events, e.ofOrder = false) :
      Course start ⟨next, desk.events ++ events⟩
  | fill {desk : Desk} {f : Fill} (h : Course start desk) (hf : Fillable desk.state f) :
      Course start ⟨fillState desk.state f, desk.events ++ [.fill f]⟩
  | blocked {desk : Desk} {event : PaperEvent} (h : Course start desk)
      (hevent : event.isBlocked = true) : Course start ⟨desk.state, desk.events ++ [event]⟩
  | fund {desk : Desk} {direction : Direction} {amount6 : String} {at_ : Int}
      {result : PaperResult} (h : Course start desk)
      (hfund : fundPaper desk.state direction amount6 at_ = .ok result) :
      Course start ⟨result.state, desk.events ++ result.events⟩
  | latch {desk : Desk} (trigger : Trigger) (h : Course start desk)
      (hstatus : desk.state.status ≠ .stopped) : Course start ⟨latched desk.state trigger, desk.events⟩
  | finish {desk : Desk} (h : Course start desk) (hstatus : desk.state.status = .liquidating)
      (hflat : isFlat desk.state = true) :
      Course start ⟨{ desk.state with status := .stopped }, desk.events⟩

/-- A program that only goes on with a course. -/
def Follows (program : EStateM String Desk α) : Prop :=
  ∀ start, Triple (Course start) program (fun _ => Course start) (Course start)

theorem Follows.bind {p : EStateM String Desk α} {f : α → EStateM String Desk β} (hp : Follows p)
    (hf : ∀ a, Follows (f a)) : Follows (p >>= f) :=
  fun start => Triple.bind (hp start) fun a => hf a start

theorem Follows.pure (a : α) : Follows (Pure.pure a) := fun _ => Triple.pure fun _ hs => hs

theorem Follows.await (x : Except String α) : Follows (Commit.await x) :=
  fun _ => Triple.await (fun _ _ _ hs => hs) fun _ hs => hs

theorem Follows.get_bind {f : Desk → EStateM String Desk α} (hf : ∀ desk, Follows (f desk)) :
    Follows (MonadState.get >>= f) :=
  fun start => Triple.bind (Triple.get fun _ hs => hs) fun desk => hf desk start

theorem Follows.ite {c : Prop} [Decidable c] {p q : EStateM String Desk α} (hp : c → Follows p)
    (hq : ¬ c → Follows q) : Follows (if c then p else q) := by
  split
  · exact hp ‹c›
  · exact hq ‹¬ c›

theorem Follows.forM {items : List β} {f : β → EStateM String Desk PUnit}
    (hf : ∀ b ∈ items, Follows (f b)) : Follows (items.forM f) :=
  fun start => Triple.forM fun b hb => hf b hb start

theorem push_follows {event : PaperEvent} (h : event.ofOrder = false) : Follows (push event) := by
  intro start
  refine Triple.modify fun desk hdesk => ?_
  refine hdesk.aside (Aside.refl _) fun e he => ?_
  rw [List.mem_singleton.mp he]
  exact h

theorem update_follows {f : PaperState → PaperState} (h : ∀ s, Aside s (f s)) :
    Follows (update f) := by
  intro start
  refine Triple.modify fun desk hdesk => ?_
  have hcourse : Course start ⟨f desk.state, desk.events ++ []⟩ := hdesk.aside (h desk.state) nofun
  rwa [List.append_nil] at hcourse

theorem execute_follows : Follows (execute id side quantity) := by
  intro start
  refine Triple.of_eq fun desk hdesk => (execute_spec desk).mono (fun _ h => h) ?_ ?_
  · rintro _ after ⟨f, hf, _, _, rfl⟩
    exact hdesk.fill hf
  · rintro after rfl
    exact hdesk

/-- An order whose throw is reported. -/
theorem order_follows {handler : String → Program Unit}
    (hhandler : ∀ error start, Triple (Course start) (handler error) (fun _ => Course start)
      (Course start)) : Follows (recover (execute id side quantity) handler) :=
  fun start => Triple.recover (execute_follows start) fun error => hhandler error start

theorem report_follows {event : PaperEvent} (h : event.isBlocked = true) : Follows (push event) :=
  fun _ => Triple.modify fun _ hdesk => hdesk.blocked h

theorem orderBlocked_follows (error : String) : Follows (orderBlocked id error) :=
  Follows.get_bind fun _ => report_follows rfl

/-! ## Programs -/

/-- A property of the status and the trigger is kept by orders. -/
theorem liquidateOne_status {start : Desk} {status : PaperStatus} :
    Triple (fun d => Course start d ∧ d.state.status = status) (liquidateOne id)
      (fun _ d => Course start d ∧ d.state.status = status)
      (fun d => Course start d ∧ d.state.status = status) := by
  refine Triple.get_bind fun desk hdesk => Triple.ite (fun _ => ?_) fun _ => Triple.done hdesk
  · refine Triple.recover (C := (· = desk)) ((execute_spec desk).mono (fun _ h => h) ?_ fun _ h => h)
      fun error => ?_
    · rintro _ after ⟨f, hf, _, _, rfl⟩
      refine ⟨hdesk.1.fill hf, ?_⟩
      rw [← hdesk.2]
      exact fillState_status desk.state f
    · refine Triple.modify fun d hd => ?_
      subst hd
      exact ⟨hdesk.1.blocked rfl, hdesk.2⟩

theorem liquidate_follows (start : Desk) :
    Triple (fun d => Course start d ∧ d.state.status = .liquidating) liquidate
      (fun _ => Course start) (Course start) := by
  refine Triple.get_bind fun desk hdesk => ?_
  refine Triple.bind (Q := fun _ d => Course start d ∧ d.state.status = .liquidating) ?_ fun _ => ?_
  · refine (Triple.forM fun _ _ => liquidateOne_status).mono ?_ (fun _ _ h => h) fun _ h => h.1
    rintro d rfl
    exact hdesk
  refine Triple.get_bind fun last hlast => Triple.ite (fun hflat => ?_) fun _ => Triple.done hlast.1
  refine Triple.modify_bind fun d hd => Triple.modify fun d' hd' => ?_
  subst hd hd'
  refine (hlast.1.finish hlast.2 hflat).aside (Aside.refl _) fun e he => ?_
  rw [List.mem_singleton.mp he]
  rfl

/-- The liquidation of a run that has come to it. -/
theorem liquidateIf_follows :
    Follows (do if (← get).state.status = .liquidating then liquidate else pure ()) := by
  intro start
  refine Triple.get_bind fun desk hdesk => Triple.ite (fun hstatus => ?_) fun _ => Triple.done hdesk
  refine (liquidate_follows start).mono ?_ (fun _ _ h => h) fun _ h => h
  rintro d rfl
  exact ⟨hdesk, hstatus⟩

theorem latch_follows (trigger : Trigger) : Follows (latch trigger) := by
  intro start
  refine Triple.get_bind fun desk hdesk => Triple.ite (fun _ => Triple.done hdesk) fun hstatus => ?_
  refine Triple.ite (fun _ => ?_) fun _ => Triple.modify fun d hd => ?_
  · have htold : Course start ⟨desk.state,
        desk.events ++ [.liquidationTrigger desk.state.clock trigger]⟩ := by
      refine hdesk.aside (Aside.refl _) fun e he => ?_
      rw [List.mem_singleton.mp he]
      rfl
    refine Triple.modify_bind fun d hd => Triple.modify fun d' hd' => ?_
    subst hd hd'
    exact htold.latch trigger hstatus
  · subst hd
    exact hdesk.latch trigger hstatus

theorem evaluateLimits_follows : Follows evaluateLimits := by
  refine Follows.get_bind fun desk => Follows.ite (fun _ => Follows.pure ()) fun _ => ?_
  refine Follows.bind (Follows.await _) fun found => ?_
  cases found with
  | none => exact Follows.pure ()
  | some trigger => exact latch_follows trigger

theorem takeMinute_follows (closed : Bool) (event : MinuteEvent) : Follows (takeMinute closed event) := by
  refine Follows.bind (push_follows rfl) fun _ => Follows.get_bind fun desk => ?_
  cases event with
  | gap from_ until_ =>
      refine Follows.ite (fun _ => ?_) fun _ => ?_
      · refine Follows.bind (update_follows fun s => ?_) fun _ => Follows.pure closed
        exact ⟨⟨rfl, rfl, rfl, rfl, rfl, rfl, rfl, rfl, rfl⟩, rfl, rfl⟩
      · exact Follows.bind (Follows.pure ()) fun _ => Follows.pure closed
  | close at_ prices =>
      refine Follows.bind (Follows.await _) fun _ => Follows.bind (Follows.await _) fun emas => ?_
      refine Follows.bind (update_follows fun s => ?_) fun _ => Follows.pure true
      exact ⟨⟨rfl, rfl, rfl, rfl, rfl, rfl, rfl, rfl, rfl⟩, rfl, rfl⟩

theorem sellSignal_follows : Follows (sellSignal id) := by
  refine Follows.get_bind fun desk => ?_
  exact Follows.bind (order_follows orderBlocked_follows) fun _ => evaluateLimits_follows

theorem buySignals_follows (ids : List String) : Follows (buySignals ids) := by
  induction ids with
  | nil => exact Follows.pure ()
  | cons id rest ih =>
      refine Follows.get_bind fun desk => Follows.ite (fun _ => Follows.pure ()) fun _ => ?_
      refine Follows.bind (Follows.await _) fun quantity => Follows.ite (fun _ => ?_) fun _ => ?_
      · exact Follows.bind (report_follows rfl) fun _ => ih
      · refine Follows.bind (order_follows orderBlocked_follows) fun _ => ?_
        exact Follows.bind evaluateLimits_follows fun _ => ih

theorem followSignals_follows : Follows followSignals := by
  refine Follows.get_bind fun desk => Follows.bind (Follows.await _) fun signals => ?_
  refine Follows.bind (push_follows rfl) fun _ => ?_
  refine Follows.bind (Follows.forM fun _ _ => sellSignal_follows) fun _ => ?_
  exact Follows.bind (buySignals_follows _) fun _ => liquidateIf_follows

theorem pushNav_follows : Follows pushNav := by
  refine Follows.get_bind fun desk => Follows.bind (Follows.await _) fun equity6 => ?_
  exact Follows.bind (Follows.await _) fun unitValue => push_follows rfl

theorem observe_follows (minutes : MinuteState) (events : List MinuteEvent)
    (observations : List ReferenceObservation) : Follows (observe minutes events observations) := by
  refine Follows.bind (update_follows fun s => ?_) fun _ => ?_
  · exact ⟨⟨rfl, rfl, rfl, rfl, rfl, rfl, rfl, rfl, rfl⟩, rfl, rfl⟩
  refine Follows.bind (fun start => ?_) fun closed => ?_
  · exact Triple.foldlM (I := fun _ => Course start)
      (fun closed event _ => takeMinute_follows closed event start) false
  refine Follows.bind evaluateLimits_follows fun _ start => ?_
  refine Triple.get_bind fun desk hdesk => ?_
  have hhere : ∀ d : Desk, d = desk → Course start d := by
    rintro d rfl
    exact hdesk
  refine Triple.ite (fun hstatus => ?_) fun _ => Triple.ite (fun _ => ?_) fun _ => ?_
  · refine Triple.bind ((liquidate_follows start).mono (fun d hd => ⟨hhere d hd, ?_⟩) (fun _ _ h => h)
      fun _ h => h) fun _ => pushNav_follows start
    rw [hd]
    exact hstatus
  · exact Triple.bind ((followSignals_follows start).mono hhere (fun _ _ h => h) fun _ h => h)
      fun _ => pushNav_follows start
  · exact (pushNav_follows start).mono hhere (fun _ _ h => h) fun _ h => h

/-! ## Calls -/

theorem resultOf_course {program : Program Unit} {result : PaperResult} (h : Follows program)
    (hresult : resultOf program state = .ok result) :
    Course ⟨state, []⟩ ⟨result.state, result.events⟩ := by
  unfold resultOf at hresult
  cases hrun : program ⟨state, []⟩ with
  | error e desk =>
      rw [hrun] at hresult
      cases hresult
  | ok u desk =>
      rw [hrun] at hresult
      cases hresult
      exact (h ⟨state, []⟩ ⟨state, []⟩ Course.refl).1 u desk hrun

theorem Course.trans {a b c : Desk} (hab : Course a b) (hbc : Course b c) : Course a c := by
  induction hbc with
  | refl => exact hab
  | aside _ hsame hevents ih => exact ih.aside hsame hevents
  | fill _ hf ih => exact ih.fill hf
  | blocked _ hevent ih => exact ih.blocked hevent
  | fund _ hfund ih => exact ih.fund hfund
  | latch trigger _ hstatus ih => exact ih.latch trigger hstatus
  | finish _ hstatus hflat ih => exact ih.finish hstatus hflat

/-- A course does not look at the events before it. -/
theorem Course.after {a b : Desk} (h : Course a b) (before : List PaperEvent) :
    Course ⟨a.state, before ++ a.events⟩ ⟨b.state, before ++ b.events⟩ := by
  induction h with
  | refl => exact .refl
  | aside _ hsame hevents ih =>
      rw [← List.append_assoc]
      exact ih.aside hsame hevents
  | fill _ hf ih =>
      rw [← List.append_assoc]
      exact ih.fill hf
  | blocked _ hevent ih =>
      rw [← List.append_assoc]
      exact ih.blocked hevent
  | fund _ hfund ih =>
      rw [← List.append_assoc]
      exact ih.fund hfund
  | latch trigger _ hstatus ih => exact ih.latch trigger hstatus
  | finish _ hstatus hflat ih => exact ih.finish hstatus hflat

/-- What the steps of a course keep, a course keeps. -/
theorem Course.keeps {P : PaperState → Prop} {start desk : Desk} (h : Course start desk)
    (haside : ∀ a b, SameBooks a b → P a → P b)
    (hfill : ∀ a f, Fillable a f → P a → P (fillState a f))
    (hfund : ∀ a direction amount6 at_ result, fundPaper a direction amount6 at_ = .ok result →
      P a → P result.state) (hstart : P start.state) : P desk.state := by
  induction h with
  | refl => exact hstart
  | aside _ hsame _ ih => exact haside _ _ hsame.books ih
  | fill _ hf ih => exact hfill _ _ hf ih
  | blocked _ _ ih => exact ih
  | fund _ hpaid ih => exact hfund _ _ _ _ _ hpaid ih
  | @latch desk trigger _ _ ih =>
      exact haside desk.state _ ⟨rfl, rfl, rfl, rfl, rfl, rfl, rfl, rfl, rfl⟩ ih
  | @finish desk _ _ _ ih =>
      exact haside desk.state _ ⟨rfl, rfl, rfl, rfl, rfl, rfl, rfl, rfl, rfl⟩ ih

theorem aside_course {event : PaperEvent} (hsame : Aside state next)
    (hevent : event.ofOrder = false) : Course ⟨state, []⟩ ⟨next, [event]⟩ := by
  refine Course.refl.aside hsame fun e he => ?_
  rw [List.mem_singleton.mp he]
  exact hevent

theorem clock_course {desk : Desk} {at_ : Int} (h : Course ⟨{ state with clock := at_ }, []⟩ desk) :
    Course ⟨state, []⟩ desk := by
  have hclock : Course ⟨state, []⟩ ⟨{ state with clock := at_ }, [] ++ []⟩ :=
    Course.refl.aside ⟨⟨rfl, rfl, rfl, rfl, rfl, rfl, rfl, rfl, rfl⟩, rfl, rfl⟩ nofun
  exact hclock.trans h

section Batches

variable {jsonParse : String → Option Json} {sha256 : String → String}

theorem applyPaperBatch_course {batch : ReferenceBatch} {result : PaperResult}
    (h : applyPaperBatch jsonParse sha256 state batch = .ok result) :
    Course ⟨state, []⟩ ⟨result.state, result.events⟩ := by
  have hsame : Aside state { state with clock := batch.completedAt } :=
    ⟨⟨rfl, rfl, rfl, rfl, rfl, rfl, rfl, rfl, rfl⟩, rfl, rfl⟩
  simp only [applyPaperBatch, bind_eq_ok] at h
  obtain ⟨observations, _, policy, _, _, _, _, _, h⟩ := h
  split at h
  · cases h
    exact aside_course (Aside.refl state) rfl
  split at h
  · cases h
    exact aside_course hsame rfl
  · cases h
  next os =>
  unfold takeObservations at h
  split at h
  · cases h
    exact aside_course hsame rfl
  next minutes events _ => exact clock_course (resultOf_course (observe_follows _ _ _) h)

end Batches

theorem stopPaper_course {at_ : Int} {result : PaperResult} (h : stopPaper state at_ = .ok result) :
    Course ⟨state, []⟩ ⟨result.state, result.events⟩ := by
  simp only [stopPaper, bind_eq_ok] at h
  obtain ⟨_, _, _, _, h⟩ := h
  exact clock_course (resultOf_course (Follows.bind (latch_follows _) fun _ => liquidateIf_follows) h)

theorem executePaperOrder_course {quantity18 : String} {result : PaperResult}
    (h : executePaperOrder state id side quantity18 = .ok result) :
    Course ⟨state, []⟩ ⟨result.state, result.events⟩ := by
  simp only [executePaperOrder, bind_eq_ok] at h
  obtain ⟨quantity, _, h⟩ := h
  exact resultOf_course execute_follows h

/-! ## Runs -/

inductive PaperStep where
  | batch (batch : ReferenceBatch)
  | fund (direction : Direction) (amount6 : String) (at_ : Int)
  | stop (at_ : Int)
  | order (id : String) (side : Side) (quantity18 : String)

section Steps

variable (jsonParse : String → Option Json) (sha256 : String → String)

def callPaper (state : PaperState) : PaperStep → Except String PaperResult
  | .batch batch => applyPaperBatch jsonParse sha256 state batch
  | .fund direction amount6 at_ => fundPaper state direction amount6 at_
  | .stop at_ => stopPaper state at_
  | .order id side quantity18 => executePaperOrder state id side quantity18

/-- A call on the state of a desk, whose events are all those emitted so far. -/
def paperStep (step : PaperStep) (desk : Desk) : Except String Desk := do
  let result ← callPaper jsonParse sha256 desk.state step
  return ⟨result.state, desk.events ++ result.events⟩

end Steps

section Runs

variable {jsonParse : String → Option Json} {sha256 : String → String}

theorem paperStep_course {step : PaperStep} {desk after : Desk}
    (h : paperStep jsonParse sha256 step desk = .ok after) : Course desk after := by
  simp only [paperStep, bind_eq_ok, pure_eq_ok] at h
  obtain ⟨result, hresult, rfl⟩ := h
  have hlater : Course ⟨desk.state, []⟩ ⟨result.state, result.events⟩ →
      Course desk ⟨result.state, desk.events ++ result.events⟩ := by
    intro hcourse
    have hafter := hcourse.after desk.events
    rwa [List.append_nil] at hafter
  cases step with
  | batch batch => exact hlater (applyPaperBatch_course hresult)
  | fund direction amount6 at_ => exact Course.refl.fund hresult
  | stop at_ => exact hlater (stopPaper_course hresult)
  | order id side quantity18 => exact hlater (executePaperOrder_course hresult)

theorem run_course (desk : Desk) (steps : List PaperStep) :
    Course desk (exec (paperStep jsonParse sha256) desk steps) :=
  exec_invariant (P := Course desk) (fun _ _ _ hbefore hstep => hbefore.trans (paperStep_course hstep))
    Course.refl steps

end Runs

end Paper
end AlphaForge
