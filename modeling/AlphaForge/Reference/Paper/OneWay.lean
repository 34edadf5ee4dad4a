/-
Liquidation in both engines.

A trigger of a paper run is set once, and what follows only sells.  A batch that is
taken and a stop end with the run stopped if nothing is left; an order by itself leaves
the status alone, also when it sells the last of it.
-/
import AlphaForge.Automata.Engine.OneWay
import AlphaForge.Reference.Paper.Units

namespace AlphaForge
namespace Paper

open Evm Commit Machine Reference

variable {state next : PaperState} {f : Fill}

/-- No position is held. -/
def flat (state : PaperState) : Prop := ∀ e ∈ state.positions, e.2.quantity18 = 0

theorem isFlat_iff : isFlat state = true ↔ flat state := by
  simp [isFlat, flat]

/-- A run without a trigger goes on, one with a trigger is on its way out or at its end,
and at the end it holds nothing. -/
structure Settled (state : PaperState) : Prop where
  active : state.trigger = none → state.status = .running
  ending : state.trigger ≠ none → state.status = .liquidating ∨ state.status = .stopped
  stopped : state.status = .stopped → flat state

theorem Settled.aside (h : Settled state) (hstatus : next.status = state.status)
    (htrigger : next.trigger = state.trigger) (hpositions : next.positions = state.positions) :
    Settled next := by
  refine ⟨?_, ?_, ?_⟩
  · rw [hstatus, htrigger]
    exact h.active
  · rw [hstatus, htrigger]
    exact h.ending
  · rw [hstatus, flat, hpositions]
    exact h.stopped

theorem fillState_trigger (state : PaperState) (f : Fill) :
    (fillState state f).trigger = state.trigger := by
  cases hside : f.side <;> simp only [fillState, hside]

theorem Settled.fill (h : Settled state) (hf : Fillable state f) : Settled (fillState state f) := by
  refine ⟨?_, ?_, ?_⟩
  · rw [fillState_status, fillState_trigger]
    exact h.active
  · rw [fillState_status, fillState_trigger]
    exact h.ending
  · rw [fillState_status]
    exact fun hstopped => absurd hstopped hf.status.1

theorem Settled.fund {direction : Direction} {amount6 : String} {at_ : Int} {result : PaperResult}
    (h : Settled state) (hfund : fundPaper state direction amount6 at_ = .ok result) :
    Settled result.state := by
  obtain ⟨_, _, _, _, _, hstate, _⟩ := fundPaper_cases hfund
  rw [hstate]
  exact h.aside rfl rfl rfl

theorem latched_settled (state : PaperState) (trigger : Trigger) : Settled (latched state trigger) := by
  have hset : (latched state trigger).trigger ≠ none := by
    show state.trigger.or (some trigger) ≠ none
    cases state.trigger with
    | none => exact nofun
    | some t => exact nofun
  exact ⟨fun hnone => absurd hnone hset, fun _ => .inl rfl, nofun⟩

theorem Settled.finish (h : Settled state) (hstatus : state.status = .liquidating)
    (hflat : isFlat state = true) : Settled { state with status := .stopped } := by
  refine ⟨fun hnone => ?_, fun _ => .inr rfl, fun _ => isFlat_iff.mp hflat⟩
  have hrunning := h.active hnone
  rw [hstatus] at hrunning
  cases hrunning

theorem Course.settled {start desk : Desk} (h : Course start desk) (hstart : Settled start.state) :
    Settled desk.state := by
  induction h with
  | refl => exact hstart
  | aside _ hsame _ ih => exact ih.aside hsame.status hsame.trigger hsame.books.positions
  | fill _ hf ih => exact ih.fill hf
  | blocked _ _ ih => exact ih
  | fund _ hfund ih => exact ih.fund hfund
  | latch trigger _ _ _ => exact latched_settled _ trigger
  | finish _ hstatus hflat ih => exact ih.finish hstatus hflat

/-! ## Sales -/

/-- A run with a trigger, and one that it comes to. -/
structure OneWay (start desk : Desk) : Prop where
  trigger : desk.state.trigger = start.state.trigger
  sales : ∃ added, desk.events = start.events ++ added ∧ ∀ f, .fill f ∈ added → f.side = .sell
  quantities : ∀ id, (heldAt desk.state id).quantity18 ≤ (heldAt start.state id).quantity18
  status : desk.state.status = .liquidating ∨ desk.state.status = .stopped
  stopped : desk.state.status = .stopped → flat desk.state

theorem OneWay.refl {start : Desk} (h : Settled start.state) (htrigger : start.state.trigger ≠ none) :
    OneWay start start :=
  ⟨rfl, ⟨[], (List.append_nil _).symm, fun _ hf => nomatch hf⟩, fun _ => Int.le_refl _,
    h.ending htrigger, h.stopped⟩

/-- A step of the course that sells at most. -/
theorem OneWay.step {start desk : Desk} {events : List PaperEvent} (h : OneWay start desk)
    (hsettled : Settled next) (htrigger : next.trigger = desk.state.trigger)
    (hset : start.state.trigger ≠ none) (hevents : ∀ f, .fill f ∈ events → f.side = .sell)
    (hquantities : ∀ id, (heldAt next id).quantity18 ≤ (heldAt desk.state id).quantity18) :
    OneWay start ⟨next, desk.events ++ events⟩ := by
  obtain ⟨added, hadded, hsides⟩ := h.sales
  have hkept := htrigger.trans h.trigger
  refine ⟨hkept, ⟨added ++ events, ?_, ?_⟩, fun id => ?_, ?_, hsettled.stopped⟩
  · rw [hadded, List.append_assoc]
  · intro f hf
    rcases List.mem_append.mp hf with hbefore | hnow
    · exact hsides f hbefore
    · exact hevents f hnow
  · exact Int.le_trans (hquantities id) (h.quantities id)
  · exact hsettled.ending (by rw [hkept]; exact hset)

theorem other_no_fill {events : List PaperEvent} (h : ∀ e ∈ events, e.ofOrder = false) :
    ∀ f, PaperEvent.fill f ∈ events → f.side = .sell := by
  intro f hf
  cases h _ hf

theorem heldAt_eq (hpositions : next.positions = state.positions) (id : String) :
    (heldAt next id).quantity18 ≤ (heldAt state id).quantity18 := by
  rw [heldAt, heldAt, hpositions]

theorem Fillable.sells (hf : Fillable state f) (hsell : f.side = .sell) (id : String) :
    (heldAt (fillState state f) id).quantity18 ≤ (heldAt state id).quantity18 := by
  have hquantity := hf.quantity
  simp only [fillState, hsell]
  rw [heldAt, OrderedMap.get?_set]
  split
  next heq =>
    rw [heq]
    show (heldAt state f.identity).quantity18 - f.quantity18 ≤ _
    omega
  next => exact Int.le_refl _

theorem Course.oneWay {start desk : Desk} (h : Course start desk) (hsettled : Settled start.state)
    (htrigger : start.state.trigger ≠ none) : OneWay start desk := by
  induction h with
  | refl => exact OneWay.refl hsettled htrigger
  | aside hcourse hsame hevents ih =>
      exact ih.step ((hcourse.settled hsettled).aside hsame.status hsame.trigger hsame.books.positions)
        hsame.trigger htrigger (other_no_fill hevents) (heldAt_eq hsame.books.positions)
  | @fill desk f hcourse hf ih =>
      -- Only a run that goes on may buy.
      have hsell : f.side = .sell := by
        refine hf.status.2.resolve_right fun hrunning => ?_
        rcases ih.status with hstatus | hstatus
        · exact nomatch hrunning.symm.trans hstatus
        · exact nomatch hrunning.symm.trans hstatus
      refine ih.step ((hcourse.settled hsettled).fill hf) (fillState_trigger _ f) htrigger ?_
        (hf.sells hsell)
      intro g hg
      cases List.mem_singleton.mp hg
      exact hsell
  | @blocked desk event hcourse hevent ih =>
      refine ih.step (hcourse.settled hsettled) rfl htrigger ?_ fun _ => Int.le_refl _
      intro g hg
      rw [← List.mem_singleton.mp hg] at hevent
      cases hevent
  | @fund desk _ _ _ result hcourse hfund ih =>
      obtain ⟨_, _, _, _, _, hstate, _⟩ := fundPaper_cases hfund
      refine ih.step ((hcourse.settled hsettled).fund hfund) ?_ htrigger
        (other_no_fill (fundPaper_events hfund)) (heldAt_eq ?_)
      · rw [hstate]
        rfl
      · rw [hstate]
        rfl
  | @latch desk trigger _ _ ih =>
      have hsame : (latched desk.state trigger).trigger = desk.state.trigger := by
        have hset : desk.state.trigger ≠ none := by
          rw [ih.trigger]
          exact htrigger
        obtain ⟨t, ht⟩ := Option.ne_none_iff_exists'.mp hset
        show desk.state.trigger.or (some trigger) = _
        rw [ht]
        rfl
      have hstep : OneWay start ⟨latched desk.state trigger, desk.events ++ []⟩ :=
        ih.step (latched_settled desk.state trigger) hsame htrigger nofun (heldAt_eq rfl)
      rwa [List.append_nil] at hstep
  | @finish desk hcourse hstatus hflat ih =>
      have hstep : OneWay start ⟨{ desk.state with status := .stopped }, desk.events ++ []⟩ :=
        ih.step ((hcourse.settled hsettled).finish hstatus hflat) rfl htrigger nofun (heldAt_eq rfl)
      rwa [List.append_nil] at hstep

/-! ## The end -/

/-- A run with a trigger is stopped exactly when it holds nothing. -/
def Concluded (state : PaperState) : Prop :=
  state.trigger ≠ none → (state.status = .stopped ↔ flat state)

theorem liquidate_concludes :
    Triple (fun d => d.state.status = .liquidating) liquidate (fun _ d => Concluded d.state)
      (fun _ => True) := by
  refine Triple.get_bind fun desk hdesk => ?_
  refine Triple.bind (Q := fun _ d => d.state.status = .liquidating) ?_ fun _ => ?_
  · refine Triple.mono (P := fun d => Course desk d ∧ d.state.status = .liquidating)
      (Triple.forM fun _ _ => liquidateOne_status) ?_ (fun _ _ h => h.2) fun _ _ => trivial
    rintro d rfl
    exact ⟨Course.refl, hdesk⟩
  refine Triple.get_bind fun last hlast => Triple.ite (fun hflat => ?_) fun hheld => Triple.done ?_
  · refine Triple.modify_bind fun d hd => Triple.modify fun d' hd' => ?_
    subst hd hd'
    exact fun _ => iff_of_true rfl (isFlat_iff.mp hflat)
  · refine fun _ => iff_of_false ?_ fun hflat => hheld (isFlat_iff.mpr hflat)
    rw [hlast]
    exact nofun

theorem Settled.concluded (h : Settled state) (hstatus : state.status ≠ .liquidating) :
    Concluded state := by
  intro htrigger
  have hstopped := (h.ending htrigger).resolve_left hstatus
  exact iff_of_true hstopped (h.stopped hstopped)

theorem liquidateIf_concludes :
    Triple (fun d => Settled d.state)
      (do if (← get).state.status = .liquidating then liquidate else pure ())
      (fun _ d => Concluded d.state) (fun _ => True) := by
  refine Triple.get_bind fun desk hdesk => Triple.ite (fun hstatus => ?_) fun hstatus => ?_
  · refine liquidate_concludes.mono ?_ (fun _ _ h => h) fun _ h => h
    rintro d rfl
    exact hstatus
  · exact Triple.done (hdesk.concluded hstatus)

theorem pushNav_concludes :
    Triple (fun d => Concluded d.state) pushNav (fun _ d => Concluded d.state) (fun _ => True) := by
  refine Triple.get_bind fun desk hdesk => ?_
  refine Triple.await_bind (fun _ _ => ?_) fun _ _ => trivial
  refine Triple.await_bind (fun _ _ => ?_) fun _ _ => trivial
  refine Triple.modify fun d hd => ?_
  subst hd
  exact hdesk

section Followed

variable {start : Desk}

/-- A program that follows a course, and then one that looks at where it has come to. -/
theorem Follows.bind_concludes {α : Type} {p : Program α} {q : α → Program Unit} (hp : Follows p)
    (hq : ∀ a, Triple (Course start) (q a) (fun _ d => Concluded d.state) (fun _ => True)) :
    Triple (Course start) (p >>= q) (fun _ d => Concluded d.state) (fun _ => True) :=
  Triple.bind ((hp start).mono (fun _ h => h) (fun _ _ h => h) fun _ _ => trivial) hq

theorem liquidateIf_concludes_course (hsettled : Settled start.state) :
    Triple (Course start) (do if (← get).state.status = .liquidating then liquidate else pure ())
      (fun _ d => Concluded d.state) (fun _ => True) :=
  liquidateIf_concludes.mono (fun _ h => h.settled hsettled) (fun _ _ h => h) fun _ h => h

theorem followSignals_concludes (hsettled : Settled start.state) :
    Triple (Course start) followSignals (fun _ d => Concluded d.state) (fun _ => True) := by
  refine Triple.get_bind fun desk hdesk => ?_
  refine Triple.mono (P := Course start) ?_ (fun d hd => hd ▸ hdesk) (fun _ _ h => h) fun _ h => h
  refine Follows.bind_concludes (Follows.await _) fun signals => ?_
  refine Follows.bind_concludes (push_follows rfl) fun _ => ?_
  refine Follows.bind_concludes (Follows.forM fun _ _ => sellSignal_follows) fun _ => ?_
  exact Follows.bind_concludes (buySignals_follows _) fun _ => liquidateIf_concludes_course hsettled

theorem observe_concludes (hsettled : Settled start.state) (minutes : MinuteState)
    (events : List MinuteEvent) (observations : List ReferenceObservation) :
    Triple (Course start) (observe minutes events observations) (fun _ d => Concluded d.state)
      (fun _ => True) := by
  refine Follows.bind_concludes (update_follows fun s => ?_) fun _ => ?_
  · exact ⟨⟨rfl, rfl, rfl, rfl, rfl, rfl, rfl, rfl, rfl⟩, rfl, rfl⟩
  refine Follows.bind_concludes (fun start => ?_) fun closed => ?_
  · exact Triple.foldlM (I := fun _ => Course start)
      (fun closed event _ => takeMinute_follows closed event start) false
  refine Follows.bind_concludes evaluateLimits_follows fun _ => ?_
  refine Triple.get_bind fun desk hdesk => ?_
  have hhere : Settled desk.state := hdesk.settled hsettled
  refine Triple.ite (fun hstatus => ?_) fun hstatus => Triple.ite (fun _ => ?_) fun _ => ?_
  · refine Triple.bind (liquidate_concludes.mono ?_ (fun _ _ h => h) fun _ h => h)
      fun _ => pushNav_concludes
    rintro d rfl
    exact hstatus
  · refine Triple.bind ((followSignals_concludes hsettled).mono ?_ (fun _ _ h => h) fun _ h => h)
      fun _ => pushNav_concludes
    rintro d rfl
    exact hdesk
  · refine pushNav_concludes.mono ?_ (fun _ _ h => h) fun _ h => h
    rintro d rfl
    exact hhere.concluded hstatus

end Followed

theorem resultOf_concludes {program : Program Unit} {result : PaperResult}
    (h : Triple (Course ⟨state, []⟩) program (fun _ d => Concluded d.state) (fun _ => True))
    (hresult : resultOf program state = .ok result) : Concluded result.state := by
  unfold resultOf at hresult
  cases hrun : program ⟨state, []⟩ with
  | error e desk =>
      rw [hrun] at hresult
      cases hresult
  | ok u desk =>
      rw [hrun] at hresult
      cases hresult
      exact (h ⟨state, []⟩ Course.refl).1 u desk hrun

def PaperEvent.isRejected : PaperEvent → Bool
  | .referenceRejected _ _ _ => true
  | _ => false

theorem applyPaperBatch_concludes {jsonParse : String → Option Json} {sha256 : String → String}
    {batch : ReferenceBatch} {result : PaperResult} (hsettled : Settled state)
    (h : applyPaperBatch jsonParse sha256 state batch = .ok result)
    (htaken : ∀ e ∈ result.events, e.isRejected = false) : Concluded result.state := by
  have hrefused : ∀ {s : PaperState} {at_ reason source}, result ≠ ⟨s,
      [.referenceRejected at_ reason source]⟩ := by
    rintro s at_ reason source rfl
    cases htaken _ List.mem_cons_self
  simp only [applyPaperBatch, bind_eq_ok] at h
  obtain ⟨observations, _, policy, _, _, _, _, _, h⟩ := h
  split at h
  · exact absurd (Except.ok.inj h).symm hrefused
  split at h
  · exact absurd (Except.ok.inj h).symm hrefused
  · cases h
  next os =>
  unfold takeObservations at h
  split at h
  · exact absurd (Except.ok.inj h).symm hrefused
  next minutes events _ =>
    have hstart : Settled { state with clock := batch.completedAt } := hsettled.aside rfl rfl rfl
    exact resultOf_concludes (observe_concludes hstart _ _ _) h

theorem stopPaper_concludes {at_ : Int} {result : PaperResult} (hsettled : Settled state)
    (h : stopPaper state at_ = .ok result) : Concluded result.state := by
  simp only [stopPaper, bind_eq_ok] at h
  obtain ⟨_, _, _, _, h⟩ := h
  have hstart : Settled { state with clock := at_ } := hsettled.aside rfl rfl rfl
  exact resultOf_concludes (Follows.bind_concludes (latch_follows _)
    fun _ => liquidateIf_concludes_course hstart) h

/-! ## Runs -/

/-- A stop, or a batch that was taken. -/
def concludes (t : Transition Desk PaperStep) : Prop :=
  (∃ at_, t.action = .stop at_) ∨ (∃ batch, t.action = .batch batch) ∧
    ∀ e ∈ t.post.events.drop t.pre.events.length, e.isRejected = false

theorem createPaper_settled {config : PaperConfig} (h : createPaper config = .ok state) :
    Settled state := by
  simp only [createPaper, bind_eq_ok, pure_eq_ok] at h
  obtain ⟨_, _, _, _, rfl⟩ := h
  refine ⟨fun _ => rfl, fun hset => absurd rfl hset, fun hstatus => ?_⟩
  cases hstatus

section Runs

variable (jsonParse : String → Option Json) (sha256 : String → String)

theorem paperStep_concludes {t : Transition Desk PaperStep} (hsettled : Settled t.pre.state)
    (hstep : paperStep jsonParse sha256 t.action t.pre = .ok t.post) (h : concludes t) :
    Concluded t.post.state := by
  obtain ⟨pre, action, post⟩ := t
  simp only [paperStep, bind_eq_ok, pure_eq_ok] at hstep
  obtain ⟨result, hresult, rfl⟩ := hstep
  rcases h with ⟨at_, rfl⟩ | ⟨⟨batch, rfl⟩, htaken⟩
  · exact stopPaper_concludes hsettled hresult
  · simp only [List.drop_left] at htaken
    exact applyPaperBatch_concludes hsettled hresult htaken

/-- In every run of either engine that has a trigger, the trigger stays, only sales
follow, no quantity grows, the run does not go on, and it is stopped only when nothing is
held.  The engine is stopped as soon as nothing is held; the paper run is after every stop
and every batch that was taken. -/
theorem liquidation_one_way_in_both :
    (∀ name text parameters created, Automata.createRun name text parameters = .ok created →
      ∀ taken steps, (exec Automata.engineStep created taken).trigger ≠ none →
        Automata.OneWay (exec Automata.engineStep created taken)
          (exec Automata.engineStep (exec Automata.engineStep created taken) steps)) ∧
    ∀ config created, createPaper config = .ok created → ∀ taken steps,
      ((exec (paperStep jsonParse sha256) ⟨created, []⟩ taken).state.trigger ≠ none →
        OneWay (exec (paperStep jsonParse sha256) ⟨created, []⟩ taken)
          (exec (paperStep jsonParse sha256)
            (exec (paperStep jsonParse sha256) ⟨created, []⟩ taken) steps)) ∧
      ∀ t ∈ history (paperStep jsonParse sha256) ⟨created, []⟩ taken, concludes t →
        Concluded t.post.state := by
  refine ⟨fun name text parameters created hcreated taken steps htrigger => ?_,
    fun config created hcreated taken steps => ⟨fun htrigger => ?_, fun t ht hconcludes => ?_⟩⟩
  · exact (Automata.run_settled hcreated taken).oneWay htrigger steps
  · have hsettled : Settled (exec (paperStep jsonParse sha256) ⟨created, []⟩ taken).state :=
      (run_course ⟨created, []⟩ taken).settled (createPaper_settled hcreated)
    exact (run_course _ steps).oneWay hsettled htrigger
  · have hpre := history_pre (P := fun d => Settled d.state)
      (fun t ht hbefore => (paperStep_course (history_step ht)).settled hbefore)
      (createPaper_settled hcreated) t ht
    exact paperStep_concludes jsonParse sha256 hpre (history_step ht) hconcludes

end Runs

theorem small_stops_one_way :
    (exec Automata.engineStep Automata.smallRun
      (Automata.smallSteps ++ [.transition .stop])).status = .blocked ∧
    Automata.OneWay (exec Automata.engineStep Automata.smallRun
      (Automata.smallSteps ++ [.transition .stop]))
      (exec Automata.engineStep (exec Automata.engineStep Automata.smallRun
        (Automata.smallSteps ++ [.transition .stop])) [.transition .stop]) ∧
    OneWay (exec dustStep ⟨smallPaper, []⟩ [.stop 1])
      (exec dustStep (exec dustStep ⟨smallPaper, []⟩ [.stop 1]) [.stop 2]) := by
  obtain ⟨hengine, hpaper⟩ := liquidation_one_way_in_both (parseIn dustResponses)
    (digestIn dustResponses)
  refine ⟨by decide, hengine _ _ _ _ Automata.smallRun_created _ _ ?_,
    (hpaper _ _ smallPaper_created _ _).1 ?_⟩
  · decide
  · decide

/-! ### An order that sells the last -/

/-- As much cash as there can be. -/
def fullConfig : PaperConfig :=
  { smallConfig with
    initialCash6 := "115792089237316195423570985008687907853269984665640564039457584007913129639935" }

def fullPaper : PaperState :=
  { smallPaper with
    config := fullConfig, cash6 := maxAmount, netContributed6 := maxAmount, units := ⟨maxAmount, 1⟩ }

theorem fullPaper_created : createPaper fullConfig = .ok fullPaper := by
  have hparsed : parsePaperConfig fullConfig = .ok fullConfig := by decide +kernel
  have hids : smallIds.length = 3 ∧ smallIds.Nodup := by decide
  have hcash : (Text.ofDecimal fullConfig.initialCash6 : Int) = maxAmount := by decide +kernel
  have hminutes : createMinutes smallIds = .ok smallPaper.minutes :=
    bind_eq_ok.mpr ⟨(), ensure_eq_ok.mpr hids, rfl⟩
  rw [createPaper, hparsed]
  refine bind_eq_ok.mpr ⟨fullConfig, rfl, bind_eq_ok.mpr ⟨smallPaper.minutes, hminutes, ?_⟩⟩
  simp only [hcash]
  rfl

/-- The gain does not fit beside the cash, so the stop is blocked; some cash is withdrawn,
and the position is sold by an order. -/
def lastSteps : List PaperStep :=
  [.batch (batchOf smallMarket 1767625212000 firstRows),
    .order ("46630:" ++ exampleAddress 1) .buy "1000000000000",
    .batch (batchOf smallMarket 1767625222000 laterRows), .stop 1767625222000,
    .fund .outward "5" 1767625222000, .order ("46630:" ++ exampleAddress 1) .sell "1000000000000"]

def boughtDesk : Except String Desk := do
  let desk ← observeAt 1767625212000 (firstRows.map Row.observation) ⟨fullPaper, []⟩
  dustStep (.order ("46630:" ++ exampleAddress 1) .buy "1000000000000") desk

def soldDesk : Except String Desk := do
  let desk ← boughtDesk
  let desk ← observeAt 1767625222000 (laterRows.map Row.observation) desk
  let desk ← dustStep (.stop 1767625222000) desk
  let desk ← dustStep (.fund .outward "5" 1767625222000) desk
  dustStep (.order ("46630:" ++ exampleAddress 1) .sell "1000000000000") desk

/-- What is evaluated of the run: the desk between the batches takes the second one, and the
desk at the end holds nothing. -/
theorem soldDesk_evaluated :
    (boughtDesk.toOption.any fun desk =>
      desk.state.config.market = smallMarket ∧ desk.state.clock ≤ 1767625222000) = true ∧
    (soldDesk.toOption.map fun desk => (desk.state.trigger, desk.state.status, isFlat desk.state)) =
      some (some .manual, .liquidating, true) := by
  decide +kernel

theorem lastSteps_exec {desk : Desk} (h : soldDesk = .ok desk) :
    exec dustStep ⟨fullPaper, []⟩ lastSteps = desk := by
  simp only [soldDesk, bind_eq_ok] at h
  obtain ⟨bought, hrun, later, hlater, stopped, hstopped, funded, hfunded, hsold⟩ := h
  have hready := soldDesk_evaluated.1
  rw [hrun] at hready
  obtain ⟨hmarket, hclock⟩ := of_decide_eq_true hready
  simp only [boughtDesk, bind_eq_ok] at hrun
  obtain ⟨first, hfirst, hbought⟩ := hrun
  have hopened : dustStep (.batch (batchOf smallMarket 1767625212000 firstRows)) ⟨fullPaper, []⟩ =
      .ok first :=
    (paperStep_round dust_received first_round rfl (by decide)).trans hfirst
  have hrose : dustStep (.batch (batchOf smallMarket 1767625222000 laterRows)) bought = .ok later :=
    (paperStep_round dust_received later_round hmarket hclock).trans hlater
  rw [lastSteps, exec_cons, apply_ok hopened, exec_cons, apply_ok hbought, exec_cons,
    apply_ok hrose, exec_cons, apply_ok hstopped, exec_cons, apply_ok hfunded, exec_cons,
    apply_ok hsold]
  rfl

/-- The run has a trigger and holds nothing, and it is not stopped. -/
theorem sold_out_not_stopped : createPaper fullConfig = .ok fullPaper ∧
    (exec dustStep ⟨fullPaper, []⟩ lastSteps).state.trigger = some .manual ∧
    flat (exec dustStep ⟨fullPaper, []⟩ lastSteps).state ∧
    (exec dustStep ⟨fullPaper, []⟩ lastSteps).state.status = .liquidating := by
  have hsold := soldDesk_evaluated.2
  simp only [Option.map_eq_some_iff] at hsold
  obtain ⟨desk, hdesk, hstate⟩ := hsold
  rw [lastSteps_exec (toOption_eq_some.mp hdesk)]
  simp only [Prod.mk.injEq] at hstate
  exact ⟨fullPaper_created, hstate.1, isFlat_iff.mp hstate.2.2, hstate.2.1⟩

end Paper
end AlphaForge
