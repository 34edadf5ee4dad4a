/-
The units of a paper run.

Funding rescales the units by the value before and after it, so that the value of one
stays.  A run without units keeps that value aside and takes it up again with the next
funding, as if nothing else were there.  Something may be: positions are valued rounded
down, so a withdrawal of the whole value can leave some, and their price can rise.
-/
import AlphaForge.Reference.Paper.Conserved
import AlphaForge.Reference.Sample
import Mathlib.Data.Rat.Defs
import Mathlib.Tactic.FieldSimp
import Mathlib.Tactic.NormNum
import Mathlib.Tactic.Ring

namespace AlphaForge
namespace Paper

open Evm Commit Machine Reference

variable {state next : PaperState} {direction : Direction} {at_ amount nav : Int}
  {units emptyValue : Ratio}

def Ratio.value (r : Ratio) : ℚ := r.numerator / r.denominator

theorem rational_eq_ok {n d : Int} {r : Ratio} (h : rational n d = .ok r) :
    0 ≤ n ∧ 0 < d ∧ 0 ≤ r.numerator ∧ 0 < r.denominator ∧ (r.numerator = 0 ↔ n = 0) ∧
      r.value = n / d := by
  simp only [rational, bind_eq_ok, ensure_eq_ok, pure_eq_ok] at h
  obtain ⟨_, ⟨hn, hd⟩, rfl⟩ := h
  have hgcd : 0 < (Int.gcd n d : Int) := by
    exact_mod_cast Int.gcd_pos_of_ne_zero_right n (Int.ne_of_gt hd)
  have hleft := Int.gcd_dvd_left n d
  have hright := Int.gcd_dvd_right n d
  have hcast : ((Int.gcd n d : Int) : ℚ) ≠ 0 := by exact_mod_cast Int.ne_of_gt hgcd
  refine ⟨hn, hd, Int.ediv_nonneg hn (Int.le_of_lt hgcd),
    Int.ediv_pos_of_pos_of_dvd hd (Int.le_of_lt hgcd) hright, ?_, ?_⟩
  · constructor
    · intro hzero
      simp only at hzero
      have hwhole : n / Int.gcd n d * Int.gcd n d = n := Int.ediv_mul_cancel hleft
      rw [hzero, Int.zero_mul] at hwhole
      exact hwhole.symm
    · rintro rfl
      exact Int.zero_ediv _
  · unfold Ratio.value
    rw [Int.cast_div hleft hcast, Int.cast_div hright hcast]
    exact div_div_div_cancel_right₀ hcast (n : ℚ) (d : ℚ)

/-- The value of a unit, as `paperReturn` computes it. -/
theorem rational_value {v : Int} {u r : Ratio} (h : rational (v * u.denominator) u.numerator = .ok r) :
    r.value = v / u.value := by
  obtain ⟨_, _, _, _, _, hvalue⟩ := rational_eq_ok h
  rw [hvalue, Ratio.value, div_div_eq_mul_div]
  push_cast
  rfl

theorem rational_ok {n d : Int} (hn : 0 ≤ n) (hd : 0 < d) : ∃ r, rational n d = .ok r :=
  ⟨_, bind_eq_ok.mpr ⟨(), ensure_eq_ok.mpr ⟨hn, hd⟩, rfl⟩⟩

/-- The units and the value kept aside are proper fractions. -/
structure Tracked (state : PaperState) : Prop where
  numerator : 0 ≤ state.units.numerator
  denominator : 0 < state.units.denominator
  emptyNumerator : 0 < state.emptyValue.numerator
  emptyDenominator : 0 < state.emptyValue.denominator

theorem Funding.tracked (hf : Funding state direction at_ amount nav units emptyValue)
    (h : Tracked state) {delta : Int} : Tracked (fundState state at_ delta units emptyValue) := by
  have hpositive := hf.positive
  by_cases hzero : state.units.numerator = 0
  · obtain ⟨rfl, hunits⟩ := hf.empty hzero
    obtain ⟨_, _, hnumerator, hdenominator, _, _⟩ := rational_eq_ok hunits
    exact ⟨hnumerator, hdenominator, h.emptyNumerator, h.emptyDenominator⟩
  · obtain ⟨hempty, hunits⟩ := hf.held hzero
    obtain ⟨_, _, hnumerator, hdenominator, _, _⟩ := rational_eq_ok hunits
    obtain ⟨_, _, hempty₀, hempty₁, hiff, _⟩ := rational_eq_ok hempty
    have hnav : 0 < nav := hf.solvent.resolve_right hzero
    have hproduct : 0 < nav * state.units.denominator := Int.mul_pos hnav h.denominator
    refine ⟨hnumerator, hdenominator, ?_, hempty₁⟩
    show 0 < emptyValue.numerator
    omega

theorem Course.tracked {start desk : Desk} (h : Course start desk) (hstart : Tracked start.state) :
    Tracked desk.state := by
  refine h.keeps (fun a b hsame ha => ?_) (fun a f _ ha => ?_) (fun a _ _ _ result hfund ha => ?_) hstart
  · refine ⟨?_, ?_, ?_, ?_⟩
    · rw [hsame.units]
      exact ha.numerator
    · rw [hsame.units]
      exact ha.denominator
    · rw [hsame.emptyValue]
      exact ha.emptyNumerator
    · rw [hsame.emptyValue]
      exact ha.emptyDenominator
  · unfold fillState
    cases f.side with
    | buy => exact ⟨ha.numerator, ha.denominator, ha.emptyNumerator, ha.emptyDenominator⟩
    | sell => exact ⟨ha.numerator, ha.denominator, ha.emptyNumerator, ha.emptyDenominator⟩
  · obtain ⟨_, _, _, _, hfunding, hstate, _⟩ := fundPaper_cases hfund
    rw [hstate]
    exact hfunding.tracked ha

theorem createPaper_tracked {config : PaperConfig} (h : createPaper config = .ok state) :
    Tracked state := by
  simp only [createPaper, parsePaperConfig, bind_eq_ok, pure_eq_ok] at h
  obtain ⟨_, _, _, _, rfl⟩ := h
  exact ⟨Int.natCast_nonneg _, Int.one_pos, Int.one_pos, Int.one_pos⟩

/-! ## The value of a unit -/

theorem paperReturn_empty (hnav : paperNav state at_ = .ok (some nav))
    (hzero : state.units.numerator = 0) : paperReturn state at_ = .ok (some state.emptyValue) := by
  rw [paperReturn, hnav]
  show (if state.units.numerator = 0 then _ else _) = _
  rw [if_pos hzero]
  rfl

theorem paperReturn_held {r : Ratio} (hnav : paperNav state at_ = .ok (some nav))
    (hne : state.units.numerator ≠ 0)
    (hr : rational (nav * state.units.denominator) state.units.numerator = .ok r) :
    paperReturn state at_ = .ok (some r) := by
  rw [paperReturn, hnav]
  show (if state.units.numerator = 0 then _ else _) = _
  rw [if_neg hne, hr]
  rfl

/-- The value around funding: that of the state itself at the time, and of the state
with the cash that came or went. -/
theorem Funding.navs (hf : Funding state direction at_ amount nav units emptyValue) :
    paperNav state at_ = .ok (some nav) ∧
      paperNav (fundState state at_ (direction.signed amount) units emptyValue) at_ =
        .ok (some (nav + direction.signed amount)) := by
  obtain ⟨hclock, _, hquoted, hnav⟩ := paperNav_eq_some.mp hf.valued
  refine ⟨paperNav_eq_some.mpr ⟨hclock, hf.clock, hquoted, hnav⟩,
    paperNav_eq_some.mpr ⟨hclock, Int.le_refl _, hquoted, ?_⟩⟩
  show _ = state.cash6 + _ + (state.positions.map (worthIn state)).sum
  have hsum : nav = state.cash6 + (state.positions.map (worthIn state)).sum := hnav
  omega

/-- With units, funding keeps the value of one. -/
theorem Funding.keeps_held (hf : Funding state direction at_ amount nav units emptyValue)
    (h : Tracked state) (hne : state.units.numerator ≠ 0) : ∃ before after,
      paperReturn state at_ = .ok (some before) ∧
      paperReturn (fundState state at_ (direction.signed amount) units emptyValue) at_ =
        .ok (some after) ∧ after.value = before.value := by
  obtain ⟨hbefore, hafter⟩ := hf.navs
  obtain ⟨hempty, hunits⟩ := hf.held hne
  obtain ⟨hproduct, _, _, hdenominator, hzero, hvalue⟩ := rational_eq_ok hunits
  have hnav : 0 < nav := hf.solvent.resolve_right hne
  have hpositive : 0 < state.units.numerator := by
    have := h.numerator
    omega
  obtain ⟨_, _, _, _, _, hkept⟩ := rational_eq_ok hempty
  refine ⟨emptyValue, ?_⟩
  by_cases hall : units.numerator = 0
  · exact ⟨emptyValue, paperReturn_held hbefore hne hempty, paperReturn_empty hafter hall, rfl⟩
  · have hnumerator : 0 < units.numerator := by
      have := (rational_eq_ok hunits).2.2.1
      omega
    have hleft : 0 < nav + direction.signed amount := by
      by_contra hnot
      have hle : state.units.numerator * (nav + direction.signed amount) ≤ 0 :=
        Int.mul_nonpos_of_nonneg_of_nonpos (Int.le_of_lt hpositive) (by omega)
      omega
    obtain ⟨r, hr⟩ := rational_ok
      (Int.mul_nonneg (Int.le_of_lt hleft) (Int.le_of_lt hdenominator)) hnumerator
    refine ⟨r, paperReturn_held hbefore hne hempty, paperReturn_held hafter hall hr, ?_⟩
    have hn : (state.units.numerator : ℚ) ≠ 0 := by exact_mod_cast hne
    have hd : (state.units.denominator : ℚ) ≠ 0 := by exact_mod_cast Int.ne_of_gt h.denominator
    have hv : (nav : ℚ) ≠ 0 := by exact_mod_cast Int.ne_of_gt hnav
    have hs : (nav : ℚ) + (direction.signed amount : ℚ) ≠ 0 := by exact_mod_cast Int.ne_of_gt hleft
    rw [rational_value hr, hvalue, hkept]
    push_cast
    field_simp

/-- Without units, it does so only where the value that is there is not counted twice. -/
theorem Funding.keeps_empty (hf : Funding state direction at_ amount nav units emptyValue)
    (h : Tracked state) (hzero : state.units.numerator = 0)
    (hdefined : ∃ r, paperReturn (fundState state at_ (direction.signed amount) units emptyValue) at_ =
      .ok r) : ∃ before after,
      paperReturn state at_ = .ok (some before) ∧
      paperReturn (fundState state at_ (direction.signed amount) units emptyValue) at_ =
        .ok (some after) ∧ (after.value = before.value ↔ nav + direction.signed amount = amount) := by
  obtain ⟨hbefore, hafter⟩ := hf.navs
  obtain ⟨rfl, hunits⟩ := hf.empty hzero
  obtain ⟨hproduct, _, _, hdenominator, hiff, hvalue⟩ := rational_eq_ok hunits
  have hamount := hf.positive
  have hpositive : 0 < amount * state.emptyValue.denominator :=
    Int.mul_pos hamount h.emptyDenominator
  have hne : units.numerator ≠ 0 := fun hnone => by
    have := hiff.mp hnone
    omega
  obtain ⟨after, hreturn⟩ := hdefined
  rw [paperReturn, hafter] at hreturn
  change (if units.numerator = 0 then _ else _) = _ at hreturn
  rw [if_neg hne, bind_eq_ok] at hreturn
  obtain ⟨r, hr, _⟩ := hreturn
  refine ⟨state.emptyValue, r, paperReturn_empty hbefore hzero, paperReturn_held hafter hne hr, ?_⟩
  have ha : (amount : ℚ) ≠ 0 := by exact_mod_cast Int.ne_of_gt hamount
  have hn : (state.emptyValue.numerator : ℚ) ≠ 0 := by exact_mod_cast Int.ne_of_gt h.emptyNumerator
  have hd : (state.emptyValue.denominator : ℚ) ≠ 0 := by
    exact_mod_cast Int.ne_of_gt h.emptyDenominator
  have hkept : state.emptyValue.value ≠ 0 := div_ne_zero hn hd
  -- The new units are worth the amount, at the value that was kept.
  have hcounted : units.value = amount / state.emptyValue.value := by
    rw [hvalue, Ratio.value, div_div_eq_mul_div]
    push_cast
    rfl
  have hreturned : r.value = ((nav + direction.signed amount : Int) : ℚ) / units.value :=
    rational_value hr
  rw [hreturned, hcounted, div_div_eq_mul_div, div_eq_iff ha, mul_comm state.emptyValue.value,
    mul_left_inj' hkept]
  norm_cast

/-- The funding keeps the value of a unit: there are units, or what is there and what is
funded come to the amount. -/
def evenly (state : PaperState) (direction : Direction) (amount6 : String) (at_ : Int) : Prop :=
  state.units.numerator ≠ 0 ∨
    (direction = .inward ∧ paperNav state at_ = .ok (some 0)) ∨
    (direction = .outward ∧ paperNav state at_ = .ok (some (2 * Text.ofDecimal amount6)))

section Runs

variable (jsonParse : String → Option Json) (sha256 : String → String)

/-- In every run, an accepted funding keeps the return exactly when it is even. -/
theorem funding_keeps_return_iff {config : PaperConfig} {created : PaperState}
    (h : createPaper config = .ok created) (steps : List PaperStep) {direction : Direction}
    {amount6 : String} {at_ : Int} {result : PaperResult}
    (hfund : fundPaper (exec (paperStep jsonParse sha256) ⟨created, []⟩ steps).state direction amount6
      at_ = .ok result) :
    ∃ before after,
      paperReturn (exec (paperStep jsonParse sha256) ⟨created, []⟩ steps).state at_ =
        .ok (some before) ∧ paperReturn result.state at_ = .ok (some after) ∧
      (after.value = before.value ↔
        evenly (exec (paperStep jsonParse sha256) ⟨created, []⟩ steps).state direction amount6 at_) := by
  have hcourse : Course ⟨created, []⟩ (exec (paperStep jsonParse sha256) ⟨created, []⟩ steps) :=
    run_course ⟨created, []⟩ steps
  have htracked := hcourse.tracked (createPaper_tracked h)
  generalize (exec (paperStep jsonParse sha256) ⟨created, []⟩ steps).state = state at hfund htracked ⊢
  obtain ⟨nav, units, emptyValue, unitValue, hf, hstate, hreturn, _⟩ := fundPaper_cases hfund
  rw [hstate] at hreturn ⊢
  by_cases hzero : state.units.numerator = 0
  · obtain ⟨before, after, hbefore, hafter, hiff⟩ := hf.keeps_empty htracked hzero ⟨_, hreturn⟩
    refine ⟨before, after, hbefore, hafter, hiff.trans ?_⟩
    have hnav := hf.navs.1
    unfold evenly
    rw [hnav]
    cases direction with
    | inward =>
        simp only [hzero, Direction.signed, Except.ok.injEq, Option.some.injEq, ne_eq,
          not_true_eq_false, reduceCtorEq, false_and, or_false, true_and, false_or]
        omega
    | outward =>
        simp only [hzero, Direction.signed, Except.ok.injEq, Option.some.injEq, ne_eq,
          not_true_eq_false, reduceCtorEq, false_and, true_and, false_or]
        omega
  · obtain ⟨before, after, hbefore, hafter, hsame⟩ := hf.keeps_held htracked hzero
    exact ⟨before, after, hbefore, hafter, iff_of_true hsame (.inl hzero)⟩

end Runs

theorem small_funding_keeps_return : ∃ result before after,
    fundPaper smallPaper .inward "5" 1 = .ok result ∧
      paperReturn smallPaper 1 = .ok (some before) ∧ paperReturn result.state 1 = .ok (some after) ∧
      after.value = before.value := by
  have hisOk : (fundPaper smallPaper .inward "5" 1).isOk = true := by decide
  cases hresult : fundPaper smallPaper .inward "5" 1 with
  | error e =>
      rw [hresult] at hisOk
      cases hisOk
  | ok result =>
      obtain ⟨before, after, hbefore, hafter, hiff⟩ := funding_keeps_return_iff (fun _ => none)
        (fun body => body) smallPaper_created [] hresult
      have hunits : evenly smallPaper .inward "5" 1 := .inl (by decide)
      exact ⟨result, before, after, rfl, hbefore, hafter, hiff.mpr hunits⟩

/-! ### Dust that gains value -/

def dustMsft : Response :=
  exampleQuote "MSFT" (exampleAddress 1) "400" "400" "2026-01-05T15:00:10Z"
    "e0e8440b27bda6b771110fe501aecae8cf5ea83608bed203c2891ac192466443"

/-- A quarter of a percent more, ten seconds later. -/
def dustMsftLater : Response :=
  exampleQuote "MSFT" (exampleAddress 1) "401" "401" "2026-01-05T15:00:20Z"
    "a10a1ef3513afab7012f64cc18dbc67a5315ebd0855e7a5c3a7528cebd29384e"

def dustResponses : List Response :=
  [exampleRegistry, dustMsft, dustMsftLater, exampleNvda, exampleAapl]

def dustRows (msft : Response) (price : String) (msftAt at_ : Int) : List Row :=
  [⟨1, msft, exampleObservation 1 "MSFT" price price msftAt at_⟩,
    ⟨2, exampleNvda, exampleObservation 2 "NVDA" "180" "181" 1767625210000 at_⟩,
    ⟨3, exampleAapl, exampleObservation 3 "AAPL" "250" "251" 1767625210000 at_⟩]

def firstRows : List Row := dustRows dustMsft "400" 1767625210000 1767625212000

def laterRows : List Row := dustRows dustMsftLater "401" 1767625220000 1767625222000

/-- What is evaluated of the responses and of the two rounds. -/
theorem dust_checked :
    ((dustResponses.map Response.text).Nodup ∧ ∀ r ∈ dustResponses, r.text.utf8ByteSize ≤ maxBytes) ∧
      ∀ row ∈ firstRows ++ laterRows, row.Normal := by
  decide +kernel

theorem dust_received : Received dustResponses where
  registry := List.mem_cons_self
  nodup := dust_checked.1.1
  sizes := dust_checked.1.2

theorem smallMarket_parsed : parseBatchPolicy smallMarket = .ok smallMarket := by decide

theorem first_round : SampleRound dustResponses smallMarket 1767625212000 firstRows where
  parsed := smallMarket_parsed
  age := rfl
  span := by decide
  clock := by decide
  selections := by decide
  answered := by
    refine answered_of_normal ?_ fun row hrow =>
      dust_checked.2 row (List.mem_append_left laterRows hrow)
    simp [firstRows, dustRows, dustResponses]
  received := by simp [firstRows, dustRows, exampleObservation]
  fresh := by decide
  skew := by decide

theorem later_round : SampleRound dustResponses smallMarket 1767625222000 laterRows where
  parsed := smallMarket_parsed
  age := rfl
  span := by decide
  clock := by decide
  selections := by decide
  answered := by
    refine answered_of_normal ?_ fun row hrow =>
      dust_checked.2 row (List.mem_append_right firstRows hrow)
    simp [laterRows, dustRows, dustResponses]
  received := by simp [laterRows, dustRows, exampleObservation]
  fresh := by decide
  skew := by decide

/-- A valid batch of observations, past the checks of the batch. -/
def observeAt (at_ : Int) (observations : List ReferenceObservation) (desk : Desk) :
    Except String Desk := do
  let result ← takeObservations { desk.state with clock := at_ } observations
  return ⟨result.state, desk.events ++ result.events⟩

theorem paperStep_round {responses : List Response} {policy : BatchPolicy} {at_ : Int}
    {rows : List Row} {desk : Desk} (hreceived : Received responses)
    (h : SampleRound responses policy at_ rows) (hmarket : desk.state.config.market = policy)
    (hclock : desk.state.clock ≤ at_) :
    paperStep (parseIn responses) (digestIn responses) (.batch (batchOf policy at_ rows)) desk =
      observeAt at_ (rows.map Row.observation) desk := by
  have hvalid : validateReferenceBatch (parseIn responses) (digestIn responses)
      (batchOf policy at_ rows) = .ok (some (rows.map Row.observation)) :=
    bind_eq_ok.mpr ⟨_, h.replayed hreceived, rfl⟩
  have hpolicy : parseBatchPolicy (batchOf policy at_ rows).policy = .ok policy := h.parsed
  have hstart : checkClock (batchOf policy at_ rows).completedAt = .ok () := ensure_of h.clock _
  have hlater : ¬ (batchOf policy at_ rows).completedAt < desk.state.clock := Int.not_lt.mpr hclock
  simp only [paperStep, callPaper, applyPaperBatch, hvalid, ok_bind, hpolicy, ensure_of hmarket, hstart,
    if_neg hlater]
  rfl

def dustStep : PaperStep → Desk → Except String Desk :=
  paperStep (parseIn dustResponses) (digestIn dustResponses)

/-- A little is bought, everything else is withdrawn, and the price rises. -/
def dustSteps : List PaperStep :=
  [.batch (batchOf smallMarket 1767625212000 firstRows),
    .order ("46630:" ++ exampleAddress 1) .buy "2499999999", .fund .outward "9" 1767625212000,
    .batch (batchOf smallMarket 1767625222000 laterRows)]

/-- The desk between the two batches. -/
def dustMiddle : Except String Desk := do
  let desk ← observeAt 1767625212000 (firstRows.map Row.observation) ⟨smallPaper, []⟩
  let desk ← dustStep (.order ("46630:" ++ exampleAddress 1) .buy "2499999999") desk
  dustStep (.fund .outward "9" 1767625212000) desk

def dustDesk : Except String Desk := do
  let desk ← dustMiddle
  observeAt 1767625222000 (laterRows.map Row.observation) desk

/-- What is evaluated of the run: the desk between the batches takes the second one, and the
desk after it is funded. -/
theorem dustDesk_evaluated :
    (dustMiddle.toOption.any fun desk =>
      desk.state.config.market = smallMarket ∧ desk.state.clock ≤ 1767625222000) = true ∧
    (dustDesk.toOption.bind fun desk =>
      (fundPaper desk.state .inward "5" 1767625222000).toOption.bind fun result =>
        (paperReturn desk.state 1767625222000).toOption.bind fun before =>
          (paperReturn result.state 1767625222000).toOption.map fun after => (before, after)) =
        some (some ⟨9, 10⟩, some ⟨27, 25⟩) := by
  decide +kernel

theorem dustSteps_exec {desk : Desk} (h : dustDesk = .ok desk) :
    exec dustStep ⟨smallPaper, []⟩ dustSteps = desk := by
  simp only [dustDesk, dustMiddle, bind_eq_ok] at h
  obtain ⟨middle, ⟨first, hfirst, bought, hbought, hmiddle⟩, hlast⟩ := h
  have hready : middle.state.config.market = smallMarket ∧ middle.state.clock ≤ 1767625222000 := by
    have hrun : dustMiddle = .ok middle :=
      bind_eq_ok.mpr ⟨first, hfirst, bind_eq_ok.mpr ⟨bought, hbought, hmiddle⟩⟩
    have hall := dustDesk_evaluated.1
    rw [hrun] at hall
    exact of_decide_eq_true hall
  have hopened : dustStep (.batch (batchOf smallMarket 1767625212000 firstRows)) ⟨smallPaper, []⟩ =
      .ok first :=
    (paperStep_round dust_received first_round rfl (by decide)).trans hfirst
  have hclosed : dustStep (.batch (batchOf smallMarket 1767625222000 laterRows)) middle = .ok desk :=
    (paperStep_round dust_received later_round hready.1 hready.2).trans hlast
  rw [dustSteps, exec_cons, apply_ok hopened, exec_cons, apply_ok hbought, exec_cons,
    apply_ok hmiddle, exec_cons, apply_ok hclosed]
  rfl

/-- The dust is worth a millionth again when five come in, and the return goes from nine
tenths to more than one. -/
theorem dust_changes_return : createPaper smallConfig = .ok smallPaper ∧ ∃ result,
    fundPaper (exec dustStep ⟨smallPaper, []⟩ dustSteps).state .inward "5" 1767625222000 =
      .ok result ∧
    paperReturn (exec dustStep ⟨smallPaper, []⟩ dustSteps).state 1767625222000 =
      .ok (some ⟨9, 10⟩) ∧
    paperReturn result.state 1767625222000 = .ok (some ⟨27, 25⟩) ∧
    (⟨27, 25⟩ : Ratio).value ≠ (⟨9, 10⟩ : Ratio).value := by
  have hfunded := dustDesk_evaluated.2
  simp only [Option.bind_eq_some_iff, Option.map_eq_some_iff] at hfunded
  obtain ⟨desk, hdesk, result, hresult, before, hbefore, after, hafter, hboth⟩ := hfunded
  obtain ⟨rfl, rfl⟩ := Prod.mk.inj hboth
  rw [dustSteps_exec (toOption_eq_some.mp hdesk)]
  refine ⟨smallPaper_created, result, toOption_eq_some.mp hresult, toOption_eq_some.mp hbefore,
    toOption_eq_some.mp hafter, ?_⟩
  unfold Ratio.value
  norm_num

end Paper
end AlphaForge
