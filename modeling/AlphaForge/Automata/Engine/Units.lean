/-
The units of a run.

Units are what a run's value is counted in, and funding changes their number so that
the value of one stays.  A run without cash and positions has no units and keeps the
value of one aside.  The engine takes a run for empty when its whole value is
withdrawn, and the value of a position is rounded down, so a withdrawal may leave a
position without units.  `leavesDust` is such a step, and without it the units follow
the capital.
-/
import AlphaForge.Automata.Engine.Books
import Mathlib.Data.Rat.Defs
import Mathlib.Tactic.FieldSimp
import Mathlib.Tactic.Ring

namespace AlphaForge
namespace Automata

open Evm Machine

variable {run next : Run} {id : String} {side : Side}

/-- No position is held. -/
def flat (run : Run) : Prop := ∀ e ∈ run.positions, e.2.quantity = 0

instance (run : Run) : Decidable (flat run) := by unfold flat; infer_instance

/-- The exact value of one unit, against the value it started with. -/
def unitValue (run : Run) : Except String ℚ :=
  if run.unitsNumerator = 0 then .ok (run.emptyNumerator / run.emptyDenominator)
  else do
    let value ← equity run
    return value * run.unitsDenominator / run.unitsNumerator

structure Tracked (run : Run) : Prop where
  emptyNumerator : 0 < run.emptyNumerator
  emptyDenominator : 0 < run.emptyDenominator
  unitsNumerator : 0 ≤ run.unitsNumerator
  unitsDenominator : 0 < run.unitsDenominator
  zero : run.unitsNumerator = 0 ↔ run.cash = 0 ∧ flat run

/-! ## Trading -/

theorem heldAt_not_flat (h : (heldAt run id).quantity ≠ 0) : ¬ flat run := by
  intro hflat
  unfold heldAt at h
  cases hget : run.positions.get? id with
  | none =>
      rw [hget] at h
      exact h rfl
  | some p =>
      rw [hget] at h
      exact h (hflat (id, p) (OrderedMap.mem_of_get? hget))

/-- A run that trades holds cash or a position, before and after. -/
theorem fill_not_empty {f : Fill} (h : Books run) (hf : Fillable run id side f)
    (purpose : Purpose) :
    ¬ (run.cash = 0 ∧ flat run) ∧ ¬ ((fillOf run id side purpose f).cash = 0 ∧
      flat (fillOf run id side purpose f)) := by
  obtain ⟨hgross, hfee⟩ := hf.charges h.feeBps
  have hquantity := hf.quantity
  have hcharged := hf.charged
  have hcash := h.cash
  have hheld := hf.held
  cases side with
  | buy =>
      have hpaid := hf.paid rfl
      refine ⟨fun hempty => by omega, fun hempty => ?_⟩
      have hthere : (fillOf run id .buy purpose f).positions.get? id = some
          { quantity := (heldAt run id).quantity + f.quantity,
            cost := (heldAt run id).cost + f.gross + f.fee } :=
        OrderedMap.get?_set_self id _ run.positions
      have hzero : (heldAt run id).quantity + f.quantity = 0 :=
        hempty.2 _ (OrderedMap.mem_of_get? hthere)
      omega
  | sell =>
      have hsold := hf.sold rfl
      have hne : (heldAt run id).quantity ≠ 0 := by omega
      refine ⟨fun hempty => heldAt_not_flat hne hempty.2, fun hempty => ?_⟩
      have hafter : run.cash + f.gross - f.fee = 0 := hempty.1
      omega

theorem Tracked.fill {f : Fill} {purpose : Purpose} (h : Tracked run) (hbooks : Books run)
    (hf : Fillable run id side f) : Tracked (fillOf run id side purpose f) := by
  obtain ⟨hbefore, hafter⟩ := fill_not_empty hbooks hf purpose
  refine ⟨h.emptyNumerator, h.emptyDenominator, h.unitsNumerator, h.unitsDenominator, ?_⟩
  exact iff_of_false (fun hzero => hbefore (h.zero.mp hzero)) hafter

theorem Tracked.aside (h : Tracked run) (hcash : next.cash = run.cash)
    (hpositions : next.positions = run.positions)
    (hnumerator : next.unitsNumerator = run.unitsNumerator)
    (hdenominator : next.unitsDenominator = run.unitsDenominator)
    (hempty : next.emptyNumerator = run.emptyNumerator)
    (hempty' : next.emptyDenominator = run.emptyDenominator) : Tracked next := by
  have hflat : flat next ↔ flat run := by
    unfold flat
    rw [hpositions]
  refine ⟨by rw [hempty]; exact h.emptyNumerator, by rw [hempty']; exact h.emptyDenominator,
    by rw [hnumerator]; exact h.unitsNumerator, by rw [hdenominator]; exact h.unitsDenominator, ?_⟩
  rw [hnumerator, hcash, hflat]
  exact h.zero

theorem SameAmounts.tracked (hsame : SameAmounts run next) (h : Tracked run) : Tracked next :=
  h.aside hsame.cash hsame.positions hsame.unitsNumerator hsame.unitsDenominator
    hsame.emptyNumerator hsame.emptyDenominator

theorem Moves.tracked {allowed : Side → Prop} (hmoves : Moves allowed run next)
    (hbooks : Books run) (h : Tracked run) : Tracked next :=
  (hmoves.keeps (P := fun r => Books r ∧ Tracked r)
    (fun _ _ hsame ha => ⟨ha.1.aside hsame, hsame.tracked ha.2⟩)
    (fun _ _ _ _ _ _ hf ha => ⟨ha.1.fill hf, ha.2.fill ha.1 hf⟩) ⟨hbooks, h⟩).2

/-! ## Funding -/

theorem worth_flat {positions : List (String × Position)} {worth : List Int}
    (h : positions.mapM (positionWorth run) = .ok worth)
    (hflat : ∀ e ∈ positions, e.2.quantity = 0) : worth.sum = 0 := by
  induction positions generalizing worth with
  | nil =>
      rw [List.mapM_nil, pure_eq_ok] at h
      rw [← h]
      rfl
  | cons e rest ih =>
      simp only [List.mapM_cons, bind_eq_ok, pure_eq_ok] at h
      obtain ⟨value, hvalue, values, hvalues, rfl⟩ := h
      have hrest := ih hvalues fun e' he' => hflat e' (List.mem_cons_of_mem e he')
      simp only [positionWorth, bind_eq_ok, amount_eq_ok, pure_eq_ok] at hvalue
      obtain ⟨_, ⟨_, rfl⟩, _, ⟨_, rfl⟩, rfl⟩ := hvalue
      rw [List.sum_cons, hrest, hflat e List.mem_cons_self, Int.zero_mul]
      rfl

theorem equity_flat {value : Int} (h : equity run = .ok value) (hflat : flat run) :
    value = run.cash := by
  simp only [equity, bind_eq_ok, amount_eq_ok, pure_eq_ok] at h
  obtain ⟨_, ⟨_, rfl⟩, worth, hworth, rfl⟩ := h
  rw [worth_flat hworth hflat, Int.add_zero]

def fundDelta (inward : Bool) (cash : Int) : Int := if inward then cash else -cash

/-- Units come to an empty run at the value it kept, they all go with its whole value,
and otherwise they change in proportion. -/
theorem changeUnits_cases {cash : Int} {inward : Bool} (h : changeUnits run cash inward = .ok next) :
    ∃ nav, equity run = .ok nav ∧
      ((nav = 0 ∧ run.unitsNumerator = 0 ∧ inward = true ∧ next = { run with
          unitsNumerator := cash * run.emptyDenominator,
          unitsDenominator := run.emptyNumerator }) ∨
        (0 < nav ∧ inward = false ∧ cash = nav ∧ next = { run with
          emptyNumerator := nav * run.unitsDenominator, emptyDenominator := run.unitsNumerator,
          unitsNumerator := 0, unitsDenominator := 1 }) ∨
        (0 < nav ∧ (inward = true ∨ cash < nav) ∧ ∃ n d,
          n = run.unitsNumerator * (nav + fundDelta inward cash) ∧ d = run.unitsDenominator * nav ∧
          next = { run with
            unitsNumerator := n / Int.gcd n d, unitsDenominator := d / Int.gcd n d })) := by
  simp only [changeUnits, bind_eq_ok] at h
  obtain ⟨nav, hnav, h⟩ := h
  refine ⟨nav, hnav, ?_⟩
  split at h
  next hzero =>
    cases h
    exact .inl ⟨hzero.1, hzero.2.1, hzero.2.2, rfl⟩
  simp only [bind_eq_ok, ensure_eq_ok] at h
  obtain ⟨_, ⟨hpos, hle⟩, h⟩ := h
  split at h
  next hall =>
    cases h
    exact .inr (.inl ⟨hpos, hall.1, hall.2, rfl⟩)
  next hpart =>
  simp only [bind_eq_ok, pure_eq_ok] at h
  obtain ⟨_, _, _, _, rfl⟩ := h
  refine .inr (.inr ⟨hpos, ?_, _, _, ?_, rfl, rfl⟩)
  · cases inward with
    | true => exact .inl rfl
    | false =>
        have hne : cash ≠ nav := fun heq => hpart ⟨rfl, heq⟩
        simp only [Bool.false_eq_true, false_or] at hle ⊢
        omega
  · cases inward with
    | true => rfl
    | false =>
        show _ = run.unitsNumerator * (nav + -cash)
        rw [← Int.sub_eq_add_neg]
        rfl

theorem reduced_ratio {n d : Int} (hn : 0 < n) :
    ((d / Int.gcd n d : Int) : ℚ) / ((n / Int.gcd n d : Int) : ℚ) = d / n := by
  have hgcd : ((Int.gcd n d : Int) : ℚ) ≠ 0 := by
    have hpos : 0 < Int.gcd n d := Int.gcd_pos_of_ne_zero_left d (by omega)
    exact_mod_cast (by omega : Int.gcd n d ≠ 0)
  rw [Int.cast_div (Int.gcd_dvd_right n d) hgcd, Int.cast_div (Int.gcd_dvd_left n d) hgcd]
  exact div_div_div_cancel_right₀ hgcd (d : ℚ) (n : ℚ)

theorem fundDelta_abs (delta : Int) :
    fundDelta (decide (0 ≤ delta)) (if 0 ≤ delta then delta else -delta) = delta := by
  by_cases h : 0 ≤ delta
  · simp [fundDelta, h]
  · simp [fundDelta, h]

/-- A run after funding: the units of `mid`, and the cash that came or went. -/
structure Funded (run mid after : Run) (delta : Int) : Prop where
  units : changeUnits run (if 0 ≤ delta then delta else -delta) (decide (0 ≤ delta)) = .ok mid
  cash : after.cash = run.cash + delta
  range : 0 ≤ after.cash ∧ after.cash < 10 ^ 24
  positions : after.positions = mid.positions
  quotes : after.quotes = mid.quotes
  unitsNumerator : after.unitsNumerator = mid.unitsNumerator
  unitsDenominator : after.unitsDenominator = mid.unitsDenominator
  emptyNumerator : after.emptyNumerator = mid.emptyNumerator
  emptyDenominator : after.emptyDenominator = mid.emptyDenominator

theorem Funded.equity {mid after : Run} {delta value : Int} (h : Funded run mid after delta)
    (hvalue : Automata.equity run = .ok value) : Automata.equity after = .ok (value + delta) := by
  obtain ⟨_, hpositions, hquotes, _⟩ := changeUnits_books h.units
  have hequity := equity_cash hvalue (h.positions.trans hpositions) (h.quotes.trans hquotes) h.range
  have hcash := h.cash
  rw [hequity]
  congr 1
  omega

theorem Funded.flat {mid after : Run} {delta : Int} (h : Funded run mid after delta) :
    Automata.flat after ↔ Automata.flat run := by
  obtain ⟨_, hpositions, _, _⟩ := changeUnits_books h.units
  unfold Automata.flat
  rw [h.positions, hpositions]

/-- Funding keeps the units in step with the capital and the value of one, if the whole
value is only withdrawn when nothing is held. -/
theorem Tracked.funded {mid after : Run} {delta : Int} (h : Tracked run)
    (hfunded : Funded run mid after delta) (hdelta : delta ≠ 0)
    (hdust : ∀ value, equity run = .ok value → delta = -value → flat run) :
    Tracked after ∧ unitValue after = unitValue run := by
  obtain ⟨nav, hnav, hcases⟩ := changeUnits_cases hfunded.units
  have hcash := hfunded.cash
  have hrange := hfunded.range
  have hle := cash_le_equity hnav
  have hequity := hfunded.equity hnav
  have hflat := hfunded.flat
  have hempty : flat run → nav = run.cash := fun hflat => equity_flat hnav hflat
  -- A run with a value has units.
  have hunits : 0 < nav → 0 < run.unitsNumerator := by
    intro hpos
    have hnonneg := h.unitsNumerator
    by_contra hnot
    have hzero : run.unitsNumerator = 0 := by omega
    obtain ⟨hnone, hflat⟩ := h.zero.mp hzero
    have := hempty hflat
    omega
  rcases hcases with ⟨hzero, hnone, hin, rfl⟩ | ⟨hpos, hout, hall, rfl⟩ |
    ⟨hpos, hpart, n, d, hn, hd, rfl⟩
  · have hpositive : 0 < delta := by
      have hnonneg : 0 ≤ delta := by simpa using hin
      omega
    rw [if_pos (Int.le_of_lt hpositive)] at hfunded
    have hnumerator : after.unitsNumerator = delta * run.emptyDenominator := hfunded.unitsNumerator
    have hdenominator : after.unitsDenominator = run.emptyNumerator := hfunded.unitsDenominator
    have hproduct : 0 < delta * run.emptyDenominator := Int.mul_pos hpositive h.emptyDenominator
    refine ⟨⟨by rw [hfunded.emptyNumerator]; exact h.emptyNumerator,
      by rw [hfunded.emptyDenominator]; exact h.emptyDenominator, by omega,
      by rw [hdenominator]; exact h.emptyNumerator, ?_⟩, ?_⟩
    · refine iff_of_false (by omega) fun hidle => ?_
      have := hempty (hflat.mp hidle.2)
      omega
    · rw [unitValue, if_neg (by omega), hequity, unitValue, if_pos hnone]
      show Except.ok _ = _
      congr 1
      rw [hnumerator, hdenominator, hzero]
      have hdelta' : (delta : ℚ) ≠ 0 := by exact_mod_cast hdelta
      have hden : (run.emptyDenominator : ℚ) ≠ 0 := by
        exact_mod_cast (Int.ne_of_gt h.emptyDenominator)
      push_cast
      field_simp
      ring
  · have hnegative : ¬ 0 ≤ delta := by simpa using hout
    rw [if_neg hnegative] at hall
    have hflat' := hdust nav hnav (by omega)
    have hwhole := hempty hflat'
    have hpositive := hunits hpos
    have hnumerator : after.emptyNumerator = nav * run.unitsDenominator := hfunded.emptyNumerator
    have hdenominator : after.emptyDenominator = run.unitsNumerator := hfunded.emptyDenominator
    have hnone : after.unitsNumerator = 0 := hfunded.unitsNumerator
    have hone : after.unitsDenominator = 1 := hfunded.unitsDenominator
    have hproduct : 0 < nav * run.unitsDenominator := Int.mul_pos hpos h.unitsDenominator
    refine ⟨⟨by omega, by omega, by omega, by omega, ?_⟩, ?_⟩
    · exact iff_of_true hnone ⟨by omega, hflat.mpr hflat'⟩
    · rw [unitValue, if_pos hnone, unitValue, if_neg (by omega), hnav, hnumerator, hdenominator]
      show _ = Except.ok _
      congr 1
      push_cast
      rfl
  · rw [fundDelta_abs] at hn
    have hafter : 0 < nav + delta := by
      by_cases hsign : 0 ≤ delta
      · omega
      · simp only [hsign, decide_false, Bool.false_eq_true, if_false, false_or] at hpart
        omega
    have hpositive := hunits hpos
    have hnpos : 0 < n := hn ▸ Int.mul_pos hpositive hafter
    have hdpos : 0 < d := hd ▸ Int.mul_pos h.unitsDenominator hpos
    have hnumerator : after.unitsNumerator = n / Int.gcd n d := hfunded.unitsNumerator
    have hdenominator : after.unitsDenominator = d / Int.gcd n d := hfunded.unitsDenominator
    have hnquotient : 0 < n / Int.gcd n d :=
      Int.ediv_pos_of_pos_of_dvd hnpos (by omega) (Int.gcd_dvd_left n d)
    have hdquotient : 0 < d / Int.gcd n d :=
      Int.ediv_pos_of_pos_of_dvd hdpos (by omega) (Int.gcd_dvd_right n d)
    refine ⟨⟨by rw [hfunded.emptyNumerator]; exact h.emptyNumerator,
      by rw [hfunded.emptyDenominator]; exact h.emptyDenominator, by omega, by omega, ?_⟩, ?_⟩
    · refine iff_of_false (by omega) fun hidle => ?_
      have := hempty (hflat.mp hidle.2)
      omega
    · rw [unitValue, if_neg (by omega), hequity, unitValue, if_neg (by omega), hnav]
      show Except.ok _ = Except.ok _
      congr 1
      rw [hnumerator, hdenominator, mul_div_assoc, reduced_ratio hnpos, hn, hd]
      have hnum : (run.unitsNumerator : ℚ) ≠ 0 := by exact_mod_cast (Int.ne_of_gt hpositive)
      have hsum : ((nav : ℚ) + delta) ≠ 0 := by exact_mod_cast (Int.ne_of_gt hafter)
      push_cast
      field_simp

/-! ## Steps -/

theorem foldl_addQuote_tracked (quotes : List Quote) (h : Tracked run) :
    Tracked (quotes.foldl addQuote run) := by
  induction quotes generalizing run with
  | nil => exact h
  | cons q rest ih => exact ih (h.aside rfl rfl rfl rfl rfl rfl)

theorem Tracked.applyAction {action : Action} (h : Tracked run) (hbooks : Books run)
    (haction : applyAction run action = .ok next) (hfund : ∀ inward text, action ≠ .fund inward text) :
    Tracked next := by
  cases action with
  | frame frame =>
      have hquoted := hbooks
      simp only [Automata.applyAction, bind_eq_ok] at haction
      obtain ⟨_, hframe, limited, hlimited, haction⟩ := haction
      have hbooks' := (hbooks.frame hframe).aside (limits_sameAmounts hlimited)
      have hstart : Tracked (frame.quotes.foldl addQuote
          { run with cursor := frame.seq, clock := frame.at', lastFrame := some frame }) :=
        foldl_addQuote_tracked frame.quotes (h.aside rfl rfl rfl rfl rfl rfl)
      have hlimit := (limits_sameAmounts hlimited).tracked hstart
      split at haction
      · exact (liquidate_moves haction).tracked hbooks' hlimit
      split at haction
      · exact (rebalance_moves haction).tracked hbooks' hlimit
      · cases haction
        exact hlimit
  | decision id frameSeq targets =>
      simp only [Automata.applyAction, bind_eq_ok] at haction
      obtain ⟨_, _, _, _, _, _, _, _, _, _, _, _, _, _, limited, hlimited, haction⟩ := haction
      have hbooks' := hbooks.aside (limits_sameAmounts hlimited)
      have hlimit := (limits_sameAmounts hlimited).tracked h
      split at haction
      · simp only [bind_eq_ok, pure_eq_ok] at haction
        obtain ⟨mid, hmid, rfl⟩ := haction
        exact ((liquidate_moves hmid).tracked hbooks' hlimit).aside rfl rfl rfl rfl rfl rfl
      · simp only [bind_eq_ok, pure_eq_ok] at haction
        obtain ⟨mid, hmid, rfl⟩ := haction
        exact ((rebalance_moves hmid).tracked hbooks' hlimit).aside rfl rfl rfl rfl rfl rfl
  | stop =>
      simp only [Automata.applyAction, bind_eq_ok] at haction
      obtain ⟨mid, hmid, haction⟩ := haction
      have hset := setTrigger_sameAmounts hmid
      exact (liquidate_moves haction).tracked (hbooks.aside hset) (hset.tracked h)
  | pause | resume =>
      simp only [Automata.applyAction, bind_eq_ok, pure_eq_ok] at haction
      obtain ⟨_, _, rfl⟩ := haction
      exact h.aside rfl rfl rfl rfl rfl rfl
  | fund inward text => exact absurd rfl (hfund inward text)

/-- The funding that an accepted action makes. -/
theorem fund_funded {inward : Bool} {text : String}
    (h : transition run (.fund inward text) = .ok next) :
    ∃ mid, 0 < (Text.ofDecimal text : Int) ∧
      Funded { run with reason := none } mid next (fundDelta inward (Text.ofDecimal text)) := by
  rw [transition, if_neg (by simp [Action.frame?]), if_neg (by simp [Action.frame?])] at h
  simp only [applyAction, bind_eq_ok, ensure_eq_ok, amount_eq_ok, pure_eq_ok] at h
  obtain ⟨_, ⟨_, _, _, _, _, _, cash, hcash, _, hpos, _, ⟨_, rfl⟩, _, _, mid, hmid, rfl⟩, _, _, _,
    ⟨hrange, rfl⟩, _, _, _, _, _, _, hpush⟩ := h
  obtain ⟨history, rfl⟩ := pushHistory_eq_ok hpush
  obtain ⟨_, _, rfl⟩ := amountText_eq_ok hcash
  refine ⟨mid, hpos, ⟨?_, rfl, hrange, rfl, rfl, rfl, rfl, rfl, rfl⟩⟩
  cases inward with
  | true =>
      have hsign : 0 ≤ (Text.ofDecimal text : Int) := by omega
      simpa [fundDelta, hsign] using hmid
  | false =>
      have hsign : ¬ 0 ≤ -(Text.ofDecimal text : Int) := by omega
      simpa only [fundDelta, Bool.false_eq_true, if_false, hsign, decide_false, Int.neg_neg] using hmid

theorem Tracked.transition {action : Action} (h : Tracked run) (hbooks : Books run)
    (hdust : ∀ text, action = .fund false text → equity run = .ok (Text.ofDecimal text : Int) →
      flat run) (ht : transition run action = .ok next) :
    Tracked next ∧ ∀ inward text, action = .fund inward text → unitValue next = unitValue run := by
  have hstart : Tracked { run with reason := none } := h.aside rfl rfl rfl rfl rfl rfl
  by_cases hfund : ∃ inward text, action = .fund inward text
  · obtain ⟨inward, text, rfl⟩ := hfund
    obtain ⟨mid, hpos, hfunded⟩ := fund_funded ht
    have hdelta : fundDelta inward (Text.ofDecimal text) ≠ 0 := by
      unfold fundDelta
      split <;> omega
    obtain ⟨htracked, hvalue⟩ := hstart.funded hfunded hdelta fun value hequity hall => by
      unfold fundDelta at hall
      cases inward with
      | true =>
          -- Money that comes in does not take the value out.
          have hcash := hbooks.cash
          have hle := cash_le_equity hequity
          simp only [if_true] at hall hle
          omega
      | false =>
          have hsame : (Text.ofDecimal text : Int) = value := by
            simp only [Bool.false_eq_true, if_false] at hall
            omega
          exact hdust text rfl (hsame ▸ hequity)
    exact ⟨htracked, fun _ _ _ => hvalue⟩
  · have hother : ∀ inward text, action ≠ .fund inward text :=
      fun inward text heq => hfund ⟨inward, text, heq⟩
    refine ⟨?_, fun inward text heq => absurd heq (hother inward text)⟩
    unfold Automata.transition at ht
    split at ht
    · simp only [bind_eq_ok, pure_eq_ok] at ht
      obtain ⟨_, _, rfl⟩ := ht
      exact h
    split at ht
    · cases ht
      exact h
    simp only [bind_eq_ok] at ht
    obtain ⟨mid, hmid, _, _, _, _, _, _, _, _, _, _, hpush⟩ := ht
    obtain ⟨history, rfl⟩ := pushHistory_eq_ok hpush
    have hbooks' : Books { run with reason := none } :=
      ⟨hbooks.feeBps, hbooks.cash, hbooks.positions, hbooks.conserved, hbooks.fees, hbooks.used,
        hbooks.capacity⟩
    exact (hstart.applyAction hbooks' hmid hother).aside rfl rfl rfl rfl rfl rfl

theorem everyM_eq_true {α : Type} {p : α → Except String Bool} {items : List α}
    (h : everyM p items = .ok true) : ∀ a ∈ items, p a = .ok true := by
  induction items with
  | nil => exact nofun
  | cons a rest ih =>
      simp only [everyM, bind_eq_ok] at h
      obtain ⟨holds, hholds, h⟩ := h
      cases holds with
      | true => exact List.forall_mem_cons.mpr ⟨hholds, ih h⟩
      | false => cases h

theorem flatPositions_flat (h : flatPositions run = .ok true) : flat run := by
  intro e he
  have hrow := everyM_eq_true h e he
  simp only [bind_eq_ok, amount_eq_ok, pure_eq_ok] at hrow
  obtain ⟨_, ⟨_, rfl⟩, hzero⟩ := hrow
  exact of_decide_eq_true hzero

theorem Tracked.release {excess : Int} (h : Tracked run)
    (hrelease : releaseSettlementExcess run excess = .ok next) : Tracked next := by
  simp only [releaseSettlementExcess, bind_eq_ok, amount_eq_ok, ensure_eq_ok] at hrelease
  obtain ⟨_, ⟨hcash, rfl⟩, _, ⟨hexcess, hle⟩, _, hflat, _, rfl, hrelease⟩ := hrelease
  split at hrelease
  · cases hrelease
    exact h
  next hne =>
  simp only [bind_eq_ok] at hrelease
  obtain ⟨mid, hmid, hpush⟩ := hrelease
  obtain ⟨history, rfl⟩ := pushHistory_eq_ok hpush
  have hsign : ¬ 0 ≤ -excess := by omega
  have hfunded : Funded run mid { mid with
      cash := run.cash - excess, netContributed := mid.netContributed - excess,
      history := history } (-excess) := by
    refine ⟨?_, Int.sub_eq_add_neg, ⟨by show 0 ≤ run.cash - excess; omega,
      by show run.cash - excess < 10 ^ 24; omega⟩, rfl, rfl, rfl, rfl, rfl, rfl⟩
    simpa only [hsign, if_false, decide_false, Int.neg_neg] using hmid
  exact (h.funded hfunded (by omega) fun _ _ _ => flatPositions_flat hflat).1

theorem createRun_tracked {name text : String} {parameters : Parameters}
    (h : createRun name text parameters = .ok next) : Tracked next := by
  simp only [createRun, bind_eq_ok, ensure_eq_ok, pure_eq_ok] at h
  obtain ⟨_, _, cash, hcash, _, hpos, _, _, rfl⟩ := h
  refine ⟨Int.one_pos, Int.one_pos, Int.le_of_lt hpos, Int.one_pos, ?_⟩
  exact iff_of_false (Int.ne_of_gt hpos) fun hempty => Int.ne_of_gt hpos hempty.1

/-! ## Runs -/

/-- A withdrawal of the whole value while a position is held. -/
def leavesDust (t : Transition Run EngineStep) : Prop :=
  ∃ text, t.action = .transition (.fund false text) ∧
    equity t.pre = .ok (Text.ofDecimal text : Int) ∧ ¬ flat t.pre

/-- There are units exactly when there is capital, and the return is defined. -/
structure UnitsTrack (run : Run) : Prop where
  zero : run.unitsNumerator = 0 ↔ run.cash = 0 ∧ flat run
  emptyDenominator : 0 < run.emptyDenominator
  defined : ∃ value, returnBps run = .ok value

theorem Tracked.unitsTrack (h : Tracked run) (hvalued : ∃ value, equity run = .ok value) :
    UnitsTrack run := by
  refine ⟨h.zero, h.emptyDenominator, ?_⟩
  obtain ⟨value, hvalue⟩ := hvalued
  have hden := h.emptyDenominator
  unfold returnBps
  by_cases hzero : run.unitsNumerator = 0
  · rw [if_neg (by omega), ensure, if_pos (by omega)]
    exact ⟨_, rfl⟩
  · rw [if_pos hzero, hvalue]
    exact ⟨_, rfl⟩

theorem dust_untracked {t : Transition Run EngineStep} (hstep : engineStep t.action t.pre = .ok t.post)
    (hdust : leavesDust t) : ¬ UnitsTrack t.post := by
  obtain ⟨text, haction, hequity, hheld⟩ := hdust
  rw [haction] at hstep
  obtain ⟨mid, hpos, hfunded⟩ := fund_funded hstep
  obtain ⟨nav, hnav, hcases⟩ := changeUnits_cases hfunded.units
  have hwhole : nav = Text.ofDecimal text := by
    have hsame : Except.ok nav = Except.ok (Text.ofDecimal text : Int) := hnav.symm.trans hequity
    exact Except.ok.inj hsame
  have hsign : ¬ 0 ≤ fundDelta false (Text.ofDecimal text) := by
    simp only [fundDelta, Bool.false_eq_true, if_false]
    omega
  simp only [hsign, decide_false, if_false] at hcases
  have hamount : -fundDelta false (Text.ofDecimal text) = Text.ofDecimal text := Int.neg_neg _
  rw [hamount] at hcases
  intro htrack
  rcases hcases with ⟨_, _, hin, _⟩ | ⟨_, _, _, rfl⟩ | ⟨_, hpart, _⟩
  · cases hin
  · have hnone : t.post.unitsNumerator = 0 := hfunded.unitsNumerator
    exact hheld (hfunded.flat.mp (htrack.zero.mp hnone).2)
  · simp only [Bool.false_eq_true, false_or] at hpart
    omega

/-- What the steps of a run keep as long as none leaves dust. -/
structure InStep (run : Run) : Prop where
  balanced : Balanced run
  books : Books run
  tracked : Tracked run

theorem InStep.step {t : Transition Run EngineStep} (h : InStep t.pre)
    (hstep : engineStep t.action t.pre = .ok t.post) (hdust : ¬ leavesDust t) :
    InStep t.post ∧ ∀ inward text, t.action = .transition (.fund inward text) →
      unitValue t.post = unitValue t.pre := by
  obtain ⟨pre, action, post⟩ := t
  cases action with
  | transition action =>
      have hwhole : ∀ text, action = .fund false text →
          equity pre = .ok (Text.ofDecimal text : Int) → flat pre := by
        intro text haction hequity
        by_contra hheld
        exact hdust ⟨text, congrArg _ haction, hequity, hheld⟩
      obtain ⟨htracked, hvalue⟩ := h.tracked.transition h.books hwhole hstep
      refine ⟨⟨(transition_balanced h.balanced hstep).1, h.books.transition hstep, htracked⟩, ?_⟩
      intro inward text haction
      exact hvalue inward text (EngineStep.transition.inj haction)
  | release excess =>
      have hbalanced := (releaseSettlementExcess_balanced h.balanced hstep).1
      exact ⟨⟨hbalanced, h.books.release hstep, h.tracked.release hstep⟩, nofun⟩

/-- The units follow the capital through a whole run, and its funding keeps the value
of one, exactly when no withdrawal of the run leaves dust. -/
theorem units_track_iff_no_dust {name text : String} {parameters : Parameters} {created : Run}
    (h : createRun name text parameters = .ok created) (steps : List EngineStep) :
    ((∀ taken, taken <+: steps → UnitsTrack (exec engineStep created taken)) ∧
      ∀ t ∈ history engineStep created steps, ∀ inward amount,
        t.action = .transition (.fund inward amount) → unitValue t.post = unitValue t.pre) ↔
      ∀ t ∈ history engineStep created steps, ¬ leavesDust t := by
  have hcreated : InStep created :=
    ⟨(createRun_balanced h).1, createRun_books h, createRun_tracked h⟩
  have htrack : ∀ run, InStep run → UnitsTrack run :=
    fun run hrun => hrun.tracked.unitsTrack hrun.balanced.valued
  rw [exec_prefix_iff]
  constructor
  · rintro ⟨⟨_, hposts⟩, _⟩ t ht hdust
    exact dust_untracked (history_step ht) hdust (hposts t ht)
  · intro hdust
    have hkept : ∀ t ∈ history engineStep created steps, InStep t.pre → InStep t.post :=
      fun t ht hpre => (hpre.step (history_step ht) (hdust t ht)).1
    have hpres := history_pre hkept hcreated
    refine ⟨⟨htrack _ hcreated, fun t ht => htrack _ (hkept t ht (hpres t ht))⟩, fun t ht => ?_⟩
    exact ((hpres t ht).step (history_step ht) (hdust t ht)).2

/-- The run of two small steps never leaves dust. -/
theorem smallSteps_track : (∀ t ∈ history engineStep smallRun smallSteps, ¬ leavesDust t) ∧
    (∀ taken, taken <+: smallSteps → UnitsTrack (exec engineStep smallRun taken)) := by
  have hnone : ∀ t ∈ history engineStep smallRun smallSteps, ¬ leavesDust t := by
    rintro t ht ⟨text, haction, _⟩
    have hmem := history_action ht
    rw [haction] at hmem
    simp [smallSteps] at hmem
  exact ⟨hnone, ((units_track_iff_no_dust smallRun_created smallSteps).mpr hnone).1⟩

/-- The price falls a little below one, the floored value of the position is nothing, and
the withdrawal of the cash takes all units while the position stays. -/
theorem withdrawal_leaves_dust :
    let steps := smallSteps ++ [.transition (.fund false "1")]
    let run := exec engineStep smallRun steps
    createRun "small" "2" smallParameters = .ok smallRun ∧ run.unitsNumerator = 0 ∧
      run.positions = [("rwa-a", { quantity := 1, cost := 1 })] ∧ ¬ UnitsTrack run := by
  have hrun : (exec engineStep smallRun (smallSteps ++ [.transition (.fund false "1")])).unitsNumerator
      = 0 ∧ (exec engineStep smallRun (smallSteps ++ [.transition (.fund false "1")])).positions =
        [("rwa-a", { quantity := 1, cost := 1 })] := by
    decide
  refine ⟨smallRun_created, hrun.1, hrun.2, fun htrack => ?_⟩
  have hflat := (htrack.zero.mp hrun.1).2
  rw [flat, hrun.2] at hflat
  exact absurd (hflat _ List.mem_cons_self) (by decide)

end Automata
end AlphaForge
