/-
The indexer's view of a trading vault's whole history.

The vault lets a sell through whose output is nothing, while the projection
refuses every fill without output.  Apart from that the two agree: every other
history is accepted, and the quantities it adds up to are the vault's positions.
-/
import AlphaForge.Indexer.TradingPerformance
import AlphaForge.Vault.TradingVault.Backing

namespace AlphaForge
namespace Indexer

open Evm Machine
open TradingVault (Action Config State Sized step)

variable {c : Config} {s s' : State}

/-- The part of a snapshot that the projection is compared with. -/
structure Snapshot where
  vaultEquity : Option String
  /-- Token and position. -/
  stocks : List (String × String)

/-- `rebuildProjections`, once the snapshot is read. -/
def rebuildProjections (events : List DecodedContractEvent) (state : Snapshot) :
    Except String Snapshot := do
  let performance ← tradingPerformance events state.vaultEquity
  if state.stocks.all (fun stock => performance.quantityRaw stock.1 = stock.2) then .ok state
  else .error "TRADING_POSITION_EVENT_MISMATCH"

/-- What a snapshot of the vault shows. -/
def snapshot (c : Config) (vaultEquity : Option String) (s : State) : Snapshot :=
  ⟨vaultEquity, (List.finRange 3).map fun i =>
    (addressText (c.stocks i), (s.trackedPosition (c.stocks i)).repr)⟩

/-- A sell that the router answered with no output. -/
def sellsForNothing (c : Config) : Action → Bool
  | .execute _ _ r action => action.tokenIn ≠ c.afUsdc ∧ r.amountOut = some 0
  | _ => false

/-! ## What a step adds to the log -/

/-- A step either trades nothing, and leaves the positions, or it is a fill with its
event. -/
inductive Logged (c : Config) (s : State) (a : Action) (s' : State) : Prop where
  | others (events : List TradingVault.Event) (hlog : s'.log = s.log ++ events)
      (hevents : ∀ e ∈ events, e.isSwap = false) (hsame : s'.trackedPosition = s.trackedPosition)
      (hsell : sellsForNothing c a = false) : Logged c s a s'
  | fill (version grantVersion : Nat) (i : Fin 3) (buy : Bool) (input output : Nat)
      (hlog : s'.log =
        s.log ++ [.swapExecuted version grantVersion (c.stocks i) buy input output])
      (hinput : input ≠ 0) (hin : input < 2 ^ 256) (hout : output < 2 ^ 256)
      (hheld : buy = false → input ≤ s.trackedPosition (c.stocks i))
      (hmoved : s'.trackedPosition = Function.update s.trackedPosition (c.stocks i)
        (if buy then s.trackedPosition (c.stocks i) + output
        else s.trackedPosition (c.stocks i) - input))
      (hsell : output = 0 ↔ sellsForNothing c a = true) : Logged c s a s'

theorem traded_logged {m : Msg} {feeds : TradingVault.Feeds} {r : TradingVault.RouterCall}
    {action : TradingVault.Swap} {buy : Bool} {i : Fin 3} {output : Nat} (hs : Sized s)
    (hbuy : buy = decide (action.tokenIn = c.afUsdc))
    (h : TradingVault.Traded c m r buy i action.amountIn output s s') :
    Logged c s (.execute m feeds r action) s' := by
  obtain ⟨version, grantVersion, hlog⟩ := h.log
  have hmax := maxUint256_lt
  have hcash := hs.cash
  have hposition := hs.positions (c.stocks i)
  have hside := h.side
  have hbooked := h.booked.positions
  cases buy with
  | true =>
      rw [if_pos rfl] at hside
      have hfits := hside.fits
      have hspent := hside.cash
      have hbought := hside.position
      refine .fill version grantVersion i true action.amountIn output hlog h.amount (by omega)
        (by omega) (fun hb => by cases hb) ?_ ?_
      · rw [if_pos rfl, ← hbought]
        exact hbooked
      · refine iff_of_false (h.filled rfl) ?_
        have htoken : action.tokenIn = c.afUsdc := by simpa using hbuy.symm
        simp [sellsForNothing, htoken]
  | false =>
      rw [if_neg (by decide)] at hside
      have hfits := hside.fits
      have hgot := hside.cash
      have hsold := hside.position
      refine .fill version grantVersion i false action.amountIn output hlog h.amount (by omega)
        (by omega) (fun _ => by omega) ?_ ?_
      · rw [if_neg (by decide), show s.trackedPosition (c.stocks i) - action.amountIn =
          s'.trackedPosition (c.stocks i) by omega]
        exact hbooked
      · have htoken : action.tokenIn ≠ c.afUsdc := by simpa using hbuy.symm
        simp [sellsForNothing, htoken, h.returned]

theorem step_logged {a : Action} (hs : Sized s) (h : step c a s = .ok s') : Logged c s a s' := by
  cases TradingVault.step_accepted h with
  | deposited _ hdep =>
      obtain ⟨e, he, hstate⟩ := hdep.state
      exact .others [e] (by rw [hstate]) (by simpa using he) (by rw [hstate]) rfl
  | withdrawn hwith =>
      obtain ⟨e, he, hstate⟩ := hwith.state
      exact .others [e] (by rw [hstate]) (by simpa using he) (by rw [hstate]) rfl
  | allocated _ _ _ _ _ he => exact .others _ rfl (by simpa using he) rfl rfl
  | deallocated _ _ _ _ he => exact .others _ rfl (by simpa using he) rfl rfl
  | authorized _ _ he => exact .others _ rfl (by simpa using he) rfl rfl
  | @governed a m _ _ _ _ _ _ _ _ _ hgov _ _ _ hes =>
      refine .others _ rfl hes rfl ?_
      cases a with
      | execute _ _ _ _ => cases hgov
      | _ => rfl
  | cancelled _ hbuy _ _ hes => exact .others _ rfl hes rfl (by simp [sellsForNothing, hbuy])
  | traded hbuy _ htrade => exact traded_logged hs hbuy htrade
  | closing hclose =>
      obtain ⟨e, he, hstate⟩ := hclose.state
      exact .others [e] (by rw [hstate]) (by simpa using he) (by rw [hstate]) rfl
  | rescued hrescue =>
      obtain ⟨e, he, hstate⟩ := hrescue.state
      exact .others [e] (by rw [hstate]) (by simpa using he) (by rw [hstate]) rfl
  | native hpay hes =>
      rcases hpay with ⟨_, _, rfl⟩ | ⟨_, rfl⟩ <;> exact .others _ rfl hes rfl rfl
  | outside _ => exact .others [] (List.append_nil _).symm (by simp) rfl rfl

/-! ## Projecting a log -/

/-- The loop of `tradingPerformance` over the vault's events. -/
def project (log : List TradingVault.Event) : Except String Totals :=
  (log.map performanceEvent).foldlM record ⟨0, 0, []⟩

def Projected (s : State) : Prop :=
  ∃ t, project s.log = .ok t ∧ ∀ token, t.quantity (addressText token) = s.trackedPosition token

def Refused (s : State) : Prop := ∃ e, project s.log = .error e

theorem project_append (log events : List TradingVault.Event) :
    project (log ++ events) =
      project log >>= fun t => (events.map performanceEvent).foldlM record t := by
  rw [project, List.map_append, List.foldlM_append]
  rfl

theorem project_append_ok {log events : List TradingVault.Event} {t : Totals}
    (h : project log = .ok t) :
    project (log ++ events) = (events.map performanceEvent).foldlM record t := by
  rw [project_append, h]
  rfl

theorem project_append_error {log events : List TradingVault.Event} {e : String}
    (h : project log = .error e) : project (log ++ events) = .error e := by
  rw [project_append, h]
  rfl

theorem project_snoc {log : List TradingVault.Event} {event : TradingVault.Event} {t : Totals}
    (h : project log = .ok t) : project (log ++ [event]) = record t (performanceEvent event) := by
  rw [project_append_ok h, List.map_singleton, List.foldlM_cons]
  cases record t (performanceEvent event) <;> rfl

theorem others_recorded {events : List TradingVault.Event} (h : ∀ e ∈ events, e.isSwap = false)
    (t : Totals) : ∃ t', (events.map performanceEvent).foldlM record t = .ok t' ∧
      t'.positions = t.positions := by
  induction events generalizing t with
  | nil => exact ⟨t, rfl, rfl⟩
  | cons e rest ih =>
      obtain ⟨t₁, hrecord, hfirst⟩ := record_other (h e List.mem_cons_self) t
      obtain ⟨t₂, hrest, hsecond⟩ := ih (fun e' he' => h e' (List.mem_cons_of_mem e he')) t₁
      refine ⟨t₂, ?_, hsecond.trans hfirst⟩
      rw [List.map_cons, List.foldlM_cons, hrecord]
      exact hrest

theorem step_projected {a : Action} (hs : Sized s) (hp : Projected s)
    (hsell : sellsForNothing c a = false) (h : step c a s = .ok s') : Projected s' := by
  obtain ⟨t, ht, hquantity⟩ := hp
  cases step_logged hs h with
  | others events hlog hevents hsame _ =>
      obtain ⟨t', ht', hpositions⟩ := others_recorded hevents t
      refine ⟨t', ?_, fun token => ?_⟩
      · rw [hlog, project_append_ok ht]
        exact ht'
      · rw [hsame, Totals.quantity, hpositions]
        exact hquantity token
  | fill version grantVersion i buy input output hlog hinput hin hout hheld hmoved hzero =>
      have houtput : output ≠ 0 := by
        intro he
        rw [hzero.mp he] at hsell
        cases hsell
      have hbefore := hquantity (c.stocks i)
      obtain ⟨t', hfill, hthis, hothers⟩ := fill_word t (addressText (c.stocks i)) buy hin hout hinput
        houtput (fun hb => by
          have hle := hheld hb
          omega)
      refine ⟨t', ?_, fun token => ?_⟩
      · rw [hlog, project_snoc ht, record_swap]
        exact hfill
      · rw [hmoved]
        by_cases htoken : token = c.stocks i
        · rw [htoken, Function.update_self, hthis]
          cases buy with
          | true =>
              rw [if_pos rfl, if_pos rfl]
              omega
          | false =>
              have hle := hheld rfl
              rw [if_neg (by decide), if_neg (by decide)]
              omega
        · rw [Function.update_of_ne htoken,
            hothers _ (fun he => htoken (addressText_injective he))]
          exact hquantity token

/-- A refused log stays refused, since it only grows. -/
theorem step_refused {a : Action} (hs : Sized s) (hr : Refused s) (h : step c a s = .ok s') :
    Refused s' := by
  obtain ⟨e, he⟩ := hr
  cases step_logged hs h with
  | others events hlog _ _ _ => exact ⟨e, by rw [hlog, project_append_error he]⟩
  | fill _ _ _ _ _ _ hlog _ _ _ _ _ _ => exact ⟨e, by rw [hlog, project_append_error he]⟩

/-- A sell for nothing makes the log one that is refused. -/
theorem step_refuses {a : Action} (hs : Sized s) (hsell : sellsForNothing c a = true)
    (h : step c a s = .ok s') : Refused s' := by
  cases step_logged hs h with
  | others _ _ _ _ hnot =>
      rw [hsell] at hnot
      cases hnot
  | fill version grantVersion i buy input output hlog _ _ _ _ _ hzero =>
      have houtput := hzero.mpr hsell
      subst houtput
      cases hproject : project s.log with
      | error e => exact ⟨e, by rw [hlog, project_append_error hproject]⟩
      | ok t =>
          refine ⟨"TRADING_PERFORMANCE_INPUT", ?_⟩
          rw [hlog, project_snoc hproject, record_swap, fill_zero]

/-! ## The report -/

/-- An equity that was not valued, or text that `raw` takes. -/
def acceptable (vaultEquity : Option String) : Prop :=
  ∀ v, vaultEquity = some v → ∃ n, raw (some (.text v)) = .ok n

theorem tradingPerformance_of {log : List TradingVault.Event} {t : Totals}
    (ht : project log = .ok t) {vaultEquity : Option String} (he : acceptable vaultEquity) :
    ∃ p, tradingPerformance (log.map performanceEvent) vaultEquity = .ok p ∧
      p.positions = t.positions.map report := by
  have hfold : (log.map performanceEvent).foldlM record ⟨0, 0, []⟩ = .ok t := ht
  simp only [tradingPerformance, hfold, bind, Except.bind]
  cases vaultEquity with
  | none => exact ⟨_, rfl, rfl⟩
  | some v =>
      obtain ⟨n, hn⟩ := he v rfl
      simp only [hn]
      exact ⟨_, rfl, rfl⟩

theorem tradingPerformance_ok {log : List TradingVault.Event} {vaultEquity : Option String}
    {p : Performance} (h : tradingPerformance (log.map performanceEvent) vaultEquity = .ok p) :
    (∃ t, project log = .ok t) ∧ acceptable vaultEquity := by
  cases ht : project log with
  | error e =>
      have hfold : (log.map performanceEvent).foldlM record ⟨0, 0, []⟩ = .error e := ht
      simp only [tradingPerformance, hfold, bind, Except.bind] at h
      cases h
  | ok t =>
      have hfold : (log.map performanceEvent).foldlM record ⟨0, 0, []⟩ = .ok t := ht
      refine ⟨⟨t, rfl⟩, fun v hv => ?_⟩
      subst hv
      simp only [tradingPerformance, hfold, bind, Except.bind] at h
      cases hn : raw (some (.text v)) with
      | ok n => exact ⟨n, rfl⟩
      | error e =>
          simp only [hn] at h
          cases h

/-- The reported quantity of a stock is the one on record. -/
theorem quantityRaw_report {p : Performance} {t : Totals} (h : p.positions = t.positions.map report)
    (stock : String) : p.quantityRaw stock = toString (t.quantity stock) := by
  rw [Performance.quantityRaw, h,
    OrderedMap.find?_map stock PositionReport.stock report (fun _ => rfl), Totals.quantity]
  cases t.positions.get? stock with
  | none => rfl
  | some position => rfl

theorem rebuildProjections_of {events : List DecodedContractEvent} {vaultEquity : Option String}
    {p : Performance} (hp : tradingPerformance events vaultEquity = .ok p)
    (hq : ∀ i, p.quantityRaw (addressText (c.stocks i)) = (s.trackedPosition (c.stocks i)).repr) :
    rebuildProjections events (snapshot c vaultEquity s) = .ok (snapshot c vaultEquity s) := by
  have hall : (snapshot c vaultEquity s).stocks.all
      (fun stock => decide (p.quantityRaw stock.1 = stock.2)) = true := by
    simp [snapshot, hq]
  have hperformance : tradingPerformance events (snapshot c vaultEquity s).vaultEquity = .ok p := hp
  simp only [rebuildProjections, hperformance, bind, Except.bind]
  exact if_pos hall

/-! ## Whole runs -/

theorem run_projected (hs : Sized s) (hp : Projected s) {as : List Action}
    (hsells : ∀ t ∈ history (step c) s as, sellsForNothing c t.action = false) :
    Projected (exec (step c) s as) :=
  (exec_kept (P := fun w => Sized w ∧ Projected w) (fun t ht hw =>
    ⟨TradingVault.step_sized hw.1 (history_step ht),
      step_projected hw.1 hw.2 (hsells t ht) (history_step ht)⟩) ⟨hs, hp⟩).2

theorem run_refused (hs : Sized s) {as : List Action} {t : Transition State Action}
    (ht : t ∈ history (step c) s as) (hsell : sellsForNothing c t.action = true) :
    Refused (exec (step c) s as) := by
  have hsized := history_invariant (P := Sized) (fun _ _ _ hw h => TradingVault.step_sized hw h) hs ht
  refine (exec_since (P := fun w => Sized w ∧ Refused w) (fun a w w' hw h => ?_) ht ?_).2
  · exact ⟨TradingVault.step_sized hw.1 h, step_refused hw.1 hw.2 h⟩
  · exact ⟨hsized.2.2, step_refuses hsized.1 hsell (history_step ht)⟩

/-- No report comes out of a run with a sell for nothing. -/
theorem run_not_reported (hs : Sized s) {as : List Action}
    (hsells : ∃ t ∈ history (step c) s as, sellsForNothing c t.action = true)
    (vaultEquity : Option String) (performance : Performance) :
    tradingPerformance ((exec (step c) s as).log.map performanceEvent) vaultEquity ≠
      .ok performance := by
  intro hperformance
  obtain ⟨t, ht, hsell⟩ := hsells
  obtain ⟨e, he⟩ := run_refused hs ht hsell
  obtain ⟨⟨totals, hok⟩, _⟩ := tradingPerformance_ok hperformance
  rw [hok] at he
  cases he

section Run

variable {m : Msg} {x : View} {self lockerSelf owner strategyCreator : Address}
  {strategyId strategyRef : Bytes32} {pass usdc router : Address} {stocks feeds : Fin 3 → Address}
  {maxPriceAge : Nat} {tokens : Tokens} {balance : Nat}

/-- The events of a run are accepted, with the vault's own positions as the result,
exactly when no sell of the run was answered with an output of nothing. -/
theorem vault_events_projectable_iff
    (hnew : TradingVault.constructor m x self lockerSelf owner strategyCreator strategyId strategyRef
      pass usdc router stocks feeds maxPriceAge tokens balance = .ok (c, s))
    (as : List Action) (vaultEquity : Option String) :
    (∃ events performance,
      decodeLogs ((exec (step c) s as).log.map emitted) = .ok events ∧
      tradingPerformance events vaultEquity = .ok performance ∧
      (∀ i, performance.quantityRaw (addressText (c.stocks i)) =
        ((exec (step c) s as).trackedPosition (c.stocks i)).repr) ∧
      rebuildProjections events (snapshot c vaultEquity (exec (step c) s as)) =
        .ok (snapshot c vaultEquity (exec (step c) s as))) ↔
      (∀ t ∈ history (step c) s as, sellsForNothing c t.action = false) ∧
        acceptable vaultEquity := by
  obtain ⟨_, _, _, _, hsized, hlog, hflat⟩ := TradingVault.constructor_ok hnew
  have hstart : Projected s := by
    refine ⟨⟨0, 0, []⟩, by rw [hlog]; rfl, fun token => ?_⟩
    rw [hflat token]
    rfl
  constructor
  · rintro ⟨events, performance, hdecoded, hperformance, _⟩
    rw [decodeLogs_emitted, Except.ok.injEq] at hdecoded
    subst hdecoded
    refine ⟨fun t ht => ?_, (tradingPerformance_ok hperformance).2⟩
    by_contra hsell
    exact run_not_reported hsized ⟨t, ht, by simpa using hsell⟩ vaultEquity performance hperformance
  · rintro ⟨hsells, hequity⟩
    obtain ⟨totals, hok, hquantity⟩ := run_projected hsized hstart hsells
    obtain ⟨performance, hperformance, hpositions⟩ := tradingPerformance_of hok hequity
    have hreported : ∀ i, performance.quantityRaw (addressText (c.stocks i)) =
        ((exec (step c) s as).trackedPosition (c.stocks i)).repr := by
      intro i
      rw [quantityRaw_report hpositions, hquantity]
      rfl
    exact ⟨_, performance, decodeLogs_emitted _, hperformance, hreported,
      rebuildProjections_of hperformance hreported⟩

end Run

theorem example_events_projectable :
    ∃ c s, TradingVault.constructor (TradingVault.exampleMsg 3 99) TradingVault.exampleView 1 2 3 4 1 1
        5 6 10 ![7, 8, 9] ![17, 18, 19] 60 TradingVault.exampleTokens 0 = .ok (c, s) ∧
      ∃ events performance,
        decodeLogs ((exec (step c) s TradingVault.exampleRun).log.map emitted) = .ok events ∧
        tradingPerformance events (some "749") = .ok performance ∧
        performance.quantityRaw (addressText 7) = "75000000000000" := by
  have h : TradingVault.constructor (TradingVault.exampleMsg 3 99) TradingVault.exampleView 1 2 3 4 1 1
      5 6 10 ![7, 8, 9] ![17, 18, 19] 60 TradingVault.exampleTokens 0 = .ok (_, _) := rfl
  have hequity : acceptable (some "749") := by
    rintro v ⟨⟩
    exact ⟨749, by decide⟩
  obtain ⟨events, performance, hevents, hperformance, hquantity, _⟩ :=
    (vault_events_projectable_iff h TradingVault.exampleRun (some "749")).mpr
      ⟨by decide, hequity⟩
  exact ⟨_, _, h, events, performance, hevents, hperformance, hquantity 0⟩

/-- The executor sells one unit of stock, which is worth nothing in whole units of
cash, with a minimum of nothing. -/
def dustRun : List Action :=
  TradingVault.exampleRun.take 4 ++
    [.execute (TradingVault.exampleMsg 12 103) TradingVault.exampleFeeds
      (TradingVault.exampleSwap 7 6 1 0) ⟨7, 6, 1, 0, 120, 4⟩]

theorem dust_sell_not_projectable :
    ∃ c s, TradingVault.constructor (TradingVault.exampleMsg 3 99) TradingVault.exampleView 1 2 3 4 1 1
        5 6 10 ![7, 8, 9] ![17, 18, 19] 60 TradingVault.exampleTokens 0 = .ok (c, s) ∧
      (history (step c) s dustRun).length = 5 ∧
      ∃ events, decodeLogs ((exec (step c) s dustRun).log.map emitted) = .ok events ∧
        ∀ vaultEquity performance, tradingPerformance events vaultEquity ≠ .ok performance := by
  have h : TradingVault.constructor (TradingVault.exampleMsg 3 99) TradingVault.exampleView 1 2 3 4 1 1
      5 6 10 ![7, 8, 9] ![17, 18, 19] 60 TradingVault.exampleTokens 0 = .ok (_, _) := rfl
  obtain ⟨_, _, _, _, hsized, _⟩ := TradingVault.constructor_ok h
  exact ⟨_, _, h, by decide, _, decodeLogs_emitted _, run_not_reported hsized (by decide)⟩

end Indexer
end AlphaForge
