/-
What the recomputed returns say of the vault's cash.

The vault keeps neither cost nor profit.  `CashMove` says how a step changes the cash
of the vault and which event it leaves, and the fold over the events keeps the cost
and the profit that go with it.  So what was paid in less what was paid out, with the
realized profit, is the cash and the cost of what is held.
-/
import AlphaForge.Indexer.Projection
import AlphaForge.Vault.TradingVault.Events

namespace AlphaForge
namespace Indexer

open Evm Machine
open TradingVault (Action Config State Sized step)

variable {c : Config} {s s' : State}

/-! ## Steps of the vault -/

/-- Events that neither pay nor trade. -/
def isSilent : TradingVault.Event → Bool
  | .deposited _ _ _ | .withdrawn _ _ _ | .closed _ _ | .swapExecuted _ _ _ _ _ _ => false
  | _ => true

def cashOf (s : State) : Nat := s.idleCash + s.runtimeCash

/-- What a step does to the cash and the positions, with its events. -/
inductive CashMove (c : Config) (s s' : State) : Prop where
  | silent (es : List TradingVault.Event) (hlog : s'.log = s.log ++ es)
      (hes : ∀ e ∈ es, isSilent e = true) (hcash : cashOf s' = cashOf s)
      (hsame : s'.trackedPosition = s.trackedPosition) : CashMove c s s'
  | paidIn (amount principal locked : Nat)
      (hlog : s'.log = s.log ++ [.deposited amount principal locked]) (hfits : amount < 2 ^ 256)
      (hcash : cashOf s' = cashOf s + amount) (hsame : s'.trackedPosition = s.trackedPosition) :
      CashMove c s s'
  | paidOut (e : TradingVault.Event) (amount : Nat) (hlog : s'.log = s.log ++ [e])
      (he : (∃ exited principal, e = .withdrawn amount exited principal) ∨
        ∃ unlocked, e = .closed amount unlocked) (hfits : amount < 2 ^ 256)
      (hcash : cashOf s' + amount = cashOf s) (hsame : s'.trackedPosition = s.trackedPosition) :
      CashMove c s s'
  | filled (version grantVersion : Nat) (i : Fin 3) (buy : Bool) (input output : Nat)
      (hlog : s'.log = s.log ++ [.swapExecuted version grantVersion (c.stocks i) buy input output])
      (hin : input < 2 ^ 256) (hout : output < 2 ^ 256)
      (hcash : (cashOf s' : Int) = cashOf s + if buy then -(input : Int) else output)
      (hmoved : s'.trackedPosition = Function.update s.trackedPosition (c.stocks i)
        (s'.trackedPosition (c.stocks i)))
      (hposition : (s'.trackedPosition (c.stocks i) : Int) =
        s.trackedPosition (c.stocks i) + if buy then (output : Int) else -(input : Int)) :
      CashMove c s s'

theorem traded_move {m : Msg} {r : TradingVault.RouterCall} {buy : Bool} {i : Fin 3}
    {amountIn output : Nat} (hs : Sized s)
    (h : TradingVault.Traded c m r buy i amountIn output s s') : CashMove c s s' := by
  obtain ⟨version, grantVersion, hlog⟩ := h.log
  have hmax := maxUint256_lt
  have hcash := hs.cash
  have hposition := hs.positions (c.stocks i)
  have hside := h.side
  have hidle := h.booked.idle
  cases buy with
  | true =>
      rw [if_pos rfl] at hside
      have hfits := hside.fits
      have hspent := hside.cash
      have hbought := hside.position
      refine .filled version grantVersion i true amountIn output hlog (by omega) (by omega) ?_
        h.booked.positions ?_
      · rw [if_pos rfl, cashOf, cashOf]
        omega
      · rw [if_pos rfl]
        omega
  | false =>
      rw [if_neg Bool.false_ne_true] at hside
      have hfits := hside.fits
      have hgot := hside.cash
      have hsold := hside.position
      refine .filled version grantVersion i false amountIn output hlog (by omega) (by omega) ?_
        h.booked.positions ?_
      · rw [if_neg Bool.false_ne_true, cashOf, cashOf]
        omega
      · rw [if_neg Bool.false_ne_true]
        omega

theorem mayLiquidate_silent {es : List TradingVault.Event} (h : TradingVault.MayLiquidate es) :
    ∀ e ∈ es, isSilent e = true := by
  rcases h with rfl | ⟨until_, version, rfl⟩
  · exact fun e he => absurd he List.not_mem_nil
  · intro e he
    rw [List.mem_singleton.mp he]
    rfl

theorem singleton_silent {e : TradingVault.Event} (h : isSilent e = true) :
    ∀ e' ∈ [e], isSilent e' = true := by
  intro e' he
  rw [List.mem_singleton.mp he]
  exact h

/-- A call that sets bounds or the latch. -/
theorem governed_silent {a : Action} {m : Msg} {es : List TradingVault.Event}
    (ha : a.governor = some m) (h : TradingVault.Emits c s' es a) : ∀ e ∈ es, isSilent e = true := by
  cases a with
  | revokeExecutor _ => exact mayLiquidate_silent h.1
  | stop _ => exact mayLiquidate_silent h.1
  | checkRisk _ _ => exact mayLiquidate_silent h
  | setBounds _ _ _ _ _ _ =>
      obtain ⟨version, later, rfl, hlater⟩ := h
      intro e he
      rcases List.mem_cons.mp he with rfl | hin
      · rfl
      · exact mayLiquidate_silent hlater e hin
  | _ => cases ha

theorem native_silent {a : Action} {es : List TradingVault.Event}
    (ha : (∃ m x, a = .rescueNative m x) ∨ ∃ m, a = .receive m) (h : TradingVault.Emits c s' es a) :
    ∀ e ∈ es, isSilent e = true := by
  rcases ha with ⟨_, _, rfl⟩ | ⟨_, rfl⟩
  · obtain ⟨amount, rfl⟩ := h
    exact singleton_silent rfl
  · rw [show es = [] from h]
    exact fun e he => absurd he List.not_mem_nil

/-- A buy that was cancelled left no fill. -/
theorem cancelled_silent {action : TradingVault.Swap} {es : List TradingVault.Event}
    (hes : ∀ e ∈ es, e.isSwap = false)
    (h : TradingVault.Filled c action s' es ∨ TradingVault.Cancelled c action s' es) :
    ∀ e ∈ es, isSilent e = true := by
  rcases h with ⟨_, _, _, rfl, _⟩ | ⟨_, _, _, until_, rfl⟩
  · have hswap := hes _ (List.mem_singleton_self _)
    cases hswap
  · intro e he
    simp only [List.mem_cons, List.not_mem_nil, or_false] at he
    rcases he with rfl | rfl
    · rfl
    · rfl

/-- Idle cash is a machine word, and a step moves cash with its event. -/
theorem step_move {a : Action} (hs : Sized s) (hidle : s.idleCash ≤ maxUint256)
    (h : step c a s = .ok s') : s'.idleCash ≤ maxUint256 ∧ CashMove c s s' := by
  have hmax := maxUint256_lt
  obtain ⟨_, es, hlog, hemits⟩ := TradingVault.step_emits h
  cases TradingVault.step_accepted h with
  | @deposited m amount _ _ _ =>
      simp only [step, callFrom_eq_ok, TradingVault.deposit, bind_eq_ok, checkedAdd_eq_ok,
        pure_eq_ok] at h
      obtain ⟨_, _, _, _, _, _, _, _, _, _, _, _, _, ⟨hfits, rfl⟩, _, _, _, _, _, _, _, _, rfl⟩ := h
      refine ⟨hfits, .paidIn amount _ _ rfl (by omega) ?_ rfl⟩
      show s.idleCash + amount + s.runtimeCash = s.idleCash + s.runtimeCash + amount
      omega
  | @withdrawn _ amount _ _ hwithdrawn =>
      obtain ⟨e, _, hstate⟩ := hwithdrawn.state
      have hle := hwithdrawn.available
      obtain ⟨exited, principal, rfl⟩ := hemits
      have hidle' : s'.idleCash = s.idleCash - amount := by rw [hstate]
      have hruntime : s'.runtimeCash = s.runtimeCash := by rw [hstate]
      refine ⟨by omega, .paidOut _ amount hlog (.inl ⟨exited, principal, rfl⟩) (by omega) ?_ ?_⟩
      · rw [cashOf, cashOf, hidle', hruntime]
        omega
      · rw [hstate]
  | @allocated _ _ amount _ _ _ _ havailable _ _ _ _ =>
      obtain ⟨units, version, rfl⟩ := hemits
      refine ⟨Nat.le_trans (Nat.sub_le _ _) hidle, .silent _ hlog (singleton_silent rfl) ?_ rfl⟩
      show s.idleCash - amount + (s.runtimeCash + amount) = s.idleCash + s.runtimeCash
      omega
  | @deallocated _ _ amount _ _ _ _ havailable _ _ _ =>
      obtain ⟨units, version, rfl⟩ := hemits
      simp only [step, callFrom_eq_ok, TradingVault.deallocate, bind_eq_ok, checkedAdd_eq_ok] at h
      obtain ⟨_, _, _, _, _, _, _, _, _, _, _, _, _, _, _, _, _, ⟨hfits, _⟩, _⟩ := h
      refine ⟨hfits, .silent _ hlog (singleton_silent rfl) ?_ rfl⟩
      show s.idleCash + amount + (s.runtimeCash - amount) = s.idleCash + s.runtimeCash
      omega
  | authorized _ _ _ =>
      obtain ⟨version, rfl⟩ := hemits
      exact ⟨hidle, .silent _ hlog (singleton_silent rfl) rfl rfl⟩
  | governed ha _ _ _ _ => exact ⟨hidle, .silent es hlog (governed_silent ha hemits) rfl rfl⟩
  | cancelled _ _ _ _ hes =>
      have hsame := List.append_cancel_left hlog
      subst hsame
      exact ⟨hidle, .silent _ rfl (cancelled_silent hes hemits.2) rfl rfl⟩
  | traded _ _ htraded =>
      refine ⟨?_, traded_move hs htraded⟩
      rw [htraded.booked.idle]
      exact hidle
  | closing _ =>
      simp only [step, callFrom_eq_ok, TradingVault.close, bind_eq_ok, checkedAdd_eq_ok,
        pure_eq_ok] at h
      obtain ⟨_, _, _, _, _, _, _, _, _, ⟨hfits, rfl⟩, _, _, _, _, _, _, rfl⟩ := h
      refine ⟨Nat.zero_le _, .paidOut _ (s.idleCash + s.runtimeCash) rfl (.inr ⟨_, rfl⟩) (by omega) ?_ rfl⟩
      show 0 + 0 + (s.idleCash + s.runtimeCash) = s.idleCash + s.runtimeCash
      omega
  | rescued hrescued =>
      obtain ⟨amount, rfl⟩ := hemits
      obtain ⟨e, _, hstate⟩ := hrescued.state
      refine ⟨?_, .silent _ hlog (singleton_silent rfl) ?_ ?_⟩
      · rw [hstate]
        exact hidle
      · rw [hstate]
        rfl
      · rw [hstate]
  | native ha _ => exact ⟨hidle, .silent es hlog (native_silent ha hemits) rfl rfl⟩
  | outside _ =>
      rw [show es = [] from hemits] at hlog
      exact ⟨hidle, .silent [] hlog (fun e he => absurd he List.not_mem_nil) rfl rfl⟩

/-! ## Events in the fold -/

def Totals.position (t : Totals) (stock : String) : Position :=
  (t.positions.get? stock).getD ⟨0, 0, 0⟩

/-- What a fill does to the position of its stock. -/
theorem fill_moves {t t' : Totals} {stock : String} {buy : Bool} {input output : Nat}
    (hin : input < 2 ^ 256) (hout : output < 2 ^ 256) (hquantity : 0 ≤ (t.position stock).quantity)
    (h : fill t stock buy (some (normalized (word input))) (some (normalized (word output))) = .ok t') :
    ∃ p, t' = { t with positions := t.positions.set stock p } ∧
      p.quantity = (t.position stock).quantity + (if buy then (output : Int) else -(input : Int)) ∧
      p.realized - p.cost = (t.position stock).realized - (t.position stock).cost +
        (if buy then -(input : Int) else output) ∧
      (p.quantity = 0 → p.cost = 0) := by
  simp only [fill, raw_word, Nat.mod_eq_of_lt hin, Nat.mod_eq_of_lt hout, bind, Except.bind] at h
  split at h
  · cases h
  · next hzero =>
      cases buy with
      | true =>
          simp only [if_true, Except.ok.injEq] at h
          refine ⟨_, h.symm, rfl, ?_, fun hnone => ?_⟩
          · show (t.position stock).realized - ((t.position stock).cost + input) = _
            rw [if_pos rfl]
            omega
          · have hsum : (t.position stock).quantity + (output : Int) = 0 := hnone
            omega
      | false =>
          simp only [Bool.false_eq_true, if_false] at h
          split at h
          · cases h
          · simp only [Except.ok.injEq] at h
            refine ⟨_, h.symm, ?_, ?_, fun hnone => ?_⟩
            · show (t.position stock).quantity - input = _
              rw [if_neg Bool.false_ne_true]
              omega
            · simp only [Bool.false_eq_true, if_false]
              show (t.position stock).realized + (output - _) - ((t.position stock).cost - _) = _
              omega
            · have hall : (input : Int) = (t.position stock).quantity := by
                have hdiff : (t.position stock).quantity - (input : Int) = 0 := hnone
                omega
              rw [Totals.position] at hall
              simp only [if_pos hall, Int.sub_self]

theorem record_silent {e : TradingVault.Event} (h : isSilent e = true) (t : Totals) :
    record t (performanceEvent e) = .ok t := by
  cases e with
  | deposited _ _ _ => cases h
  | withdrawn _ _ _ => cases h
  | closed _ _ => cases h
  | swapExecuted _ _ _ _ _ _ => cases h
  | _ => rfl

theorem silent_recorded {es : List TradingVault.Event} (h : ∀ e ∈ es, isSilent e = true) (t : Totals) :
    (es.map performanceEvent).foldlM record t = .ok t := by
  induction es with
  | nil => rfl
  | cons e rest ih =>
      rw [List.map_cons, List.foldlM_cons, record_silent (h e List.mem_cons_self)]
      exact ih fun e' he => h e' (List.mem_cons_of_mem e he)

theorem record_deposited {amount : Nat} (h : amount < 2 ^ 256) (principal locked : Nat) (t : Totals) :
    record t (performanceEvent (.deposited amount principal locked)) =
      .ok { t with contributed := t.contributed + amount } := by
  show (raw (some (normalized (word amount))) >>= _) = _
  rw [raw_word, Nat.mod_eq_of_lt h]
  rfl

theorem record_paidOut {e : TradingVault.Event} {amount : Nat} (h : amount < 2 ^ 256)
    (he : (∃ exited principal, e = .withdrawn amount exited principal) ∨
      ∃ unlocked, e = .closed amount unlocked) (t : Totals) :
    record t (performanceEvent e) = .ok { t with paidOut := t.paidOut + amount } := by
  rcases he with ⟨_, _, rfl⟩ | ⟨_, rfl⟩
  · show (raw (some (normalized (word amount))) >>= _) = _
    rw [raw_word, Nat.mod_eq_of_lt h]
    rfl
  · show (raw (some (normalized (word amount))) >>= _) = _
    rw [raw_word, Nat.mod_eq_of_lt h]
    rfl

/-! ## The fold and the vault -/

/-- The sum of a figure over the positions of a report. -/
def Totals.sum (f : Position → Int) (t : Totals) : Int := (t.positions.map fun e => f e.2).sum

/-- The sum of a figure over the three stocks. -/
def Totals.overStocks (f : Position → Int) (c : Config) (t : Totals) : Int :=
  ∑ i : Fin 3, f (t.position (addressText (c.stocks i)))

/-- The fold agrees with the vault. -/
structure Conserved (c : Config) (t : Totals) (s : State) : Prop where
  quantity : ∀ token, (t.position (addressText token)).quantity = s.trackedPosition token
  cash : t.contributed - t.paidOut + t.sum Position.realized = cashOf s + t.sum Position.cost
  empty : ∀ e ∈ t.positions, e.2.quantity = 0 → e.2.cost = 0
  listed : t.sum Position.cost = t.overStocks Position.cost c

theorem Totals.sum_set (f : Position → Int) (hf : f ⟨0, 0, 0⟩ = 0) (t : Totals) (stock : String)
    (p : Position) : Totals.sum f { t with positions := t.positions.set stock p } =
      t.sum f - f (t.position stock) + f p := by
  have hold : ((t.positions.get? stock).map f).getD 0 = f (t.position stock) := by
    unfold Totals.position
    cases t.positions.get? stock with
    | none => exact hf.symm
    | some old => rfl
  unfold Totals.sum
  rw [OrderedMap.sum_set_values f, hold]

theorem Totals.position_set (t : Totals) (stock other : String) (p : Position) :
    Totals.position { t with positions := t.positions.set stock p } other =
      if other = stock then p else t.position other := by
  unfold Totals.position
  rw [OrderedMap.get?_set]
  split
  · rfl
  · rfl

theorem Totals.overStocks_set (hid : TradingVault.Identity c) (f : Position → Int) (t : Totals)
    (i : Fin 3) (p : Position) :
    Totals.overStocks f c { t with positions := t.positions.set (addressText (c.stocks i)) p } =
      t.overStocks f c - f (t.position (addressText (c.stocks i))) + f p := by
  have hvalues : ∀ j, f (Totals.position { t with
      positions := t.positions.set (addressText (c.stocks i)) p } (addressText (c.stocks j))) =
      Function.update (fun j => f (t.position (addressText (c.stocks j)))) i (f p) j := by
    intro j
    rw [Totals.position_set, Function.update_apply]
    by_cases hji : j = i
    · rw [if_pos hji, if_pos (by rw [hji])]
    · rw [if_neg hji, if_neg fun heq => hji (hid.stocks (addressText_injective heq))]
  unfold Totals.overStocks
  rw [Finset.sum_congr rfl fun j _ => hvalues j, Finset.sum_update_of_mem (Finset.mem_univ i)]
  have hsplit := Finset.sum_erase_add (f := fun j => f (t.position (addressText (c.stocks j))))
    Finset.univ (Finset.mem_univ i)
  rw [Finset.sdiff_singleton_eq_erase, ← hsplit]
  omega

/-- Only figures of the totals change. -/
theorem Conserved.paid {t : Totals} {contributed paidOut : Int} (h : Conserved c t s)
    (hsame : s'.trackedPosition = s.trackedPosition)
    (hcash : contributed - paidOut - cashOf s' = t.contributed - t.paidOut - cashOf s) :
    Conserved c { t with contributed, paidOut } s' := by
  have hbefore := h.cash
  refine ⟨fun token => ?_, ?_, h.empty, h.listed⟩
  · rw [hsame]
    exact h.quantity token
  · show contributed - paidOut + t.sum Position.realized = cashOf s' + t.sum Position.cost
    omega

theorem Conserved.filled {t t' : Totals} {i : Fin 3} {buy : Bool} {input output : Nat}
    (hid : TradingVault.Identity c) (h : Conserved c t s) (hin : input < 2 ^ 256)
    (hout : output < 2 ^ 256)
    (hcash : (cashOf s' : Int) = cashOf s + if buy then -(input : Int) else output)
    (hmoved : s'.trackedPosition = Function.update s.trackedPosition (c.stocks i)
      (s'.trackedPosition (c.stocks i)))
    (hposition : (s'.trackedPosition (c.stocks i) : Int) =
      s.trackedPosition (c.stocks i) + if buy then (output : Int) else -(input : Int))
    (hfill : fill t (addressText (c.stocks i)) buy (some (normalized (word input)))
      (some (normalized (word output))) = .ok t') : Conserved c t' s' := by
  have hquantity := h.quantity (c.stocks i)
  obtain ⟨p, rfl, hp, hcost, hempty⟩ := fill_moves hin hout (by omega) hfill
  have hbefore := h.cash
  have hlisted := h.listed
  refine ⟨fun token => ?_, ?_, fun e he => ?_, ?_⟩
  · rw [Totals.position_set, hmoved]
    by_cases htoken : token = c.stocks i
    · rw [htoken, if_pos rfl, Function.update_self]
      omega
    · rw [if_neg fun heq => htoken (addressText_injective heq), Function.update_of_ne htoken]
      exact h.quantity token
  · rw [Totals.sum_set _ rfl, Totals.sum_set _ rfl]
    show t.contributed - t.paidOut + _ = _
    omega
  · rcases OrderedMap.mem_of_mem_set he with rfl | hold
    · exact hempty
    · exact h.empty e hold
  · rw [Totals.sum_set _ rfl, Totals.overStocks_set hid]
    omega

/-- The fold refuses the events of the vault, or it agrees with the vault. -/
def Tracked (c : Config) (s : State) : Prop :=
  Refused s ∨ ∃ t, project s.log = .ok t ∧ Conserved c t s

theorem step_tracked {a : Action} (hid : TradingVault.Identity c) (hs : Sized s)
    (hidle : s.idleCash ≤ maxUint256) (ht : Tracked c s) (h : step c a s = .ok s') : Tracked c s' := by
  rcases ht with hrefused | ⟨t, hproject, ht⟩
  · exact .inl (step_refused hs hrefused h)
  · cases (step_move hs hidle h).2 with
    | silent es hlog hes hcash hsame =>
        refine .inr ⟨t, ?_, ht.paid hsame (by rw [hcash])⟩
        rw [hlog, project_append_ok hproject]
        exact silent_recorded hes t
    | paidIn amount principal locked hlog hfits hcash hsame =>
        refine .inr ⟨{ t with contributed := t.contributed + amount }, ?_, ht.paid hsame (by omega)⟩
        rw [hlog, project_snoc hproject]
        exact record_deposited hfits principal locked t
    | paidOut e amount hlog he hfits hcash hsame =>
        refine .inr ⟨{ t with paidOut := t.paidOut + amount }, ?_, ht.paid hsame (by omega)⟩
        rw [hlog, project_snoc hproject]
        exact record_paidOut hfits he t
    | filled version grantVersion i buy input output hlog hin hout hcash hmoved hposition =>
        have hnext : project s'.log = fill t (addressText (c.stocks i)) buy
            (some (normalized (word input))) (some (normalized (word output))) := by
          rw [hlog, project_snoc hproject, record_swap]
        cases hfill : fill t (addressText (c.stocks i)) buy (some (normalized (word input)))
            (some (normalized (word output))) with
        | error code => exact .inl ⟨code, hnext.trans hfill⟩
        | ok t' =>
            exact .inr ⟨t', hnext.trans hfill, ht.filled hid hin hout hcash hmoved hposition hfill⟩

theorem run_tracked (hid : TradingVault.Identity c) (hs : Sized s) (hidle : s.idleCash ≤ maxUint256)
    (ht : Tracked c s) (as : List Action) : Tracked c (exec (step c) s as) := by
  have hkept : ∀ a w w', (Sized w ∧ w.idleCash ≤ maxUint256 ∧ Tracked c w) → step c a w = .ok w' →
      Sized w' ∧ w'.idleCash ≤ maxUint256 ∧ Tracked c w' :=
    fun a w w' hw h => ⟨TradingVault.step_sized hw.1 h, (step_move hw.1 hw.2.1 h).1,
      step_tracked hid hw.1 hw.2.1 hw.2.2 h⟩
  exact (exec_invariant hkept ⟨hs, hidle, ht⟩ as).2.2

/-! ## The report -/

theorem raw_repr {n : Nat} {v : Int} (h : raw (some (.text n.repr)) = .ok v) : v = n := by
  simp only [raw] at h
  split at h
  · rw [Text.ofDecimal_repr, Except.ok.injEq] at h
    exact h.symm
  · cases h

/-- What the report shows of the fold. -/
theorem tradingPerformance_shows {log : List TradingVault.Event} {t : Totals}
    (ht : project log = .ok t) {vaultEquity : Option String} {p : Performance}
    (h : tradingPerformance (log.map performanceEvent) vaultEquity = .ok p) :
    p.grossContributedUsdc = toString t.contributed ∧ p.paidOutUsdc = toString t.paidOut ∧
      p.positions = t.positions.map report ∧
      ∀ n : Nat, vaultEquity = some n.repr →
        p.pnlUsdc = some (toString ((n : Int) - (t.contributed - t.paidOut))) := by
  have hfold : (log.map performanceEvent).foldlM record ⟨0, 0, []⟩ = .ok t := ht
  simp only [tradingPerformance, hfold, ok_bind, bind_eq_ok, pure_eq_ok] at h
  obtain ⟨pnl, hpnl, rfl⟩ := h
  refine ⟨rfl, rfl, rfl, fun n hn => ?_⟩
  subst hn
  obtain ⟨v, hv, hpnl⟩ := bind_eq_ok.mp hpnl
  rw [raw_repr hv] at hpnl
  exact (Except.ok.inj hpnl).symm

section Run

variable {m : Msg} {x : View} {self lockerSelf owner strategyCreator : Address}
  {strategyId strategyRef : Bytes32} {pass usdc router : Address} {stocks feeds : Fin 3 → Address}
  {maxPriceAge : Nat} {tokens : Tokens} {balance : Nat}

/-- The value of a holding at a price, in whole units of cash. -/
def marketValue (c : Config) (prices : Fin 3 → Nat) (s : State) (i : Fin 3) : Nat :=
  s.trackedPosition (c.stocks i) * prices i / 10 ^ 18

/-- The figures of a report: `t` are the numbers that it shows. -/
def Shows (p : Performance) (t : Totals) : Prop :=
  p.grossContributedUsdc = toString t.contributed ∧ p.paidOutUsdc = toString t.paidOut ∧
    p.positions = t.positions.map report

/-- Over every run whose events are accepted, what was paid in less what was paid out, with the
realized profit, is the cash of the vault and the cost of what it holds.  A stock that is not held
has no cost, and at any prices the profit shown is the realized one and what the holdings are worth
above their cost. -/
theorem performance_conserves_cash
    (hnew : TradingVault.constructor m x self lockerSelf owner strategyCreator strategyId strategyRef
      pass usdc router stocks feeds maxPriceAge tokens balance = .ok (c, s))
    (as : List Action) (vaultEquity : Option String) (events : List DecodedContractEvent)
    (performance : Performance)
    (hdecoded : decodeLogs ((exec (step c) s as).log.map emitted) = .ok events)
    (hperformance : tradingPerformance events vaultEquity = .ok performance) :
    ∃ t, Shows performance t ∧
      t.contributed - t.paidOut + t.sum Position.realized =
        (exec (step c) s as).idleCash + (exec (step c) s as).runtimeCash + t.sum Position.cost ∧
      (∀ e ∈ t.positions, e.2.quantity = 0 → e.2.cost = 0) ∧
      ∀ prices : Fin 3 → Nat,
        vaultEquity = some (Nat.repr ((exec (step c) s as).idleCash +
          (exec (step c) s as).runtimeCash + ∑ i, marketValue c prices (exec (step c) s as) i)) →
        performance.pnlUsdc = some (toString (t.sum Position.realized +
          ∑ i, ((marketValue c prices (exec (step c) s as) i : Int) -
            (t.position (addressText (c.stocks i))).cost))) := by
  obtain ⟨hid, _, _, _, hsized, hlog, hflat⟩ := TradingVault.constructor_ok hnew
  obtain ⟨hidle, hruntime⟩ : s.idleCash = 0 ∧ s.runtimeCash = 0 := by
    simp only [TradingVault.constructor, bind_eq_ok, pure_eq_ok, Prod.mk.injEq] at hnew
    obtain ⟨_, _, _, _, _, _, _, _, ⟨l, ls⟩, _, _, rfl⟩ := hnew
    exact ⟨rfl, rfl⟩
  have hstart : Tracked c s := by
    refine .inr ⟨⟨0, 0, []⟩, by rw [hlog]; rfl, fun token => ?_, ?_, ?_, ?_⟩
    · rw [hflat token]
      rfl
    · rw [cashOf, hidle, hruntime]
      rfl
    · exact fun e he => absurd he List.not_mem_nil
    · simp [Totals.sum, Totals.overStocks, Totals.position, OrderedMap.get?]
  rw [decodeLogs_emitted, Except.ok.injEq] at hdecoded
  subst hdecoded
  obtain ⟨⟨t, hproject⟩, _⟩ := tradingPerformance_ok hperformance
  obtain ⟨hgross, hpaid, hpositions, hpnl⟩ := tradingPerformance_shows hproject hperformance
  rcases run_tracked hid hsized (by rw [hidle]; exact Nat.zero_le _) hstart as with ⟨e, he⟩ | ⟨t', ht', h⟩
  · rw [hproject] at he
    cases he
  · rw [hproject, Except.ok.injEq] at ht'
    subst ht'
    have hcash := h.cash
    have hlisted := h.listed
    rw [cashOf] at hcash
    refine ⟨t, ⟨hgross, hpaid, hpositions⟩, by push_cast at hcash; exact hcash, h.empty,
      fun prices hequity => ?_⟩
    rw [hpnl _ hequity, Finset.sum_sub_distrib]
    unfold Totals.overStocks at hlisted
    have hvalue : ((∑ i, marketValue c prices (exec (step c) s as) i : Nat) : Int) =
        ∑ i, (marketValue c prices (exec (step c) s as) i : Int) := Nat.cast_sum _ _
    rw [← hlisted, ← hvalue]
    congr 2
    omega

/-- A run without a sell for nothing is reported. -/
theorem run_reported
    (hnew : TradingVault.constructor m x self lockerSelf owner strategyCreator strategyId strategyRef
      pass usdc router stocks feeds maxPriceAge tokens balance = .ok (c, s))
    (as : List Action) (hsells : ∀ t ∈ history (step c) s as, sellsForNothing c t.action = false)
    {vaultEquity : Option String} (hequity : acceptable vaultEquity) :
    ∃ performance, tradingPerformance ((exec (step c) s as).log.map performanceEvent) vaultEquity =
      .ok performance := by
  obtain ⟨_, _, _, _, hsized, hlog, hflat⟩ := TradingVault.constructor_ok hnew
  have hstart : Projected s := by
    refine ⟨⟨0, 0, []⟩, by rw [hlog]; rfl, fun token => ?_⟩
    rw [hflat token]
    rfl
  obtain ⟨totals, hok, _⟩ := run_projected hsized hstart hsells
  obtain ⟨performance, hperformance, _⟩ := tradingPerformance_of hok hequity
  exact ⟨performance, hperformance⟩

end Run

/-- The sample run: a thousand units paid in, most of them at work, a buy and a sell. -/
theorem example_conserves_cash :
    ∃ c s, TradingVault.constructor (TradingVault.exampleMsg 3 99) TradingVault.exampleView 1 2 3 4 1 1
        5 6 10 ![7, 8, 9] ![17, 18, 19] 60 TradingVault.exampleTokens 0 = .ok (c, s) ∧
      ∃ events performance,
        decodeLogs ((exec (step c) s TradingVault.exampleRun).log.map emitted) = .ok events ∧
        tradingPerformance events (some "749") = .ok performance ∧
        ∃ t, Shows performance t ∧
          t.contributed - t.paidOut + t.sum Position.realized =
            (exec (step c) s TradingVault.exampleRun).idleCash +
              (exec (step c) s TradingVault.exampleRun).runtimeCash + t.sum Position.cost := by
  have h : TradingVault.constructor (TradingVault.exampleMsg 3 99) TradingVault.exampleView 1 2 3 4 1 1
      5 6 10 ![7, 8, 9] ![17, 18, 19] 60 TradingVault.exampleTokens 0 = .ok (_, _) := rfl
  have hequity : acceptable (some "749") := by
    rintro v ⟨⟩
    exact ⟨749, by decide⟩
  obtain ⟨performance, hperformance⟩ := run_reported h TradingVault.exampleRun (by decide) hequity
  obtain ⟨t, hshows, hcash, _⟩ := performance_conserves_cash h TradingVault.exampleRun (some "749") _
    performance (decodeLogs_emitted _) hperformance
  exact ⟨_, _, h, _, performance, decodeLogs_emitted _, hperformance, t, hshows, hcash⟩

end Indexer
end AlphaForge
