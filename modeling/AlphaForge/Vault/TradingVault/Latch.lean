/-
The liquidation latch and the executor's window over whole runs.

Four calls can set the latch and only a new grant lifts it.  While it is set the
vault can only sell, and the executor has until the end of a window that was
fixed when the latch was set.
-/
import AlphaForge.Vault.TradingVault.Backing

namespace AlphaForge
namespace TradingVault

open Evm Machine

variable {c : Config} {s s' : State}

/-- The context of a call to the vault. -/
def Action.msg : Action → Option Msg
  | .deposit m _ | .allocate m _ _ | .deallocate m _ _ | .withdraw m _ | .authorizeExecutor m _
  | .revokeExecutor m | .stop m | .setBounds m _ _ _ _ _ | .checkRisk m _ | .execute m _ _ _
  | .close m | .rescueUntrackedToken m _ | .rescueNative m _ | .receive m => some m
  | .outside _ => none

/-- The context of an `execute`. -/
def Action.executing : Action → Option Msg
  | .execute m _ _ _ => some m
  | _ => none

def Action.authorizes : Action → Bool
  | .authorizeExecutor _ _ => true
  | _ => false

def Action.allocates : Action → Bool
  | .allocate _ _ _ => true
  | _ => false

/-- The AF-USDC an accepted buy that is not the owner's spends.  A buy that was
cancelled spends none. -/
def executorBuy (c : Config) (t : Transition State Action) : Nat :=
  match t.action with
  | .execute m _ _ action =>
      if m.sender = c.owner ∨ action.tokenIn ≠ c.afUsdc then 0
      else t.pre.runtimeCash - t.post.runtimeCash
  | _ => 0

/-- The terms under which the vault trades: the latch, the grant but for its
executor, what was bought under it, and the positions. -/
structure SameTerms (s s' : State) : Prop where
  liquidating : s'.liquidating = s.liquidating
  until_ : s'.liquidationUntil = s.liquidationUntil
  window : s'.grant.liquidationWindow = s.grant.liquidationWindow
  expiry : s'.grant.expiresAt = s.grant.expiresAt
  limit : s'.grant.maxTotalBuyUsdc = s.grant.maxTotalBuyUsdc
  version : s'.grantVersion = s.grantVersion
  total : s'.totalBuyUsdc = s.totalBuyUsdc
  positions : s'.trackedPosition = s.trackedPosition

theorem governor_msg {a : Action} {m : Msg} (h : a.governor = some m) :
    a.msg = some m ∧ a.executing = none ∧ a.authorizes = false ∧ a.allocates = false := by
  cases a with
  | revokeExecutor _ => exact ⟨h, rfl, rfl, rfl⟩
  | stop _ => exact ⟨h, rfl, rfl, rfl⟩
  | setBounds _ _ _ _ _ _ => exact ⟨h, rfl, rfl, rfl⟩
  | checkRisk _ _ => exact ⟨h, rfl, rfl, rfl⟩
  | _ => cases h

theorem executorBuy_of_none {t : Transition State Action} (h : t.action.executing = none) :
    executorBuy c t = 0 := by
  unfold executorBuy
  split
  · next he =>
    rw [he] at h
    cases h
  · rfl

/-- Money in and out, and anything outside, leaves the terms. -/
theorem step_aside {a : Action} (hexec : a.executing = none) (hauth : a.authorizes = false)
    (hgov : a.governor = none) (h : step c a s = .ok s') : SameTerms s s' := by
  cases step_accepted h with
  | deposited _ hdep =>
      obtain ⟨_, _, hs⟩ := hdep.state
      rw [hs]
      exact ⟨rfl, rfl, rfl, rfl, rfl, rfl, rfl, rfl⟩
  | withdrawn hwith =>
      obtain ⟨_, _, hs⟩ := hwith.state
      rw [hs]
      exact ⟨rfl, rfl, rfl, rfl, rfl, rfl, rfl, rfl⟩
  | closing hclose =>
      obtain ⟨_, _, hs⟩ := hclose.state
      rw [hs]
      exact ⟨rfl, rfl, rfl, rfl, rfl, rfl, rfl, rfl⟩
  | rescued hrescue =>
      obtain ⟨_, _, hs⟩ := hrescue.state
      rw [hs]
      exact ⟨rfl, rfl, rfl, rfl, rfl, rfl, rfl, rfl⟩
  | authorized _ _ _ => cases hauth
  | governed ha _ _ _ _ =>
      rw [ha] at hgov
      cases hgov
  | cancelled _ _ _ _ _ => cases hexec
  | traded _ _ _ => cases hexec
  | _ => exact ⟨rfl, rfl, rfl, rfl, rfl, rfl, rfl, rfl⟩

/-! ## The latch -/

/-- The window of a state whose latch was set at `start`. -/
structure Window (start : Nat) (s : State) : Prop where
  liquidating : s.liquidating = true
  fromStart : s.liquidationUntil ≤ start + s.grant.liquidationWindow
  fromExpiry : s.liquidationUntil ≤ s.grant.expiresAt + s.grant.liquidationWindow

/-- What a step leaves as it is while the latch is set. -/
structure Held (s s' : State) : Prop where
  liquidating : s'.liquidating = true
  until_ : s'.liquidationUntil = s.liquidationUntil
  window : s'.grant.liquidationWindow = s.grant.liquidationWindow
  expiry : s'.grant.expiresAt = s.grant.expiresAt
  positions : ∀ token, s'.trackedPosition token ≤ s.trackedPosition token

theorem Window.held {start : Nat} (hw : Window start s) (h : Held s s') : Window start s' := by
  refine ⟨h.liquidating, ?_, ?_⟩
  · rw [h.until_, h.window]
    exact hw.fromStart
  · rw [h.until_, h.window, h.expiry]
    exact hw.fromExpiry

theorem SameTerms.held (h : SameTerms s s') (hs : s.liquidating = true) : Held s s' := by
  refine ⟨h.liquidating.trans hs, h.until_, h.window, h.expiry, fun token => ?_⟩
  rw [h.positions]

theorem Latch.held {m : Msg} {liquidating : Bool} {liquidationUntil : Nat}
    (h : Latch m s liquidating liquidationUntil) (hs : s.liquidating = true) :
    liquidating = true ∧ liquidationUntil = s.liquidationUntil := by
  rcases h with ⟨hl, hu⟩ | ⟨hopen, _⟩
  · exact ⟨hl.trans hs, hu⟩
  · rw [hs] at hopen
    cases hopen

theorem Latch.opened {m : Msg} {liquidating : Bool} {liquidationUntil : Nat}
    (h : Latch m s liquidating liquidationUntil) (hopen : s.liquidating = false)
    (hset : liquidating = true) :
    liquidationUntil ≤ m.timestamp + s.grant.liquidationWindow ∧
      liquidationUntil ≤ s.grant.expiresAt + s.grant.liquidationWindow := by
  rcases h with ⟨hl, _⟩ | ⟨_, _, hstart, hexpiry⟩
  · rw [hset, hopen] at hl
    cases hl
  · exact ⟨hstart, hexpiry⟩

/-- A trade with the latch set is a sell. -/
theorem Traded.held {m : Msg} {r : RouterCall} {buy : Bool} {i : Fin 3} {amountIn output : Nat}
    (h : Traded c m r buy i amountIn output s s') (hauth : Authorized c m buy s)
    (hs : s.liquidating = true) : Held s s' := by
  have hbooked := h.booked
  have hsell : buy = false := by
    by_contra hbuy
    rw [hauth.buying (by simpa using hbuy)] at hs
    cases hs
  subst hsell
  have hside := h.side
  rw [if_neg (by decide)] at hside
  have hsold := hside.position
  refine ⟨hbooked.latch.1.trans hs, hbooked.latch.2, by rw [hbooked.grant.1],
    by rw [hbooked.grant.1], fun token => ?_⟩
  rw [hbooked.positions]
  by_cases htoken : token = c.stocks i
  · rw [htoken, Function.update_self]
    omega
  · rw [Function.update_of_ne htoken]

theorem step_held {a : Action} (hs : s.liquidating = true) (ha : a.authorizes = false)
    (h : step c a s = .ok s') : Held s s' ∧ a.allocates = false := by
  cases step_accepted h with
  | allocated _ _ _ hopen _ _ =>
      rw [hs] at hopen
      cases hopen
  | authorized _ _ _ => cases ha
  | governed hgov _ hgrant hlatch _ =>
      obtain ⟨hliquidating, huntil⟩ := hlatch.held hs
      refine ⟨⟨hliquidating, huntil, ?_, ?_, fun _ => Nat.le_refl _⟩, (governor_msg hgov).2.2.2⟩
      · show Grant.liquidationWindow _ = _
        rw [hgrant]
      · show Grant.expiresAt _ = _
        rw [hgrant]
  | cancelled _ _ _ hlatch _ =>
      obtain ⟨hliquidating, huntil⟩ := hlatch.held hs
      exact ⟨⟨hliquidating, huntil, rfl, rfl, fun _ => Nat.le_refl _⟩, rfl⟩
  | traded _ hauth htrade => exact ⟨htrade.held hauth hs, rfl⟩
  | native hpay _ =>
      rcases hpay with ⟨_, _, rfl⟩ | ⟨_, rfl⟩ <;> exact ⟨(step_aside rfl rfl rfl h).held hs, rfl⟩
  | _ => exact ⟨(step_aside rfl rfl rfl h).held hs, rfl⟩

/-- The call that sets the latch starts a window from its own time. -/
theorem step_opens {a : Action} (hopen : s.liquidating = false) (hset : s'.liquidating = true)
    (h : step c a s = .ok s') : ∃ m, a.msg = some m ∧ Window m.timestamp s' := by
  have hstays : SameTerms s s' → ∃ m, a.msg = some m ∧ Window m.timestamp s' := by
    intro hsame
    rw [hsame.liquidating, hopen] at hset
    cases hset
  cases step_accepted h with
  | authorized _ _ _ => cases hset
  | governed hgov _ hgrant hlatch _ =>
      have hwindow := hlatch.opened hopen hset
      refine ⟨_, (governor_msg hgov).1, hset, ?_, ?_⟩
      · show _ ≤ _ + Grant.liquidationWindow _
        rw [hgrant]
        exact hwindow.1
      · show _ ≤ Grant.expiresAt _ + Grant.liquidationWindow _
        rw [hgrant]
        exact hwindow.2
  | cancelled _ _ _ hlatch _ =>
      have hwindow := hlatch.opened hopen hset
      exact ⟨_, rfl, hset, hwindow.1, hwindow.2⟩
  | traded _ _ htrade =>
      rw [htrade.booked.latch.1, hopen] at hset
      cases hset
  | native hpay _ =>
      rcases hpay with ⟨_, _, rfl⟩ | ⟨_, rfl⟩ <;> exact hstays (step_aside rfl rfl rfl h)
  | _ => exact hstays (step_aside rfl rfl rfl h)

/-- In every reachable state a latch that is set has a window that some call
started and that ends within the grant's. -/
theorem step_window {a : Action} (hs : s.liquidating = true → ∃ start, Window start s)
    (h : step c a s = .ok s') : s'.liquidating = true → ∃ start, Window start s' := by
  intro hset
  by_cases hbefore : s.liquidating = true
  · by_cases ha : a.authorizes = true
    · cases step_accepted h with
      | authorized _ _ _ => cases hset
      | governed hgov _ _ _ _ =>
          rw [(governor_msg hgov).2.2.1] at ha
          cases ha
      | native hpay _ => rcases hpay with ⟨_, _, rfl⟩ | ⟨_, rfl⟩ <;> cases ha
      | _ => cases ha
    · obtain ⟨start, hw⟩ := hs hbefore
      exact ⟨start, hw.held (step_held hbefore (by simpa using ha) h).1⟩
  · obtain ⟨m, _, hw⟩ := step_opens (by simpa using hbefore) hset h
    exact ⟨m.timestamp, hw⟩

/-- An accepted `execute` that is not the owner's is in time. -/
theorem step_executing {a : Action} {m : Msg} (ha : a.executing = some m)
    (hne : m.sender ≠ c.owner) (h : step c a s = .ok s') :
    if s.liquidating then m.timestamp ≤ s.liquidationUntil
    else m.timestamp ≤ s.grant.expiresAt + s.grant.liquidationWindow := by
  cases step_accepted h with
  | cancelled _ _ hauth _ _ =>
      cases ha
      exact hauth.window hne
  | traded _ hauth _ =>
      cases ha
      exact hauth.window hne
  | governed hgov _ _ _ _ =>
      rw [(governor_msg hgov).2.1] at ha
      cases ha
  | native hpay _ => rcases hpay with ⟨_, _, rfl⟩ | ⟨_, rfl⟩ <;> cases ha
  | _ => cases ha

/-- A grant given while the latch is set finds every position closed. -/
theorem step_authorizes {a : Action} (ha : a.authorizes = true) (hs : s.liquidating = true)
    (hw : Working c s) (h : step c a s = .ok s') (token : Address) :
    s.trackedPosition token = 0 := by
  cases step_accepted h with
  | authorized _ hflat _ => exact hw.flat (hflat hs) token
  | governed hgov _ _ _ _ =>
      rw [(governor_msg hgov).2.2.1] at ha
      cases ha
  | native hpay _ => rcases hpay with ⟨_, _, rfl⟩ | ⟨_, rfl⟩ <;> cases ha
  | _ => cases ha

/-! ## The buy total of a grant -/

/-- What a trade adds to the total, which is at least what it counts for the
executor. -/
theorem Traded.total {m : Msg} (feeds : Feeds) {r : RouterCall} {action : Swap} {buy : Bool}
    {i : Fin 3} {output : Nat} (h : Traded c m r buy i action.amountIn output s s')
    (hbuy : buy = decide (action.tokenIn = c.afUsdc)) :
    s.totalBuyUsdc + executorBuy c ⟨s, .execute m feeds r action, s'⟩ ≤ s'.totalBuyUsdc ∧
      (executorBuy c ⟨s, .execute m feeds r action, s'⟩ = 0 ∨
        s'.totalBuyUsdc ≤ s.grant.maxTotalBuyUsdc) := by
  have hside := h.side
  have hbudget := h.budget
  simp only [executorBuy]
  cases buy with
  | true =>
      rw [if_pos rfl] at hside
      have hcash := hside.cash
      have htotal := hside.total
      have hlimit := hbudget rfl
      split <;> omega
  | false =>
      rw [if_neg (by decide)] at hside
      have htotal := hside.total
      have hnot : action.tokenIn ≠ c.afUsdc := by simpa using hbuy.symm
      rw [if_pos (Or.inr hnot)]
      exact ⟨Nat.le_of_eq htotal.symm, Or.inl rfl⟩

/-- Under one grant the limit stays and the total counts every buy. -/
theorem step_budget {a : Action} (h : step c a s = .ok s') :
    s.grantVersion ≤ s'.grantVersion ∧ (s'.grantVersion = s.grantVersion →
      s'.grant.maxTotalBuyUsdc = s.grant.maxTotalBuyUsdc ∧
        s.totalBuyUsdc + executorBuy c ⟨s, a, s'⟩ ≤ s'.totalBuyUsdc) := by
  have hstays : SameTerms s s' → a.executing = none → s.grantVersion ≤ s'.grantVersion ∧
      (s'.grantVersion = s.grantVersion → s'.grant.maxTotalBuyUsdc = s.grant.maxTotalBuyUsdc ∧
        s.totalBuyUsdc + executorBuy c ⟨s, a, s'⟩ ≤ s'.totalBuyUsdc) := by
    intro hsame ha
    rw [executorBuy_of_none ha]
    exact ⟨Nat.le_of_eq hsame.version.symm,
      fun _ => ⟨hsame.limit, Nat.le_of_eq hsame.total.symm⟩⟩
  cases step_accepted h with
  | authorized _ _ _ =>
      refine ⟨Nat.le_succ _, fun hsame => ?_⟩
      exact absurd hsame (Nat.succ_ne_self _)
  | governed hgov _ hgrant _ _ =>
      refine ⟨Nat.le_refl _, fun _ => ⟨?_, ?_⟩⟩
      · show Grant.maxTotalBuyUsdc _ = _
        rw [hgrant]
      · rw [executorBuy_of_none (governor_msg hgov).2.1]
        exact Nat.le_refl _
  | cancelled _ _ _ _ _ =>
      refine ⟨Nat.le_refl _, fun _ => ⟨rfl, ?_⟩⟩
      simp [executorBuy]
  | traded hbuy _ htrade =>
      refine ⟨Nat.le_of_eq htrade.booked.grant.2.symm, fun _ => ⟨?_, (htrade.total _ hbuy).1⟩⟩
      rw [htrade.booked.grant.1]
  | native hpay _ =>
      rcases hpay with ⟨_, _, rfl⟩ | ⟨_, rfl⟩ <;> exact hstays (step_aside rfl rfl rfl h) rfl
  | _ => exact hstays (step_aside rfl rfl rfl h) rfl

theorem step_spend {a : Action} (h : step c a s = .ok s') :
    executorBuy c ⟨s, a, s'⟩ = 0 ∨
      s.totalBuyUsdc + executorBuy c ⟨s, a, s'⟩ ≤ s.grant.maxTotalBuyUsdc := by
  cases step_accepted h with
  | cancelled _ _ _ _ _ => exact Or.inl (by simp [executorBuy])
  | @traded m feeds r action buy i output s' hbuy _ htrade =>
      obtain ⟨htotal, hlimit⟩ := htrade.total feeds hbuy
      omega
  | governed hgov _ _ _ _ => exact Or.inl (executorBuy_of_none (governor_msg hgov).2.1)
  | native hpay _ =>
      rcases hpay with ⟨_, _, rfl⟩ | ⟨_, rfl⟩ <;> exact Or.inl rfl
  | _ => exact Or.inl rfl

/-! ## Whole runs -/

section Run

variable {m : Msg} {x : View} {self lockerSelf owner strategyCreator : Address}
  {strategyId strategyRef : Bytes32} {pass usdc router : Address} {stocks feeds : Fin 3 → Address}
  {maxPriceAge : Nat} {tokens : Tokens} {balance : Nat}

/-- The latch over a run.  After the call `a` that sets it and before the next
grant, positions only fall, nothing is allocated, the end of the window stays and
whoever is not the owner trades within it, and the next grant finds nothing held.
The executor's buys under each grant stay in its total, and nothing but the
owner's trades is accepted after the grant and its window. -/
theorem liquidation_latch_in_every_run
    (hnew : constructor m x self lockerSelf owner strategyCreator strategyId strategyRef pass usdc
      router stocks feeds maxPriceAge tokens balance = .ok (c, s)) :
    s.liquidating = false ∧
    (∀ before a between u, step c a (exec (step c) s before) = .ok u →
      (exec (step c) s before).liquidating = false → u.liquidating = true →
      (∀ t ∈ history (step c) u between, t.action.authorizes = false) →
      (∀ t ∈ history (step c) u between,
        (∀ token, t.post.trackedPosition token ≤ t.pre.trackedPosition token) ∧
        t.action.allocates = false ∧ t.post.liquidationUntil = u.liquidationUntil ∧
        ∃ start, a.msg = some start ∧ ∀ call, t.action.executing = some call →
          call.sender ≠ c.owner →
          call.timestamp ≤ min (start.timestamp + t.pre.grant.liquidationWindow)
            (t.pre.grant.expiresAt + t.pre.grant.liquidationWindow)) ∧
      ∀ b v, b.authorizes = true → step c b (exec (step c) u between) = .ok v →
        ∀ token, (exec (step c) u between).trackedPosition token = 0) ∧
    (∀ as, ∀ u ∈ history (step c) s as,
      (((history (step c) s as).filter (fun t => t.pre.grantVersion = u.pre.grantVersion)).map
        (executorBuy c)).sum ≤ u.pre.grant.maxTotalBuyUsdc) ∧
    ∀ as, ∀ t ∈ history (step c) s as, ∀ call, t.action.executing = some call →
      call.sender ≠ c.owner →
      call.timestamp ≤ t.pre.grant.expiresAt + t.pre.grant.liquidationWindow := by
  obtain ⟨hid, hworking, _, hopen, _⟩ := constructor_ok hnew
  have hstepWorking : ∀ a u u', Working c u → step c a u = .ok u' → Working c u' :=
    fun a _ _ hw h => step_working hid a hw h
  refine ⟨hopen, ?_, fun as => ?_, fun as t ht call hcall hne => ?_⟩
  · intro before a between u hset hbefore hafter hkeep
    obtain ⟨start, hstart, hwindow⟩ := step_opens hbefore hafter hset
    have hpre := history_pre
      (P := fun w : State => Window start.timestamp w ∧ w.liquidationUntil = u.liquidationUntil)
      (fun t ht hw =>
        have hheld := (step_held hw.1.liquidating (hkeep t ht) (history_step ht)).1
        ⟨hw.1.held hheld, hheld.until_.trans hw.2⟩) ⟨hwindow, rfl⟩
    refine ⟨fun t ht => ?_, fun b v hb hv token => ?_⟩
    · obtain ⟨hw, huntil⟩ := hpre t ht
      obtain ⟨hheld, hallocates⟩ := step_held hw.liquidating (hkeep t ht) (history_step ht)
      refine ⟨hheld.positions, hallocates, hheld.until_.trans huntil, start, hstart, ?_⟩
      intro call hcall hne
      have htime := step_executing hcall hne (history_step ht)
      rw [if_pos hw.liquidating] at htime
      exact le_min (Nat.le_trans htime hw.fromStart) (Nat.le_trans htime hw.fromExpiry)
    · have hlatched : (exec (step c) u between).liquidating = true :=
        exec_kept (P := fun w : State => w.liquidating = true)
          (fun t ht hw => (step_held hw (hkeep t ht) (history_step ht)).1.liquidating) hafter
      have hflat : Working c (exec (step c) u between) :=
        exec_invariant hstepWorking (hstepWorking a _ _ (exec_invariant hstepWorking hworking before)
          hset) between
      exact step_authorizes hb hlatched hflat hv token
  · exact history_epoch_budget State.grantVersion State.totalBuyUsdc
      (fun w => w.grant.maxTotalBuyUsdc) (executorBuy c) (fun _ _ _ h => (step_budget h).1)
      (fun _ _ _ h => (step_budget h).2) (fun _ _ _ h => step_spend h) s as
  · have hwindow := (history_invariant
      (P := fun w : State => w.liquidating = true → ∃ start, Window start w)
      (fun _ _ _ hw h => step_window hw h)
      (fun hset => absurd (hopen.symm.trans hset) (by decide)) ht).1
    have htime := step_executing hcall hne (history_step ht)
    split at htime
    · next hset =>
      obtain ⟨start, hw⟩ := hwindow hset
      exact Nat.le_trans htime hw.fromExpiry
    · exact htime

end Run

/-- The owner stops the vault at 110, and the executor sells what is left. -/
def exampleExit : List Action :=
  [.execute (exampleMsg 12 125) (fun _ => ⟨2 * 10 ^ 6, 120, 1⟩)
    (exampleSwap 7 6 (75 * 10 ^ 12) 150) ⟨7, 6, 75 * 10 ^ 12, 149, 130, 6⟩]

theorem latch_after_stop :
    ∃ c s, constructor (exampleMsg 3 99) exampleView 1 2 3 4 1 1 5 6 10 ![7, 8, 9] ![17, 18, 19] 60
        exampleTokens 0 = .ok (c, s) ∧
      (exec (step c) s (exampleRun ++ [.stop (exampleMsg 3 110)])).liquidationUntil = 130 ∧
      (history (step c) (exec (step c) s (exampleRun ++ [.stop (exampleMsg 3 110)]))
        exampleExit).length = 1 ∧
      ∀ t ∈ history (step c) (exec (step c) s (exampleRun ++ [.stop (exampleMsg 3 110)])) exampleExit,
        t.post.liquidationUntil =
          (exec (step c) s (exampleRun ++ [.stop (exampleMsg 3 110)])).liquidationUntil := by
  have h : constructor (exampleMsg 3 99) exampleView 1 2 3 4 1 1 5 6 10 ![7, 8, 9] ![17, 18, 19] 60
      exampleTokens 0 = .ok (_, _) := rfl
  refine ⟨_, _, h, by decide, by decide, fun t ht => ?_⟩
  exact (((liquidation_latch_in_every_run h).2.1 exampleRun (.stop (exampleMsg 3 110)) exampleExit _
    rfl (by decide) (by decide) (by decide)).1 t ht).2.2.1

end TradingVault
end AlphaForge
