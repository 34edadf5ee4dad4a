/-
A permit respects the policy it was granted under.

The engine checks targets, deltas and sums on its way.  What the user relies on is
the portfolio that the orders of the permit make of the snapshot: this is computed
here from the permit alone, and followed through the loop over the targets.
-/
import AlphaForge.Security.Permit

namespace AlphaForge
namespace Security

open Evm Commit Text

/-! ## Portfolios -/

def position (portfolio : OrderedMap String Int) (instrument : String) : Int :=
  (portfolio.get? instrument).getD 0

def gross (portfolio : OrderedMap String Int) : Int := (portfolio.map fun e => |e.2|).sum

/-- The positions of a snapshot. -/
def held (account : AccountSnapshot) : OrderedMap String Int :=
  account.positionNotionalUsdMicros.entries.map fun e => (e.1, bigInt e.2)

def applyOrder (portfolio : OrderedMap String Int) (order : ExecutionOrder) : OrderedMap String Int :=
  portfolio.set order.instrument
    (position portfolio order.instrument + bigInt order.deltaNotionalUsdMicros)

def applyOrders (portfolio : OrderedMap String Int) (orders : List ExecutionOrder) :
    OrderedMap String Int :=
  orders.foldl applyOrder portfolio

/-- A position that becomes smaller or stays, and does not change its side. -/
def Shrinks (before after : Int) : Prop :=
  |after| ≤ |before| ∧ (after = 0 ∨ (0 < after ∧ 0 < before) ∨ (after < 0 ∧ before < 0))

theorem position_set (portfolio : OrderedMap String Int) (k i : String) (v : Int) :
    position (portfolio.set k v) i = if i = k then v else position portfolio i := by
  unfold position
  rw [OrderedMap.get?_set]
  split <;> rfl

theorem gross_set (portfolio : OrderedMap String Int) (k : String) (v : Int) :
    gross (portfolio.set k v) = gross portfolio - |position portfolio k| + |v| := by
  have hold : ((portfolio.get? k).map fun w : Int => |w|).getD 0 = |position portfolio k| := by
    unfold position
    cases portfolio.get? k with
    | none => rfl
    | some w => rfl
  unfold gross
  rw [OrderedMap.sum_set_values, hold]

theorem grossNotional_eq (portfolio : OrderedMap String Int) :
    grossNotional (portfolio.map Prod.snd) = gross portfolio := by
  have hfrom : ∀ (values : List Int) (total : Int),
      values.foldl (fun total value => total + |value|) total =
        total + (values.map fun v => |v|).sum := by
    intro values
    induction values with
    | nil => simp
    | cons v rest ih =>
        intro total
        rw [List.foldl_cons, ih, List.map_cons, List.sum_cons, add_assoc]
  unfold grossNotional gross
  rw [hfrom, zero_add, List.map_map]
  rfl

/-- An amount is read back from its text. -/
theorem bigInt_toString (n : Int) : bigInt (toString n) = n := by
  have hdigits : ∀ m : Nat, (Nat.ofDigitChars 10 m.repr.toList 0 : Int) = m := by
    intro m
    rw [Nat.toList_repr, Nat.ofDigitChars_ten_toDigits]
  unfold bigInt
  rw [Json.toString_int]
  by_cases hneg : n < 0
  · rw [if_pos hneg]
    show -(Nat.ofDigitChars 10 n.natAbs.repr.toList 0 : Int) = n
    rw [hdigits]
    omega
  · rw [if_neg hneg]
    obtain ⟨d, rest, hd, hdigit⟩ := Json.repr_cons n.natAbs
    have hminus : d ≠ '-' := by
      rintro rfl
      exact absurd hdigit (by decide)
    have hvalue := hdigits n.natAbs
    rw [hd] at hvalue ⊢
    split
    · next heq => exact absurd (List.cons.inj heq).1 hminus
    · rw [hvalue]
      omega

/-! ## Values that passed a check -/

theorem check_eq_ok {p : Prop} [Decidable p] {code message : String} {u : Unit} :
    check p code message = .ok u ↔ p := ensure_eq_ok

theorem parseAmount_eq_ok {name value : String} {n : Int} (h : parseAmount name value = .ok n) :
    n = bigInt value := by
  simp only [parseAmount, bind_eq_ok, pure_eq_ok] at h
  obtain ⟨_, _, hn⟩ := h
  exact hn.symm

theorem parsePositiveAmount_eq_ok {name value : String} {n : Int}
    (h : parsePositiveAmount name value = .ok n) : n = bigInt value := by
  simp only [parsePositiveAmount, bind_eq_ok, pure_eq_ok] at h
  obtain ⟨amount, hamount, _, _, rfl⟩ := h
  exact parseAmount_eq_ok hamount

theorem parseTimestamp_eq_ok {name value : String} {t : Int} (h : parseTimestamp name value = .ok t) :
    dateParse value = some t := by
  unfold parseTimestamp at h
  split at h
  · cases h
  · next parsed hparsed =>
      simp only [bind_eq_ok, pure_eq_ok] at h
      obtain ⟨_, _, rfl⟩ := h
      exact hparsed

theorem readPositions_from {entries : List (String × String)} {done positions : OrderedMap String Int}
    (hnodup : (done.keys ++ entries.map Prod.fst).Nodup)
    (h : entries.foldlM (fun positions e => do
      let amount ← parseAmount ("account.position." ++ e.1) e.2
      return OrderedMap.set e.1 amount positions) done = .ok positions) :
    positions = done ++ entries.map fun e => (e.1, bigInt e.2) := by
  induction entries generalizing done with
  | nil =>
      rw [List.foldlM_nil, pure_eq_ok] at h
      rw [← h, List.map_nil, List.append_nil]
  | cons e rest ih =>
      rw [List.foldlM_cons, bind_eq_ok] at h
      obtain ⟨next, hnext, hrest⟩ := h
      simp only [bind_eq_ok, pure_eq_ok] at hnext
      obtain ⟨amount, hamount, rfl⟩ := hnext
      obtain rfl := parseAmount_eq_ok hamount
      have hnew : e.1 ∉ done.keys := by
        intro hmem
        have hdisjoint := (List.nodup_append.mp hnodup).2.2
        exact hdisjoint e.1 hmem e.1 (by simp) rfl
      rw [OrderedMap.set_eq_append (OrderedMap.get?_eq_none_iff.mpr hnew)] at hrest
      rw [ih ?_ hrest, List.map_cons, List.append_assoc]
      · rfl
      · rw [List.map_cons] at hnodup
        rw [OrderedMap.keys, List.map_append, List.append_assoc]
        exact hnodup

theorem readPositions_eq {account : AccountSnapshot} {positions : OrderedMap String Int}
    (h : readPositions account = .ok positions) : positions = held account := by
  have hkeys : (OrderedMap.keys ([] : OrderedMap String Int) ++
      account.positionNotionalUsdMicros.entries.map Prod.fst).Nodup :=
    account.positionNotionalUsdMicros.nodup
  rw [readPositions_from hkeys h, List.nil_append]
  rfl

/-! ## The loop over the targets -/

section Loop

variable {policy : RiskPolicy} {current : OrderedMap String Int} {maxPosition maxOrder : Int}

/-- What holds after some of the targets. -/
structure Taken (policy : RiskPolicy) (current : OrderedMap String Int) (maxPosition maxOrder : Int)
    (targets : List PositionTarget) (p : Progress) : Prop where
  seen : p.seenTargets = targets.map PositionTarget.instrument
  reached : ∀ target ∈ targets,
    position p.resultingPositions target.instrument = bigInt target.targetNotionalUsdMicros
  kept : ∀ i, i ∉ targets.map PositionTarget.instrument →
    position p.resultingPositions i = position current i
  applied : ∀ i, position (applyOrders current p.orders) i = position p.resultingPositions i
  sum : gross (applyOrders current p.orders) = gross p.resultingPositions
  limits : ∀ target ∈ targets, |bigInt target.targetNotionalUsdMicros| ≤ maxPosition
  ordered : ∀ order ∈ p.orders, order.instrument ∈ policy.allowedInstruments ∧
    |bigInt order.deltaNotionalUsdMicros| ≤ maxOrder ∧
    order.instrument ∈ targets.map PositionTarget.instrument

theorem taken_nil : Taken policy current maxPosition maxOrder [] ⟨[], [], current⟩ where
  seen := rfl
  reached := nofun
  kept _ _ := rfl
  applied _ := rfl
  sum := rfl
  limits := nofun
  ordered := nofun

/-- What one target asks for and does. -/
theorem takeTarget_eq_ok {p p' : Progress} {target : PositionTarget}
    (h : takeTarget policy current maxPosition maxOrder p target = .ok p') :
    target.instrument ∉ p.seenTargets ∧ target.instrument ∈ policy.allowedInstruments ∧
      |bigInt target.targetNotionalUsdMicros| ≤ maxPosition ∧
      |bigInt target.targetNotionalUsdMicros - position current target.instrument| ≤ maxOrder ∧
      p' = {
        seenTargets := p.seenTargets ++ [target.instrument]
        orders :=
          if bigInt target.targetNotionalUsdMicros - position current target.instrument = 0 then
            p.orders
          else p.orders ++ [⟨target.instrument, toString (bigInt target.targetNotionalUsdMicros -
            position current target.instrument)⟩]
        resultingPositions :=
          p.resultingPositions.set target.instrument (bigInt target.targetNotionalUsdMicros) } := by
  simp only [takeTarget, bind_eq_ok, pure_eq_ok, check_eq_ok] at h
  obtain ⟨_, _, _, hnew, _, hallowed, amount, hamount, _, hposition, _, horder, hp⟩ := h
  obtain rfl := parseAmount_eq_ok hamount
  exact ⟨hnew, hallowed, hposition, horder, hp.symm⟩

theorem Taken.step {targets : List PositionTarget} {p p' : Progress} {target : PositionTarget}
    (hp : Taken policy current maxPosition maxOrder targets p)
    (h : takeTarget policy current maxPosition maxOrder p target = .ok p') :
    Taken policy current maxPosition maxOrder (targets ++ [target]) p' := by
  obtain ⟨hnew, hallowed, hlimit, horder, rfl⟩ := takeTarget_eq_ok h
  rw [hp.seen] at hnew
  have hbefore := hp.kept _ hnew
  generalize hamount : bigInt target.targetNotionalUsdMicros = amount at hlimit horder ⊢
  have hmap : (targets ++ [target]).map PositionTarget.instrument =
      targets.map PositionTarget.instrument ++ [target.instrument] := List.map_append
  -- the order moves the position from where it was to the target
  have happlied : ∀ delta, amount - position current target.instrument = delta →
      applyOrder (applyOrders current p.orders) ⟨target.instrument, toString delta⟩ =
        (applyOrders current p.orders).set target.instrument amount := by
    intro delta hdelta
    unfold applyOrder
    rw [bigInt_toString, hp.applied, hbefore, ← hdelta, add_sub_cancel]
  refine ⟨by rw [hmap, hp.seen], ?_, ?_, ?_, ?_, ?_, ?_⟩
  · intro t ht
    rw [List.mem_append, List.mem_singleton] at ht
    rw [position_set]
    rcases ht with ht | rfl
    · have hne : t.instrument ≠ target.instrument := by
        intro heq
        exact hnew (heq ▸ List.mem_map_of_mem ht)
      rw [if_neg hne]
      exact hp.reached t ht
    · rw [if_pos rfl, hamount]
  · intro i hi
    rw [hmap, List.mem_append, List.mem_singleton, not_or] at hi
    rw [position_set, if_neg hi.2]
    exact hp.kept i hi.1
  · intro i
    rw [position_set]
    split
    · next hzero =>
        rw [hp.applied]
        by_cases hi : i = target.instrument
        · rw [if_pos hi, hi, hbefore]
          omega
        · rw [if_neg hi]
    · next hdelta =>
        rw [applyOrders, List.foldl_append, List.foldl_cons, List.foldl_nil]
        show position (applyOrder (applyOrders current p.orders) _) i = _
        rw [happlied _ rfl, position_set, hp.applied]
  · rw [gross_set, hbefore]
    split
    · next hzero =>
        have hsame : amount = position current target.instrument := by omega
        rw [hp.sum, hsame]
        omega
    · next hdelta =>
        rw [applyOrders, List.foldl_append, List.foldl_cons, List.foldl_nil]
        show gross (applyOrder (applyOrders current p.orders) _) = _
        rw [happlied _ rfl, gross_set, hp.applied, hbefore, hp.sum]
  · intro t ht
    rw [List.mem_append, List.mem_singleton] at ht
    rcases ht with ht | rfl
    · exact hp.limits t ht
    · rw [hamount]
      exact hlimit
  · have hold : ∀ order ∈ p.orders, order.instrument ∈ policy.allowedInstruments ∧
        |bigInt order.deltaNotionalUsdMicros| ≤ maxOrder ∧
        order.instrument ∈ (targets ++ [target]).map PositionTarget.instrument := by
      intro order ho
      obtain ⟨hin, hdelta, hof⟩ := hp.ordered order ho
      rw [hmap]
      exact ⟨hin, hdelta, List.mem_append_left _ hof⟩
    intro order ho
    split at ho
    · exact hold order ho
    · rw [List.mem_append, List.mem_singleton] at ho
      rcases ho with ho | rfl
      · exact hold order ho
      · refine ⟨hallowed, ?_, ?_⟩
        · rw [bigInt_toString]
          exact horder
        · rw [hmap]
          exact List.mem_append_right _ List.mem_cons_self

theorem Taken.run {targets done : List PositionTarget} {p p' : Progress}
    (hp : Taken policy current maxPosition maxOrder done p)
    (h : targets.foldlM (takeTarget policy current maxPosition maxOrder) p = .ok p') :
    Taken policy current maxPosition maxOrder (done ++ targets) p' := by
  induction targets generalizing done p with
  | nil =>
      rw [List.foldlM_nil, pure_eq_ok] at h
      rw [List.append_nil, ← h]
      exact hp
  | cons target rest ih =>
      rw [List.foldlM_cons, bind_eq_ok] at h
      obtain ⟨next, hnext, hrest⟩ := h
      have hdone := ih (hp.step hnext) hrest
      rw [List.append_assoc] at hdone
      exact hdone

theorem isReductionOnly_shrinks {targets : List PositionTarget}
    (h : isReductionOnly targets current = .ok true) :
    ∀ target ∈ targets, Shrinks (position current target.instrument)
      (bigInt target.targetNotionalUsdMicros) := by
  induction targets with
  | nil => nofun
  | cons target rest ih =>
      simp only [isReductionOnly, bind_eq_ok] at h
      obtain ⟨after, hafter, h⟩ := h
      obtain rfl := parseAmount_eq_ok hafter
      split at h
      · next hreduces =>
          intro t ht
          rcases List.mem_cons.mp ht with rfl | ht
          · obtain ⟨hle, hzero | ⟨hbefore, hsame⟩⟩ := hreduces
            · exact ⟨hle, Or.inl hzero⟩
            · refine ⟨hle, ?_⟩
              unfold position
              omega
          · exact ih h t ht
      · simp only [pure_eq_ok] at h
        cases h

end Loop

/-! ## Permits -/

/-- What a permit guarantees, in terms of the portfolio that its orders make of the
snapshot. -/
structure Respects (grant : AuthorizationGrant) (decision : StrategyDecision)
    (account : AccountSnapshot) (nowMs : Int) (permit : ExecutionPermit) : Prop where
  targets : ∀ target ∈ decision.targets,
    position (applyOrders (held account) permit.orders) target.instrument =
      bigInt target.targetNotionalUsdMicros
  others : ∀ i, i ∉ decision.targets.map PositionTarget.instrument →
    position (applyOrders (held account) permit.orders) i = position (held account) i
  orders : ∀ order ∈ permit.orders, order.instrument ∈ grant.policy.allowedInstruments ∧
    |bigInt order.deltaNotionalUsdMicros| ≤ bigInt grant.policy.maxOrderNotionalUsdMicros ∧
    |position (applyOrders (held account) permit.orders) order.instrument| ≤
      bigInt grant.policy.maxPositionNotionalUsdMicros
  gross_le : gross (applyOrders (held account) permit.orders) ≤
    bigInt grant.policy.maxGrossNotionalUsdMicros
  leverage_le : gross (applyOrders (held account) permit.orders) * 10000 ≤
    bigInt account.equityUsdMicros * grant.policy.maxLeverageBps
  expiry : ∃ expires decisionExpires grantExpires, dateParse permit.expiresAt = some expires ∧
    dateParse decision.expiresAt = some decisionExpires ∧
    dateParse grant.validUntil = some grantExpires ∧
    nowMs < expires ∧ expires ≤ decisionExpires ∧ expires ≤ grantExpires ∧
    expires ≤ nowMs + grant.policy.executionPermitTtlMs
  loss : bigInt account.dailyPnlUsdMicros ≤ -bigInt grant.policy.maxDailyLossUsdMicros →
    (∀ target ∈ decision.targets, Shrinks (position (held account) target.instrument)
      (position (applyOrders (held account) permit.orders) target.instrument)) ∧
    gross (applyOrders (held account) permit.orders) < gross (held account)

/-- What the orders that pass the risk checks do. -/
theorem evaluateRisk_spec {decision : StrategyDecision} {account : AccountSnapshot}
    {policy : RiskPolicy} {orders : List ExecutionOrder}
    (h : evaluateRisk decision account policy = .ok orders) :
    ∃ p, p.orders = orders ∧
      Taken policy (held account) (bigInt policy.maxPositionNotionalUsdMicros)
        (bigInt policy.maxOrderNotionalUsdMicros) decision.targets p ∧
      gross p.resultingPositions ≤ bigInt policy.maxGrossNotionalUsdMicros ∧
      gross p.resultingPositions * 10000 ≤ bigInt account.equityUsdMicros * policy.maxLeverageBps ∧
      (bigInt account.dailyPnlUsdMicros ≤ -bigInt policy.maxDailyLossUsdMicros →
        gross p.resultingPositions < gross (held account) ∧
          isReductionOnly decision.targets (held account) = .ok true) := by
  simp only [evaluateRisk, bind_eq_ok, check_eq_ok, grossNotional_eq] at h
  obtain ⟨_, _, current, hcurrent, maxPosition, hposition, maxOrder, horder, p, hp, maxGross, hmaxGross,
    _, hgross, equity, hequity, _, hleverage, dailyPnl, hpnl, maxDailyLoss, hloss, h⟩ := h
  obtain rfl := readPositions_eq hcurrent
  obtain rfl := parsePositiveAmount_eq_ok hposition
  obtain rfl := parsePositiveAmount_eq_ok horder
  obtain rfl := parsePositiveAmount_eq_ok hmaxGross
  obtain rfl := parsePositiveAmount_eq_ok hequity
  obtain rfl := parseAmount_eq_ok hpnl
  obtain rfl := parsePositiveAmount_eq_ok hloss
  have htaken := Taken.run taken_nil hp
  rw [List.nil_append] at htaken
  split at h
  · simp only [bind_eq_ok, check_eq_ok, pure_eq_ok] at h
    obtain ⟨_, hless, reduces, hreduces, _, rfl, horders⟩ := h
    exact ⟨p, horders, htaken, hgross, hleverage, fun _ => ⟨hless, hreduces⟩⟩
  · next hpnl =>
      simp only [pure_eq_ok] at h
      exact ⟨p, h, htaken, hgross, hleverage, fun hle => absurd hle hpnl⟩

variable {σ : Type}

/-- What was checked before the nonce is consumed, as far as a permit depends on it. -/
theorem assess_spec {crypto : Crypto} {input : IssueExecutionPermitInput σ} {nowMs : Int}
    {orders : List ExecutionOrder} {policyHash : String} {decisionExpiryMs : Int}
    (h : assess crypto input nowMs = .ok (orders, policyHash, decisionExpiryMs)) :
    evaluateRisk input.decision.payload input.account input.grant.payload.policy = .ok orders ∧
      dateParse input.decision.payload.expiresAt = some decisionExpiryMs ∧ nowMs < decisionExpiryMs ∧
      (∃ validUntilMs, dateParse input.grant.payload.validUntil = some validUntilMs ∧
        nowMs < validUntilMs) ∧
      0 < input.grant.payload.policy.executionPermitTtlMs := by
  simp only [assess, bind_eq_ok, check_eq_ok, pure_eq_ok, Prod.mk.injEq] at h
  obtain ⟨_, _, _, hgrant, _, _, _, _, _, hdecision, _, _, _, _, _, _, orders', horders, expiry, hexpiry,
    rfl, _, rfl⟩ := h
  have hparsed := parseTimestamp_eq_ok hexpiry
  simp only [validateGrant, bind_eq_ok, check_eq_ok] at hgrant
  obtain ⟨_, _, _, _, _, _, _, _, validUntil, huntil, _, _, _, hactive, _, _, hpolicy⟩ := hgrant
  simp only [validateDecisionBinding, bind_eq_ok, check_eq_ok] at hdecision
  obtain ⟨_, _, _, _, _, _, _, _, _, _, _, _, _, _, _, _, _, _, _, _, _, _, expires, hexpires, _, _, _,
    hstale, _⟩ := hdecision
  rw [parseTimestamp_eq_ok hexpires, Option.some.injEq] at hparsed
  subst hparsed
  simp only [validatePolicy, assertBoundedInteger, bind_eq_ok, check_eq_ok] at hpolicy
  obtain ⟨_, _, _, _, _, _, _, _, _, _, _, _, _, _, _, _, _, _, _, _, _, _, _, httl, _⟩ := hpolicy
  exact ⟨horders, parseTimestamp_eq_ok hexpires, hstale.2,
    ⟨validUntil, parseTimestamp_eq_ok huntil, hactive.2⟩, by omega⟩

/-- Which permit is made. -/
theorem makePermit_spec {crypto : Crypto} {input : IssueExecutionPermitInput σ} {nowMs : Int}
    {orders : List ExecutionOrder} {policyHash : String} {decisionExpiryMs : Int}
    {signed : Signed ExecutionPermit}
    (h : makePermit crypto input nowMs orders policyHash decisionExpiryMs = .ok signed) :
    signed.payload.orders = orders ∧
      ∃ validUntilMs, dateParse input.grant.payload.validUntil = some validUntilMs ∧
        signed.payload.expiresAt = toISOString (min decisionExpiryMs (min validUntilMs
          (nowMs + input.grant.payload.policy.executionPermitTtlMs))) := by
  simp only [makePermit, signPayload, bind_eq_ok, pure_eq_ok] at h
  obtain ⟨validUntil, huntil, _, _, _, _, _, _, _, _, _, _, _, _, rfl⟩ := h
  exact ⟨rfl, validUntil, parseTimestamp_eq_ok huntil, rfl⟩

/-- Every permit that is issued respects the policy. -/
theorem issued_permit_respects_policy (crypto : Crypto) (clock : Date)
    (input : IssueExecutionPermitInput σ) (store store' : σ) (signed : Signed ExecutionPermit)
    (h : issueExecutionPermit crypto clock input store = .ok signed store') :
    ∃ nowMs, (input.now.getD clock).getTime = some nowMs ∧
      Respects input.grant.payload input.decision.payload input.account nowMs signed.payload := by
  obtain ⟨nowMs, hnow⟩ : ∃ nowMs, (input.now.getD clock).getTime = some nowMs := by
    cases hnow : (input.now.getD clock).getTime with
    | some nowMs => exact ⟨nowMs, rfl⟩
    | none =>
        simp only [issueExecutionPermit, hnow] at h
        cases h
  refine ⟨nowMs, hnow, ?_⟩
  simp only [issueExecutionPermit, hnow, bind_returns, await_returns, check_eq_ok] at h
  obtain ⟨assessed, _, ⟨hassess, rfl⟩, consumed, _, _, _, _, _, hmake, rfl⟩ := h
  obtain ⟨orders, policyHash, decisionExpiryMs⟩ := assessed
  obtain ⟨hrisk, hdecision, hfresh, ⟨_, huntil, hactive⟩, httl⟩ := assess_spec hassess
  dsimp only at hmake
  obtain ⟨horders, validUntilMs, huntil', hexpires⟩ := makePermit_spec hmake
  rw [huntil, Option.some.injEq] at huntil'
  subst huntil'
  obtain ⟨p, hp, htaken, hgross, hleverage, hloss⟩ := evaluateRisk_spec hrisk
  rw [← horders] at hp
  have hafter := htaken.applied
  have hsum := htaken.sum
  rw [hp] at hafter hsum
  have hreached : ∀ target ∈ input.decision.payload.targets,
      position (applyOrders (held input.account) signed.payload.orders) target.instrument =
        bigInt target.targetNotionalUsdMicros := by
    intro target ht
    rw [hafter, htaken.reached target ht]
  refine ⟨hreached, ?_, ?_, ?_, ?_, ?_, ?_⟩
  · intro i hi
    rw [hafter, htaken.kept i hi]
  · intro order ho
    rw [← hp] at ho
    obtain ⟨hallowed, hdelta, hof⟩ := htaken.ordered order ho
    obtain ⟨target, ht, hinstrument⟩ := List.mem_map.mp hof
    refine ⟨hallowed, hdelta, ?_⟩
    rw [← hinstrument, hreached target ht]
    exact htaken.limits target ht
  · rw [hsum]
    exact hgross
  · rw [hsum]
    exact hleverage
  · have hnowBounds := (input.now.getD clock).clipped nowMs hnow
    have hdecisionBounds := dateParse_bounds hdecision
    refine ⟨_, _, _, hexpires.symm ▸ dateParse_toISOString (by omega) (by omega), hdecision, huntil,
      by omega, by omega, by omega, by omega⟩
  · intro hlost
    obtain ⟨hless, hreduces⟩ := hloss hlost
    refine ⟨fun target ht => ?_, ?_⟩
    · rw [hreached target ht]
      exact isReductionOnly_shrinks hreduces target ht
    · rw [hsum]
      exact hless

/-! ### A permit -/

def examplePolicy : RiskPolicy where
  schemaVersion := 1
  allowedVenues := ["binance-subaccount-1"]
  allowedInstruments := ["BTC-USDT", "ETH-USDT"]
  maxPositionNotionalUsdMicros := "5000000000"
  maxOrderNotionalUsdMicros := "2000000000"
  maxGrossNotionalUsdMicros := "8000000000"
  maxLeverageBps := 20000
  maxDailyLossUsdMicros := "500000000"
  maxDecisionAgeMs := 30000
  maxAccountSnapshotAgeMs := 5000
  maxClockSkewMs := 1000
  executionPermitTtlMs := 2000

def exampleGrant : AuthorizationGrant where
  grantId := "grant-7f188d"
  userId := "user-42"
  strategyFamilyId := "strategy-btc-momentum"
  validFrom := "2026-09-04T00:00:00.000Z"
  validUntil := "2026-10-04T00:00:00.000Z"
  permissions := ⟨true, true, true, false, false⟩
  policy := examplePolicy

def exampleMeasurement : String :=
  "sha256:abababababababababababababababababababababababababababababababab"

def exampleRelease : TrustedStrategyRelease where
  strategyFamilyId := "strategy-btc-momentum"
  strategyVersionId := "v1.0.0"
  codeMeasurement := exampleMeasurement
  signerKeyId := "runtime-key-1"
  runtimePublicKeyPem := "runtime key"

def exampleDecision : StrategyDecision where
  decisionId := "decision-001"
  nonce := "nonce-87f5d8d5"
  grantId := "grant-7f188d"
  strategyFamilyId := "strategy-btc-momentum"
  strategyVersionId := "v1.0.0"
  codeMeasurement := exampleMeasurement
  policyHash := "cff97b1fa752586c06b7bd4c9b3a47ccce943347bedf047662887a9ec760d2e8"
  venue := "binance-subaccount-1"
  targets := [⟨"BTC-USDT", "1500000000"⟩]
  issuedAt := "2026-09-04T07:59:59.000Z"
  expiresAt := "2026-09-04T08:00:10.000Z"

theorem example_positions_nodup :
    (OrderedMap.keys [("BTC-USDT", "500000000"), ("ETH-USDT", "-200000000")]).Nodup := by
  decide

def exampleAccount : AccountSnapshot where
  snapshotId := "snapshot-001"
  userId := "user-42"
  venue := "binance-subaccount-1"
  capturedAt := "2026-09-04T07:59:59.500Z"
  equityUsdMicros := "5000000000"
  dailyPnlUsdMicros := "10000000"
  positionNotionalUsdMicros := ⟨_, example_positions_nodup⟩

/-- A signature that shows the key and the text, and the digest of the policy: the
other digests are only carried along. -/
def exampleCrypto : Crypto where
  localeCompare := compare
  sha256 _ := "cff97b1fa752586c06b7bd4c9b3a47ccce943347bedf047662887a9ec760d2e8"
  sign key text := .ok (key ++ text)
  verify key text value := value = key ++ text

def exampleSigned {α : Type} (json : α → Json) (payload : α) (keyId key : String) : Signed α :=
  ⟨payload, ⟨"Ed25519", keyId, key ++ (json payload).canonical compare⟩⟩

theorem example_time : ∀ t ∈ some (1788508800000 : Int), -maxTime ≤ t ∧ t ≤ maxTime := by
  decide

def exampleNow : Date := ⟨some 1788508800000, example_time⟩

def exampleInput : IssueExecutionPermitInput (OrderedMap String Int) where
  grant := exampleSigned AuthorizationGrant.json exampleGrant "user-key-1" "user key"
  expectedUserSigningKeyId := "user-key-1"
  userPublicKeyPem := "user key"
  decision := exampleSigned StrategyDecision.json exampleDecision "runtime-key-1" "runtime key"
  release := exampleRelease
  account := exampleAccount
  replayStore := memoryReplayStore
  riskSigner := ⟨"risk-key-1", "risk key"⟩
  now := some exampleNow

theorem example_canonical {value : Json} (htext : value.text.isSome = true) :
    canonicalJson exampleCrypto value = .ok (value.canonical compare) :=
  bind_eq_ok.mpr ⟨(), ensure_of htext _, rfl⟩

theorem exampleSigned_verifies {α : Type} {json : α → Json} {payload : α} {keyId key : String}
    (htext : (json payload).text.isSome = true) :
    verifySignedPayload exampleCrypto json (exampleSigned json payload keyId key) keyId key = true := by
  simp only [verifySignedPayload, exampleSigned, example_canonical htext]
  simp [exampleCrypto]

theorem example_assessed : assess exampleCrypto exampleInput 1788508800000 =
    .ok ([⟨"BTC-USDT", "1000000000"⟩], exampleDecision.policyHash, 1788508810000) := by
  refine bind_eq_ok.mpr ⟨(), ensure_of (exampleSigned_verifies (by decide)) _, ?_⟩
  refine bind_eq_ok.mpr ⟨(), by decide, ?_⟩
  refine bind_eq_ok.mpr ⟨(), ensure_of (exampleSigned_verifies (by decide)) _, ?_⟩
  refine bind_eq_ok.mpr ⟨(), by decide, bind_eq_ok.mpr ⟨(), by decide, ?_⟩⟩
  refine bind_eq_ok.mpr ⟨(), by decide, bind_eq_ok.mpr ⟨exampleDecision.policyHash, ?_, ?_⟩⟩
  · exact bind_eq_ok.mpr ⟨_, bind_eq_ok.mpr ⟨(), ensure_of (by decide) _, rfl⟩, rfl⟩
  · refine bind_eq_ok.mpr ⟨(), ensure_of rfl _, ?_⟩
    exact bind_eq_ok.mpr ⟨_, by decide, bind_eq_ok.mpr ⟨_, by decide, rfl⟩⟩

theorem example_hash (value : Json) (htext : value.text.isSome = true) :
    hashPayload exampleCrypto value = .ok exampleDecision.policyHash :=
  bind_eq_ok.mpr ⟨_, example_canonical htext, rfl⟩

theorem example_signed {permit : ExecutionPermit} (htext : permit.json.text.isSome = true) :
    ∃ signed, signPayload exampleCrypto ExecutionPermit.json permit "risk-key-1" "risk key" =
      .ok signed :=
  ⟨_, bind_eq_ok.mpr ⟨(), by decide, bind_eq_ok.mpr ⟨_, example_canonical htext,
    bind_eq_ok.mpr ⟨_, rfl, rfl⟩⟩⟩⟩

theorem example_made : ∃ signed, makePermit exampleCrypto exampleInput 1788508800000
    [⟨"BTC-USDT", "1000000000"⟩] exampleDecision.policyHash 1788508810000 = .ok signed := by
  have huntil : parseTimestamp "grant.validUntil" exampleInput.grant.payload.validUntil =
      .ok 1791072000000 := by decide
  have hdecision := example_hash (.object [("payload", exampleInput.decision.payload.json),
    ("signature", exampleInput.decision.signature.json)]) (by decide)
  have haccount := example_hash exampleInput.account.json (by decide)
  have hid := example_hash (.object [
    ("accountSnapshotHash", .string exampleDecision.policyHash),
    ("decisionCommitment", .string exampleDecision.policyHash),
    ("grantId", .string exampleInput.grant.payload.grantId),
    ("issuedAt", .string (toISOString 1788508800000))]) rfl
  unfold makePermit
  simp only [huntil, hdecision, haccount, hid, ok_bind]
  exact example_signed rfl

theorem example_issued : ∃ signed store',
    issueExecutionPermit exampleCrypto exampleNow exampleInput [] = .ok signed store' := by
  obtain ⟨signed, hsigned⟩ := example_made
  have hconsumed : exampleInput.replayStore.consume
      (exampleGrant.grantId ++ ":" ++ exampleRelease.strategyVersionId) exampleDecision.nonce
      1788508810000 1788508800000 [] = .ok true _ := rfl
  have hcheck : check (true = true) "REPLAYED_DECISION"
      "The strategy decision nonce has already been consumed" = .ok () := ensure_of rfl _
  exact ⟨signed, _, bind_returns.mpr ⟨_, _, await_returns.mpr ⟨example_assessed, rfl⟩,
    bind_returns.mpr ⟨_, _, hconsumed, bind_returns.mpr ⟨(), _, await_returns.mpr ⟨hcheck, rfl⟩,
      await_returns.mpr ⟨hsigned, rfl⟩⟩⟩⟩⟩

/-- A permit of the sample request respects the policy. -/
theorem example_permit_respects_policy : ∃ signed store',
    issueExecutionPermit exampleCrypto exampleNow exampleInput [] = .ok signed store' ∧
      Respects exampleGrant exampleDecision exampleAccount 1788508800000 signed.payload := by
  obtain ⟨signed, store', h⟩ := example_issued
  obtain ⟨nowMs, hnow, hrespects⟩ :=
    issued_permit_respects_policy exampleCrypto exampleNow exampleInput [] store' signed h
  cases hnow
  exact ⟨signed, store', h, hrespects⟩

end Security
end AlphaForge
