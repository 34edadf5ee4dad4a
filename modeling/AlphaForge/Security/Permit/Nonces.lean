/-
Decision nonces, as calls of `issueExecutionPermit` on one `MemoryReplayStore` use them.

A call that passes every check before the store gives its nonce there, under a key
that joins the grant, the release and the nonce.  The store forgets a key when it has
expired, and a decision that has expired does not get that far, so a payload gets one
permit.  A call whose key is there is refused, and `DistinctKeys` says that the key
then comes from the same three texts.
-/
import AlphaForge.Machine.Throws
import AlphaForge.Security.Permit.Respects

namespace AlphaForge
namespace Security

open Evm Commit Text

abbrev Seen := OrderedMap String Int

/-- A call on the shared store. -/
structure Issue where
  clock : Date
  input : IssueExecutionPermitInput Seen
  shared : input.replayStore = memoryReplayStore

namespace Issue

def time (c : Issue) : Option Int := (c.input.now.getD c.clock).getTime

def grantId (c : Issue) : String := c.input.grant.payload.grantId

def strategyVersionId (c : Issue) : String := c.input.release.strategyVersionId

def nonce (c : Issue) : String := c.input.decision.payload.nonce

def payload (c : Issue) : StrategyDecision := c.input.decision.payload

def scope (c : Issue) : String := c.grantId ++ ":" ++ c.strategyVersionId

def key (c : Issue) : String := c.scope ++ ":" ++ c.nonce

def SameNonce (c d : Issue) : Prop :=
  c.grantId = d.grantId ∧ c.strategyVersionId = d.strategyVersionId ∧ c.nonce = d.nonce

end Issue

/-- A call of a run, with the store that it finds. -/
structure Call where
  issue : Issue
  seen : Seen

section Calls

variable (crypto : Crypto)

def Call.result (c : Call) : EStateM.Result Failure Seen (Signed ExecutionPermit) :=
  issueExecutionPermit crypto c.issue.clock c.issue.input c.seen

/-- The calls of a run, one after the other. -/
def calls (seen : Seen) : List Issue → List Call
  | [] => []
  | issue :: rest => ⟨issue, seen⟩ :: calls (final (Call.result crypto ⟨issue, seen⟩)) rest

/-- The call returned a permit. -/
def Call.Permits (c : Call) : Prop := ∃ signed seen', c.result crypto = .ok signed seen'

def isReplay : Failure → Prop
  | .securityModelError code _ => code = "REPLAYED_DECISION"
  | .other _ => False

/-- The call was refused with `REPLAYED_DECISION`. -/
def Call.Replayed (c : Call) : Prop := ∃ failure seen', c.result crypto = .error failure seen' ∧
  isReplay failure

/-- The call reached the store and its nonce was consumed there. -/
def Call.Consumed (c : Call) : Prop := ∃ nowMs orders policyHash expiry seen',
  c.issue.time = some nowMs ∧ assess crypto c.issue.input nowMs = .ok (orders, policyHash, expiry) ∧
    c.issue.input.replayStore.consume c.issue.scope c.issue.nonce expiry nowMs c.seen = .ok true seen'

end Calls

/-! ## Failures before and after the store -/

/-- A failure of another kind. -/
def Otherwise (f : Failure) : Prop := ¬ isReplay f

theorem otherwise_of {code message : String} (h : code ≠ "REPLAYED_DECISION") :
    Otherwise (.securityModelError code message) := h

theorem check_otherwise {p : Prop} [Decidable p] {code message : String}
    (h : code ≠ "REPLAYED_DECISION") : ThrowsOnly Otherwise (check p code message) := by
  unfold check ensure
  exact ThrowsOnly.ite (fun _ => ThrowsOnly.ok ()) (fun _ => ThrowsOnly.error (otherwise_of h))

theorem parseAmount_otherwise (name value : String) : ThrowsOnly Otherwise (parseAmount name value) :=
  ThrowsOnly.bind (check_otherwise (by decide)) fun _ _ => ThrowsOnly.pure _

theorem parsePositiveAmount_otherwise (name value : String) :
    ThrowsOnly Otherwise (parsePositiveAmount name value) := by
  refine ThrowsOnly.bind (parseAmount_otherwise name value) fun amount _ => ?_
  exact ThrowsOnly.bind (check_otherwise (by decide)) fun _ _ => ThrowsOnly.pure _

theorem parseTimestamp_otherwise (name value : String) :
    ThrowsOnly Otherwise (parseTimestamp name value) := by
  unfold parseTimestamp
  cases dateParse value with
  | none => exact ThrowsOnly.error (otherwise_of (by decide))
  | some parsed => exact ThrowsOnly.bind (check_otherwise (by decide)) fun _ _ => ThrowsOnly.pure _

theorem assertIdentifier_otherwise (name value : String) :
    ThrowsOnly Otherwise (assertIdentifier name value) := check_otherwise (by decide)

theorem assertUniqueIdentifiers_otherwise (name : String) (values : List String) (limit : Nat) :
    ThrowsOnly Otherwise (assertUniqueIdentifiers name values limit) := by
  refine ThrowsOnly.bind (check_otherwise (by decide)) fun _ _ => ?_
  refine ThrowsOnly.bind (ThrowsOnly.foldlM (fun unique value => ?_) values []) fun _ _ =>
    ThrowsOnly.pure _
  refine ThrowsOnly.bind (assertIdentifier_otherwise name value) fun _ _ => ?_
  exact ThrowsOnly.bind (check_otherwise (by decide)) fun _ _ => ThrowsOnly.pure _

theorem assertBoundedInteger_otherwise (name : String) (value minimum maximum : Int) :
    ThrowsOnly Otherwise (assertBoundedInteger name value minimum maximum) :=
  check_otherwise (by decide)

theorem validatePolicy_otherwise (policy : RiskPolicy) :
    ThrowsOnly Otherwise (validatePolicy policy) := by
  refine ThrowsOnly.bind (check_otherwise (by decide)) fun _ _ => ?_
  refine ThrowsOnly.bind (assertUniqueIdentifiers_otherwise _ _ _) fun _ _ => ?_
  refine ThrowsOnly.bind (assertUniqueIdentifiers_otherwise _ _ _) fun _ _ => ?_
  refine ThrowsOnly.bind (parsePositiveAmount_otherwise _ _) fun _ _ => ?_
  refine ThrowsOnly.bind (parsePositiveAmount_otherwise _ _) fun _ _ => ?_
  refine ThrowsOnly.bind (parsePositiveAmount_otherwise _ _) fun _ _ => ?_
  refine ThrowsOnly.bind (parsePositiveAmount_otherwise _ _) fun _ _ => ?_
  refine ThrowsOnly.bind (assertBoundedInteger_otherwise _ _ _ _) fun _ _ => ?_
  refine ThrowsOnly.bind (assertBoundedInteger_otherwise _ _ _ _) fun _ _ => ?_
  refine ThrowsOnly.bind (assertBoundedInteger_otherwise _ _ _ _) fun _ _ => ?_
  refine ThrowsOnly.bind (assertBoundedInteger_otherwise _ _ _ _) fun _ _ => ?_
  refine ThrowsOnly.bind (assertBoundedInteger_otherwise _ _ _ _) fun _ _ => ?_
  exact check_otherwise (by decide)

theorem validateGrant_otherwise (grant : AuthorizationGrant) (nowMs : Int) :
    ThrowsOnly Otherwise (validateGrant grant nowMs) := by
  refine ThrowsOnly.bind (assertIdentifier_otherwise _ _) fun _ _ => ?_
  refine ThrowsOnly.bind (assertIdentifier_otherwise _ _) fun _ _ => ?_
  refine ThrowsOnly.bind (assertIdentifier_otherwise _ _) fun _ _ => ?_
  refine ThrowsOnly.bind (parseTimestamp_otherwise _ _) fun _ _ => ?_
  refine ThrowsOnly.bind (parseTimestamp_otherwise _ _) fun _ _ => ?_
  refine ThrowsOnly.bind (check_otherwise (by decide)) fun _ _ => ?_
  refine ThrowsOnly.bind (check_otherwise (by decide)) fun _ _ => ?_
  refine ThrowsOnly.bind (check_otherwise (by decide)) fun _ _ => ?_
  exact validatePolicy_otherwise _

theorem validateReleaseBinding_otherwise (decision : StrategyDecision)
    (release : TrustedStrategyRelease) :
    ThrowsOnly Otherwise (validateReleaseBinding decision release) := by
  refine ThrowsOnly.bind (assertIdentifier_otherwise _ _) fun _ _ => ?_
  refine ThrowsOnly.bind (assertIdentifier_otherwise _ _) fun _ _ => ?_
  refine ThrowsOnly.bind (assertIdentifier_otherwise _ _) fun _ _ => ?_
  refine ThrowsOnly.bind (check_otherwise (by decide)) fun _ _ => ?_
  exact check_otherwise (by decide)

theorem validateDecisionBinding_otherwise (decision : StrategyDecision) (grant : AuthorizationGrant)
    (nowMs : Int) : ThrowsOnly Otherwise (validateDecisionBinding decision grant nowMs) := by
  refine ThrowsOnly.bind (assertIdentifier_otherwise _ _) fun _ _ => ?_
  refine ThrowsOnly.bind (assertIdentifier_otherwise _ _) fun _ _ => ?_
  refine ThrowsOnly.bind (assertIdentifier_otherwise _ _) fun _ _ => ?_
  refine ThrowsOnly.bind (assertIdentifier_otherwise _ _) fun _ _ => ?_
  refine ThrowsOnly.bind (assertIdentifier_otherwise _ _) fun _ _ => ?_
  refine ThrowsOnly.bind (check_otherwise (by decide)) fun _ _ => ?_
  refine ThrowsOnly.bind (assertIdentifier_otherwise _ _) fun _ _ => ?_
  refine ThrowsOnly.bind (check_otherwise (by decide)) fun _ _ => ?_
  refine ThrowsOnly.bind (check_otherwise (by decide)) fun _ _ => ?_
  refine ThrowsOnly.bind (check_otherwise (by decide)) fun _ _ => ?_
  refine ThrowsOnly.bind (parseTimestamp_otherwise _ _) fun _ _ => ?_
  refine ThrowsOnly.bind (parseTimestamp_otherwise _ _) fun _ _ => ?_
  refine ThrowsOnly.bind (check_otherwise (by decide)) fun _ _ => ?_
  refine ThrowsOnly.bind (check_otherwise (by decide)) fun _ _ => ?_
  refine ThrowsOnly.bind (check_otherwise (by decide)) fun _ _ => ?_
  exact check_otherwise (by decide)

theorem validateAccount_otherwise (account : AccountSnapshot) (grant : AuthorizationGrant)
    (nowMs : Int) : ThrowsOnly Otherwise (validateAccount account grant nowMs) := by
  refine ThrowsOnly.bind (assertIdentifier_otherwise _ _) fun _ _ => ?_
  refine ThrowsOnly.bind (assertIdentifier_otherwise _ _) fun _ _ => ?_
  refine ThrowsOnly.bind (assertIdentifier_otherwise _ _) fun _ _ => ?_
  refine ThrowsOnly.bind (check_otherwise (by decide)) fun _ _ => ?_
  refine ThrowsOnly.bind (check_otherwise (by decide)) fun _ _ => ?_
  refine ThrowsOnly.bind (parseTimestamp_otherwise _ _) fun _ _ => ?_
  refine ThrowsOnly.bind (check_otherwise (by decide)) fun _ _ => ?_
  refine ThrowsOnly.bind (check_otherwise (by decide)) fun _ _ => ?_
  refine ThrowsOnly.bind (parsePositiveAmount_otherwise _ _) fun _ _ => ?_
  refine ThrowsOnly.bind (parseAmount_otherwise _ _) fun _ _ => ?_
  refine ThrowsOnly.bind (check_otherwise (by decide)) fun _ _ => ?_
  refine ThrowsOnly.forM (fun e => ?_) _
  refine ThrowsOnly.bind (assertIdentifier_otherwise _ _) fun _ _ => ?_
  exact ThrowsOnly.bind (parseAmount_otherwise _ _) fun _ _ => ThrowsOnly.pure _

theorem takeTarget_otherwise (policy : RiskPolicy) (current : OrderedMap String Int)
    (maxPosition maxOrder : Int) (p : Progress) (target : PositionTarget) :
    ThrowsOnly Otherwise (takeTarget policy current maxPosition maxOrder p target) := by
  refine ThrowsOnly.bind (assertIdentifier_otherwise _ _) fun _ _ => ?_
  refine ThrowsOnly.bind (check_otherwise (by decide)) fun _ _ => ?_
  refine ThrowsOnly.bind (check_otherwise (by decide)) fun _ _ => ?_
  refine ThrowsOnly.bind (parseAmount_otherwise _ _) fun _ _ => ?_
  refine ThrowsOnly.bind (check_otherwise (by decide)) fun _ _ => ?_
  exact ThrowsOnly.bind (check_otherwise (by decide)) fun _ _ => ThrowsOnly.pure _

theorem isReductionOnly_otherwise (targets : List PositionTarget) (current : OrderedMap String Int) :
    ThrowsOnly Otherwise (isReductionOnly targets current) := by
  induction targets with
  | nil => exact ThrowsOnly.ok true
  | cons target rest ih =>
      refine ThrowsOnly.bind (parseAmount_otherwise _ _) fun after _ => ?_
      exact ThrowsOnly.ite (fun _ => ih) (fun _ => ThrowsOnly.pure false)

theorem evaluateRisk_otherwise (decision : StrategyDecision) (account : AccountSnapshot)
    (policy : RiskPolicy) : ThrowsOnly Otherwise (evaluateRisk decision account policy) := by
  refine ThrowsOnly.bind (check_otherwise (by decide)) fun _ _ => ?_
  refine ThrowsOnly.bind (ThrowsOnly.foldlM (fun positions e =>
    ThrowsOnly.bind (parseAmount_otherwise _ _) fun _ _ => ThrowsOnly.pure _) _ _) fun current _ => ?_
  refine ThrowsOnly.bind (parsePositiveAmount_otherwise _ _) fun maxPosition _ => ?_
  refine ThrowsOnly.bind (parsePositiveAmount_otherwise _ _) fun maxOrder _ => ?_
  refine ThrowsOnly.bind (ThrowsOnly.foldlM
    (takeTarget_otherwise policy current maxPosition maxOrder) _ _) fun p _ => ?_
  refine ThrowsOnly.bind (parsePositiveAmount_otherwise _ _) fun maxGross _ => ?_
  refine ThrowsOnly.bind (check_otherwise (by decide)) fun _ _ => ?_
  refine ThrowsOnly.bind (parsePositiveAmount_otherwise _ _) fun equity _ => ?_
  refine ThrowsOnly.bind (check_otherwise (by decide)) fun _ _ => ?_
  refine ThrowsOnly.bind (parseAmount_otherwise _ _) fun dailyPnl _ => ?_
  refine ThrowsOnly.bind (parsePositiveAmount_otherwise _ _) fun maxDailyLoss _ => ?_
  refine ThrowsOnly.ite (fun _ => ?_) (fun _ => ThrowsOnly.pure _)
  refine ThrowsOnly.bind (check_otherwise (by decide)) fun _ _ => ?_
  refine ThrowsOnly.bind (isReductionOnly_otherwise _ _) fun reduces _ => ?_
  exact ThrowsOnly.bind (check_otherwise (by decide)) fun _ _ => ThrowsOnly.pure _

section Store

variable {crypto : Crypto}

theorem canonicalJson_otherwise (value : Json) : ThrowsOnly Otherwise (canonicalJson crypto value) :=
  ThrowsOnly.bind (check_otherwise (by decide)) fun _ _ => ThrowsOnly.pure _

theorem hashPayload_otherwise (value : Json) : ThrowsOnly Otherwise (hashPayload crypto value) :=
  ThrowsOnly.bind (canonicalJson_otherwise value) fun _ _ => ThrowsOnly.pure _

theorem assess_otherwise (input : IssueExecutionPermitInput Seen) (nowMs : Int) :
    ThrowsOnly Otherwise (assess crypto input nowMs) := by
  refine ThrowsOnly.bind (check_otherwise (by decide)) fun _ _ => ?_
  refine ThrowsOnly.bind (validateGrant_otherwise _ _) fun _ _ => ?_
  refine ThrowsOnly.bind (check_otherwise (by decide)) fun _ _ => ?_
  refine ThrowsOnly.bind (validateReleaseBinding_otherwise _ _) fun _ _ => ?_
  refine ThrowsOnly.bind (validateDecisionBinding_otherwise _ _ _) fun _ _ => ?_
  refine ThrowsOnly.bind (validateAccount_otherwise _ _ _) fun _ _ => ?_
  refine ThrowsOnly.bind (hashPayload_otherwise _) fun _ _ => ?_
  refine ThrowsOnly.bind (check_otherwise (by decide)) fun _ _ => ?_
  refine ThrowsOnly.bind (evaluateRisk_otherwise _ _ _) fun _ _ => ?_
  exact ThrowsOnly.bind (parseTimestamp_otherwise _ _) fun _ _ => ThrowsOnly.pure _

/-- What signs does not fail with an error of the engine. -/
def SignsApart (crypto : Crypto) : Prop :=
  ∀ key text failure, crypto.sign key text = .error failure → ∃ message, failure = .other message

theorem makePermit_otherwise (hsign : SignsApart crypto) (input : IssueExecutionPermitInput Seen)
    (nowMs : Int) (orders : List ExecutionOrder) (policyHash : String) (expiry : Int) :
    ThrowsOnly Otherwise (makePermit crypto input nowMs orders policyHash expiry) := by
  have hsigned : ∀ key text, ThrowsOnly Otherwise (crypto.sign key text) := by
    intro key text failure h
    obtain ⟨message, rfl⟩ := hsign key text failure h
    exact id
  refine ThrowsOnly.bind (parseTimestamp_otherwise _ _) fun _ _ => ?_
  refine ThrowsOnly.bind (hashPayload_otherwise _) fun _ _ => ?_
  refine ThrowsOnly.bind (hashPayload_otherwise _) fun _ _ => ?_
  refine ThrowsOnly.bind (hashPayload_otherwise _) fun _ _ => ?_
  refine ThrowsOnly.bind (assertIdentifier_otherwise _ _) fun _ _ => ?_
  refine ThrowsOnly.bind (canonicalJson_otherwise _) fun _ _ => ?_
  exact ThrowsOnly.bind (hsigned _ _) fun _ _ => ThrowsOnly.pure _

/-! ## The store -/

/-- The store after what has expired was dropped. -/
def fresh (seen : Seen) (nowMs : Int) : Seen := seen.filter fun e => decide (nowMs ≤ e.2)

theorem get?_fresh {seen : Seen} {nowMs expiry : Int} {key : String}
    (h : seen.get? key = some expiry) (hlive : nowMs ≤ expiry) :
    (fresh seen nowMs).get? key = some expiry := by
  induction seen with
  | nil => cases h
  | cons e rest ih =>
      obtain ⟨k, v⟩ := e
      by_cases hkey : k = key
      · have hv : v = expiry := by
          simpa [OrderedMap.get?, hkey] using h
        have hkept : fresh ((k, v) :: rest) nowMs = (k, v) :: fresh rest nowMs :=
          List.filter_cons_of_pos (decide_eq_true (hv ▸ hlive))
        rw [hkept, OrderedMap.get?, if_pos hkey, hv]
      · rw [OrderedMap.get?, if_neg hkey] at h
        by_cases hlater : nowMs ≤ v
        · have hkept : fresh ((k, v) :: rest) nowMs = (k, v) :: fresh rest nowMs :=
            List.filter_cons_of_pos (decide_eq_true hlater)
          rw [hkept, OrderedMap.get?, if_neg hkey]
          exact ih h
        · have hdropped : fresh ((k, v) :: rest) nowMs = fresh rest nowMs :=
            List.filter_cons_of_neg (by simpa using hlater)
          rw [hdropped]
          exact ih h

theorem mem_of_get?_fresh {seen : Seen} {nowMs expiry : Int} {key : String}
    (h : (fresh seen nowMs).get? key = some expiry) : (key, expiry) ∈ seen :=
  (List.mem_filter.mp (OrderedMap.mem_of_get? h)).1

/-- The nonce of a call was consumed, with what it was consumed until. -/
structure ConsumedUntil (crypto : Crypto) (c : Call) (nowMs expiry : Int) : Prop where
  time : c.issue.time = some nowMs
  passed : ∃ orders policyHash, assess crypto c.issue.input nowMs = .ok (orders, policyHash, expiry)
  absent : (fresh c.seen nowMs).get? c.issue.key = none

theorem consume_eq (c : Issue) (seen : Seen) (expiry nowMs : Int) :
    memoryReplayStore.consume c.scope c.nonce expiry nowMs seen =
      if ((fresh seen nowMs).get? c.key).isSome then .ok false (fresh seen nowMs)
      else .ok true ((fresh seen nowMs).set c.key expiry) := rfl

theorem Call.consumed_iff {c : Call} : c.Consumed crypto ↔
    ∃ nowMs expiry, ConsumedUntil crypto c nowMs expiry := by
  unfold Call.Consumed
  rw [c.issue.shared]
  constructor
  · rintro ⟨nowMs, orders, policyHash, expiry, seen', htime, hassess, hconsume⟩
    refine ⟨nowMs, expiry, htime, ⟨orders, policyHash, hassess⟩, ?_⟩
    rw [consume_eq] at hconsume
    split at hconsume
    · cases hconsume
    · next habsent => exact Option.not_isSome_iff_eq_none.mp habsent
  · rintro ⟨nowMs, expiry, htime, ⟨orders, policyHash, hassess⟩, habsent⟩
    refine ⟨nowMs, orders, policyHash, expiry, (fresh c.seen nowMs).set c.issue.key expiry, htime,
      hassess, ?_⟩
    rw [consume_eq, if_neg (Option.not_isSome_iff_eq_none.mpr habsent)]

/-- A call that passes the checks is refused at the store or leaves its key there. -/
theorem result_eq {c : Call} {nowMs expiry : Int} {orders : List ExecutionOrder} {policyHash : String}
    (htime : c.issue.time = some nowMs)
    (hassess : assess crypto c.issue.input nowMs = .ok (orders, policyHash, expiry)) :
    c.result crypto = (do
      let consumed ← memoryReplayStore.consume c.issue.scope c.issue.nonce expiry nowMs
      await (check (consumed = true) "REPLAYED_DECISION"
        "The strategy decision nonce has already been consumed")
      await (makePermit crypto c.issue.input nowMs orders policyHash expiry) :
        EStateM Failure Seen (Signed ExecutionPermit)) c.seen := by
  unfold Call.result issueExecutionPermit
  rw [show (c.issue.input.now.getD c.issue.clock).getTime = some nowMs from htime]
  dsimp only
  rw [run_bind (run_await hassess c.seen), c.issue.shared]
  rfl

theorem result_of_found {c : Call} {nowMs expiry old : Int} {orders : List ExecutionOrder}
    {policyHash : String} (htime : c.issue.time = some nowMs)
    (hassess : assess crypto c.issue.input nowMs = .ok (orders, policyHash, expiry))
    (hfound : (fresh c.seen nowMs).get? c.issue.key = some old) :
    c.result crypto = .error (.securityModelError "REPLAYED_DECISION"
      "The strategy decision nonce has already been consumed") (fresh c.seen nowMs) := by
  have hconsume : memoryReplayStore.consume c.issue.scope c.issue.nonce expiry nowMs c.seen =
      .ok false (fresh c.seen nowMs) := by
    rw [consume_eq, if_pos]
    exact Option.isSome_iff_exists.mpr ⟨old, hfound⟩
  rw [result_eq htime hassess, run_bind hconsume]
  rfl

theorem result_of_absent {c : Call} {nowMs expiry : Int} {orders : List ExecutionOrder}
    {policyHash : String} (htime : c.issue.time = some nowMs)
    (hassess : assess crypto c.issue.input nowMs = .ok (orders, policyHash, expiry))
    (habsent : (fresh c.seen nowMs).get? c.issue.key = none) :
    c.result crypto = (await (makePermit crypto c.issue.input nowMs orders policyHash expiry) :
      EStateM Failure Seen (Signed ExecutionPermit)) ((fresh c.seen nowMs).set c.issue.key expiry) := by
  have hconsume : memoryReplayStore.consume c.issue.scope c.issue.nonce expiry nowMs c.seen =
      .ok true ((fresh c.seen nowMs).set c.issue.key expiry) := by
    rw [consume_eq, if_neg]
    exact Option.not_isSome_iff_eq_none.mpr habsent
  rw [result_eq htime hassess, run_bind hconsume]
  rfl

theorem final_await {α : Type} (x : Except Failure α) (seen : Seen) :
    final ((await x : EStateM Failure Seen α) seen) = seen := by
  cases x with
  | ok a => rfl
  | error failure => rfl

/-- What a call does: it fails before the store, it is refused there, or its nonce is consumed. -/
inductive CallCase (crypto : Crypto) (c : Call) : Prop
  | before (failure : Failure) (hresult : c.result crypto = .error failure c.seen)
      (hother : Otherwise failure) (hnot : ∀ nowMs expiry, ¬ ConsumedUntil crypto c nowMs expiry)
  | refused (nowMs old : Int) (htime : c.issue.time = some nowMs)
      (hfound : (fresh c.seen nowMs).get? c.issue.key = some old)
      (hresult : ∃ failure, c.result crypto = .error failure (fresh c.seen nowMs))
  | consumed (nowMs expiry : Int) (hconsumed : ConsumedUntil crypto c nowMs expiry)
      (hfinal : final (c.result crypto) = (fresh c.seen nowMs).set c.issue.key expiry)
      (hother : ¬ c.Replayed crypto)

theorem call_cases (hsign : SignsApart crypto) (c : Call) : CallCase crypto c := by
  cases htime : c.issue.time with
  | none =>
      refine .before (.securityModelError "INVALID_TIME" "The risk-engine clock is invalid") ?_
        (otherwise_of (by decide)) fun nowMs expiry h => ?_
      · unfold Call.result issueExecutionPermit
        rw [show (c.issue.input.now.getD c.issue.clock).getTime = none from htime]
        rfl
      · exact absurd (htime.symm.trans h.time) (by simp)
  | some nowMs =>
      cases hassess : assess crypto c.issue.input nowMs with
      | error failure =>
          refine .before failure ?_ (assess_otherwise _ _ failure hassess) fun now expiry h => ?_
          · have hthrown : (await (assess crypto c.issue.input nowMs) : EStateM Failure Seen _) c.seen =
                .error failure c.seen := by
              rw [hassess]
              rfl
            unfold Call.result issueExecutionPermit
            rw [show (c.issue.input.now.getD c.issue.clock).getTime = some nowMs from htime]
            exact run_bind_error hthrown
          · obtain ⟨orders, policyHash, hpassed⟩ := h.passed
            have hnow : now = nowMs := Option.some.inj (h.time.symm.trans htime)
            rw [hnow, hassess] at hpassed
            cases hpassed
      | ok assessed =>
          obtain ⟨orders, policyHash, expiry⟩ := assessed
          cases hfound : (fresh c.seen nowMs).get? c.issue.key with
          | some old =>
              exact .refused nowMs old htime hfound ⟨_, result_of_found htime hassess hfound⟩
          | none =>
              have hresult := result_of_absent htime hassess hfound
              refine .consumed nowMs expiry ⟨htime, ⟨orders, policyHash, hassess⟩, hfound⟩ ?_ ?_
              · rw [hresult, final_await]
              · rintro ⟨failure, seen', herror, hreplay⟩
                cases hmade : makePermit crypto c.issue.input nowMs orders policyHash expiry with
                | ok signed =>
                    rw [hresult, hmade] at herror
                    cases herror
                | error other =>
                    rw [hresult, hmade] at herror
                    cases herror
                    exact makePermit_otherwise hsign _ _ _ _ _ failure hmade hreplay

/-- The texts of the key are those of the payload. -/
theorem assess_texts {input : IssueExecutionPermitInput Seen} {nowMs : Int}
    {assessed : List ExecutionOrder × String × Int} (h : assess crypto input nowMs = .ok assessed) :
    input.grant.payload.grantId = input.decision.payload.grantId ∧
      input.release.strategyVersionId = input.decision.payload.strategyVersionId := by
  simp only [assess, bind_eq_ok] at h
  obtain ⟨_, _, _, _, _, _, _, hrelease, _, hdecision, _⟩ := h
  simp only [validateReleaseBinding, bind_eq_ok, check_eq_ok] at hrelease
  obtain ⟨_, _, _, _, _, _, _, _, hbound⟩ := hrelease
  simp only [validateDecisionBinding, bind_eq_ok, check_eq_ok] at hdecision
  obtain ⟨_, _, _, _, _, _, _, _, _, _, _, _, _, _, _, _, _, hgrant, _⟩ := hdecision
  exact ⟨hgrant.1.symm, hbound.2.1.symm⟩

/-- The store and the calls so far: every key was consumed, and a key that was consumed is there
until it expires. -/
structure Kept (crypto : Crypto) (past : List Call) (seen : Seen) : Prop where
  consumed : ∀ key expiry, (key, expiry) ∈ seen → ∃ c ∈ past, c.Consumed crypto ∧ c.issue.key = key
  live : ∀ c ∈ past, ∀ nowMs expiry, ConsumedUntil crypto c nowMs expiry →
    (∀ d ∈ past, ∀ t ∈ d.issue.time, t ≤ expiry) → seen.get? c.issue.key = some expiry

theorem Kept.step {past : List Call} {c : Call} (hsign : SignsApart crypto)
    (h : Kept crypto past c.seen) : Kept crypto (past ++ [c]) (final (c.result crypto)) := by
  have hearlier : ∀ key expiry, (key, expiry) ∈ c.seen →
      ∃ d ∈ past ++ [c], d.Consumed crypto ∧ d.issue.key = key := by
    intro key expiry hin
    obtain ⟨d, hd, hconsumed⟩ := h.consumed key expiry hin
    exact ⟨d, List.mem_append_left _ hd, hconsumed⟩
  have hlast : c ∈ past ++ [c] := List.mem_append_right _ (List.mem_singleton_self c)
  have hlive : ∀ d ∈ past, ∀ nowMs expiry, ConsumedUntil crypto d nowMs expiry →
      (∀ e ∈ past ++ [c], ∀ t ∈ e.issue.time, t ≤ expiry) → c.seen.get? d.issue.key = some expiry :=
    fun d hd nowMs expiry hd' hle =>
      h.live d hd nowMs expiry hd' fun e he => hle e (List.mem_append_left _ he)
  cases call_cases hsign c with
  | before failure hresult _ hnot =>
      rw [hresult]
      refine ⟨hearlier, fun d hd nowMs expiry hd' hle => ?_⟩
      rcases List.mem_append.mp hd with hold | hnew
      · exact hlive d hold nowMs expiry hd' hle
      · rw [List.mem_singleton.mp hnew] at hd'
        exact absurd hd' (hnot nowMs expiry)
  | refused nowMs old htime hfound hresult =>
      obtain ⟨failure, hresult⟩ := hresult
      rw [hresult]
      refine ⟨fun key expiry hin => hearlier key expiry (List.mem_filter.mp hin).1,
        fun d hd now expiry hd' hle => ?_⟩
      rcases List.mem_append.mp hd with hold | hnew
      · exact get?_fresh (hlive d hold now expiry hd' hle) (hle c hlast nowMs htime)
      · rw [List.mem_singleton.mp hnew] at hd'
        have hnow : now = nowMs := Option.some.inj (hd'.time.symm.trans htime)
        have habsent := hd'.absent
        rw [hnow, hfound] at habsent
        cases habsent
  | consumed nowMs until_ hconsumed hfinal _ =>
      rw [hfinal]
      refine ⟨fun key expiry hin => ?_, fun d hd now expiry hd' hle => ?_⟩
      · rcases OrderedMap.mem_of_mem_set hin with heq | hold
        · cases heq
          exact ⟨c, hlast, Call.consumed_iff.mpr ⟨nowMs, until_, hconsumed⟩, rfl⟩
        · exact hearlier key expiry (List.mem_filter.mp hold).1
      · rcases List.mem_append.mp hd with hold | hnew
        · have hget := get?_fresh (hlive d hold now expiry hd' hle) (hle c hlast nowMs hconsumed.time)
          have hne : d.issue.key ≠ c.issue.key := by
            intro heq
            rw [heq, hconsumed.absent] at hget
            cases hget
          rw [OrderedMap.get?_set_of_ne hne]
          exact hget
        · rw [List.mem_singleton.mp hnew] at hd' ⊢
          have hnow : now = nowMs := Option.some.inj (hd'.time.symm.trans hconsumed.time)
          obtain ⟨_, _, hpassed⟩ := hd'.passed
          obtain ⟨_, _, hpassed'⟩ := hconsumed.passed
          rw [hnow, hpassed'] at hpassed
          cases hpassed
          exact OrderedMap.get?_set_self _ _ _

/-- Every call of a run finds what the calls before it left. -/
theorem calls_kept (hsign : SignsApart crypto) {issues : List Issue} {past before after : List Call}
    {seen : Seen} {c : Call} (hpast : Kept crypto past seen)
    (hcalls : calls crypto seen issues = before ++ c :: after) : Kept crypto (past ++ before) c.seen := by
  induction issues generalizing past before seen with
  | nil =>
      have hlength := congrArg List.length hcalls
      simp [calls] at hlength
  | cons issue rest ih =>
      rw [calls] at hcalls
      cases before with
      | nil =>
          rw [List.nil_append, List.cons.injEq] at hcalls
          rw [← hcalls.1, List.append_nil]
          exact hpast
      | cons first before =>
          rw [List.cons_append, List.cons.injEq] at hcalls
          have hnext := ih (Kept.step (c := ⟨issue, seen⟩) hsign hpast) hcalls.2
          rw [← hcalls.1, ← List.singleton_append, ← List.append_assoc]
          exact hnext

/-! ## Runs -/

/-- The clock does not go back from one call to another. -/
def ClockOrder (c d : Issue) : Prop := ∀ t ∈ c.time, ∀ u ∈ d.time, t ≤ u

theorem map_issue_calls (crypto : Crypto) (seen : Seen) (issues : List Issue) :
    (calls crypto seen issues).map Call.issue = issues := by
  induction issues generalizing seen with
  | nil => rfl
  | cons issue rest ih => rw [calls, List.map_cons, ih]

/-- Different grants, releases and nonces are not joined to one key. -/
def DistinctKeys (issues : List Issue) : Prop :=
  ∀ c ∈ issues, ∀ d ∈ issues, c.key = d.key → c.SameNonce d

/-- A separator that is in neither first part splits a text in one way. -/
theorem append_separator_inj {separator : Char} {a b x y : List Char} (ha : separator ∉ a)
    (hb : separator ∉ b) (h : a ++ separator :: x = b ++ separator :: y) : a = b ∧ x = y := by
  induction a generalizing b with
  | nil =>
      cases b with
      | nil => exact ⟨rfl, (List.cons.inj h).2⟩
      | cons d b =>
          have hfirst : separator = d := (List.cons.inj h).1
          exact absurd (hfirst ▸ List.mem_cons_self) hb
  | cons d a ih =>
      cases b with
      | nil =>
          have hfirst : d = separator := (List.cons.inj h).1
          exact absurd (hfirst ▸ List.mem_cons_self) ha
      | cons d' b =>
          obtain ⟨hfirst, hrest⟩ := List.cons.inj h
          obtain ⟨hsame, htail⟩ := ih (List.not_mem_of_not_mem_cons ha) (List.not_mem_of_not_mem_cons hb) hrest
          exact ⟨by rw [hfirst, hsame], htail⟩

/-- The texts of a key can be told apart when the first two have no separator. -/
theorem distinctKeys_of_plain {issues : List Issue}
    (h : ∀ c ∈ issues, ':' ∉ c.grantId.toList ∧ ':' ∉ c.strategyVersionId.toList) :
    DistinctKeys issues := by
  intro c hc d hd hkey
  have htexts : ∀ e : Issue, e.key.toList =
      e.grantId.toList ++ ':' :: (e.strategyVersionId.toList ++ ':' :: e.nonce.toList) := by
    intro e
    simp [Issue.key, Issue.scope]
  have hlists := congrArg String.toList hkey
  rw [htexts, htexts] at hlists
  obtain ⟨hgrant, hrest⟩ := append_separator_inj (h c hc).1 (h d hd).1 hlists
  obtain ⟨hversion, hnonce⟩ := append_separator_inj (h c hc).2 (h d hd).2 hrest
  exact ⟨String.toList_inj.mp hgrant, String.toList_inj.mp hversion, String.toList_inj.mp hnonce⟩

/-- No payload gets two permits, and a nonce is refused as replayed only after it was consumed. -/
def SingleUse (crypto : Crypto) (issues : List Issue) : Prop :=
  ∀ before c after, calls crypto [] issues = before ++ c :: after →
    (c.Permits crypto → ∀ d ∈ before, d.Permits crypto → d.issue.payload ≠ c.issue.payload) ∧
      (c.Replayed crypto → ∃ d ∈ before, d.Consumed crypto ∧ d.issue.SameNonce c.issue)

theorem Call.Permits.consumed {c : Call} (hsign : SignsApart crypto) (h : c.Permits crypto) :
    ∃ nowMs expiry, ConsumedUntil crypto c nowMs expiry := by
  obtain ⟨signed, seen', hresult⟩ := h
  cases call_cases hsign c with
  | before failure herror _ _ =>
      rw [hresult] at herror
      cases herror
  | refused nowMs old _ _ herror =>
      obtain ⟨failure, herror⟩ := herror
      rw [hresult] at herror
      cases herror
  | consumed nowMs expiry hconsumed _ _ => exact ⟨nowMs, expiry, hconsumed⟩

/-- One payload gives one key and one expiry. -/
theorem ConsumedUntil.of_payload {c d : Call} {now now' expiry expiry' : Int}
    (hc : ConsumedUntil crypto c now expiry) (hd : ConsumedUntil crypto d now' expiry')
    (h : d.issue.payload = c.issue.payload) :
    d.issue.key = c.issue.key ∧ expiry' = expiry ∧ now < expiry := by
  obtain ⟨_, _, hpassed⟩ := hc.passed
  obtain ⟨_, _, hpassed'⟩ := hd.passed
  have htexts := assess_texts hpassed
  have htexts' := assess_texts hpassed'
  have hexpiry := (assess_spec hpassed).2.1
  have hexpiry' := (assess_spec hpassed').2.1
  have hpayload : d.issue.input.decision.payload = c.issue.input.decision.payload := h
  rw [hpayload] at htexts' hexpiry'
  refine ⟨?_, Option.some.inj (hexpiry'.symm.trans hexpiry), (assess_spec hpassed).2.2.1⟩
  unfold Issue.key Issue.scope Issue.grantId Issue.strategyVersionId Issue.nonce
  rw [htexts.1, htexts.2, htexts'.1, htexts'.2, hpayload]

theorem Kept.not_twice {past : List Call} {c d : Call} (hsign : SignsApart crypto)
    (h : Kept crypto past c.seen) (hclock : ∀ e ∈ past, ClockOrder e.issue c.issue) (hd : d ∈ past)
    (hcp : c.Permits crypto) (hdp : d.Permits crypto) : d.issue.payload ≠ c.issue.payload := by
  intro hpayload
  obtain ⟨now, expiry, hc⟩ := hcp.consumed hsign
  obtain ⟨now', expiry', hd'⟩ := hdp.consumed hsign
  obtain ⟨hkey, rfl, hlive⟩ := hc.of_payload hd' hpayload
  have hget := h.live d hd now' expiry' hd' fun e he t ht =>
    Int.le_trans (hclock e he t ht now hc.time) (Int.le_of_lt hlive)
  have hfresh := get?_fresh hget (Int.le_of_lt hlive)
  rw [hkey, hc.absent] at hfresh
  cases hfresh

theorem Kept.consumed_before {past : List Call} {c : Call} (hsign : SignsApart crypto)
    (h : Kept crypto past c.seen) (hreplayed : c.Replayed crypto) :
    ∃ d ∈ past, d.Consumed crypto ∧ d.issue.key = c.issue.key := by
  cases call_cases hsign c with
  | before failure hresult hother _ =>
      obtain ⟨failure', seen', herror, hreplay⟩ := hreplayed
      rw [hresult] at herror
      cases herror
      exact absurd hreplay hother
  | refused nowMs old _ hfound _ => exact h.consumed c.issue.key old (mem_of_get?_fresh hfound)
  | consumed nowMs expiry _ _ hother => exact absurd hreplayed hother

/-- Over calls whose clock does not go back, and whose keys come from one grant, release and nonce
each, a nonce is used once and is refused only after it was used. -/
theorem distinct_keys_single_use (crypto : Crypto) (hsign : SignsApart crypto) (issues : List Issue)
    (hclock : issues.Pairwise ClockOrder) (hkeys : DistinctKeys issues) : SingleUse crypto issues := by
  intro before c after hcalls
  have hkept : Kept crypto ([] ++ before) c.seen :=
    calls_kept hsign ⟨fun _ _ hin => absurd hin List.not_mem_nil,
      fun _ hin => absurd hin List.not_mem_nil⟩ hcalls
  have hmap := map_issue_calls crypto [] issues
  rw [hcalls, List.map_append, List.map_cons] at hmap
  refine ⟨fun hpermits d hd hdpermits => ?_, fun hreplayed => ?_⟩
  · rw [← hmap] at hclock
    refine hkept.not_twice hsign (fun e he => ?_) hd hpermits hdpermits
    exact (List.pairwise_append.mp hclock).2.2 _ (List.mem_map_of_mem he) _ List.mem_cons_self
  · obtain ⟨d, hd, hconsumed, hkey⟩ := hkept.consumed_before hsign hreplayed
    refine ⟨d, hd, hconsumed, hkeys _ ?_ _ ?_ hkey⟩
    · rw [← hmap]
      exact List.mem_append_left _ (List.mem_map_of_mem hd)
    · rw [← hmap]
      exact List.mem_append_right _ List.mem_cons_self

end Store

/-! ## Two calls -/

theorem exampleCrypto_signsApart : SignsApart exampleCrypto := by
  intro key text failure h
  cases h

def exampleIssue : Issue := ⟨exampleNow, exampleInput, rfl⟩

/-- The sample request, made twice. -/
theorem example_single_use : SignsApart exampleCrypto ∧
    [exampleIssue, exampleIssue].Pairwise ClockOrder ∧ DistinctKeys [exampleIssue, exampleIssue] ∧
    SingleUse exampleCrypto [exampleIssue, exampleIssue] := by
  have hclock : [exampleIssue, exampleIssue].Pairwise ClockOrder := by
    refine List.pairwise_pair.mpr fun t ht u hu => ?_
    rw [Option.mem_unique ht hu]
  have hkeys : DistinctKeys [exampleIssue, exampleIssue] := by
    intro c hc d hd _
    simp only [List.mem_cons, List.not_mem_nil, or_false, or_self] at hc hd
    rw [hc, hd]
    exact ⟨rfl, rfl, rfl⟩
  exact ⟨exampleCrypto_signsApart, hclock, hkeys,
    distinct_keys_single_use exampleCrypto exampleCrypto_signsApart _ hclock hkeys⟩

/-- The sample request under another grant and another release. -/
def joinedInput (grantId strategyVersionId : String) : IssueExecutionPermitInput Seen where
  grant := exampleSigned AuthorizationGrant.json { exampleGrant with grantId } "user-key-1" "user key"
  expectedUserSigningKeyId := "user-key-1"
  userPublicKeyPem := "user key"
  decision := exampleSigned StrategyDecision.json { exampleDecision with grantId, strategyVersionId }
    "runtime-key-1" "runtime key"
  release := { exampleRelease with strategyVersionId }
  account := exampleAccount
  replayStore := memoryReplayStore
  riskSigner := ⟨"risk-key-1", "risk key"⟩
  now := some exampleNow

def joinedIssue (grantId strategyVersionId : String) : Issue :=
  ⟨exampleNow, joinedInput grantId strategyVersionId, rfl⟩

theorem joined_assessed {grantId strategyVersionId : String} (hgrant : isIdentifier grantId = true)
    (hversion : isIdentifier strategyVersionId = true)
    (hgrantText : (AuthorizationGrant.json { exampleGrant with grantId }).text.isSome = true)
    (hdecisionText : (StrategyDecision.json
      { exampleDecision with grantId, strategyVersionId }).text.isSome = true) :
    assess exampleCrypto (joinedInput grantId strategyVersionId) 1788508800000 =
      .ok ([⟨"BTC-USDT", "1000000000"⟩], exampleDecision.policyHash, 1788508810000) := by
  have hgrantId : ∀ name, assertIdentifier name grantId = .ok () := fun name => ensure_of hgrant _
  have hversionId : ∀ name, assertIdentifier name strategyVersionId = .ok () :=
    fun name => ensure_of hversion _
  -- what does not read the two texts is as for the sample request
  have hexample := example_assessed
  simp only [assess, validateGrant, validateReleaseBinding, validateDecisionBinding, bind_eq_ok] at hexample
  obtain ⟨_, _, _, ⟨_, _, hgrantRest⟩, _, _, _, ⟨_, hfamily, _, _, hreleaseRest⟩, _,
    ⟨_, hdecisionId, _, hnonce, _, _, hdecisionRest⟩, haccount⟩ := hexample
  obtain ⟨_, hsigner, _, hmeasurement, _⟩ := hreleaseRest
  obtain ⟨_, hfamily', _, _, _, hmeasurement', _, hvenue, _, hhash, _, _, hwindow⟩ := hdecisionRest
  refine bind_eq_ok.mpr ⟨(), ensure_of (exampleSigned_verifies hgrantText) _, ?_⟩
  refine bind_eq_ok.mpr ⟨(), bind_eq_ok.mpr ⟨(), hgrantId _, ?_⟩, ?_⟩
  · simp only [bind_eq_ok]
    exact hgrantRest
  refine bind_eq_ok.mpr ⟨(), ensure_of (exampleSigned_verifies hdecisionText) _, ?_⟩
  refine bind_eq_ok.mpr ⟨(), ?_, bind_eq_ok.mpr ⟨(), ?_, ?_⟩⟩
  · refine bind_eq_ok.mpr ⟨(), hfamily, bind_eq_ok.mpr ⟨(), hversionId _, ?_⟩⟩
    refine bind_eq_ok.mpr ⟨(), hsigner, bind_eq_ok.mpr ⟨(), hmeasurement, ?_⟩⟩
    exact ensure_of ⟨rfl, rfl, rfl⟩ _
  · refine bind_eq_ok.mpr ⟨(), hdecisionId, bind_eq_ok.mpr ⟨(), hnonce, ?_⟩⟩
    refine bind_eq_ok.mpr ⟨(), hgrantId _, bind_eq_ok.mpr ⟨(), hfamily', ?_⟩⟩
    refine bind_eq_ok.mpr ⟨(), hversionId _, bind_eq_ok.mpr ⟨(), hmeasurement', ?_⟩⟩
    refine bind_eq_ok.mpr ⟨(), hvenue, bind_eq_ok.mpr ⟨(), hhash, ?_⟩⟩
    refine bind_eq_ok.mpr ⟨(), ensure_of ⟨rfl, rfl⟩ _, ?_⟩
    simp only [bind_eq_ok]
    exact hwindow
  · simp only [bind_eq_ok]
    exact haccount

def firstJoined : Issue := joinedIssue "grant:v1" "2"

def secondJoined : Issue := joinedIssue "grant" "v1:2"

theorem firstJoined_assessed : assess exampleCrypto firstJoined.input 1788508800000 =
    .ok ([⟨"BTC-USDT", "1000000000"⟩], exampleDecision.policyHash, 1788508810000) :=
  joined_assessed (by decide) (by decide) (by decide) (by decide)

theorem secondJoined_assessed : assess exampleCrypto secondJoined.input 1788508800000 =
    .ok ([⟨"BTC-USDT", "1000000000"⟩], exampleDecision.policyHash, 1788508810000) :=
  joined_assessed (by decide) (by decide) (by decide) (by decide)

/-- A nonce that was never used under its grant and release is refused, since another grant and
release are joined to the same key. -/
theorem joined_nonce_refused : SignsApart exampleCrypto ∧
    [firstJoined, secondJoined].Pairwise ClockOrder ∧
    ¬ SingleUse exampleCrypto [firstJoined, secondJoined] := by
  have hclock : [firstJoined, secondJoined].Pairwise ClockOrder := by
    refine List.pairwise_pair.mpr fun t ht u hu => ?_
    have hsame : t = u := Option.mem_unique ht hu
    rw [hsame]
  refine ⟨exampleCrypto_signsApart, hclock, fun huse => ?_⟩
  have hleft : final (Call.result exampleCrypto ⟨firstJoined, []⟩) =
      [(firstJoined.key, 1788508810000)] := by
    rw [result_of_absent (c := ⟨firstJoined, []⟩) rfl firstJoined_assessed rfl, final_await]
    rfl
  have hcalls : calls exampleCrypto [] [firstJoined, secondJoined] =
      [⟨firstJoined, []⟩] ++ ⟨secondJoined, [(firstJoined.key, 1788508810000)]⟩ :: [] := by
    rw [calls, hleft]
    rfl
  have hkey : firstJoined.key = secondJoined.key := by decide
  have hreplayed : Call.Replayed exampleCrypto
      ⟨secondJoined, [(firstJoined.key, 1788508810000)]⟩ := by
    have hfound : (fresh [(firstJoined.key, 1788508810000)] 1788508800000).get? secondJoined.key =
        some 1788508810000 := by
      rw [hkey]
      decide
    exact ⟨_, _, result_of_found rfl secondJoined_assessed hfound, rfl⟩
  obtain ⟨d, hd, _, hsame, _⟩ := (huse _ _ _ hcalls).2 hreplayed
  rw [List.mem_singleton.mp hd] at hsame
  exact absurd hsame (by decide)

end Security
end AlphaForge
