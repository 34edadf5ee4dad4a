/-
The executor's loop, `testnet-executor-service.ts`, and its restart.

A tick captures a batch, appends it to the journal and then advances the engine with
it; a tick that throws is caught, and the next one starts from what the service holds.
The constructor replays the journal.  A tick can therefore go on from a batch that the
replay cannot pass, and this is the only way in which the two differ.

What the tick meets outside the service is an argument of it: the clocks and the
captured responses, whether the row could be written, and what the part after the
engine ends with, since that part changes neither the engine nor the journal.
-/
import AlphaForge.Reference.Sample
import AlphaForge.Reference.Steady

namespace AlphaForge
namespace Executor

open Evm Reference

/-! ## `captureReferenceBatch` -/

inductive Interruption where
  | denied
  | timeout
  deriving DecidableEq

def Interruption.reason : Interruption → String
  | .denied => "HTTP_ACCESS_DENIED"
  | .timeout => "BATCH_TIMEOUT"

/-- One round of requests: its clocks, its captures and how it was cut off. -/
structure Requests where
  startedAt : Int
  completedAt : Int
  captures : List ReferenceCapture
  interruption : Option Interruption

section Service

variable (jsonParse : String → Option Json) (sha256 : String → String)
  (batchDigest : ReferenceBatch → String)

def captureReferenceBatch (input : BatchPolicy) (r : Requests) : Except String ReferenceBatch := do
  let policy ← parseBatchPolicy input
  timestamp r.startedAt
  timestamp r.completedAt
  let batch : ReferenceBatch := {
    policy, startedAt := r.startedAt, completedAt := r.completedAt, status := .rejected
    reason := none, captures := r.captures, observations := none }
  match r.interruption with
  | some i => return { batch with reason := some i.reason }
  | none =>
      match derive_ jsonParse sha256 batch with
      | .ok observations =>
          return { batch with status := .accepted, observations := some observations }
      | .error e => return { batch with reason := some (if isReason e then e else "BATCH_FAILED") }

/-! ## The service -/

/-- What a service is constructed with: the terms of its stocks, and what
`qualifyExecutorDeployments` says of its deployments. -/
structure Options where
  terms : List ReferenceTerms
  admission : Except String Unit

structure Service where
  engine : ReferenceEngineState
  journal : List ReferenceBatch
  status : String

def selectionOf (t : ReferenceTerms) : Selection :=
  { chainId := Text.ofDecimal (String.ofList (t.identity.toList.takeWhile (· ≠ ':')))
    contractAddress := String.ofList ((t.identity.toList.dropWhile (· ≠ ':')).drop 1)
    symbol := t.symbol }

def policyOf (terms : List ReferenceTerms) : BatchPolicy :=
  { selections := terms.map selectionOf, maxAgeMs := 30000, maxQuoteSkewMs := 10000
    maxCaptureSpanMs := 30000 }

/-- One entry of the journal, checked again and given to the engine. -/
def replayEntry (engine : ReferenceEngineState) (batch : ReferenceBatch) :
    Except String ReferenceEngineState := do
  let _ ← validateReferenceBatch jsonParse sha256 batch
  return (← advanceReferenceEngine jsonParse sha256 batchDigest engine batch).state

def construct (options : Options) (journal : List ReferenceBatch) : Except String Service := do
  let engine ← createReferenceEngine options.terms
  options.admission
  let engine ← journal.foldlM (replayEntry jsonParse sha256 batchDigest) engine
  return { engine, journal, status := "NOT_STARTED" }

/-- What one tick meets. -/
structure Tick where
  closed : Bool
  canWrite : Bool
  reviewValid : Bool
  reconcile : Except String Unit
  requests : Requests
  /-- `closed` and `canWrite` again, after the capture. -/
  closedThen : Bool
  canWriteThen : Bool
  /-- The size of the row and the write of it. -/
  stored : Except String Unit
  /-- The status the rest of the tick ends with. -/
  rest : Except String String

/-- The batch a tick captures, or the status it ends with before there is one to append. -/
def gather (options : Options) (t : Tick) : Except String (String ⊕ ReferenceBatch) := do
  ensure (t.closed = false) "EXECUTOR_CLOSED"
  if t.canWrite = false then return .inl "PAUSED_STORAGE"
  else if t.reviewValid = false then return .inl "PAUSED_REFERENCE_REVIEW"
  else
    t.reconcile
    let batch ← captureReferenceBatch jsonParse sha256 (policyOf options.terms) t.requests
    if t.closedThen = true ∨ t.canWriteThen = false then return .inl "PAUSED_STORAGE"
    else return .inr batch

/-- `BatchJournal.append`. -/
def append (journal : List ReferenceBatch) (batch : ReferenceBatch) (stored : Except String Unit) :
    Except String (List ReferenceBatch) := do
  let _ ← validateReferenceBatch jsonParse sha256 batch
  stored
  return journal ++ [batch]

/-- The status a tick ends with; one that threw is caught. -/
def settle (s : Service) : Except String String → Service
  | .ok status => { s with status }
  | .error _ => { s with status := "PAUSED_EXECUTOR_ERROR" }

/-- The batch is in the journal by the time the engine sees it. -/
def tick (options : Options) (s : Service) (t : Tick) : Service :=
  match gather jsonParse sha256 options t with
  | .error e => settle s (.error e)
  | .ok (.inl status) => settle s (.ok status)
  | .ok (.inr batch) =>
      match append jsonParse sha256 s.journal batch t.stored with
      | .error e => settle s (.error e)
      | .ok journal =>
          let s := { s with journal }
          match advanceReferenceEngine jsonParse sha256 batchDigest s.engine batch with
          | .error e => settle s (.error e)
          | .ok next =>
              let s := { s with engine := next.state }
              if next.state.paused = true then settle s (.ok "PAUSED_TERMS_CHANGED")
              else if next.quotes.isNone then settle s (.ok "PAUSED_REFERENCE_DATA")
              else settle s t.rest

def run (options : Options) (s : Service) (ticks : List Tick) : Service :=
  ticks.foldl (tick jsonParse sha256 batchDigest options) s

/-! ## What a tick does to the journal -/

/-- The tick puts this batch into the journal: nothing stopped it before, the batch is
valid and the row was written. -/
def Journalled (options : Options) (t : Tick) (batch : ReferenceBatch) : Prop :=
  gather jsonParse sha256 options t = .ok (.inr batch) ∧
    (∃ valid, validateReferenceBatch jsonParse sha256 batch = .ok valid) ∧ t.stored = .ok ()

/-- Every batch of the run that came into the journal was steady for the engine then. -/
def SteadyRun (options : Options) : Service → List Tick → Prop
  | _, [] => True
  | s, t :: rest =>
      (∀ batch, Journalled jsonParse sha256 options t batch → Steady jsonParse s.engine batch) ∧
        SteadyRun options (tick jsonParse sha256 batchDigest options s t) rest

variable {jsonParse sha256 batchDigest}

@[simp] theorem settle_engine (s : Service) (r : Except String String) :
    (settle s r).engine = s.engine := by
  cases r <;> rfl

@[simp] theorem settle_journal (s : Service) (r : Except String String) :
    (settle s r).journal = s.journal := by
  cases r <;> rfl

variable (batchDigest) in
/-- A batch goes into the journal whether or not the engine then takes it. -/
theorem tick_journalled {options : Options} (s : Service) {t : Tick} {batch : ReferenceBatch}
    (h : Journalled jsonParse sha256 options t batch) :
    (tick jsonParse sha256 batchDigest options s t).journal = s.journal ++ [batch] ∧
      (tick jsonParse sha256 batchDigest options s t).engine =
        match advanceReferenceEngine jsonParse sha256 batchDigest s.engine batch with
        | .error _ => s.engine
        | .ok next => next.state := by
  obtain ⟨hgather, ⟨valid, hvalid⟩, hstored⟩ := h
  have happend : append jsonParse sha256 s.journal batch t.stored = .ok (s.journal ++ [batch]) := by
    unfold append
    rw [hvalid, ok_bind, hstored, ok_bind]
    rfl
  unfold tick
  rw [hgather]
  simp only [happend]
  cases hadvance : advanceReferenceEngine jsonParse sha256 batchDigest s.engine batch with
  | error e => exact ⟨settle_journal _ _, settle_engine _ _⟩
  | ok next =>
      simp only
      split
      · exact ⟨settle_journal _ _, settle_engine _ _⟩
      · split
        · exact ⟨settle_journal _ _, settle_engine _ _⟩
        · exact ⟨settle_journal _ _, settle_engine _ _⟩

variable (batchDigest) in
/-- Every other tick leaves the journal and the engine. -/
theorem tick_otherwise {options : Options} (s : Service) {t : Tick}
    (h : ∀ batch, ¬ Journalled jsonParse sha256 options t batch) :
    (tick jsonParse sha256 batchDigest options s t).journal = s.journal ∧
      (tick jsonParse sha256 batchDigest options s t).engine = s.engine := by
  unfold tick
  cases hgather : gather jsonParse sha256 options t with
  | error e => exact ⟨settle_journal _ _, settle_engine _ _⟩
  | ok gathered =>
      cases gathered with
      | inl status => exact ⟨settle_journal _ _, settle_engine _ _⟩
      | inr batch =>
          simp only
          cases happend : append jsonParse sha256 s.journal batch t.stored with
          | error e => exact ⟨settle_journal _ _, settle_engine _ _⟩
          | ok journal =>
              simp only [append, bind_eq_ok] at happend
              obtain ⟨valid, hvalid, _, hstored, -⟩ := happend
              exact absurd ⟨hgather, ⟨valid, hvalid⟩, hstored⟩ (h batch)

/-! ## Restart -/

theorem construct_eq_ok {options : Options} {journal : List ReferenceBatch} {s : Service} :
    construct jsonParse sha256 batchDigest options journal = .ok s ↔
      ∃ engine, createReferenceEngine options.terms = .ok engine ∧ options.admission = .ok () ∧
        journal.foldlM (replayEntry jsonParse sha256 batchDigest) engine = .ok s.engine ∧
        s.journal = journal ∧ s.status = "NOT_STARTED" := by
  unfold construct
  simp only [bind_eq_ok, pure_eq_ok]
  constructor
  · rintro ⟨engine, hengine, _, hadmission, replayed, hreplayed, rfl⟩
    exact ⟨engine, hengine, hadmission, hreplayed, rfl, rfl⟩
  · rintro ⟨engine, hengine, hadmission, hreplayed, rfl, hstatus⟩
    refine ⟨engine, hengine, (), hadmission, s.engine, hreplayed, ?_⟩
    rw [← hstatus]

/-- A service over the journal of this one would start with its engine. -/
def Restarts (jsonParse : String → Option Json) (sha256 : String → String)
    (batchDigest : ReferenceBatch → String) (options : Options) (s : Service) : Prop :=
  ∃ s', construct jsonParse sha256 batchDigest options s.journal = .ok s' ∧ s'.engine = s.engine

theorem restarts_iff {options : Options} {s : Service} :
    Restarts jsonParse sha256 batchDigest options s ↔
      ∃ engine, createReferenceEngine options.terms = .ok engine ∧ options.admission = .ok () ∧
        s.journal.foldlM (replayEntry jsonParse sha256 batchDigest) engine = .ok s.engine := by
  unfold Restarts
  simp only [construct_eq_ok]
  constructor
  · rintro ⟨s', ⟨engine, hengine, hadmission, hreplayed, -, -⟩, heq⟩
    exact ⟨engine, hengine, hadmission, heq ▸ hreplayed⟩
  · rintro ⟨engine, hengine, hadmission, hreplayed⟩
    exact ⟨⟨s.engine, s.journal, "NOT_STARTED"⟩,
      ⟨engine, hengine, hadmission, hreplayed, rfl, rfl⟩, rfl⟩

theorem replayEntry_eq_ok {engine engine' : ReferenceEngineState} {batch : ReferenceBatch}
    (h : replayEntry jsonParse sha256 batchDigest engine batch = .ok engine') :
    ∃ next, advanceReferenceEngine jsonParse sha256 batchDigest engine batch = .ok next ∧
      next.state = engine' := by
  unfold replayEntry at h
  simp only [bind_eq_ok, pure_eq_ok] at h
  obtain ⟨-, -, next, hnext, heq⟩ := h
  exact ⟨next, hnext, heq⟩

theorem replay_coherent {journal : List ReferenceBatch} {engine engine' : ReferenceEngineState}
    (hc : Coherent engine)
    (h : journal.foldlM (replayEntry jsonParse sha256 batchDigest) engine = .ok engine') :
    Coherent engine' := by
  induction journal generalizing engine with
  | nil =>
      rw [List.foldlM_nil, pure_eq_ok] at h
      exact h ▸ hc
  | cons batch rest ih =>
      rw [List.foldlM_cons, bind_eq_ok] at h
      obtain ⟨middle, hfirst, hrest⟩ := h
      obtain ⟨next, hnext, rfl⟩ := replayEntry_eq_ok hfirst
      exact ih (advance_coherent hc hnext).1 hrest

theorem restarts_coherent {options : Options} {s : Service}
    (h : Restarts jsonParse sha256 batchDigest options s) : Coherent s.engine := by
  obtain ⟨engine, hengine, -, hreplayed⟩ := restarts_iff.mp h
  exact replay_coherent (createReferenceEngine_coherent hengine).1 hreplayed

/-- A captured batch has the service's own policy. -/
theorem gather_policy {options : Options} {t : Tick} {batch : ReferenceBatch}
    (h : gather jsonParse sha256 options t = .ok (.inr batch)) :
    enginePolicy batch.policy ∧ batch.policy.selections.length = options.terms.length := by
  obtain ⟨r, hcapture⟩ : ∃ r, captureReferenceBatch jsonParse sha256 (policyOf options.terms) r =
      .ok batch := by
    simp only [gather, bind_eq_ok, ensure_eq_ok] at h
    obtain ⟨-, -, h⟩ := h
    split at h
    · cases h
    · split at h
      · cases h
      · simp only [bind_eq_ok] at h
        obtain ⟨-, -, b, hb, h⟩ := h
        split at h
        · cases h
        · cases h
          exact ⟨_, hb⟩
  simp only [captureReferenceBatch, bind_eq_ok] at hcapture
  obtain ⟨policy, hpolicy, -, -, -, -, hcapture⟩ := hcapture
  have hsame : batch.policy = policy := by
    split at hcapture
    · cases hcapture
      rfl
    · split at hcapture
      · cases hcapture
        rfl
      · cases hcapture
        rfl
  obtain ⟨hcount, hage, hskew, hspan⟩ := parseBatchPolicy_eq hpolicy
  rw [hsame]
  refine ⟨⟨hage, hskew, hspan.le⟩, hcount.trans ?_⟩
  exact List.length_map _

/-- With a steady batch the journal goes on to replay to the engine. -/
theorem tick_restarts {options : Options} {s : Service} {t : Tick}
    (h : Restarts jsonParse sha256 batchDigest options s)
    (hs : ∀ batch, Journalled jsonParse sha256 options t batch → Steady jsonParse s.engine batch) :
    Restarts jsonParse sha256 batchDigest options
      (tick jsonParse sha256 batchDigest options s t) := by
  obtain ⟨engine, hengine, hadmission, hreplayed⟩ := restarts_iff.mp h
  rw [restarts_iff]
  refine ⟨engine, hengine, hadmission, ?_⟩
  by_cases hj : ∃ batch, Journalled jsonParse sha256 options t batch
  · obtain ⟨batch, hbatch⟩ := hj
    have ⟨hgather, ⟨valid, hvalid⟩, _⟩ := hbatch
    obtain ⟨hpolicy, hcount⟩ := gather_policy hgather
    obtain ⟨hcreated, hterms⟩ := createReferenceEngine_coherent hengine
    have hthree : batch.policy.selections.length = 3 := by
      rw [hcount, ← hterms]
      exact hcreated.stocks
    obtain ⟨next, hnext⟩ := advance_steady batchDigest (restarts_coherent h) hvalid
      hpolicy hthree (hs batch hbatch)
    obtain ⟨hjournal, hstate⟩ := tick_journalled batchDigest s hbatch
    rw [hnext] at hstate
    rw [hjournal, hstate, List.foldlM_append, hreplayed, ok_bind, List.foldlM_cons]
    refine bind_eq_ok.mpr ⟨next.state, ?_, rfl⟩
    unfold replayEntry
    rw [hvalid, ok_bind, hnext, ok_bind]
    rfl
  · obtain ⟨hjournal, hstate⟩ := tick_otherwise batchDigest s (not_exists.mp hj)
    rw [hjournal, hstate]
    exact hreplayed

variable (jsonParse sha256 batchDigest) in
/-- A journal is only ever added to. -/
theorem run_journal (options : Options) (s : Service) (ticks : List Tick) :
    ∃ more, (run jsonParse sha256 batchDigest options s ticks).journal = s.journal ++ more := by
  induction ticks generalizing s with
  | nil => exact ⟨[], (List.append_nil _).symm⟩
  | cons t rest ih =>
      obtain ⟨more, hmore⟩ := ih (tick jsonParse sha256 batchDigest options s t)
      have hrun : (run jsonParse sha256 batchDigest options s (t :: rest)).journal =
        (tick jsonParse sha256 batchDigest options s t).journal ++ more := hmore
      by_cases hj : ∃ batch, Journalled jsonParse sha256 options t batch
      · obtain ⟨batch, hbatch⟩ := hj
        rw [(tick_journalled batchDigest s hbatch).1, List.append_assoc] at hrun
        exact ⟨[batch] ++ more, hrun⟩
      · rw [(tick_otherwise batchDigest s (not_exists.mp hj)).1] at hrun
        exact ⟨more, hrun⟩

/-- A batch that the replay of a longer journal passes was steady. -/
theorem steady_of_replayed {options : Options} {s : Service} {batch : ReferenceBatch}
    {more : List ReferenceBatch} {s' : Service} (h : Restarts jsonParse sha256 batchDigest options s)
    (hs' : construct jsonParse sha256 batchDigest options (s.journal ++ [batch] ++ more) = .ok s') :
    Steady jsonParse s.engine batch := by
  obtain ⟨engine, hengine, -, hreplayed⟩ := restarts_iff.mp h
  obtain ⟨engine', hengine', -, hlonger, -, -⟩ := construct_eq_ok.mp hs'
  rw [hengine, Except.ok.injEq] at hengine'
  subst hengine'
  rw [List.append_assoc, List.foldlM_append, hreplayed, ok_bind, List.singleton_append,
    List.foldlM_cons, bind_eq_ok] at hlonger
  obtain ⟨passed, hpassed, -⟩ := hlonger
  obtain ⟨next, hnext, -⟩ := replayEntry_eq_ok hpassed
  exact (advance_coherent (restarts_coherent h) hnext).2

/-- Over any run, a restart gives the live engine if and only if every batch that came
into the journal was steady for the engine it met. -/
theorem restarts_iff_steadyRun (options : Options) (journal : List ReferenceBatch) (s : Service)
    (h : construct jsonParse sha256 batchDigest options journal = .ok s) (ticks : List Tick) :
    Restarts jsonParse sha256 batchDigest options (run jsonParse sha256 batchDigest options s ticks) ↔
      SteadyRun jsonParse sha256 batchDigest options s ticks := by
  have hstart : Restarts jsonParse sha256 batchDigest options s := by
    obtain ⟨engine, hengine, hadmission, hreplayed, hjournal, -⟩ := construct_eq_ok.mp h
    exact restarts_iff.mpr ⟨engine, hengine, hadmission, hjournal ▸ hreplayed⟩
  clear h
  -- both directions carry along the run that a restart so far gives the engine so far
  induction ticks generalizing s with
  | nil => exact ⟨fun _ => trivial, fun _ => hstart⟩
  | cons t rest ih =>
      constructor
      · intro hend
        have hfirst : ∀ batch, Journalled jsonParse sha256 options t batch →
            Steady jsonParse s.engine batch := by
          intro batch hbatch
          obtain ⟨s', hs', -⟩ := hend
          obtain ⟨more, hmore⟩ := run_journal jsonParse sha256 batchDigest options
            (tick jsonParse sha256 batchDigest options s t) rest
          have hjournal : (run jsonParse sha256 batchDigest options s (t :: rest)).journal =
            (tick jsonParse sha256 batchDigest options s t).journal ++ more := hmore
          rw [hjournal, (tick_journalled batchDigest s hbatch).1] at hs'
          exact steady_of_replayed hstart hs'
        exact ⟨hfirst, (ih _ (tick_restarts hstart hfirst)).mp hend⟩
      · rintro ⟨hfirst, hrest⟩
        exact (ih _ (tick_restarts hstart hfirst)).mpr hrest

end Service

/-! ## A quote that goes back -/

def exampleMsft : Response :=
  exampleQuote "MSFT" (exampleAddress 1) "400" "401" "2026-01-05T15:00:10Z"
    "dedc201b1ee7ee09713c1d2e3f6b9b5fac5480808f0a5b5ede863b1effabe394"

/-- The quote of a second before. -/
def exampleMsftEarlier : Response :=
  exampleQuote "MSFT" (exampleAddress 1) "400" "401" "2026-01-05T15:00:09Z"
    "8099811e8ee91e6640ec1b0402aa42ff1873fb74960892ad93f4d33fc860b61d"

def exampleResponses : List Response :=
  [exampleRegistry, exampleMsft, exampleMsftEarlier, exampleNvda, exampleAapl]

def exampleParse (body : String) : Option Json :=
  (exampleResponses.find? (fun r => r.text = body)).map Response.json

def exampleSha256 (body : String) : String :=
  ((exampleResponses.find? (fun r => r.text = body)).map Response.digest).getD ""

def exampleTerms : List ReferenceTerms :=
  [⟨"46630:" ++ exampleAddress 1, "0x1", "MSFT", "1"⟩,
    ⟨"46630:" ++ exampleAddress 2, "0x2", "NVDA", "1"⟩,
    ⟨"46630:" ++ exampleAddress 3, "0x3", "AAPL", "1"⟩]

def exampleOptions : Options := ⟨exampleTerms, .ok ()⟩

def exampleObservations (msftAt at_ : Int) : List ReferenceObservation :=
  [exampleObservation 1 "MSFT" "400" "401" msftAt at_,
    exampleObservation 2 "NVDA" "180" "181" 1767625210000 at_,
    exampleObservation 3 "AAPL" "250" "251" 1767625210000 at_]

def exampleCaptures (msft : Response) (msftAt at_ : Int) : List ReferenceCapture :=
  [exampleCapture 1 msft (exampleObservation 1 "MSFT" "400" "401" msftAt at_),
    exampleCapture 2 exampleNvda (exampleObservation 2 "NVDA" "180" "181" 1767625210000 at_),
    exampleCapture 3 exampleAapl (exampleObservation 3 "AAPL" "250" "251" 1767625210000 at_)]

/-- A tick that nothing stands in the way of. -/
def exampleTick (msft : Response) (msftAt at_ : Int) : Tick :=
  { closed := false, canWrite := true, reviewValid := true, reconcile := .ok ()
    requests := { startedAt := at_, completedAt := at_, interruption := none
                  captures := exampleCaptures msft msftAt at_ }
    closedThen := false, canWriteThen := true, stored := .ok (), rest := .ok "WARMUP" }

def exampleFirst : Tick := exampleTick exampleMsft 1767625210000 1767625212000

/-- Five seconds later an earlier quote of one stock comes back. -/
def exampleSecond : Tick := exampleTick exampleMsftEarlier 1767625209000 1767625217000

def exampleBatch (msft : Response) (msftAt at_ : Int) : ReferenceBatch :=
  { policy := policyOf exampleTerms, startedAt := at_, completedAt := at_, status := .accepted
    reason := none, captures := exampleCaptures msft msftAt at_
    observations := some (exampleObservations msftAt at_) }

/-- The digest of the first batch; the engine asks for no other. -/
def exampleDigest (_ : ReferenceBatch) : String :=
  "0x17756e07f8899bf948ef0706c0aaf7c6764c9ef6272a367027a2bc139e1c5193"

def exampleService : Service where
  engine := {
    terms := exampleTerms, paused := false
    minutes := { identities := exampleTerms.map ReferenceTerms.identity, latest := fun _ => none
                 nextMinute := none, pending := [] }
    ema := fun _ => createEma, lastMinute := none, signals := [.warmup, .warmup, .warmup] }
  journal := []
  status := "NOT_STARTED"

theorem example_construct :
    construct exampleParse exampleSha256 exampleDigest exampleOptions [] = .ok exampleService := by
  unfold construct createReferenceEngine createMinutes
  rw [ensure_of (by decide), ok_bind, ensure_of (by decide)]
  rfl

/-! ### The responses -/

def exampleRows (msft : Response) (msftAt at_ : Int) : List Row :=
  [⟨1, msft, exampleObservation 1 "MSFT" "400" "401" msftAt at_⟩,
    ⟨2, exampleNvda, exampleObservation 2 "NVDA" "180" "181" 1767625210000 at_⟩,
    ⟨3, exampleAapl, exampleObservation 3 "AAPL" "250" "251" 1767625210000 at_⟩]

/-- What is evaluated of the policy, of the responses and of the two rounds. -/
theorem example_checked :
    parseBatchPolicy (policyOf exampleTerms) = .ok (policyOf exampleTerms) ∧
    ((exampleResponses.map Response.text).Nodup ∧
      ∀ r ∈ exampleResponses, r.text.utf8ByteSize ≤ maxBytes) ∧
    ∀ row ∈ exampleRows exampleMsft 1767625210000 1767625212000 ++
      exampleRows exampleMsftEarlier 1767625209000 1767625217000, row.Normal := by
  decide +kernel

theorem example_policy : parseBatchPolicy (policyOf exampleTerms) = .ok (policyOf exampleTerms) :=
  example_checked.1

theorem example_received : Received exampleResponses where
  registry := List.mem_cons_self
  nodup := example_checked.2.1.1
  sizes := example_checked.2.1.2

theorem example_parse {r : Response} (hr : r ∈ exampleResponses) :
    exampleParse r.text = some r.json :=
  example_received.parse hr

theorem example_terms_kept : ∀ t ∈ exampleTerms, keepsTerms exampleAssets t = true := by
  decide

/-! ### The captures -/

section Example

variable {msft : Response} {msftAt at_ : Int}

/-- A round of quotes, each of which is the observation made of it. -/
def QuotedRound (msft : Response) (msftAt at_ : Int) : Prop :=
  SampleRound exampleResponses (policyOf exampleTerms) at_ (exampleRows msft msftAt at_)

theorem exampleBatch_eq : exampleBatch msft msftAt at_ =
    batchOf (policyOf exampleTerms) at_ (exampleRows msft msftAt at_) := rfl

theorem QuotedRound.derived (h : QuotedRound msft msftAt at_) :
    derive_ exampleParse exampleSha256 (exampleBatch msft msftAt at_) =
      .ok (exampleObservations msftAt at_) := by
  rw [exampleBatch_eq]
  exact SampleRound.derived example_received h

theorem QuotedRound.replayed (h : QuotedRound msft msftAt at_) :
    replayReferenceBatch exampleParse exampleSha256 (exampleBatch msft msftAt at_) =
      .ok (exampleObservations msftAt at_) := by
  rw [exampleBatch_eq]
  exact SampleRound.replayed example_received h

/-- The registry in the captures has the stocks on their terms. -/
theorem example_latches_eq :
    latches exampleParse exampleTerms (exampleBatch msft msftAt at_) = false := by
  have hnone : exampleTerms.any (fun t => !keepsTerms exampleAssets t) = false := by
    rw [List.any_eq_false]
    intro t ht
    rw [example_terms_kept t ht]
    decide
  have hregistry : exampleParse exampleRegistry.text = some exampleRegistry.json :=
    example_parse List.mem_cons_self
  simp [latches, exampleBatch, exampleCaptures, exampleCapture, hregistry, example_registry, hnone,
    exampleObservation, registryUrl]

/-- Such a round is captured, valid and written. -/
theorem QuotedRound.journalled (h : QuotedRound msft msftAt at_) :
    Journalled exampleParse exampleSha256 exampleOptions (exampleTick msft msftAt at_)
      (exampleBatch msft msftAt at_) := by
  have hcapture : captureReferenceBatch exampleParse exampleSha256 (policyOf exampleTerms)
      (exampleTick msft msftAt at_).requests = .ok (exampleBatch msft msftAt at_) := by
    unfold captureReferenceBatch
    rw [example_policy, ok_bind]
    refine bind_eq_ok.mpr ⟨(), ensure_of h.clock _, ?_⟩
    refine bind_eq_ok.mpr ⟨(), ensure_of h.clock _, ?_⟩
    -- deriving reads neither the status nor the observations of the batch
    have hderive : derive_ exampleParse exampleSha256 {
        policy := policyOf exampleTerms, startedAt := at_, completedAt := at_, status := .rejected
        reason := none, captures := exampleCaptures msft msftAt at_, observations := none } =
      .ok (exampleObservations msftAt at_) := h.derived
    simp only [exampleTick, hderive]
    rfl
  refine ⟨?_, ⟨some (exampleObservations msftAt at_), bind_eq_ok.mpr ⟨_, h.replayed, rfl⟩⟩, rfl⟩
  refine bind_eq_ok.mpr ⟨(), ensure_of rfl _, ?_⟩
  rw [if_neg (by simp [exampleTick]), if_neg (by simp [exampleTick])]
  refine bind_eq_ok.mpr ⟨(), rfl, bind_eq_ok.mpr ⟨_, hcapture, ?_⟩⟩
  rw [if_neg (by simp [exampleTick])]
  rfl

end Example

theorem example_first : QuotedRound exampleMsft 1767625210000 1767625212000 where
  parsed := example_policy
  age := rfl
  span := by decide
  clock := by decide
  selections := by decide
  answered := by
    refine answered_of_normal ?_ fun row hrow =>
      example_checked.2.2 row (List.mem_append_left _ hrow)
    simp [exampleRows, exampleResponses]
  received := by simp [exampleRows, exampleObservation]
  fresh := by decide
  skew := by decide

theorem example_second : QuotedRound exampleMsftEarlier 1767625209000 1767625217000 where
  parsed := example_policy
  age := rfl
  span := by decide
  clock := by decide
  selections := by decide
  answered := by
    refine answered_of_normal ?_ fun row hrow =>
      example_checked.2.2 row (List.mem_append_right _ hrow)
    simp [exampleRows, exampleResponses]
  received := by simp [exampleRows, exampleObservation]
  fresh := by decide
  skew := by decide

/-- After a batch and one with an earlier quote the service goes on, and cannot be
started again. -/
theorem earlier_quote_not_restarted :
    construct exampleParse exampleSha256 exampleDigest exampleOptions [] = .ok exampleService ∧
      ¬ Restarts exampleParse exampleSha256 exampleDigest exampleOptions
        (run exampleParse exampleSha256 exampleDigest exampleOptions exampleService
          [exampleFirst, exampleSecond]) := by
  refine ⟨example_construct, fun hrestarts => ?_⟩
  obtain ⟨engine, hengine, -, hreplayed⟩ := restarts_iff.mp hrestarts
  obtain ⟨created, hcreated, -, hnothing, -, -⟩ := construct_eq_ok.mp example_construct
  have hstart : engine = exampleService.engine := by
    rw [hengine, Except.ok.injEq] at hcreated
    rw [List.foldlM_nil, pure_eq_ok] at hnothing
    exact hcreated.trans hnothing
  subst hstart
  have hjournal : (run exampleParse exampleSha256 exampleDigest exampleOptions exampleService
      [exampleFirst, exampleSecond]).journal =
      [exampleBatch exampleMsft 1767625210000 1767625212000,
        exampleBatch exampleMsftEarlier 1767625209000 1767625217000] := by
    have hfirst : (tick exampleParse exampleSha256 exampleDigest exampleOptions exampleService
        exampleFirst).journal = [] ++ [exampleBatch exampleMsft 1767625210000 1767625212000] :=
      (tick_journalled exampleDigest exampleService
        example_first.journalled).1
    have hsecond : ∀ s, (tick exampleParse exampleSha256 exampleDigest exampleOptions s
        exampleSecond).journal =
          s.journal ++ [exampleBatch exampleMsftEarlier 1767625209000 1767625217000] := fun s =>
      (tick_journalled exampleDigest s example_second.journalled).1
    unfold run
    rw [List.foldl_cons, List.foldl_cons, List.foldl_nil, hsecond, hfirst]
    rfl
  rw [hjournal, List.foldlM_cons, bind_eq_ok] at hreplayed
  obtain ⟨middle, hfirst, hreplayed⟩ := hreplayed
  rw [List.foldlM_cons, bind_eq_ok] at hreplayed
  obtain ⟨_, hsecond, -⟩ := hreplayed
  obtain ⟨next, hnext, rfl⟩ := replayEntry_eq_ok hfirst
  obtain ⟨_, hthen, -⟩ := replayEntry_eq_ok hsecond
  have hcoherent := (createReferenceEngine_coherent hengine).1
  have htermsFirst : ofTerms exampleTerms (exampleObservations 1767625210000 1767625212000) = true := by
    decide
  have htermsSecond : ofTerms exampleTerms (exampleObservations 1767625209000 1767625217000) = true := by
    decide
  -- the first batch was taken, and left its clock as the latest
  rcases advance_cases hcoherent hnext with ⟨hstop, -⟩ | ⟨os, hos, ⟨hother, -⟩ | hadvances⟩
  · rcases hstop with hpaused | hlatches | hrejected
    · cases hpaused
    · exact absurd (example_latches_eq.symm.trans hlatches) (by decide)
    · exact hrejected rfl
  · cases hos
    exact absurd (htermsFirst.symm.trans hother) (by decide)
  · cases hos
    obtain ⟨s, hs, hat⟩ := hadvances.latest _ List.mem_cons_self
    have hsteady := (advance_coherent hadvances.coherent hthen).2
    unfold Steady at hsteady
    rw [hadvances.terms, hadvances.paused] at hsteady
    rcases hsteady with hpaused | hlatches | hrejected | hall
    · cases hpaused
    · exact absurd (example_latches_eq.symm.trans hlatches) (by decide)
    · exact hrejected rfl
    · rcases hall _ rfl with hother | hfollows
      · exact absurd (htermsSecond.symm.trans hother) (by decide)
      · have hle := ((hfollows _ List.mem_cons_self).1.2 s hs).1
        rw [hat] at hle
        exact absurd hle (by decide)

/-- A first batch of good quotes is replayed to the engine it gave. -/
theorem first_batch_restarts :
    construct exampleParse exampleSha256 exampleDigest exampleOptions [] = .ok exampleService ∧
      Restarts exampleParse exampleSha256 exampleDigest exampleOptions
        (run exampleParse exampleSha256 exampleDigest exampleOptions exampleService [exampleFirst]) := by
  refine ⟨example_construct,
    (restarts_iff_steadyRun exampleOptions [] exampleService example_construct [exampleFirst]).mpr
      ⟨fun batch hbatch => ?_, trivial⟩⟩
  have hsame : batch = exampleBatch exampleMsft 1767625210000 1767625212000 := by
    have heq := hbatch.1.symm.trans example_first.journalled.1
    rw [Except.ok.injEq, Sum.inr.injEq] at heq
    exact heq
  rw [hsame]
  refine Or.inr (Or.inr (Or.inr fun os hos => Or.inr ?_))
  cases hos
  intro o ho
  simp only [exampleObservations, List.mem_cons, List.not_mem_nil, or_false] at ho
  rcases ho with rfl | rfl | rfl
  · exact ⟨⟨by decide, fun old hold => nomatch hold⟩, by decide⟩
  · exact ⟨⟨by decide, fun old hold => nomatch hold⟩, by decide⟩
  · exact ⟨⟨by decide, fun old hold => nomatch hold⟩, by decide⟩

end Executor
end AlphaForge
