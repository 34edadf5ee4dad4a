/-
Submission of an order, `restricted-submission.ts`, as a system of runs.

A run is in a phase between two awaits, with the answer it waits for.  The
answers of the transport and the signer are arbitrary, and an answer may be a
rejection.  What a run does between two awaits is one turn; the claim and the
sending of an envelope are two, since a crash can come between them.  Runs share
one journal, and a crash ends them all but keeps the journal.  The events are what
the journal committed and what the transport was handed, in order.
-/
import AlphaForge.Machine.Run
import AlphaForge.Testnet.OrderJournal

namespace AlphaForge
namespace Submission

open Evm OrderJournal

structure SubmissionPolicy where
  gasLimit : String
  maxFeePerGas : String
  maxPriorityFeePerGas : String
  maxGasCostWei : String
  deriving DecidableEq

/-- `/^[1-9][0-9]{0,77}$/`, below `2^256`. -/
def raw (v : String) : Except String Nat := do
  ensure (Text.isDecimal 77 v = true ∧ v ≠ "0" ∧ Text.ofDecimal v < 2 ^ 256) "SUBMISSION_POLICY"
  return Text.ofDecimal v

def validateSubmissionPolicy (p : SubmissionPolicy) : Except String Unit := do
  let gasLimit ← raw p.gasLimit
  ensure (gasLimit ≤ 30000000) "SUBMISSION_POLICY"
  let priority ← raw p.maxPriorityFeePerGas
  let fee ← raw p.maxFeePerGas
  ensure (priority ≤ fee) "SUBMISSION_POLICY"
  let cost ← raw p.maxGasCostWei
  ensure (gasLimit * fee ≤ cost) "SUBMISSION_POLICY"

/-- The arguments of one call. -/
structure Request where
  intent : OrderIntent
  policy : SubmissionPolicy
  signerAddress : String
  deriving DecidableEq

/-- What a run waits for, and what it has found out. -/
inductive Phase where
  | chainId
  | account
  | estimate (pending : Int)
  | revalidate (pending : Int)
  | chainIdAgain (pending : Int)
  | pendingAgain (pending : Int)
  | latestAgain (pending : Int)
  | sign (pending : Int)
  | revalidateSigned (pending : Int) (hash : String)
  | chainIdSigned (pending : Int) (hash : String)
  | pendingSigned (pending : Int) (hash : String)
  | latestSigned (pending : Int) (hash : String)
  | send (hash envelope : String)
  | response (hash : String)
  deriving DecidableEq

structure Run where
  request : Request
  phase : Phase
  deriving DecidableEq

inductive Answer where
  | chainId (n : Int)
  | account (pending latest : Int) (balance : Int)
  | gas (n : Int)
  | nonce (n : Int)
  | done
  | signed (envelope : String)
  | sent (response : String)
  | rejected
  deriving DecidableEq

inductive Event where
  | reserved (id executor nonce : String)
  | stored (id envelope : String)
  | claimed (id envelope : String)
  | sent (id envelope : String)
  deriving DecidableEq

/-- What a turn leaves: the journal, the phase in which the run goes on, if it does, and
what happened. -/
structure Turn where
  journal : Journal
  phase : Option Phase
  events : List Event

/-- The run is over: it threw or returned. -/
def ended (j : Journal) : Turn := ⟨j, none, []⟩

/-- The run goes on when a check passes, and throws otherwise. -/
def proceed (j : Journal) (check : Prop) [Decidable check] (phase : Phase) : Turn :=
  if check then ⟨j, some phase, []⟩ else ended j

section Submission

variable (ethers : Ethers)

/-- From the first `chainId` to the reading of the account. -/
def prepareOrder (request : Request) (j : Journal) (chainId : Int) : Turn :=
  let intent := request.intent
  match (do ensure (chainId = 46630) ""; blocked ethers j intent.executor : Except String Bool) with
  | .ok false =>
      match prepare ethers j intent with
      | .ok (j', order) => proceed j' (order.map OrderRow.state = some .prepared) .account
      | .error _ => ended j
  | _ => ended j

/-- Numbers and funds, read at once. -/
def checkAccount (request : Request) (j : Journal) (pending latest balance : Int) : Turn :=
  proceed j (0 ≤ pending ∧ pending ≤ 2147483647 ∧ pending = latest ∧
    ∃ cost ∈ (raw request.policy.maxGasCostWei).toOption, (cost : Int) ≤ balance) (.estimate pending)

/-- The executor of an order. -/
def executorOf (j : Journal) (id : String) : String := ((j.orders.get? id).map OrderRow.executor).getD ""

/-- The reservation commits before the signer is invoked. -/
def reserveNonce (request : Request) (j : Journal) (pending : Int) : Turn :=
  let id := request.intent.id
  match reserve ethers j id (toString pending) with
  | .ok j' => ⟨j', some (.sign pending), [.reserved id (executorOf j id) (toString pending)]⟩
  | .error _ => ended j

/-- The envelope is of the policy. -/
def OfPolicy (policy : SubmissionPolicy) (tx : ParsedTransaction) : Prop :=
  tx.type = some 2 ∧ raw policy.gasLimit = .ok tx.gasLimit ∧
    (raw policy.maxFeePerGas).toOption = tx.maxFeePerGas ∧ tx.maxFeePerGas ≠ none ∧
    (raw policy.maxPriorityFeePerGas).toOption = tx.maxPriorityFeePerGas ∧
    tx.maxPriorityFeePerGas ≠ none

instance (policy : SubmissionPolicy) (tx : ParsedTransaction) : Decidable (OfPolicy policy tx) := by
  unfold OfPolicy
  infer_instance

def storeEnvelope (request : Request) (j : Journal) (pending : Int) (envelope : String) : Turn :=
  match ethers.transactionFrom envelope with
  | none => ended j
  | some tx =>
      if OfPolicy request.policy tx then
        match signed ethers j request.intent.id envelope with
        | .ok (j', hash) => ⟨j', some (.revalidateSigned pending hash),
            [.stored request.intent.id envelope]⟩
        | .error _ => ended j
      else ended j

def claimEnvelope (request : Request) (j : Journal) (hash : String) : Turn :=
  match claimBroadcast ethers j request.intent.id with
  | .ok (j', envelope) => ⟨j', some (.send hash envelope), [.claimed request.intent.id envelope]⟩
  | .error _ => ended j

/-- One turn of a run, if the answer is one that it waits for. -/
def turn (request : Request) (j : Journal) : Phase → Answer → Option Turn
  | .send hash envelope, .done =>
      some ⟨j, some (.response hash), [.sent request.intent.id envelope]⟩
  | .send _ _, _ => none
  | _, .rejected => some (ended j)
  | .chainId, .chainId n => some (prepareOrder ethers request j n)
  | .account, .account pending latest balance => some (checkAccount request j pending latest balance)
  | .estimate pending, .gas n =>
      some (proceed j (∃ limit ∈ (raw request.policy.gasLimit).toOption, n ≤ (limit : Int))
        (.revalidate pending))
  | .revalidate pending, .done => some ⟨j, some (.chainIdAgain pending), []⟩
  | .chainIdAgain pending, .chainId n => some (proceed j (n = 46630) (.pendingAgain pending))
  | .pendingAgain pending, .nonce n => some (proceed j (n = pending) (.latestAgain pending))
  | .latestAgain pending, .nonce n =>
      some (if n = pending then reserveNonce ethers request j pending else ended j)
  | .sign pending, .signed envelope => some (storeEnvelope ethers request j pending envelope)
  | .revalidateSigned pending hash, .done => some ⟨j, some (.chainIdSigned pending hash), []⟩
  | .chainIdSigned pending hash, .chainId n =>
      some (proceed j (n = 46630) (.pendingSigned pending hash))
  | .pendingSigned pending hash, .nonce n => some (proceed j (n = pending) (.latestSigned pending hash))
  | .latestSigned pending hash, .nonce n =>
      some (if n = pending then claimEnvelope ethers request j hash else ended j)
  | .response _, .sent _ => some (ended j)
  | _, _ => none

/-! ## The system -/

structure System where
  journal : Journal
  runs : List Run
  events : List Event

inductive Action where
  | submit (request : Request)
  | resume (run : Run) (answer : Answer)
  | crash
  | prepare (input : OrderIntent)
  | recordOutcome (id : String) (state : Conclusion) (evidence : String)
  | cancel (id : String)

/-- Up to its first await a call checks its arguments. -/
def submit (request : Request) : Except String Run := do
  validateSubmissionPolicy request.policy
  ensure (lower request.signerAddress = request.intent.executor) "SUBMISSION_AUTHORITY"
  return ⟨request, .chainId⟩

def step (action : Action) (s : System) : Except String System :=
  match action with
  | .submit request => do
      let run ← submit request
      return { s with runs := s.runs ++ [run] }
  | .resume run answer => do
      ensure (run ∈ s.runs) "NO_SUCH_RUN"
      match turn ethers run.request s.journal run.phase answer with
      | none => .error "NOT_AWAITED"
      | some t => return {
          journal := t.journal
          runs := s.runs.erase run ++ (t.phase.map (Run.mk run.request)).toList
          events := s.events ++ t.events }
  | .crash => return { s with runs := [] }
  | .prepare input => do
      return { s with journal := ← call ethers (.prepare input) s.journal }
  | .recordOutcome id state evidence => do
      return { s with journal := ← call ethers (.recordOutcome id state evidence) s.journal }
  | .cancel id => do
      return { s with journal := ← call ethers (.cancel id) s.journal }

/-- A new journal, with no run on it. -/
def initial (configurationHash : String) : System := ⟨⟨lower configurationHash, [], []⟩, [], []⟩

end Submission

end Submission
end AlphaForge
