/-
Collecting reference quotes, `captureReference` of `capture.ts` and
`captureReferenceBatch` of `batch.ts`.

The requests of a capture are made in turn, and the captures of a batch side by
side.  All that captures share is the transport, the clock and the signals that abort
them, and what a capture is told by these is an answer here.  The answers of a round
are any, so that every response, every delay and every order of the captures is some
round.
-/
import AlphaForge.Reference.Batch

namespace AlphaForge
namespace Reference

open Evm

/-! ## Responses -/

/-- What the reader of a body hands out: some of its bytes, or what it throws. -/
inductive Part where
  | chunk (value : ByteArray)
  | failed (message : String)

structure HttpResponse where
  ok : Bool
  redirected : Bool
  status : Nat
  body : Option (List Part)

inductive Reply where
  /-- The transport throws; the request may have been aborted before. -/
  | failed (aborted : Bool)
  | response (r : HttpResponse)

/-- What a request is answered, and the clock after the answer. -/
structure Exchange where
  reply : Reply
  now : Int

/-- The bytes of a body.  Reading ends with the part that goes past the limit. -/
def readBody : ByteArray → List Part → Except String ByteArray
  | bytes, [] => .ok bytes
  | _, .failed message :: _ => .error message
  | bytes, .chunk value :: rest => do
      ensure (bytes.size + value.size ≤ maxBytes) "HTTP_BODY_TOO_LARGE"
      readBody (bytes ++ value) rest

/-- `TextDecoder` with `fatal` and `ignoreBOM`. -/
def decodeUtf8 (bytes : ByteArray) : Except String String :=
  match String.fromUTF8? bytes with
  | some body => .ok body
  | none => .error "HTTP_INVALID_UTF8"

/-- `read` up to the body. -/
def fetchBody : Reply → Except String String
  | .failed true => .error "HTTP_REQUEST_TIMEOUT"
  | .failed false => .error "HTTP_TRANSPORT_FAILED"
  | .response r => do
      ensure (r.ok = true ∧ r.redirected = false)
        (if r.status = 401 ∨ r.status = 403 then "HTTP_ACCESS_DENIED" else "HTTP_RESPONSE_REJECTED")
      match r.body with
      | none => .error "HTTP_EMPTY_BODY"
      | some parts => do decodeUtf8 (← readBody ByteArray.empty parts)

/-! ## `captureReference` -/

/-- Code that adds to the receipts of a capture, and may throw after it has. -/
abbrev Receiving := ExceptT String (StateM (List SourceReceipt))

/-- The answers of one capture, and what aborted it before its end: the signal it was
given, or its own time limit. -/
structure Attempt where
  before : Exchange
  quote : Exchange
  after : Exchange
  aborted : Bool
  timedOut : Bool

section Capture

variable (jsonParse : String → Option Json) (sha256 : String → String)

/-- `JSON.parse` of a body, with what is thrown instead of its error. -/
def parseBody (body : String) : Except String Json :=
  match jsonParse body with
  | some v => .ok v
  | none => .error "HTTP_INVALID_JSON"

def read (url : String) (x : Exchange) : Receiving Json := do
  let body ← fetchBody x.reply
  ensure (isSafeInteger x.now = true ∧ 0 ≤ x.now) "INVALID_CLOCK"
  modify (· ++ [{ url, receivedAt := x.now, body, sha256 := sha256 body }])
  parseBody jsonParse body

def priceUrl (symbol : String) : String := "https://api.robinhood.com/rhj/prices/" ++ symbol

/-- The receipts' times, none before the one it follows. -/
def InOrder (receipts : List SourceReceipt) : Prop :=
  (receipts.map SourceReceipt.receivedAt).IsChain (· ≤ ·)

instance (receipts : List SourceReceipt) : Decidable (InOrder receipts) := by
  unfold InOrder
  infer_instance

/-- What a capture makes of its receipts once it has all of them. -/
def conclude (first last : List RegistryAsset) (rawQuote : Json) (requested : Selection)
    (maxAgeMs : Int) (stopped : Bool) (receipts : List SourceReceipt) :
    Except String ReferenceObservation :=
  match receipts[2]? with
  | none => .error "TypeError"
  | some receipt => do
      ensure (InOrder receipts) "CLOCK_REGRESSION"
      let a ← normalizeReference first rawQuote requested receipt.receivedAt maxAgeMs
      let b ← normalizeReference last rawQuote requested receipt.receivedAt maxAgeMs
      ensure (a = b) "REGISTRY_CHANGED_DURING_CAPTURE"
      ensure (stopped = false) "CAPTURE_TIMEOUT"
      return b

def observe (requested : Selection) (maxAgeMs : Int) (a : Attempt) :
    Receiving ReferenceObservation := do
  let first ← parseRegistry (← read jsonParse sha256 registryUrl a.before)
  let rawQuote ← read jsonParse sha256 (priceUrl requested.symbol) a.quote
  let last ← parseRegistry (← read jsonParse sha256 registryUrl a.after)
  conclude first last rawQuote requested maxAgeMs (a.aborted || a.timedOut) (← get)

/-- The reason a capture is rejected for, when it ends with this message. -/
def rejection (aborted timedOut : Bool) (message : String) : String :=
  if aborted then "CAPTURE_ABORTED"
  else if timedOut then "CAPTURE_TIMEOUT"
  else if isReason message then message
  else "CAPTURE_FAILED"

/-- The time limit starts once the arguments are checked. -/
def captureReference (selection : Selection) (maxAgeMs : Int) (a : Attempt) : ReferenceCapture :=
  let result : ReferenceCapture := {
    status := .rejected, reason := none, selection, maxAgeMs, sources := [], observation := none }
  match validateSelection selection with
  | .error e => { result with reason := some (rejection a.aborted false e) }
  | .ok requested =>
      if isSafeInteger maxAgeMs = true ∧ 0 < maxAgeMs then
        match (observe jsonParse sha256 requested maxAgeMs a).run.run [] with
        | (.ok b, sources) => { result with
            selection := requested, sources, observation := some b, status := .accepted }
        | (.error e, sources) => { result with
            selection := requested, sources, reason := some (rejection a.aborted a.timedOut e) }
      else { result with
        selection := requested, reason := some (rejection a.aborted false "INVALID_TIME_POLICY") }

/-! ## `captureReferenceBatch` -/

/-- What a round is answered: its clocks, its captures, and what has aborted it when it
begins and when all captures have ended. -/
structure BatchRound where
  startedAt : Int
  abortedBefore : Bool
  attempt : Selection → Attempt
  completedAt : Int
  aborted : Bool
  timedOut : Bool

/-- The outcome of a round whose captures have ended. -/
def settleBatch (r : BatchRound) (batch : ReferenceBatch) : ReferenceBatch :=
  if r.aborted then { batch with reason := some "BATCH_ABORTED" }
  else if batch.captures.any (fun c => c.reason = some "HTTP_ACCESS_DENIED") then
    { batch with reason := some "HTTP_ACCESS_DENIED" }
  else if r.timedOut then { batch with reason := some "BATCH_TIMEOUT" }
  else
    match derive_ jsonParse sha256 batch with
    | .ok observations => { batch with observations := some observations, status := .accepted }
    | .error e => { batch with reason := some (if isReason e then e else "BATCH_FAILED") }

def captureReferenceBatch (input : BatchPolicy) (r : BatchRound) : Except String ReferenceBatch := do
  let policy ← parseBatchPolicy input
  timestamp r.startedAt
  let batch : ReferenceBatch := {
    policy, startedAt := r.startedAt, completedAt := r.startedAt, status := .rejected
    reason := none, captures := [], observations := none }
  if r.abortedBefore then return { batch with reason := some "BATCH_ABORTED" }
  else do
    let captures := policy.selections.map fun s =>
      captureReference jsonParse sha256 s policy.maxAgeMs (r.attempt s)
    timestamp r.completedAt
    return settleBatch jsonParse sha256 r { batch with captures, completedAt := r.completedAt }

end Capture

end Reference
end AlphaForge
