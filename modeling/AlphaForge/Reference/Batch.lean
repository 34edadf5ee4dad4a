/-
Reference quotes and their batches, `robinhood.ts`, `capture.ts` and `batch.ts`.

A capture keeps the three responses it was made from, and is believed only as far
as its observation can be computed from them again; a batch is the captures of one
round.  `JSON.parse` and the digest are parameters.
-/
import AlphaForge.Data.Json
import AlphaForge.Evm.Exec
import AlphaForge.Text.Digits

namespace AlphaForge
namespace Reference

open Evm

structure Selection where
  chainId : Int
  contractAddress : String
  symbol : String
  deriving DecidableEq

structure Deployment where
  chainId : Int
  contractAddress : String
  deriving DecidableEq

structure RegistryAsset where
  id : String
  symbol : String
  status : String
  multiplier : String
  pendingMultiplier : String
  deployments : List Deployment
  deriving DecidableEq

/-- Its `kind` is always `REFERENCE_ONLY`. -/
structure ReferenceObservation where
  identity : String
  assetId : String
  symbol : String
  generatedAt : Int
  receivedAt : Int
  underlyingBid : String
  underlyingAsk : String
  multiplier : String
  tokenBidUsd18 : String
  tokenAskUsd18 : String
  deriving DecidableEq

inductive Status where
  | accepted
  | rejected
  deriving DecidableEq

structure SourceReceipt where
  url : String
  receivedAt : Int
  body : String
  sha256 : String
  deriving DecidableEq

structure ReferenceCapture where
  status : Status
  reason : Option String
  selection : Selection
  maxAgeMs : Int
  sources : List SourceReceipt
  observation : Option ReferenceObservation
  deriving DecidableEq

structure BatchPolicy where
  selections : List Selection
  maxAgeMs : Int
  maxQuoteSkewMs : Int
  maxCaptureSpanMs : Int
  deriving DecidableEq

structure ReferenceBatch where
  policy : BatchPolicy
  startedAt : Int
  completedAt : Int
  status : Status
  reason : Option String
  captures : List ReferenceCapture
  observations : Option (List ReferenceObservation)
  deriving DecidableEq

def isSafeInteger (n : Int) : Bool := -Json.maxSafeInteger ≤ n ∧ n ≤ Json.maxSafeInteger

def isUpper (d : Char) : Bool := 'A' ≤ d ∧ d ≤ 'Z'

/-- `/^[A-Z][A-Z0-9_]{1,80}$/`. -/
def isReason (v : String) : Bool :=
  match v.toList with
  | [] => false
  | d :: ds => isUpper d && ds.all (fun c => isUpper c || c.isDigit || c = '_') &&
      1 ≤ ds.length && ds.length ≤ 80

/-- `/^[A-Z][A-Z0-9.-]{0,23}$/`. -/
def isSymbol (v : String) : Bool :=
  match v.toList with
  | [] => false
  | d :: ds => isUpper d && ds.all (fun c => isUpper c || c.isDigit || c = '.' || c = '-') &&
      ds.length ≤ 23

/-- `/^0x[0-9a-f]{1,128}$/`. -/
def isAssetId (v : String) : Bool :=
  match v.toList with
  | '0' :: 'x' :: ds => ds.all Text.isHexDigit && 1 ≤ ds.length && ds.length ≤ 128
  | _ => false

/-- `/^0x[0-9a-fA-F]{40}$/`. -/
def isAddress (v : String) : Bool :=
  match v.toList with
  | '0' :: 'x' :: ds => ds.all (fun c => Text.isHexDigit c.toLower) && ds.length = 40
  | _ => false

/-- `/^.{m,64}$/`: no line terminator, and so many code units. -/
def isLine (least : Nat) (v : String) : Bool :=
  v.toList.all (fun c => c.toNat ∉ [10, 13, 0x2028, 0x2029]) &&
    least ≤ (Json.utf16 v).length && (Json.utf16 v).length ≤ 64

/-! ## `robinhood.ts` -/

def record : Json → Except String (List (String × Json))
  | .object fields => .ok fields
  | _ => .error "INVALID_OBJECT"

/-- A property; what is not there is `undefined`. -/
def prop (fields : List (String × Json)) (key : String) : Json :=
  (fields.lookup key).getD .unsupported

def text (value : Json) (pattern : String → Bool) : Except String String :=
  match value with
  | .string v => do
      ensure (pattern v = true) "INVALID_FIELD"
      return v
  | _ => .error "INVALID_FIELD"

def zeroAddress : String := "0x0000000000000000000000000000000000000000"

def address (value : Json) : Except String String := do
  let result := String.ofList ((← text value isAddress).toList.map Char.toLower)
  ensure (result ≠ zeroAddress) "ZERO_ADDRESS"
  return result

def symbol (value : Json) : Except String String := text value isSymbol

/-- `/^(0|[1-9][0-9]{0,17})(\.[0-9]{1,18})?$/`, as its whole and its fraction. -/
def decimalParts (v : String) : Option (String × List Char) :=
  let whole := String.ofList (v.toList.takeWhile (· ≠ '.'))
  if Text.isDecimal 17 whole = true then
    match v.toList.dropWhile (· ≠ '.') with
    | [] => some (whole, [])
    | _ :: ds =>
        if ds.all Char.isDigit ∧ 1 ≤ ds.length ∧ ds.length ≤ 18 then some (whole, ds) else none
  else none

/-- A decimal in units of `10 ^ -18`. -/
def decimal (value : Json) : Except String Nat := do
  let v ← text value (fun v => (decimalParts v).isSome)
  match decimalParts v with
  | none => .error "INVALID_FIELD"
  | some (whole, ds) =>
      let fraction := Nat.ofDigitChars 10 (ds ++ List.replicate (18 - ds.length) '0') 0
      let result := Text.ofDecimal whole * 10 ^ 18 + fraction
      ensure (0 < result) "NONPOSITIVE_DECIMAL"
      return result

def deployment (value : Json) : Except String Deployment := do
  let row ← record value
  match prop row "chainId" with
  | .number n => do
      ensure (isSafeInteger n = true ∧ 0 < n) "INVALID_CHAIN"
      return { chainId := n, contractAddress := ← address (prop row "contractAddress") }
  | _ => .error "INVALID_CHAIN"

/-- The deployments, each on a chain of its own.  A chain that repeats is found
before the address beside it is read. -/
def deployments (value : Json) : Except String (List Deployment) :=
  match value with
  | .array items => do
      ensure (0 < items.length ∧ items.length ≤ 100) "INVALID_DEPLOYMENTS"
      items.foldlM (fun found item => do
        let row ← record item
        match prop row "chainId" with
        | .number n =>
            ensure (isSafeInteger n = true ∧ 0 < n) "INVALID_CHAIN"
            ensure (∀ d ∈ found, d.chainId ≠ n) "DUPLICATE_DEPLOYMENT"
            return found ++ [← deployment item]
        | _ => .error "INVALID_CHAIN") []
  | _ => .error "INVALID_DEPLOYMENTS"

def validateSelection (s : Selection) : Except String Selection := do
  ensure (s.chainId = 4663 ∨ s.chainId = 46630) "INVALID_CHAIN"
  return { s with
    symbol := ← symbol (.string s.symbol), contractAddress := ← address (.string s.contractAddress) }

def isAssetStatus (v : String) : Bool :=
  v ∈ ["ASSET_STATUS_ACTIVE", "ASSET_STATUS_INACTIVE", "ASSET_STATUS_UNSPECIFIED"]

/-- One row of the registry after others. -/
def registryRow (found : List RegistryAsset) (item : Json) : Except String RegistryAsset := do
  let row ← record item
  let id ← text (prop row "id") isAssetId
  ensure (∀ a ∈ found, a.id ≠ id) "DUPLICATE_ASSET"
  ensure (prop row "tokenDecimals" = .number 18) "INVALID_TOKEN_DECIMALS"
  let ds ← deployments (prop row "deployments")
  ensure (∀ d ∈ ds, ∀ a ∈ found, d ∉ a.deployments) "DUPLICATE_DEPLOYMENT"
  return {
    id, deployments := ds
    symbol := ← symbol (prop row "tokenSymbol")
    status := ← text (prop row "status") isAssetStatus
    multiplier := ← text (prop row "currentMultiplier") (isLine 1)
    pendingMultiplier := ← text (prop row "pendingMultiplier") (isLine 0) }

def parseRegistry (raw : Json) : Except String (List RegistryAsset) := do
  match prop (← record raw) "assets" with
  | .array rows =>
      ensure (rows.length ≤ 10000) "INVALID_REGISTRY"
      rows.foldlM (fun found item => return found ++ [← registryRow found item]) []
  | _ => .error "INVALID_REGISTRY"

/-! ### Times

`Date.parse` of `YYYY-MM-DDTHH:MM:SS(.f)Z`, for times that print as they were
written. -/

def digitsOf (ds : List Char) : Option Nat :=
  if ds.all Char.isDigit then some (Nat.ofDigitChars 10 ds 0) else none

def daysInMonth (year month : Nat) : Nat :=
  if month = 2 then
    if year % 4 = 0 ∧ (year % 100 ≠ 0 ∨ year % 400 = 0) then 29 else 28
  else if month ∈ [4, 6, 9, 11] then 30 else 31

/-- Days from 1970-01-01, counted in years that begin in March. -/
def daysFromEpoch (year month day : Nat) : Int :=
  let y : Int := if month ≤ 2 then (year : Int) - 1 else year
  let m : Int := (month + 9) % 12
  365 * y + y / 4 - y / 100 + y / 400 + (153 * m + 2) / 5 + day - 1 - 719468

/-- `(\.\d{1,9})?Z`, as milliseconds. -/
def fractionMs : List Char → Option Nat
  | ['Z'] => some 0
  | '.' :: rest =>
      let ds := rest.dropLast
      if rest.getLast? = some 'Z' ∧ ds.all Char.isDigit = true ∧ 1 ≤ ds.length ∧ ds.length ≤ 9 then
        some (Nat.ofDigitChars 10 ((ds ++ ['0', '0']).take 3) 0)
      else none
  | _ => none

/-- The time a text of that form names, or that it names none. -/
def parseTime (v : String) : Except String Int :=
  match v.toList with
  | y₁ :: y₂ :: y₃ :: y₄ :: '-' :: m₁ :: m₂ :: '-' :: d₁ :: d₂ :: 'T' :: h₁ :: h₂ :: ':' :: n₁ :: n₂ ::
      ':' :: s₁ :: s₂ :: rest =>
      match digitsOf [y₁, y₂, y₃, y₄], digitsOf [m₁, m₂], digitsOf [d₁, d₂], digitsOf [h₁, h₂],
          digitsOf [n₁, n₂], digitsOf [s₁, s₂], fractionMs rest with
      | some year, some month, some day, some hour, some minute, some second, some ms => do
          ensure (1 ≤ month ∧ month ≤ 12 ∧ 1 ≤ day ∧ day ≤ daysInMonth year month ∧ hour ≤ 23 ∧
            minute ≤ 59 ∧ second ≤ 59) "INVALID_CALENDAR_TIME"
          return (daysFromEpoch year month day * 86400 + hour * 3600 + minute * 60 + second) * 1000 + ms
      | _, _, _, _, _, _, _ => .error "INVALID_FIELD"
  | _ => .error "INVALID_FIELD"

def identityOf (s : Selection) : String := toString s.chainId ++ ":" ++ s.contractAddress

/-- The one asset of the registry at the selection, ready to be priced. -/
def assetFor (registry : List RegistryAsset) (s : Selection) : Except String RegistryAsset :=
  match registry.filter (fun a => a.deployments.any fun d => d.chainId = s.chainId ∧
      d.contractAddress = s.contractAddress) with
  | [asset] => do
      ensure (asset.symbol = s.symbol) "REGISTRY_DEPLOYMENT_MISMATCH"
      ensure (asset.status = "ASSET_STATUS_ACTIVE") "ASSET_INACTIVE"
      ensure (asset.pendingMultiplier = "") "MULTIPLIER_TRANSITION_UNRESOLVED"
      return asset
  | _ => .error "REGISTRY_DEPLOYMENT_MISMATCH"

/-- The one quote of a response, for the selection and in trading. -/
def quoteFor (raw : Json) (s : Selection) : Except String (List (String × Json)) := do
  match prop (← record raw) "quotes" with
  | .array [item] =>
      let q ← record item
      ensure (prop q "tokenSymbol" = .string s.symbol) "QUOTE_DEPLOYMENT_MISMATCH"
      ensure ((← deployments (prop q "deployments")).any (fun d => d.chainId = s.chainId ∧
        d.contractAddress = s.contractAddress) = true) "QUOTE_DEPLOYMENT_MISMATCH"
      ensure (prop q "currency" = .string "USD" ∧ prop q "isTradingHalt" = .bool false)
        "QUOTE_UNAVAILABLE"
      return q
  | _ => .error "AMBIGUOUS_QUOTES"

def normalizeReference (registry : List RegistryAsset) (raw : Json) (requested : Selection)
    (receivedAt maxAgeMs : Int) : Except String ReferenceObservation := do
  let s ← validateSelection requested
  ensure (isSafeInteger receivedAt = true ∧ 0 ≤ receivedAt ∧ isSafeInteger maxAgeMs = true ∧
    0 < maxAgeMs) "INVALID_TIME_POLICY"
  let asset ← assetFor registry s
  let multiplier ← decimal (.string asset.multiplier)
  let q ← quoteFor raw s
  let bid ← decimal (prop q "bid")
  let ask ← decimal (prop q "ask")
  ensure (bid ≤ ask) "INVERTED_QUOTE"
  let underlyingBid ← text (prop q "bid") (fun _ => true)
  let underlyingAsk ← text (prop q "ask") (fun _ => true)
  let generatedAt ← parseTime (← text (prop q "generatedAt") (fun _ => true))
  ensure (isSafeInteger generatedAt = true ∧ generatedAt ≤ receivedAt ∧
    receivedAt - generatedAt ≤ maxAgeMs) "STALE_OR_FUTURE_QUOTE"
  let tokenBid := bid * multiplier / 10 ^ 18
  ensure (0 < tokenBid) "SUBPRECISION_PRICE"
  return {
    identity := identityOf s, assetId := asset.id, symbol := asset.symbol, generatedAt, receivedAt
    underlyingBid, underlyingAsk, multiplier := asset.multiplier, tokenBidUsd18 := tokenBid.repr
    tokenAskUsd18 := ((ask * multiplier + 10 ^ 18 - 1) / 10 ^ 18).repr }

/-! ## `capture.ts` -/

def registryUrl : String := "https://api.robinhood.com/rhj/assets"

def sourceUrls (symbol : String) : List String :=
  [registryUrl, "https://api.robinhood.com/rhj/prices/" ++ symbol, registryUrl]

def maxBytes : Nat := 4 * 1024 * 1024

section Sources

variable (jsonParse : String → Option Json) (sha256 : String → String)

/-- `JSON.parse`, with what it throws. -/
def parsed (body : String) : Except String Json :=
  match jsonParse body with
  | none => .error "SyntaxError"
  | some v => .ok v

def intact (s : SourceReceipt) : Prop := s.body.utf8ByteSize ≤ maxBytes ∧ sha256 s.body = s.sha256

instance (s : SourceReceipt) : Decidable (intact sha256 s) := by
  unfold intact
  infer_instance

/-- Receipts in the order of their requests, at times that do not go back. -/
def checkSources (urls : List String) : Int → List SourceReceipt → Except String Unit
  | _, [] => .ok ()
  | previous, s :: rest => do
      ensure (urls.head? = some s.url) "SOURCE_IDENTITY_MISMATCH"
      ensure (intact sha256 s) "SOURCE_INTEGRITY_FAILED"
      ensure (isSafeInteger s.receivedAt = true ∧ 0 ≤ s.receivedAt ∧ previous ≤ s.receivedAt)
        "CLOCK_REGRESSION"
      checkSources urls.tail s.receivedAt rest

def replayReference (capture : ReferenceCapture) : Except String ReferenceObservation := do
  ensure (capture.status = .accepted ∧ capture.reason = none) "CAPTURE_NOT_ACCEPTED"
  let selection ← validateSelection capture.selection
  ensure (isSafeInteger capture.maxAgeMs = true ∧ 0 < capture.maxAgeMs) "INVALID_TIME_POLICY"
  match capture.sources with
  | [before, quote, after] =>
      checkSources sha256 (sourceUrls selection.symbol) 0 [before, quote, after]
      let a ← normalizeReference (← parseRegistry (← parsed jsonParse before.body))
        (← parsed jsonParse quote.body) selection after.receivedAt capture.maxAgeMs
      let b ← normalizeReference (← parseRegistry (← parsed jsonParse after.body))
        (← parsed jsonParse quote.body) selection after.receivedAt capture.maxAgeMs
      ensure (a = b) "REGISTRY_CHANGED_DURING_CAPTURE"
      ensure (capture.observation = some b) "OBSERVATION_MISMATCH"
      return b
  | _ => .error "INVALID_CAPTURE_SOURCES"

/-! ## `batch.ts` -/

def batchInteger (n least : Int) : Except String Unit :=
  ensure (isSafeInteger n = true ∧ least ≤ n) "INVALID_BATCH_POLICY"

def timestamp (n : Int) : Except String Unit :=
  ensure (isSafeInteger n = true ∧ 0 ≤ n) "INVALID_BATCH_CLOCK"

def parseBatchPolicy (p : BatchPolicy) : Except String BatchPolicy := do
  ensure (1 ≤ p.selections.length ∧ p.selections.length ≤ 3) "INVALID_BATCH_SELECTIONS"
  let selections ← p.selections.mapM validateSelection
  ensure (selections.map identityOf).Nodup "DUPLICATE_BATCH_IDENTITY"
  ensure (selections.map Selection.symbol).Nodup "DUPLICATE_BATCH_SYMBOL"
  ensure (∀ s ∈ selections, ∀ t ∈ selections, s.chainId = t.chainId) "MIXED_BATCH_SOURCE_CHAINS"
  batchInteger p.maxCaptureSpanMs 1
  ensure (p.maxCaptureSpanMs ≤ 2147483647) "INVALID_BATCH_CAPTURE_SPAN"
  batchInteger p.maxAgeMs 1
  batchInteger p.maxQuoteSkewMs 0
  return { p with selections }

/-- The receipts of a capture of any outcome. -/
def inspectSources : List String → List SourceReceipt → Except String Unit
  | _, [] => .ok ()
  | urls, s :: rest => do
      ensure (urls.head? = some s.url) "SOURCE_IDENTITY_MISMATCH"
      ensure (intact sha256 s) "SOURCE_INTEGRITY_FAILED"
      timestamp s.receivedAt
      inspectSources urls.tail rest

/-- One capture of a batch: the observation it is replayed to, if it was accepted. -/
def inspectCapture (policy : BatchPolicy) (i : Nat) (c : ReferenceCapture) :
    Except String (List ReferenceObservation) := do
  ensure (policy.selections[i]? = some c.selection ∧ c.maxAgeMs = policy.maxAgeMs)
    "BATCH_MEMBER_IDENTITY"
  ensure (c.sources.length ≤ 3) "INVALID_CAPTURE_SOURCES"
  inspectSources sha256 (sourceUrls c.selection.symbol) c.sources
  match c.status with
  | .accepted => return [← replayReference jsonParse sha256 c]
  | .rejected => do
      ensure (c.observation = none ∧ (c.reason.any isReason) = true) "INVALID_REJECTED_CAPTURE"
      return []

def inspectCaptures (policy : BatchPolicy) : Nat → List ReferenceCapture →
    Except String (List ReferenceObservation)
  | _, [] => .ok []
  | i, c :: rest => do
      let first ← inspectCapture jsonParse sha256 policy i c
      return first ++ (← inspectCaptures policy (i + 1) rest)

def inspect (batch : ReferenceBatch) : Except String (BatchPolicy × List ReferenceObservation) := do
  let policy ← parseBatchPolicy batch.policy
  timestamp batch.startedAt
  timestamp batch.completedAt
  ensure (batch.captures.length ≤ policy.selections.length) "INVALID_BATCH_MEMBERS"
  return (policy, ← inspectCaptures jsonParse sha256 policy 0 batch.captures)

def derive_ (batch : ReferenceBatch) : Except String (List ReferenceObservation) := do
  let (policy, observations) ← inspect jsonParse sha256 batch
  ensure (batch.startedAt ≤ batch.completedAt ∧ ∀ c ∈ batch.captures, ∀ s ∈ c.sources,
    batch.startedAt ≤ s.receivedAt ∧ s.receivedAt ≤ batch.completedAt) "BATCH_CLOCK_REGRESSION"
  ensure (batch.completedAt - batch.startedAt ≤ policy.maxCaptureSpanMs) "BATCH_CAPTURE_SPAN"
  ensure (batch.captures.length = policy.selections.length ∧
    ∀ c ∈ batch.captures, c.status = .accepted) "BATCH_MEMBER_REJECTED"
  ensure (∀ o ∈ observations, o.generatedAt ≤ batch.completedAt ∧
    batch.completedAt - o.generatedAt ≤ policy.maxAgeMs) "BATCH_STALE_OR_FUTURE_QUOTE"
  ensure (∀ o ∈ observations, ∀ p ∈ observations,
    o.generatedAt - p.generatedAt ≤ policy.maxQuoteSkewMs) "BATCH_QUOTE_SKEW"
  return observations

def replayReferenceBatch (batch : ReferenceBatch) : Except String (List ReferenceObservation) := do
  ensure (batch.status = .accepted ∧ batch.reason = none) "BATCH_NOT_ACCEPTED"
  let observations ← derive_ jsonParse sha256 batch
  ensure (batch.observations = some observations) "BATCH_OBSERVATION_MISMATCH"
  return observations

def validateReferenceBatch (batch : ReferenceBatch) :
    Except String (Option (List ReferenceObservation)) :=
  match batch.status with
  | .accepted => do return some (← replayReferenceBatch jsonParse sha256 batch)
  | .rejected => do
      let _ ← inspect jsonParse sha256 batch
      ensure (batch.observations = none ∧ (batch.reason.any isReason) = true)
        "INVALID_REJECTED_BATCH"
      return none

end Sources

end Reference
end AlphaForge
