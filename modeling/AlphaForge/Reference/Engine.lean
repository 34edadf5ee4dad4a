/-
The reference engine, `reference-minutes.ts`, `reference-ema.ts` and
`reference-engine.ts`.

Accepted observations are sampled into minutes, closed minutes feed two moving
averages a stock, and the averages give the signals.  Sums and averages are
numbers here, where the source keeps their decimal text.
-/
import AlphaForge.Data.OrderedMap
import AlphaForge.Reference.Batch

namespace AlphaForge
namespace Reference

open Evm

/-! ## `reference-minutes.ts` -/

def minuteMs : Int := 60000

structure MinuteSample where
  at_ : Int
  bid : String
  ask : String
  assetId : String
  multiplier : String

structure MinuteState where
  identities : List String
  latest : String → Option MinuteSample
  nextMinute : Option Int
  pending : OrderedMap Int (String → Option MinuteSample)

inductive MinuteEvent where
  | close (at_ : Int) (prices : String → Option String)
  | gap (from_ until_ : Int)

def createMinutes (identities : List String) : Except String MinuteState := do
  ensure (identities.length = 3 ∧ identities.Nodup) "INVALID_MINUTE_IDENTITIES"
  return { identities, latest := fun _ => none, nextMinute := none, pending := [] }

/-- `/^[1-9][0-9]{0,77}$/`. -/
def isPrice (v : String) : Bool := Text.isDecimal 77 v && v ≠ "0"

def minuteOf (t : Int) : Int := t / minuteMs * minuteMs

def sampleOf (o : ReferenceObservation) : MinuteSample :=
  { at_ := o.generatedAt, bid := o.tokenBidUsd18, ask := o.tokenAskUsd18, assetId := o.assetId
    multiplier := o.multiplier }

/-- The sample becomes the latest of its stock, and the one of its minute. -/
def keepSample (state : MinuteState) (identity : String) (sample : MinuteSample) : MinuteState :=
  let start := minuteOf sample.at_
  let samples := (state.pending.get? start).getD (fun _ => none)
  { state with
    latest := Function.update state.latest identity (some sample)
    pending := state.pending.set start (Function.update samples identity (some sample)) }

def takeSample (state : MinuteState) (o : ReferenceObservation) : Except String MinuteState := do
  ensure (isSafeInteger o.generatedAt = true ∧ 0 ≤ o.generatedAt ∧
    o.generatedAt ≤ Json.maxSafeInteger - minuteMs) "INVALID_MINUTE_CLOCK"
  ensure (isPrice o.tokenBidUsd18 = true ∧ isPrice o.tokenAskUsd18 = true ∧
    Text.ofDecimal o.tokenBidUsd18 ≤ Text.ofDecimal o.tokenAskUsd18) "INVALID_MINUTE_PRICE"
  match state.latest o.identity with
  | none => return keepSample state o.identity (sampleOf o)
  | some old => do
      ensure (old.at_ ≤ o.generatedAt) "REFERENCE_QUOTE_REGRESSION"
      ensure (old.assetId = o.assetId ∧ old.multiplier = o.multiplier) "REFERENCE_TERMS_CHANGED"
      if o.generatedAt = old.at_ then do
        ensure (o.tokenBidUsd18 = old.bid ∧ o.tokenAskUsd18 = old.ask) "REFERENCE_QUOTE_CONFLICT"
        return state
      else return keepSample state o.identity (sampleOf o)

def gap (events : List MinuteEvent) (from_ until_ : Int) : List MinuteEvent :=
  if until_ ≤ from_ then events
  else
    match events.getLast? with
    | some (.gap f u) =>
        if u = from_ then events.dropLast ++ [.gap f until_] else events ++ [.gap from_ until_]
    | _ => events ++ [.gap from_ until_]

/-- The events and the next minute so far. -/
structure Closing where
  events : List MinuteEvent
  nextMinute : Int

/-- One minute that has passed on every clock: its closing prices, if there is a
late enough sample of each stock. -/
def closeMinute (state : MinuteState) (maxCloseAgeMs : Int) (c : Closing) (start : Int) : Closing :=
  let events := gap c.events c.nextMinute start
  let samples := (state.pending.get? start).getD (fun _ => none)
  let end_ := start + minuteMs
  let closes := state.identities.all fun id => match samples id with
    | none => false
    | some sample => end_ - sample.at_ ≤ maxCloseAgeMs
  { events := if closes then
      events ++ [.close end_ fun id =>
        if id ∈ state.identities then (samples id).map MinuteSample.bid else none]
    else gap events start end_
    nextMinute := end_ }

def least : List Int → Option Int
  | [] => none
  | t :: rest => some (rest.foldl min t)

def latestAt (state : MinuteState) (id : String) : Except String Int :=
  match state.latest id with
  | none => .error "TypeError"
  | some sample => .ok sample.at_

/-- `Math.min` of the latest times; there is one for every stock by then. -/
def watermark (state : MinuteState) : Except String Int := do
  return (least (← state.identities.mapM (latestAt state))).getD 0

/-- Everything before the boundary is closed. -/
def closeMinutes (state : MinuteState) (maxCloseAgeMs boundary : Int) : MinuteState × List MinuteEvent :=
  let first := state.nextMinute.getD ((least state.pending.keys).getD 0)
  let starts := (state.pending.keys.filter (· < boundary)).insertionSort (· ≤ ·)
  let c := starts.foldl (closeMinute state maxCloseAgeMs) ⟨[], first⟩
  ({ state with
      pending := state.pending.filter (fun e => boundary ≤ e.1)
      nextMinute := some (max c.nextMinute boundary) },
    gap c.events c.nextMinute boundary)

def advanceMinutes (before : MinuteState) (observations : List ReferenceObservation)
    (maxCloseAgeMs : Int) : Except String (MinuteState × List MinuteEvent) := do
  ensure (0 < maxCloseAgeMs ∧ maxCloseAgeMs ≤ minuteMs) "INVALID_MINUTE_POLICY"
  ensure (observations.map ReferenceObservation.identity = before.identities)
    "MINUTE_IDENTITY_MISMATCH"
  let state ← observations.foldlM takeSample before
  let boundary := minuteOf (← watermark state)
  let (state, events) := closeMinutes state maxCloseAgeMs boundary
  ensure (state.pending.length ≤ 3) "MINUTE_PENDING_LIMIT"
  return (state, events)

/-! ## `reference-ema.ts` -/

structure Accumulator where
  count : Nat
  sum : Nat
  value : Option Nat
  deriving DecidableEq

structure EmaState where
  fast : Accumulator
  slow : Accumulator
  deriving DecidableEq

def createEma : EmaState := ⟨⟨0, 0, none⟩, ⟨0, 0, none⟩⟩

/-- The mean of the first prices, then a weighted one. -/
def accumulate (period : Nat) (a : Accumulator) (scaled : Nat) : Except String Accumulator :=
  if a.count < period then
    if a.count + 1 = period then
      .ok { count := a.count + 1, sum := 0, value := some ((a.sum + scaled) / period) }
    else .ok { count := a.count + 1, sum := a.sum + scaled, value := a.value }
  else
    match a.value with
    | none => .error "TypeError"
    | some v => .ok { a with value := some ((2 * scaled + (period - 1) * v) / (period + 1)) }

def advanceEma (before : EmaState) (price : String) : Except String EmaState := do
  ensure (isPrice price = true) "INVALID_EMA_PRICE"
  let scaled := Text.ofDecimal price * 1000000
  return { fast := ← accumulate 15 before.fast scaled, slow := ← accumulate 30 before.slow scaled }

/-! ## `reference-engine.ts` -/

structure ReferenceTerms where
  identity : String
  assetId : String
  symbol : String
  multiplier : String
  deriving DecidableEq

inductive Signal where
  | buy
  | sell
  | warmup
  deriving DecidableEq

structure ReferenceEngineState where
  terms : List ReferenceTerms
  /-- `TERMS_CHANGED`. -/
  paused : Bool
  minutes : MinuteState
  ema : String → EmaState
  lastMinute : Option Int
  signals : List Signal

/-- `/^(4663|46630):0x[0-9a-f]{40}$/`. -/
def isIdentity (v : String) : Bool :=
  match v.toList.dropWhile (· ≠ ':') with
  | ':' :: '0' :: 'x' :: ds => (String.ofList (v.toList.takeWhile (· ≠ ':')) ∈ ["4663", "46630"]) &&
      ds.all Text.isHexDigit && ds.length = 40
  | _ => false

/-- `/^[0-9]+(?:\.[0-9]{1,18})?$/`, of a number that is not zero. -/
def isMultiplier (v : String) : Bool :=
  let whole := v.toList.takeWhile (· ≠ '.')
  (1 ≤ whole.length && whole.all Char.isDigit && v.toList.any (fun d => '1' ≤ d ∧ d ≤ '9')) &&
    match v.toList.dropWhile (· ≠ '.') with
    | [] => true
    | _ :: ds => ds.all Char.isDigit && 1 ≤ ds.length && ds.length ≤ 18

def createReferenceEngine (terms : List ReferenceTerms) : Except String ReferenceEngineState := do
  ensure (terms.map ReferenceTerms.symbol = ["MSFT", "NVDA", "AAPL"] ∧
    (terms.map ReferenceTerms.identity).Nodup ∧ ∀ t ∈ terms, isIdentity t.identity = true ∧
      isAssetId t.assetId = true ∧ isMultiplier t.multiplier = true) "REFERENCE_TERMS"
  return {
    terms, paused := false, minutes := ← createMinutes (terms.map ReferenceTerms.identity)
    ema := fun _ => createEma, lastMinute := none, signals := [.warmup, .warmup, .warmup] }

/-- The registry has the stock as its terms say, with no change ahead. -/
def keepsTerms (registry : List RegistryAsset) (t : ReferenceTerms) : Bool :=
  match registry.filter (fun a => a.deployments.any fun d =>
      toString d.chainId ++ ":" ++ d.contractAddress = t.identity) with
  | [asset] => asset.id = t.assetId && asset.symbol = t.symbol && asset.multiplier = t.multiplier &&
      asset.pendingMultiplier = ""
  | _ => false

structure Quote where
  identity : String
  priceUsdc : Nat
  observedAt : Int
  sourceDigest : String

structure Advanced where
  state : ReferenceEngineState
  quotes : Option (List Quote)

def closePrice (prices : String → Option String) (ema : String → EmaState) (t : ReferenceTerms) :
    Except String (String → EmaState) :=
  match prices t.identity with
  | none => .error "INVALID_EMA_PRICE"
  | some price => do
      return Function.update ema t.identity (← advanceEma (ema t.identity) price)

/-- A closed minute moves every average, and the signals with them. -/
def closePrices (state : ReferenceEngineState) (e : MinuteEvent) :
    Except String ReferenceEngineState :=
  match e with
  | .gap _ _ => .ok state
  | .close at_ prices => do
      let ema ← state.terms.foldlM (closePrice prices) state.ema
      return { state with
        ema, lastMinute := some at_
        signals := state.terms.map fun t => match (ema t.identity).fast.value,
            (ema t.identity).slow.value with
          | some fast, some slow => if slow < fast then .buy else .sell
          | _, _ => .warmup }

/-- The middle of bid and ask in units of `10 ^ -6`. -/
def middle (o : ReferenceObservation) : Nat :=
  (Text.ofDecimal o.tokenBidUsd18 + Text.ofDecimal o.tokenAskUsd18) / (2 * 10 ^ 12)

section Engine

variable (jsonParse : String → Option Json) (sha256 : String → String)
  (batchDigest : ReferenceBatch → String)

/-- A response of the registry in the batch shows changed terms. -/
def latches (terms : List ReferenceTerms) (batch : ReferenceBatch) : Bool :=
  batch.captures.any fun c => c.sources.any fun s =>
    s.url = registryUrl &&
      match jsonParse s.body with
      | none => false
      | some raw =>
          match parseRegistry raw with
          | .error _ => false
          | .ok registry => terms.any fun t => !keepsTerms registry t

/-- The observations are of the stocks the engine has, on their terms. -/
def ofTerms (terms : List ReferenceTerms) (observations : List ReferenceObservation) : Bool :=
  (observations.zip terms).all fun p => p.1.identity = p.2.identity && p.1.assetId = p.2.assetId &&
    p.1.multiplier = p.2.multiplier

def quoteOf (digest : String) (o : ReferenceObservation) : Except String Quote := do
  ensure (middle o ≠ 0) "REFERENCE_SUBPRECISION"
  return { identity := o.identity, priceUsdc := middle o, observedAt := o.generatedAt / 1000
           sourceDigest := digest }

def advanceReferenceEngine (before : ReferenceEngineState) (batch : ReferenceBatch) :
    Except String Advanced := do
  let _ ← validateReferenceBatch jsonParse sha256 batch
  ensure (batch.policy.maxAgeMs = 30000 ∧ batch.policy.maxQuoteSkewMs = 10000 ∧
    batch.policy.maxCaptureSpanMs ≤ 30000) "REFERENCE_POLICY_MISMATCH"
  -- even rejected captures can show a change of terms
  let paused := before.paused || latches jsonParse before.terms batch
  if paused = true ∨ batch.status ≠ .accepted then return { state := { before with paused }, quotes := none }
  else
    let observations ← replayReferenceBatch jsonParse sha256 batch
    if ofTerms before.terms observations = false then
      return { state := { before with paused := true }, quotes := none }
    else
      let (minutes, events) ← advanceMinutes before.minutes observations 30000
      let state ← events.foldlM closePrices { before with minutes }
      let quotes ← observations.mapM (quoteOf (batchDigest batch))
      return { state, quotes := some quotes }

end Engine

end Reference
end AlphaForge
