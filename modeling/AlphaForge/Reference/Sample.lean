/-
Sample batches.

Responses as the API gives them, with the text, what it parses to and its digest, and
the captures made of them.  A batch of such captures is valid as soon as each quote is
the observation made of it.
-/
import AlphaForge.Reference.Batch
import AlphaForge.Reference.Observed

namespace AlphaForge
namespace Reference

open Evm

/-- The text of a stock's entry in the registry. -/
def assetText (id symbol address : String) : String :=
  "\x7b\"id\":\"" ++ id ++ "\",\"tokenSymbol\":\"" ++ symbol ++
    "\",\"tokenDecimals\":18,\"status\":\"ASSET_STATUS_ACTIVE\",\"currentMultiplier\":\"1\"" ++
    ",\"pendingMultiplier\":\"\",\"deployments\":[\x7b\"chainId\":46630,\"contractAddress\":\"" ++
    address ++ "\"\x7d]\x7d"

def assetJson (id symbol address : String) : Json :=
  .object [("id", .string id), ("tokenSymbol", .string symbol), ("tokenDecimals", .number 18),
    ("status", .string "ASSET_STATUS_ACTIVE"), ("currentMultiplier", .string "1"),
    ("pendingMultiplier", .string ""), ("deployments",
      .array [.object [("chainId", .number 46630), ("contractAddress", .string address)]])]

def quoteText (symbol address bid ask generatedAt : String) : String :=
  "\x7b\"quotes\":[\x7b\"tokenSymbol\":\"" ++ symbol ++
    "\",\"deployments\":[\x7b\"chainId\":46630,\"contractAddress\":\"" ++ address ++
    "\"\x7d],\"currency\":\"USD\",\"isTradingHalt\":false,\"bid\":\"" ++ bid ++ "\",\"ask\":\"" ++
    ask ++ "\",\"generatedAt\":\"" ++ generatedAt ++ "\"\x7d]\x7d"

def quoteJson (symbol address bid ask generatedAt : String) : Json :=
  .object [("quotes", .array [.object [("tokenSymbol", .string symbol), ("deployments",
      .array [.object [("chainId", .number 46630), ("contractAddress", .string address)]]),
    ("currency", .string "USD"), ("isTradingHalt", .bool false), ("bid", .string bid),
    ("ask", .string ask), ("generatedAt", .string generatedAt)]])]

def exampleAddress (i : Nat) : String :=
  "0x000000000000000000000000000000000000000" ++ i.repr

/-- A response: its text, what the text parses to and its digest. -/
structure Response where
  text : String
  json : Json
  digest : String

def exampleRegistry : Response where
  text := "\x7b\"assets\":[" ++ assetText "0x1" "MSFT" (exampleAddress 1) ++ "," ++
    assetText "0x2" "NVDA" (exampleAddress 2) ++ "," ++
    assetText "0x3" "AAPL" (exampleAddress 3) ++ "]\x7d"
  json := .object [("assets", .array [assetJson "0x1" "MSFT" (exampleAddress 1),
    assetJson "0x2" "NVDA" (exampleAddress 2), assetJson "0x3" "AAPL" (exampleAddress 3)])]
  digest := "c2cd1e263e59dbe6176bca0ef8839c3147bab6ce412bf6aad17ab8f09d490be0"

def exampleQuote (symbol address bid ask generatedAt digest : String) : Response where
  text := quoteText symbol address bid ask generatedAt
  json := quoteJson symbol address bid ask generatedAt
  digest := digest

def exampleNvda : Response :=
  exampleQuote "NVDA" (exampleAddress 2) "180" "181" "2026-01-05T15:00:10Z"
    "0ab1bd82f7a670714292a7605310e5697eb9158fe842684264cbc53d1b683dbb"

def exampleAapl : Response :=
  exampleQuote "AAPL" (exampleAddress 3) "250" "251" "2026-01-05T15:00:10Z"
    "bed4b5673fe47e84cd66f980d77d7af21b5034a94843cc179765bd6665d8923f"

def exampleAsset (i : Nat) (symbol : String) : RegistryAsset :=
  { id := "0x" ++ i.repr, symbol, status := "ASSET_STATUS_ACTIVE", multiplier := "1"
    pendingMultiplier := "", deployments := [⟨46630, exampleAddress i⟩] }

def exampleAssets : List RegistryAsset :=
  [exampleAsset 1 "MSFT", exampleAsset 2 "NVDA", exampleAsset 3 "AAPL"]

theorem example_registry : parseRegistry exampleRegistry.json = .ok exampleAssets := by
  decide

/-- The observation of a quote of whole dollars. -/
def exampleObservation (i : Nat) (symbol bid ask : String) (generatedAt receivedAt : Int) :
    ReferenceObservation :=
  { identity := "46630:" ++ exampleAddress i, assetId := "0x" ++ i.repr, symbol
    generatedAt, receivedAt, underlyingBid := bid, underlyingAsk := ask, multiplier := "1"
    tokenBidUsd18 := bid ++ "000000000000000000", tokenAskUsd18 := ask ++ "000000000000000000" }

/-- A capture of the three responses at one moment. -/
def exampleCapture (i : Nat) (quote : Response) (o : ReferenceObservation) : ReferenceCapture :=
  { status := .accepted, reason := none, maxAgeMs := 30000, observation := some o
    selection := ⟨46630, exampleAddress i, o.symbol⟩
    sources := [⟨registryUrl, o.receivedAt, exampleRegistry.text, exampleRegistry.digest⟩,
      ⟨"https://api.robinhood.com/rhj/prices/" ++ o.symbol, o.receivedAt, quote.text, quote.digest⟩,
      ⟨registryUrl, o.receivedAt, exampleRegistry.text, exampleRegistry.digest⟩] }

/-! ## Responses that are known -/

/-- `JSON.parse` of the bodies that were received. -/
def parseIn (responses : List Response) (body : String) : Option Json :=
  (responses.find? (fun r => r.text = body)).map Response.json

/-- The digests of the bodies that were received. -/
def digestIn (responses : List Response) (body : String) : String :=
  ((responses.find? (fun r => r.text = body)).map Response.digest).getD ""

/-- Responses with the registry among them. -/
structure Received (responses : List Response) : Prop where
  registry : exampleRegistry ∈ responses
  nodup : (responses.map Response.text).Nodup
  sizes : ∀ r ∈ responses, r.text.utf8ByteSize ≤ maxBytes

section Received

variable {responses : List Response} {r : Response}

theorem Received.find (h : Received responses) (hr : r ∈ responses) :
    responses.find? (fun q => q.text = r.text) = some r := by
  obtain ⟨q, hq⟩ := Option.isSome_iff_exists.mp
    (List.find?_isSome.mpr ⟨r, hr, decide_eq_true rfl⟩ :
      (responses.find? (fun q => q.text = r.text)).isSome = true)
  have htext : q.text = r.text := by simpa using List.find?_some hq
  rw [hq, List.inj_on_of_nodup_map h.nodup (List.mem_of_find?_eq_some hq) hr htext]

theorem Received.parse (h : Received responses) (hr : r ∈ responses) :
    parseIn responses r.text = some r.json := by
  rw [parseIn, h.find hr]
  rfl

theorem Received.intact (h : Received responses) (hr : r ∈ responses) (url : String) (at_ : Int) :
    intact (digestIn responses) ⟨url, at_, r.text, r.digest⟩ := by
  refine ⟨h.sizes r hr, ?_⟩
  rw [digestIn, h.find hr]
  rfl

/-- The response was received, and the quote in it is the observation. -/
structure Answered (responses : List Response) (i : Nat) (quote : Response)
    (o : ReferenceObservation) : Prop where
  mem : quote ∈ responses
  clock : isSafeInteger o.receivedAt = true ∧ 0 ≤ o.receivedAt
  selection : validateSelection ⟨46630, exampleAddress i, o.symbol⟩ =
    .ok ⟨46630, exampleAddress i, o.symbol⟩
  normal : normalizeReference exampleAssets quote.json ⟨46630, exampleAddress i, o.symbol⟩
    o.receivedAt 30000 = .ok o

theorem Answered.inspected {policy : BatchPolicy} {i j : Nat} {quote : Response}
    {o : ReferenceObservation} (hreceived : Received responses) (h : Answered responses i quote o)
    (hage : policy.maxAgeMs = 30000)
    (hj : policy.selections[j]? = some ⟨46630, exampleAddress i, o.symbol⟩) :
    inspectCapture (parseIn responses) (digestIn responses) policy j (exampleCapture i quote o) =
      .ok [o] := by
  have hregistry := hreceived.registry
  have hparsed : parsed (parseIn responses) exampleRegistry.text = .ok exampleRegistry.json := by
    rw [parsed, hreceived.parse hregistry]
  have hquote : parsed (parseIn responses) quote.text = .ok quote.json := by
    rw [parsed, hreceived.parse h.mem]
  have hreplay : replayReference (parseIn responses) (digestIn responses) (exampleCapture i quote o) =
      .ok o := by
    refine bind_eq_ok.mpr ⟨(), ensure_of ⟨rfl, rfl⟩ _, bind_eq_ok.mpr ⟨_, h.selection, ?_⟩⟩
    refine bind_eq_ok.mpr ⟨(), ensure_of (show isSafeInteger 30000 = true ∧ (0 : Int) < 30000 by
      decide) _, ?_⟩
    simp only [exampleCapture, sourceUrls, checkSources, List.head?_cons, List.tail_cons,
      ensure_of (hreceived.intact hregistry _ _), ensure_of (hreceived.intact h.mem _ _),
      ensure_of (And.intro h.clock.1 (And.intro h.clock.2 h.clock.2)),
      ensure_of (And.intro h.clock.1 (And.intro h.clock.2 (le_refl o.receivedAt))),
      ensure_of, ok_bind, hparsed, hquote, example_registry, h.normal]
    rfl
  refine bind_eq_ok.mpr ⟨(), ensure_of ⟨hj, hage.symm⟩ _, ?_⟩
  refine bind_eq_ok.mpr ⟨(), ensure_of (le_refl 3) _, ?_⟩
  refine bind_eq_ok.mpr ⟨(), ?_, bind_eq_ok.mpr ⟨o, hreplay, rfl⟩⟩
  simp only [exampleCapture, sourceUrls, inspectSources, List.head?_cons, List.tail_cons, timestamp,
    ensure_of (hreceived.intact hregistry _ _), ensure_of (hreceived.intact h.mem _ _),
    ensure_of h.clock, ensure_of, ok_bind]

/-! ## Batches -/

/-- The place of a stock in the registry, a quote of it and the observation. -/
structure Row where
  i : Nat
  quote : Response
  observation : ReferenceObservation

def Row.selection (row : Row) : Selection := ⟨46630, exampleAddress row.i, row.observation.symbol⟩

def Row.capture (row : Row) : ReferenceCapture := exampleCapture row.i row.quote row.observation

/-- The quote of the row is read as the observation. -/
def Row.Normal (row : Row) : Prop :=
  (isSafeInteger row.observation.receivedAt = true ∧ 0 ≤ row.observation.receivedAt) ∧
    validateSelection row.selection = .ok row.selection ∧
    normalizeReference exampleAssets row.quote.json row.selection row.observation.receivedAt 30000 =
      .ok row.observation

instance (row : Row) : Decidable row.Normal := by
  unfold Row.Normal
  infer_instance

theorem answered_of_normal {rows : List Row} (hreceived : ∀ row ∈ rows, row.quote ∈ responses)
    (h : ∀ row ∈ rows, row.Normal) :
    ∀ row ∈ rows, Answered responses row.i row.quote row.observation := by
  intro row hrow
  obtain ⟨hclock, hselection, hnormal⟩ := h row hrow
  exact ⟨hreceived row hrow, hclock, hselection, hnormal⟩

/-- A batch of captures that were all made at one moment. -/
def batchOf (policy : BatchPolicy) (at_ : Int) (rows : List Row) : ReferenceBatch :=
  { policy, startedAt := at_, completedAt := at_, status := .accepted, reason := none
    captures := rows.map Row.capture, observations := some (rows.map Row.observation) }

theorem inspect_rows {policy : BatchPolicy} {rows : List Row} {k : Nat} (hreceived : Received responses)
    (hage : policy.maxAgeMs = 30000)
    (hselections : policy.selections.drop k = rows.map Row.selection)
    (hrows : ∀ row ∈ rows, Answered responses row.i row.quote row.observation) :
    inspectCaptures (parseIn responses) (digestIn responses) policy k (rows.map Row.capture) =
      .ok (rows.map Row.observation) := by
  induction rows generalizing k with
  | nil => rfl
  | cons row rest ih =>
      have hfirst : policy.selections[k]? = some row.selection := by
        have hhead := congrArg List.head? hselections
        rwa [List.head?_drop, List.map_cons, List.head?_cons] at hhead
      have hrest : policy.selections.drop (k + 1) = rest.map Row.selection := by
        have htail := congrArg List.tail hselections
        rwa [List.tail_drop, List.map_cons, List.tail_cons] at htail
      have hrow := (hrows row List.mem_cons_self).inspected hreceived hage hfirst
      have hlater := ih hrest fun r hr => hrows r (List.mem_cons_of_mem row hr)
      rw [List.map_cons, inspectCaptures]
      exact bind_eq_ok.mpr ⟨_, hrow, bind_eq_ok.mpr ⟨_, hlater, rfl⟩⟩

/-- A round of quotes at one moment, each of which is the observation made of it. -/
structure SampleRound (responses : List Response) (policy : BatchPolicy) (at_ : Int)
    (rows : List Row) : Prop where
  parsed : parseBatchPolicy policy = .ok policy
  age : policy.maxAgeMs = 30000
  span : 0 ≤ policy.maxCaptureSpanMs
  clock : isSafeInteger at_ = true ∧ 0 ≤ at_
  selections : policy.selections = rows.map Row.selection
  answered : ∀ row ∈ rows, Answered responses row.i row.quote row.observation
  received : ∀ row ∈ rows, row.observation.receivedAt = at_
  fresh : ∀ row ∈ rows, row.observation.generatedAt ≤ at_ ∧ at_ - row.observation.generatedAt ≤ 30000
  skew : ∀ row ∈ rows, ∀ other ∈ rows,
    row.observation.generatedAt - other.observation.generatedAt ≤ policy.maxQuoteSkewMs

theorem SampleRound.derived {policy : BatchPolicy} {at_ : Int} {rows : List Row}
    (hreceived : Received responses) (h : SampleRound responses policy at_ rows) :
    derive_ (parseIn responses) (digestIn responses) (batchOf policy at_ rows) =
      .ok (rows.map Row.observation) := by
  have hcaptures := inspect_rows (k := 0) hreceived h.age h.selections h.answered
  have hlength : (rows.map Row.capture).length = policy.selections.length := by
    rw [h.selections, List.length_map, List.length_map]
  have hinspect : inspect (parseIn responses) (digestIn responses) (batchOf policy at_ rows) =
      .ok (policy, rows.map Row.observation) := by
    refine bind_eq_ok.mpr ⟨_, h.parsed, bind_eq_ok.mpr ⟨(), ensure_of h.clock _, ?_⟩⟩
    refine bind_eq_ok.mpr ⟨(), ensure_of h.clock _, bind_eq_ok.mpr ⟨(), ensure_of ?_ _, ?_⟩⟩
    · exact le_of_eq hlength
    · exact bind_eq_ok.mpr ⟨_, hcaptures, rfl⟩
  have hclock : at_ ≤ at_ ∧ ∀ c ∈ rows.map Row.capture, ∀ s ∈ c.sources,
      at_ ≤ s.receivedAt ∧ s.receivedAt ≤ at_ := by
    refine ⟨le_refl _, fun c hc s hs => ?_⟩
    obtain ⟨row, hrow, rfl⟩ := List.mem_map.mp hc
    have hat : s.receivedAt = at_ := by
      simp only [Row.capture, exampleCapture, List.mem_cons, List.not_mem_nil, or_false] at hs
      rcases hs with rfl | rfl | rfl
      · exact h.received row hrow
      · exact h.received row hrow
      · exact h.received row hrow
    omega
  have haccepted : (rows.map Row.capture).length = policy.selections.length ∧
      ∀ c ∈ rows.map Row.capture, c.status = .accepted := by
    refine ⟨hlength, fun c hc => ?_⟩
    obtain ⟨row, _, rfl⟩ := List.mem_map.mp hc
    rfl
  have hspan : at_ - at_ ≤ policy.maxCaptureSpanMs := by
    have := h.span
    omega
  have hfresh : ∀ o ∈ rows.map Row.observation, o.generatedAt ≤ at_ ∧
      at_ - o.generatedAt ≤ policy.maxAgeMs := by
    intro o ho
    obtain ⟨row, hrow, rfl⟩ := List.mem_map.mp ho
    rw [h.age]
    exact h.fresh row hrow
  have hskew : ∀ o ∈ rows.map Row.observation, ∀ p ∈ rows.map Row.observation,
      o.generatedAt - p.generatedAt ≤ policy.maxQuoteSkewMs := by
    intro o ho p hp
    obtain ⟨row, hrow, rfl⟩ := List.mem_map.mp ho
    obtain ⟨other, hother, rfl⟩ := List.mem_map.mp hp
    exact h.skew row hrow other hother
  refine bind_eq_ok.mpr ⟨_, hinspect, bind_eq_ok.mpr ⟨(), ensure_of hclock _, ?_⟩⟩
  refine bind_eq_ok.mpr ⟨(), ensure_of hspan _, bind_eq_ok.mpr ⟨(), ensure_of haccepted _, ?_⟩⟩
  refine bind_eq_ok.mpr ⟨(), ensure_of hfresh _, ?_⟩
  exact bind_eq_ok.mpr ⟨(), ensure_of hskew _, rfl⟩

theorem SampleRound.replayed {policy : BatchPolicy} {at_ : Int} {rows : List Row}
    (hreceived : Received responses) (h : SampleRound responses policy at_ rows) :
    replayReferenceBatch (parseIn responses) (digestIn responses) (batchOf policy at_ rows) =
      .ok (rows.map Row.observation) := by
  refine bind_eq_ok.mpr ⟨(), ensure_of ⟨rfl, rfl⟩ _, bind_eq_ok.mpr ⟨_, h.derived hreceived, ?_⟩⟩
  exact bind_eq_ok.mpr ⟨(), ensure_of rfl _, rfl⟩

end Received

end Reference
end AlphaForge
