/-
A batch as JSON.

A batch is written as the object it is in the source and read back field by field.  A
valid batch has a text: every number in it is a safe integer.
-/
import AlphaForge.Reference.Captured

namespace AlphaForge
namespace Reference

open Evm

/-! ## Writing -/

def Status.text : Status → String
  | .accepted => "ACCEPTED"
  | .rejected => "REJECTED"

def nullable {α : Type} (write : α → Json) : Option α → Json
  | none => .null
  | some a => write a

def Selection.toJson (s : Selection) : Json :=
  .object [("chainId", .number s.chainId), ("contractAddress", .string s.contractAddress),
    ("symbol", .string s.symbol)]

def SourceReceipt.toJson (s : SourceReceipt) : Json :=
  .object [("url", .string s.url), ("receivedAt", .number s.receivedAt), ("body", .string s.body),
    ("sha256", .string s.sha256)]

def ReferenceObservation.toJson (o : ReferenceObservation) : Json :=
  .object [("kind", .string "REFERENCE_ONLY"), ("identity", .string o.identity),
    ("assetId", .string o.assetId), ("symbol", .string o.symbol),
    ("generatedAt", .number o.generatedAt), ("receivedAt", .number o.receivedAt),
    ("underlyingBid", .string o.underlyingBid), ("underlyingAsk", .string o.underlyingAsk),
    ("multiplier", .string o.multiplier), ("tokenBidUsd18", .string o.tokenBidUsd18),
    ("tokenAskUsd18", .string o.tokenAskUsd18)]

def ReferenceCapture.toJson (c : ReferenceCapture) : Json :=
  .object [("version", .string "alphaforge-reference-1"), ("status", .string c.status.text),
    ("reason", nullable .string c.reason), ("selection", c.selection.toJson),
    ("maxAgeMs", .number c.maxAgeMs), ("sources", .array (c.sources.map SourceReceipt.toJson)),
    ("observation", nullable ReferenceObservation.toJson c.observation)]

def BatchPolicy.toJson (p : BatchPolicy) : Json :=
  .object [("selections", .array (p.selections.map Selection.toJson)),
    ("maxAgeMs", .number p.maxAgeMs), ("maxQuoteSkewMs", .number p.maxQuoteSkewMs),
    ("maxCaptureSpanMs", .number p.maxCaptureSpanMs)]

def ReferenceBatch.toJson (b : ReferenceBatch) : Json :=
  .object [("version", .string "alphaforge-reference-batch-1"), ("policy", b.policy.toJson),
    ("startedAt", .number b.startedAt), ("completedAt", .number b.completedAt),
    ("status", .string b.status.text), ("reason", nullable .string b.reason),
    ("captures", .array (b.captures.map ReferenceCapture.toJson)),
    ("observations", nullable (fun os => .array (os.map ReferenceObservation.toJson))
      b.observations)]

/-! ## Reading

An object of another shape is none of these values. -/

def readNumber : Json → Option Int
  | .number n => some n
  | _ => none

def readString : Json → Option String
  | .string s => some s
  | _ => none

def readItems {α : Type} (item : Json → Option α) : Json → Option (List α)
  | .array items => items.mapM item
  | _ => none

def readNullable {α : Type} (value : Json → Option α) : Json → Option (Option α)
  | .null => some none
  | v => (value v).map some

def readStatus (v : Json) : Option Status :=
  if v = .string "ACCEPTED" then some .accepted
  else if v = .string "REJECTED" then some .rejected
  else none

/-- The property `key` of an object. -/
def field (v : Json) (key : String) : Json :=
  match v with
  | .object fields => prop fields key
  | _ => .unsupported

def readSelection (v : Json) : Option Selection := do
  return {
    chainId := ← readNumber (field v "chainId")
    contractAddress := ← readString (field v "contractAddress")
    symbol := ← readString (field v "symbol") }

def readReceipt (v : Json) : Option SourceReceipt := do
  return {
    url := ← readString (field v "url")
    receivedAt := ← readNumber (field v "receivedAt")
    body := ← readString (field v "body")
    sha256 := ← readString (field v "sha256") }

def readObservation (v : Json) : Option ReferenceObservation := do
  guard (field v "kind" = .string "REFERENCE_ONLY")
  return {
    identity := ← readString (field v "identity")
    assetId := ← readString (field v "assetId")
    symbol := ← readString (field v "symbol")
    generatedAt := ← readNumber (field v "generatedAt")
    receivedAt := ← readNumber (field v "receivedAt")
    underlyingBid := ← readString (field v "underlyingBid")
    underlyingAsk := ← readString (field v "underlyingAsk")
    multiplier := ← readString (field v "multiplier")
    tokenBidUsd18 := ← readString (field v "tokenBidUsd18")
    tokenAskUsd18 := ← readString (field v "tokenAskUsd18") }

def readCapture (v : Json) : Option ReferenceCapture := do
  guard (field v "version" = .string "alphaforge-reference-1")
  return {
    status := ← readStatus (field v "status")
    reason := ← readNullable readString (field v "reason")
    selection := ← readSelection (field v "selection")
    maxAgeMs := ← readNumber (field v "maxAgeMs")
    sources := ← readItems readReceipt (field v "sources")
    observation := ← readNullable readObservation (field v "observation") }

def readPolicy (v : Json) : Option BatchPolicy := do
  return {
    selections := ← readItems readSelection (field v "selections")
    maxAgeMs := ← readNumber (field v "maxAgeMs")
    maxQuoteSkewMs := ← readNumber (field v "maxQuoteSkewMs")
    maxCaptureSpanMs := ← readNumber (field v "maxCaptureSpanMs") }

def readBatch (v : Json) : Option ReferenceBatch := do
  guard (field v "version" = .string "alphaforge-reference-batch-1")
  return {
    policy := ← readPolicy (field v "policy")
    startedAt := ← readNumber (field v "startedAt")
    completedAt := ← readNumber (field v "completedAt")
    status := ← readStatus (field v "status")
    reason := ← readNullable readString (field v "reason")
    captures := ← readItems readCapture (field v "captures")
    observations := ← readNullable (readItems readObservation) (field v "observations") }

/-! ## What is written reads back -/

theorem readItems_toJson {α : Type} {write : α → Json} {item : Json → Option α}
    (h : ∀ a, item (write a) = some a) (items : List α) :
    readItems item (.array (items.map write)) = some items := by
  show (items.map write).mapM item = some items
  induction items with
  | nil => rfl
  | cons a rest ih =>
      rw [List.map_cons, List.mapM_cons, h a, ih]
      rfl

theorem readNullable_toJson {α : Type} {write : α → Json} {value : Json → Option α}
    (h : ∀ a, value (write a) = some a) (hnull : ∀ a, write a ≠ .null) (o : Option α) :
    readNullable value (nullable write o) = some o := by
  cases o with
  | none => rfl
  | some a =>
      show readNullable value (write a) = _
      unfold readNullable
      split
      · rename_i heq
        exact absurd heq (hnull a)
      · rw [h a]
        rfl

theorem readNullable_string (o : Option String) :
    readNullable readString (nullable .string o) = some o :=
  @readNullable_toJson _ Json.string _ (fun _ => rfl) (fun a h => by cases h) o

theorem readStatus_text (s : Status) : readStatus (.string s.text) = some s := by
  cases s <;> decide

theorem readSelection_toJson (s : Selection) : readSelection s.toJson = some s := rfl

theorem readReceipt_toJson (s : SourceReceipt) : readReceipt s.toJson = some s := rfl

theorem readObservation_toJson (o : ReferenceObservation) : readObservation o.toJson = some o := rfl

theorem readCapture_toJson (c : ReferenceCapture) : readCapture c.toJson = some c := by
  have hreason := readNullable_string c.reason
  have hsources := readItems_toJson readReceipt_toJson c.sources
  have hobservation := readNullable_toJson readObservation_toJson (fun a h => by cases h)
    c.observation
  show (do
    guard _
    return {
      status := ← readStatus (.string c.status.text)
      reason := ← readNullable readString (nullable .string c.reason)
      selection := ← readSelection c.selection.toJson
      maxAgeMs := ← readNumber (.number c.maxAgeMs)
      sources := ← readItems readReceipt (.array (c.sources.map SourceReceipt.toJson))
      observation := ← readNullable readObservation
        (nullable ReferenceObservation.toJson c.observation) }) = some c
  rw [readStatus_text, hreason, hsources, hobservation, readSelection_toJson]
  rfl

theorem readPolicy_toJson (p : BatchPolicy) : readPolicy p.toJson = some p := by
  have hselections := readItems_toJson readSelection_toJson p.selections
  show (do
    return {
      selections := ← readItems readSelection (.array (p.selections.map Selection.toJson))
      maxAgeMs := ← readNumber (.number p.maxAgeMs)
      maxQuoteSkewMs := ← readNumber (.number p.maxQuoteSkewMs)
      maxCaptureSpanMs := ← readNumber (.number p.maxCaptureSpanMs) }) = some p
  rw [hselections]
  rfl

theorem readBatch_toJson (b : ReferenceBatch) : readBatch b.toJson = some b := by
  have hreason := readNullable_string b.reason
  have hcaptures := readItems_toJson readCapture_toJson b.captures
  have hobservations := readNullable_toJson (readItems_toJson readObservation_toJson)
    (fun a h => by cases h) b.observations
  show (do
    guard _
    return {
      policy := ← readPolicy b.policy.toJson
      startedAt := ← readNumber (.number b.startedAt)
      completedAt := ← readNumber (.number b.completedAt)
      status := ← readStatus (.string b.status.text)
      reason := ← readNullable readString (nullable .string b.reason)
      captures := ← readItems readCapture (.array (b.captures.map ReferenceCapture.toJson))
      observations := ← readNullable (readItems readObservation)
        (nullable (fun os => .array (os.map ReferenceObservation.toJson)) b.observations) }) = some b
  rw [readPolicy_toJson, readStatus_text, hreason, hcaptures, hobservations]
  rfl

/-! ## A valid batch has a text -/

def HasText (v : Json) : Prop := ∃ t, v.text = some t

theorem hasText_string (s : String) : HasText (.string s) := ⟨_, by rw [Json.text]⟩

theorem hasText_number {n : Int} (h : isSafeInteger n = true) : HasText (.number n) := by
  unfold isSafeInteger at h
  exact ⟨_, by rw [Json.text, if_pos (of_decide_eq_true h)]⟩

theorem hasText_items {items : List Json} (h : ∀ v ∈ items, HasText v) :
    HasText (.array items) := by
  obtain ⟨texts, htexts⟩ : ∃ texts, Json.textItems items = some texts := by
    induction items with
    | nil => exact ⟨[], by rw [Json.textItems]⟩
    | cons v rest ih =>
        obtain ⟨t, ht⟩ := h v List.mem_cons_self
        obtain ⟨texts, htexts⟩ := ih fun w hw => h w (List.mem_cons_of_mem _ hw)
        exact ⟨t :: texts, by rw [Json.textItems, ht, htexts]; rfl⟩
  exact ⟨.array texts, by rw [Json.text, htexts]; rfl⟩

theorem hasText_array {α : Type} {write : α → Json} {items : List α}
    (h : ∀ a ∈ items, HasText (write a)) : HasText (.array (items.map write)) :=
  hasText_items fun v hv => by
    obtain ⟨a, ha, rfl⟩ := List.mem_map.mp hv
    exact h a ha

theorem hasText_object {fields : List (String × Json)} (h : ∀ e ∈ fields, HasText e.2) :
    HasText (.object fields) := by
  obtain ⟨texts, htexts⟩ : ∃ texts, Json.textFields fields = some texts := by
    induction fields with
    | nil => exact ⟨[], by rw [Json.textFields]⟩
    | cons e rest ih =>
        obtain ⟨t, ht⟩ := h e List.mem_cons_self
        obtain ⟨texts, htexts⟩ := ih fun w hw => h w (List.mem_cons_of_mem _ hw)
        exact ⟨(e.1, t) :: texts, by rw [Json.textFields, ht, htexts]; rfl⟩
  exact ⟨.object (Json.sortKeys texts), by rw [Json.text, htexts]; rfl⟩

theorem hasText_nullable {α : Type} {write : α → Json} {o : Option α}
    (h : ∀ a, o = some a → HasText (write a)) : HasText (nullable write o) := by
  cases o with
  | none => exact ⟨.null, by rw [nullable, Json.text]⟩
  | some a => exact h a rfl

theorem Selection.hasText {s t : Selection} (h : validateSelection s = .ok t) :
    HasText s.toJson ∧ HasText t.toJson := by
  unfold validateSelection at h
  simp only [bind_eq_ok, ensure_eq_ok, pure_eq_ok] at h
  obtain ⟨-, hchain, v, -, w, -, rfl⟩ := h
  have hsafe : isSafeInteger s.chainId = true := by
    rcases hchain with hchain | hchain <;> rw [hchain] <;> decide
  constructor <;> exact hasText_object (by simp [hasText_string, hasText_number hsafe])

theorem ReferenceObservation.hasText {o : ReferenceObservation}
    (hgenerated : isSafeInteger o.generatedAt = true)
    (hreceived : isSafeInteger o.receivedAt = true) : HasText o.toJson :=
  hasText_object (by
    simp [hasText_string, hasText_number hgenerated, hasText_number hreceived])

section Valid

variable {jsonParse : String → Option Json} {sha256 : String → String}

theorem normalizeReference_hasText {registry : List RegistryAsset} {raw : Json}
    {requested : Selection} {receivedAt maxAgeMs : Int} {o : ReferenceObservation}
    (h : normalizeReference registry raw requested receivedAt maxAgeMs = .ok o) :
    HasText o.toJson := by
  unfold normalizeReference at h
  simp only [bind_eq_ok, ensure_eq_ok, pure_eq_ok] at h
  obtain ⟨s, -, _, ⟨hreceived, -⟩, asset, -, multiplier, -, q, -, bid, -, ask, -, _, -, ubid, -,
    uask, -, time, -, generatedAt, -, _, ⟨hgenerated, -⟩, _, -, rfl⟩ := h
  exact ReferenceObservation.hasText hgenerated hreceived

theorem replayReference_hasText {c : ReferenceCapture} {o : ReferenceObservation}
    (h : replayReference jsonParse sha256 c = .ok o) :
    c.reason = none ∧ c.observation = some o ∧ HasText o.toJson := by
  unfold replayReference at h
  simp only [bind_eq_ok, ensure_eq_ok] at h
  obtain ⟨-, ⟨-, hreason⟩, selection, -, -, -, h⟩ := h
  split at h
  · simp only [bind_eq_ok, ensure_eq_ok, pure_eq_ok] at h
    obtain ⟨_, -, _, -, _, -, _, -, a, -, _, -, _, -, _, -, b, hb, -, -, -, hsame, rfl⟩ := h
    exact ⟨hreason, hsame, normalizeReference_hasText hb⟩
  · cases h

theorem inspectSources_hasText {urls : List String} {sources : List SourceReceipt}
    (h : inspectSources sha256 urls sources = .ok ()) : ∀ s ∈ sources, HasText s.toJson := by
  induction sources generalizing urls with
  | nil => exact fun s hs => by cases hs
  | cons first rest ih =>
      simp only [inspectSources, bind_eq_ok, ensure_eq_ok, timestamp] at h
      obtain ⟨-, -, -, -, _, ⟨hsafe, -⟩, hrest⟩ := h
      rw [List.forall_mem_cons]
      exact ⟨hasText_object (by simp [hasText_string, hasText_number hsafe]), ih hrest⟩

theorem inspectCapture_hasText {policy : BatchPolicy} {i : Nat} {c : ReferenceCapture}
    {os : List ReferenceObservation}
    (hselections : ∀ s ∈ policy.selections, HasText s.toJson)
    (hage : isSafeInteger policy.maxAgeMs = true)
    (h : inspectCapture jsonParse sha256 policy i c = .ok os) :
    HasText c.toJson ∧ ∀ o ∈ os, HasText o.toJson := by
  unfold inspectCapture at h
  simp only [bind_eq_ok, ensure_eq_ok] at h
  obtain ⟨-, ⟨hselection, hsame⟩, -, -, _, hsources, h⟩ := h
  have hwritten : (∀ o, c.observation = some o → HasText o.toJson) → HasText c.toJson := by
    intro hobservation
    refine hasText_object ?_
    have htext := hselections c.selection (List.mem_of_getElem? hselection)
    simp [hasText_string, hasText_number (hsame.symm ▸ hage), htext, hasText_array
      (inspectSources_hasText hsources), hasText_nullable fun r _ => hasText_string r,
      hasText_nullable hobservation]
  split at h
  · simp only [bind_eq_ok, pure_eq_ok] at h
    obtain ⟨o, ho, rfl⟩ := h
    obtain ⟨-, hmade, htext⟩ := replayReference_hasText ho
    refine ⟨hwritten fun o' ho' => ?_, fun o' ho' => ?_⟩
    · obtain rfl := Option.some.inj (hmade.symm.trans ho')
      exact htext
    · rw [List.mem_singleton.mp ho']
      exact htext
  · simp only [bind_eq_ok, ensure_eq_ok, pure_eq_ok] at h
    obtain ⟨_, ⟨hnone, -⟩, rfl⟩ := h
    refine ⟨hwritten fun o ho => ?_, fun o ho => by cases ho⟩
    rw [hnone] at ho
    cases ho

theorem inspectCaptures_hasText {policy : BatchPolicy} {i : Nat} {cs : List ReferenceCapture}
    {os : List ReferenceObservation}
    (hselections : ∀ s ∈ policy.selections, HasText s.toJson)
    (hage : isSafeInteger policy.maxAgeMs = true)
    (h : inspectCaptures jsonParse sha256 policy i cs = .ok os) :
    (∀ c ∈ cs, HasText c.toJson) ∧ ∀ o ∈ os, HasText o.toJson := by
  induction cs generalizing i os with
  | nil =>
      cases h
      refine ⟨fun c hc => ?_, fun o ho => ?_⟩
      · cases hc
      · cases ho
  | cons c rest ih =>
      simp only [inspectCaptures, bind_eq_ok, pure_eq_ok] at h
      obtain ⟨first, hfirst, others, hothers, rfl⟩ := h
      obtain ⟨hc, hos⟩ := inspectCapture_hasText hselections hage hfirst
      obtain ⟨hrest, hos'⟩ := ih hothers
      exact ⟨List.forall_mem_cons.mpr ⟨hc, hrest⟩, List.forall_mem_append.mpr ⟨hos, hos'⟩⟩

theorem parseBatchPolicy_hasText {p policy : BatchPolicy} (h : parseBatchPolicy p = .ok policy) :
    HasText p.toJson ∧ (∀ s ∈ policy.selections, HasText s.toJson) ∧
      isSafeInteger policy.maxAgeMs = true := by
  unfold parseBatchPolicy batchInteger at h
  simp only [bind_eq_ok, ensure_eq_ok, pure_eq_ok] at h
  obtain ⟨-, -, selections, hselections, -, -, -, -, -, -, _, ⟨hspan, -⟩, -, -, _, ⟨hage, -⟩, _,
    ⟨hskew, -⟩, rfl⟩ := h
  refine ⟨hasText_object ?_, fun s hs => ?_, hage⟩
  · have hwritten : ∀ s ∈ p.selections, HasText s.toJson := fun s hs => by
      obtain ⟨t, -, ht⟩ := mem_of_mapM hselections hs
      exact (Selection.hasText ht).1
    simp [hasText_array hwritten, hasText_number hspan, hasText_number hage, hasText_number hskew]
  · obtain ⟨t, -, ht⟩ := mapM_mem hselections hs
    exact (Selection.hasText ht).2

theorem hasText_of_inspect {batch : ReferenceBatch}
    {r : BatchPolicy × List ReferenceObservation} (h : inspect jsonParse sha256 batch = .ok r)
    (hos : ∀ os, batch.observations = some os → os = r.2) : HasText batch.toJson := by
  unfold inspect timestamp at h
  simp only [bind_eq_ok, ensure_eq_ok, pure_eq_ok] at h
  obtain ⟨policy, hpolicy, _, ⟨hstart, -⟩, _, ⟨hend, -⟩, -, -, os, hcaptures, rfl⟩ := h
  obtain ⟨hwritten, hselections, hage⟩ := parseBatchPolicy_hasText hpolicy
  obtain ⟨hcs, htexts⟩ := inspectCaptures_hasText hselections hage hcaptures
  have hobservations : ∀ os', batch.observations = some os' →
      HasText (.array (os'.map ReferenceObservation.toJson)) := fun os' hsome => by
    rw [hos os' hsome]
    exact hasText_array htexts
  refine hasText_object ?_
  simp [hasText_string, hasText_number hstart, hasText_number hend, hwritten, hasText_array hcs,
    hasText_nullable fun r _ => hasText_string r, hasText_nullable hobservations]

theorem validateReferenceBatch_hasText {batch : ReferenceBatch}
    {r : Option (List ReferenceObservation)}
    (h : validateReferenceBatch jsonParse sha256 batch = .ok r) : HasText batch.toJson := by
  unfold validateReferenceBatch at h
  split at h
  · simp only [bind_eq_ok, replayReferenceBatch, derive_, ensure_eq_ok, pure_eq_ok] at h
    obtain ⟨os, ⟨-, -, _, ⟨i, hinspect, -, -, -, -, -, -, -, -, -, -, rfl⟩, -, hsame, rfl⟩, -⟩ := h
    refine hasText_of_inspect hinspect fun os' hos' => ?_
    exact Option.some.inj (hos'.symm.trans hsame)
  · simp only [bind_eq_ok, ensure_eq_ok, pure_eq_ok] at h
    obtain ⟨i, hinspect, -, ⟨hnone, -⟩, -⟩ := h
    refine hasText_of_inspect hinspect fun os hos => ?_
    rw [hnone] at hos
    cases hos

/-- A batch that is written and read again, as far as `JSON` inverts its own text. -/
theorem read_of_written {jsonStringify : Json → String} {batch : ReferenceBatch}
    {r : Option (List ReferenceObservation)}
    (h : validateReferenceBatch jsonParse sha256 batch = .ok r)
    (hjson : HasText batch.toJson → jsonParse (jsonStringify batch.toJson) = some batch.toJson) :
    (jsonParse (jsonStringify batch.toJson)).bind readBatch = some batch := by
  rw [hjson (validateReferenceBatch_hasText h), Option.bind_some, readBatch_toJson]

end Valid

/-- Whatever a round is answered, the batch it collects validates, and what an accepted
one says it observed is what it replays to; its JSON text is read back to the same batch. -/
theorem captured_batch_validates {jsonParse : String → Option Json} {sha256 : String → String}
    {jsonStringify : Json → String} {input policy : BatchPolicy} {r : BatchRound}
    (hpolicy : parseBatchPolicy input = .ok policy)
    (hstart : isSafeInteger r.startedAt = true ∧ 0 ≤ r.startedAt)
    (hend : isSafeInteger r.completedAt = true ∧ 0 ≤ r.completedAt)
    (hjson : ∀ batch, captureReferenceBatch jsonParse sha256 input r = .ok batch →
      HasText batch.toJson → jsonParse (jsonStringify batch.toJson) = some batch.toJson) :
    ∃ batch, captureReferenceBatch jsonParse sha256 input r = .ok batch ∧
      (jsonParse (jsonStringify batch.toJson)).bind readBatch = some batch ∧
      (∃ os, validateReferenceBatch jsonParse sha256 batch = .ok os) ∧
      (batch.status = .accepted → ∃ os, batch.observations = some os ∧
        replayReferenceBatch jsonParse sha256 batch = .ok os) := by
  obtain ⟨batch, hcapture, hvalid⟩ := @captureReferenceBatch_valid jsonParse sha256 input policy r
    hpolicy (ensure_of hstart _) (ensure_of hend _)
  obtain ⟨os, hos⟩ := hvalid.validates
  exact ⟨batch, hcapture, read_of_written hos (hjson batch hcapture), ⟨os, hos⟩, hvalid.replays⟩

def exampleSelection : Selection :=
  ⟨46630, "0x0000000000000000000000000000000000000002", "NVDA"⟩

def examplePolicy : BatchPolicy where
  selections := [exampleSelection]
  maxAgeMs := 30000
  maxQuoteSkewMs := 5000
  maxCaptureSpanMs := 20000

/-- A round whose first request is not answered. -/
def unansweredRound : BatchRound where
  startedAt := 1767625212000
  abortedBefore := false
  attempt := fun _ => {
    before := ⟨.failed false, 1767625212100⟩, quote := ⟨.failed false, 1767625212200⟩
    after := ⟨.failed false, 1767625212300⟩, aborted := false, timedOut := false }
  completedAt := 1767625213000
  aborted := false
  timedOut := false

def unansweredBatch : ReferenceBatch where
  policy := examplePolicy
  startedAt := 1767625212000
  completedAt := 1767625213000
  status := .rejected
  reason := some "BATCH_MEMBER_REJECTED"
  captures := [{
    status := .rejected, reason := some "HTTP_TRANSPORT_FAILED", selection := exampleSelection
    maxAgeMs := 30000, sources := [], observation := none }]
  observations := none

def exampleSelectionText : String :=
  "\x7b\"chainId\":46630,\"contractAddress\":\"0x0000000000000000000000000000000000000002\"" ++
    ",\"symbol\":\"NVDA\"\x7d"

def unansweredText : String :=
  "\x7b\"version\":\"alphaforge-reference-batch-1\",\"policy\":\x7b\"selections\":[" ++
    exampleSelectionText ++ "],\"maxAgeMs\":30000,\"maxQuoteSkewMs\":5000" ++
    ",\"maxCaptureSpanMs\":20000\x7d,\"startedAt\":1767625212000,\"completedAt\":1767625213000" ++
    ",\"status\":\"REJECTED\",\"reason\":\"BATCH_MEMBER_REJECTED\",\"captures\":[" ++
    "\x7b\"version\":\"alphaforge-reference-1\",\"status\":\"REJECTED\"" ++
    ",\"reason\":\"HTTP_TRANSPORT_FAILED\",\"selection\":" ++ exampleSelectionText ++
    ",\"maxAgeMs\":30000,\"sources\":[],\"observation\":null\x7d],\"observations\":null\x7d"

def parseUnanswered (body : String) : Option Json :=
  if body = unansweredText then some unansweredBatch.toJson else none

theorem unanswered_captured (sha256 : String → String) :
    captureReferenceBatch parseUnanswered sha256 examplePolicy unansweredRound =
      .ok unansweredBatch := by
  rfl

theorem unanswered_batch_validates :
    ∃ batch, captureReferenceBatch parseUnanswered (fun _ => "") examplePolicy unansweredRound =
        .ok batch ∧
      (parseUnanswered unansweredText).bind readBatch = some batch ∧
      (∃ os, validateReferenceBatch parseUnanswered (fun _ => "") batch = .ok os) ∧
      (batch.status = .accepted → ∃ os, batch.observations = some os ∧
        replayReferenceBatch parseUnanswered (fun _ => "") batch = .ok os) := by
  have hpolicy : parseBatchPolicy examplePolicy = .ok examplePolicy := by decide
  refine @captured_batch_validates parseUnanswered (fun _ => "") (fun _ => unansweredText)
    examplePolicy examplePolicy unansweredRound hpolicy (by decide) (by decide) ?_
  intro batch hbatch _
  obtain rfl := Except.ok.inj ((unanswered_captured _).symm.trans hbatch)
  rw [parseUnanswered, if_pos rfl]

end Reference
end AlphaForge
