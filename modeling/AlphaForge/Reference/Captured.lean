/-
What a round collects is a valid batch.

A capture's receipts are recorded one request at a time, each where the validator looks
for it, and an observation is computed from receipts alone, so that replaying them
computes it again.  Reading a policy or a selection that was read before changes
nothing.
-/
import AlphaForge.Reference.Capture
import AlphaForge.Reference.Observed

namespace AlphaForge
namespace Reference

open Evm

/-! ## What was read before -/

theorem toLower_of_isHexDigit {d : Char} (h : Text.isHexDigit d = true) : d.toLower = d := by
  have hrange : d.toNat ≤ 57 ∨ 97 ≤ d.toNat := by
    simp only [Text.isHexDigit, Bool.or_eq_true, Bool.and_eq_true, decide_eq_true_eq,
      Char.le_def, UInt32.le_iff_toNat_le] at h
    rcases h with ⟨-, h⟩ | ⟨h, -⟩
    · exact Or.inl h
    · exact Or.inr h
  refine dif_neg ?_
  intro hupper
  have hlow : 65 ≤ d.toNat := UInt32.le_iff_toNat_le.mp hupper.1
  have hhigh : d.toNat ≤ 90 := UInt32.le_iff_toNat_le.mp hupper.2
  omega

theorem isAddress_lower {v : String} (h : isAddress v = true) :
    isAddress (String.ofList (v.toList.map Char.toLower)) = true ∧
      (v.toList.map Char.toLower).map Char.toLower = v.toList.map Char.toLower := by
  unfold isAddress at h
  split at h
  · rename_i ds hds
    rw [Bool.and_eq_true, List.all_eq_true, decide_eq_true_eq] at h
    obtain ⟨hhex, hlength⟩ := h
    have hlower : ∀ d ∈ ds, d.toLower.toLower = d.toLower := fun d hd =>
      toLower_of_isHexDigit (hhex d hd)
    have hzero : '0'.toLower = '0' := by decide
    have hx : 'x'.toLower = 'x' := by decide
    rw [hds, List.map_cons, List.map_cons, hzero, hx]
    constructor
    · rw [isAddress, String.toList_ofList]
      show ((ds.map Char.toLower).all (fun c => Text.isHexDigit c.toLower) &&
        decide ((ds.map Char.toLower).length = 40)) = true
      rw [Bool.and_eq_true, List.all_eq_true, decide_eq_true_eq, List.length_map]
      refine ⟨fun c hc => ?_, hlength⟩
      obtain ⟨d, hd, rfl⟩ := List.mem_map.mp hc
      rw [hlower d hd]
      exact hhex d hd
    · rw [List.map_cons, List.map_cons, hzero, hx, List.map_map]
      exact congrArg (fun l => '0' :: 'x' :: l) (List.map_congr_left hlower)
  · cases h

theorem address_again {value : Json} {r : String} (h : address value = .ok r) :
    address (.string r) = .ok r := by
  unfold address at h
  simp only [bind_eq_ok, ensure_eq_ok, pure_eq_ok] at h
  obtain ⟨v, hv, -, hne, rfl⟩ := h
  obtain ⟨hlower, hsame⟩ := isAddress_lower (text_eq_ok.mp hv).2
  have htext : text (.string (String.ofList (v.toList.map Char.toLower))) isAddress =
      .ok (String.ofList (v.toList.map Char.toLower)) := text_eq_ok.mpr ⟨rfl, hlower⟩
  unfold address
  simp only [htext, ok_bind, String.toList_ofList, hsame, ensure_of hne]
  rfl

theorem symbol_again {value : Json} {r : String} (h : symbol value = .ok r) :
    symbol (.string r) = .ok r :=
  text_eq_ok.mpr ⟨rfl, (text_eq_ok.mp h).2⟩

theorem validateSelection_again {s t : Selection} (h : validateSelection s = .ok t) :
    validateSelection t = .ok t := by
  unfold validateSelection at h
  simp only [bind_eq_ok, ensure_eq_ok, pure_eq_ok] at h
  obtain ⟨-, hchain, v, hsymbol, w, haddress, rfl⟩ := h
  rw [validateSelection, ensure_of hchain, symbol_again hsymbol, address_again haddress]
  rfl

theorem mapM_self {ε α : Type} {f : α → Except ε α} {items : List α}
    (h : ∀ item ∈ items, f item = .ok item) : items.mapM f = .ok items := by
  induction items with
  | nil => rfl
  | cons item rest ih =>
      rw [List.mapM_cons, h item List.mem_cons_self, ok_bind,
        ih fun other hother => h other (List.mem_cons_of_mem _ hother)]
      rfl

/-- What a policy is read to is a policy that is read to itself. -/
structure Parsed (policy : BatchPolicy) : Prop where
  again : parseBatchPolicy policy = .ok policy
  selections : ∀ s ∈ policy.selections, validateSelection s = .ok s
  maxAge : isSafeInteger policy.maxAgeMs = true ∧ 0 < policy.maxAgeMs

theorem parseBatchPolicy_parsed {p policy : BatchPolicy} (h : parseBatchPolicy p = .ok policy) :
    Parsed policy := by
  unfold parseBatchPolicy at h
  simp only [bind_eq_ok, ensure_eq_ok, pure_eq_ok] at h
  obtain ⟨-, hcount, selections, hselections, -, hids, -, hsymbols, -, hchains, _, hspan, _,
    hlimit, _, hage, _, hskew, rfl⟩ := h
  have hself : ∀ s ∈ selections, validateSelection s = .ok s := by
    intro s hs
    obtain ⟨_, -, hread⟩ := mapM_mem hselections hs
    exact validateSelection_again hread
  refine ⟨?_, hself, ?_⟩
  · rw [parseBatchPolicy, mapM_self hself, mapM_length hselections, ensure_of hcount, ok_bind,
      ok_bind, ensure_of hids, ensure_of hsymbols, ensure_of hchains, hspan, ensure_of hlimit, hage,
      hskew]
    rfl
  · unfold batchInteger at hage
    rw [ensure_eq_ok] at hage
    exact ⟨hage.1, Int.lt_of_lt_of_le Int.zero_lt_one hage.2⟩

/-! ## Receipts -/

section Receipts

variable {jsonParse : String → Option Json} {sha256 : String → String}

theorem readBody_size {bytes out : ByteArray} {parts : List Part}
    (h : readBody bytes parts = .ok out) (hbytes : bytes.size ≤ maxBytes) :
    out.size ≤ maxBytes := by
  induction parts generalizing bytes with
  | nil =>
      cases h
      exact hbytes
  | cons part rest ih =>
      cases part with
      | failed message => cases h
      | chunk value =>
          simp only [readBody, bind_eq_ok, ensure_eq_ok] at h
          obtain ⟨-, hsize, h⟩ := h
          exact ih h (by rw [ByteArray.size_append]; exact hsize)

/-- A body has as many bytes as were read. -/
theorem fetchBody_size {reply : Reply} {body : String} (h : fetchBody reply = .ok body) :
    body.utf8ByteSize ≤ maxBytes := by
  cases reply with
  | failed aborted => cases aborted <;> cases h
  | response r =>
      simp only [fetchBody, bind_eq_ok, ensure_eq_ok] at h
      obtain ⟨-, -, h⟩ := h
      split at h
      · cases h
      · simp only [bind_eq_ok] at h
        obtain ⟨bytes, hbytes, h⟩ := h
        have hsize := readBody_size hbytes (by decide)
        unfold decodeUtf8 at h
        split at h
        · rename_i decoded hdecoded
          cases h
          unfold String.fromUTF8? at hdecoded
          split at hdecoded
          · cases hdecoded
            exact hsize
          · cases hdecoded
        · cases h

theorem Receiving.bind_cases {α β : Type} {x : Receiving α} {f : α → Receiving β}
    {receipts sources : List SourceReceipt} {r : Except String β}
    (h : (x >>= f).run.run receipts = (r, sources)) :
    (∃ a middle, x.run.run receipts = (.ok a, middle) ∧ (f a).run.run middle = (r, sources)) ∨
      ∃ e, x.run.run receipts = (.error e, sources) ∧ r = .error e := by
  have hbind : (x >>= f).run.run receipts =
      match x.run.run receipts with
      | (.ok a, middle) => (f a).run.run middle
      | (.error e, middle) => (.error e, middle) := by
    show (ExceptT.bindCont f (x.run.run receipts).1 : StateM _ _) (x.run.run receipts).2 = _
    rcases x.run.run receipts with ⟨e | a, middle⟩ <;> rfl
  rw [hbind] at h
  rcases hx : x.run.run receipts with ⟨e | a, middle⟩
  · rw [hx] at h
    cases h
    exact Or.inr ⟨e, rfl, rfl⟩
  · rw [hx] at h
    exact Or.inl ⟨a, middle, rfl, h⟩

theorem inspectSources_append {urls : List String} {receipts : List SourceReceipt}
    {s : SourceReceipt} (h : inspectSources sha256 urls receipts = .ok ())
    (hurl : urls[receipts.length]? = some s.url) (hintact : intact sha256 s)
    (htime : timestamp s.receivedAt = .ok ()) :
    inspectSources sha256 urls (receipts ++ [s]) = .ok () := by
  induction receipts generalizing urls with
  | nil =>
      rw [List.length_nil, ← List.head?_eq_getElem?] at hurl
      rw [List.nil_append, inspectSources, ensure_of hurl, ensure_of hintact, htime]
      rfl
  | cons first rest ih =>
      simp only [inspectSources, bind_eq_ok, ensure_eq_ok] at h
      obtain ⟨-, hfirst, -, hkept, _, hclock, hrest⟩ := h
      rw [List.length_cons, ← List.getElem?_tail] at hurl
      rw [List.cons_append, inspectSources, ensure_of hfirst, ensure_of hkept, hclock]
      exact ih hrest hurl

/-- Receipts in order keep the order that a replay asks for. -/
theorem checkSources_of_inOrder {urls : List String} {previous : Int}
    {receipts : List SourceReceipt} (h : inspectSources sha256 urls receipts = .ok ())
    (horder : (previous :: receipts.map SourceReceipt.receivedAt).IsChain (· ≤ ·)) :
    checkSources sha256 urls previous receipts = .ok () := by
  induction receipts generalizing urls previous with
  | nil => rfl
  | cons first rest ih =>
      simp only [inspectSources, bind_eq_ok, ensure_eq_ok, timestamp] at h
      obtain ⟨-, hfirst, -, hkept, _, ⟨hsafe, hzero⟩, hrest⟩ := h
      rw [List.map_cons, List.isChain_cons_cons] at horder
      rw [checkSources, ensure_of hfirst, ensure_of hkept, ensure_of ⟨hsafe, hzero, horder.1⟩]
      exact ih hrest horder.2

/-- The first `k` requests of a capture have left these receipts. -/
def Upto (sha256 : String → String) (urls : List String) (k : Nat)
    (receipts : List SourceReceipt) : Prop :=
  receipts.length ≤ k ∧ inspectSources sha256 urls receipts = .ok ()

theorem Upto.mono {urls : List String} {k n : Nat} {receipts : List SourceReceipt}
    (h : Upto sha256 urls k receipts) (hle : k ≤ n) : Upto sha256 urls n receipts :=
  ⟨h.1.trans hle, h.2⟩

/-- A request leaves its receipt before its body is parsed, or no receipt. -/
theorem read_upto (urls : List String) {url : String} {x : Exchange}
    {receipts sources : List SourceReceipt} {r : Except String Json}
    (hurl : urls[receipts.length]? = some url)
    (hbefore : inspectSources sha256 urls receipts = .ok ())
    (h : (read jsonParse sha256 url x).run.run receipts = (r, sources)) :
    Upto sha256 urls (receipts.length + 1) sources ∧
      ∀ v, r = .ok v → ∃ s, sources = receipts ++ [s] ∧ jsonParse s.body = some v := by
  have hnone : Upto sha256 urls (receipts.length + 1) receipts := ⟨Nat.le_succ _, hbefore⟩
  cases hbody : fetchBody x.reply with
  | error e =>
      have hrun : (read jsonParse sha256 url x).run.run receipts = (.error e, receipts) := by
        unfold read
        rw [hbody]
        rfl
      rw [hrun] at h
      cases h
      exact ⟨hnone, fun v hv => by cases hv⟩
  | ok body =>
      by_cases hclock : isSafeInteger x.now = true ∧ 0 ≤ x.now
      · have hrun : (read jsonParse sha256 url x).run.run receipts =
            (parseBody jsonParse body,
              receipts ++ [{ url, receivedAt := x.now, body, sha256 := sha256 body }]) := by
          unfold read
          rw [hbody, ensure_of hclock]
          rfl
        rw [hrun] at h
        cases h
        refine ⟨⟨?_, ?_⟩, fun v hv => ⟨_, rfl, ?_⟩⟩
        · rw [List.length_append]
          exact Nat.le_refl _
        · exact inspectSources_append hbefore hurl ⟨fetchBody_size hbody, rfl⟩ (ensure_of hclock _)
        · unfold parseBody at hv
          split at hv
          · cases hv
            assumption
          · cases hv
      · have hrun : (read jsonParse sha256 url x).run.run receipts =
            (.error "INVALID_CLOCK", receipts) := by
          unfold read
          rw [hbody, ensure, if_neg hclock]
          rfl
        rw [hrun] at h
        cases h
        exact ⟨hnone, fun v hv => by cases hv⟩

theorem Receiving.lift_run {α : Type} (y : Except String α) (receipts : List SourceReceipt) :
    (liftM y : Receiving α).run.run receipts = (y, receipts) := by
  cases y <;> rfl

/-- What an observation was made of. -/
structure ObservedFrom (jsonParse : String → Option Json) (s : Selection) (maxAgeMs : Int)
    (stopped : Bool) (sources : List SourceReceipt) (o : ReferenceObservation) : Prop where
  made : ∃ before quote after first rawQuote last v w, sources = [before, quote, after] ∧
    jsonParse before.body = some v ∧ parseRegistry v = .ok first ∧
    jsonParse quote.body = some rawQuote ∧ jsonParse after.body = some w ∧
    parseRegistry w = .ok last ∧
    conclude first last rawQuote s maxAgeMs stopped sources = .ok o

theorem observe_upto {s : Selection} {maxAgeMs : Int} {a : Attempt} {sources : List SourceReceipt}
    {r : Except String ReferenceObservation}
    (h : (observe jsonParse sha256 s maxAgeMs a).run.run [] = (r, sources)) :
    Upto sha256 (sourceUrls s.symbol) 3 sources ∧ ∀ o, r = .ok o →
      ObservedFrom jsonParse s maxAgeMs (a.aborted || a.timedOut) sources o := by
  unfold observe at h
  rcases Receiving.bind_cases h with ⟨v, _, hread, h⟩ | ⟨e, hread, rfl⟩
  rotate_left
  · exact ⟨(read_upto _ rfl rfl hread).1.mono (by decide), fun o ho => by cases ho⟩
  obtain ⟨⟨-, hbefore⟩, hok⟩ := read_upto (sourceUrls s.symbol) rfl rfl hread
  obtain ⟨before, rfl, hv⟩ := hok v rfl
  rcases Receiving.bind_cases h with ⟨first, _, hfirst, h⟩ | ⟨e, hfirst, rfl⟩
  rotate_left
  · rw [Receiving.lift_run] at hfirst
    cases (Prod.mk.inj hfirst).2
    exact ⟨⟨by simp, hbefore⟩, fun o ho => by cases ho⟩
  rw [Receiving.lift_run] at hfirst
  obtain ⟨hregistry, rfl⟩ := Prod.mk.inj hfirst
  rcases Receiving.bind_cases h with ⟨rawQuote, _, hread, h⟩ | ⟨e, hread, rfl⟩
  rotate_left
  · exact ⟨(read_upto _ rfl hbefore hread).1.mono (by simp), fun o ho => by cases ho⟩
  obtain ⟨⟨-, hquote⟩, hok⟩ := read_upto (sourceUrls s.symbol) rfl hbefore hread
  obtain ⟨quote, rfl, hraw⟩ := hok rawQuote rfl
  rcases Receiving.bind_cases h with ⟨w, _, hread, h⟩ | ⟨e, hread, rfl⟩
  rotate_left
  · exact ⟨(read_upto _ rfl hquote hread).1, fun o ho => by cases ho⟩
  obtain ⟨hafter, hok⟩ := read_upto (sourceUrls s.symbol) rfl hquote hread
  obtain ⟨after, rfl, hw⟩ := hok w rfl
  rcases Receiving.bind_cases h with ⟨last, _, hlast, h⟩ | ⟨e, hlast, rfl⟩
  rotate_left
  · rw [Receiving.lift_run] at hlast
    cases (Prod.mk.inj hlast).2
    exact ⟨hafter, fun o ho => by cases ho⟩
  rw [Receiving.lift_run] at hlast
  obtain ⟨hagain, rfl⟩ := Prod.mk.inj hlast
  have hend : (conclude first last rawQuote s maxAgeMs (a.aborted || a.timedOut)
      [before, quote, after], [before, quote, after]) = (r, sources) := by
    rw [← h]
    exact (Receiving.lift_run _ _).symm
  obtain ⟨hr, rfl⟩ := Prod.mk.inj hend
  exact ⟨hafter, fun o ho => ⟨before, quote, after, first, rawQuote, last, v, w, rfl, hv,
    hregistry, hraw, hw, hagain, hr.trans ho⟩⟩

theorem isReason_rejection (aborted timedOut : Bool) (message : String) :
    isReason (rejection aborted timedOut message) = true := by
  unfold rejection
  split
  · decide
  · split
    · decide
    · split
      · assumption
      · decide

/-- The receipts of an observation replay to it. -/
theorem replayReference_of_observed {s : Selection} {maxAgeMs : Int} {stopped : Bool}
    {sources : List SourceReceipt} {o : ReferenceObservation}
    (hs : validateSelection s = .ok s) (hage : isSafeInteger maxAgeMs = true ∧ 0 < maxAgeMs)
    (hsources : inspectSources sha256 (sourceUrls s.symbol) sources = .ok ())
    (h : ObservedFrom jsonParse s maxAgeMs stopped sources o) :
    replayReference jsonParse sha256 {
      status := .accepted, reason := none, selection := s, maxAgeMs, sources
      observation := some o } = .ok o := by
  obtain ⟨before, quote, after, first, rawQuote, last, v, w, rfl, hv, hfirst, hraw, hw, hlast,
    h⟩ := h.made
  simp only [conclude, List.getElem?_cons_succ, List.getElem?_cons_zero, bind_eq_ok, ensure_eq_ok,
    pure_eq_ok] at h
  obtain ⟨-, horder, a, ha, b, hb, -, rfl, -, -, rfl⟩ := h
  have hzero : 0 ≤ before.receivedAt := by
    simp only [inspectSources, bind_eq_ok, ensure_eq_ok, timestamp] at hsources
    obtain ⟨-, -, -, -, _, ⟨-, hzero⟩, -⟩ := hsources
    exact hzero
  have hcheck : checkSources sha256 (sourceUrls s.symbol) 0 [before, quote, after] = .ok () :=
    checkSources_of_inOrder hsources (List.isChain_cons_cons.mpr ⟨hzero, horder⟩)
  have hbefore : parsed jsonParse before.body = .ok v := by rw [parsed, hv]
  have hquote : parsed jsonParse quote.body = .ok rawQuote := by rw [parsed, hraw]
  have hafter : parsed jsonParse after.body = .ok w := by rw [parsed, hw]
  rw [replayReference, ensure_of ⟨rfl, rfl⟩, ok_bind, hs, ok_bind, ensure_of hage, ok_bind]
  show (do
    checkSources sha256 (sourceUrls s.symbol) 0 [before, quote, after]
    let x ← normalizeReference (← parseRegistry (← parsed jsonParse before.body))
      (← parsed jsonParse quote.body) s after.receivedAt maxAgeMs
    let y ← normalizeReference (← parseRegistry (← parsed jsonParse after.body))
      (← parsed jsonParse quote.body) s after.receivedAt maxAgeMs
    ensure (x = y) "REGISTRY_CHANGED_DURING_CAPTURE"
    ensure (some a = some y) "OBSERVATION_MISMATCH"
    return y : Except String ReferenceObservation) = .ok a
  rw [hcheck, ok_bind, hbefore, ok_bind, hfirst, ok_bind, hquote, ok_bind, ha, ok_bind, hafter,
    ok_bind, hlast, ok_bind, ok_bind, hb, ok_bind, ensure_of rfl, ok_bind, ensure_of rfl]
  rfl

/-- How a capture ends: accepted with what its receipts replay to, or rejected. -/
structure Ended (jsonParse : String → Option Json) (sha256 : String → String) (s : Selection)
    (maxAgeMs : Int) (c : ReferenceCapture) : Prop where
  selection : c.selection = s
  maxAge : c.maxAgeMs = maxAgeMs
  sources : Upto sha256 (sourceUrls s.symbol) 3 c.sources
  outcome : (c.status = .accepted ∧ ∃ o, replayReference jsonParse sha256 c = .ok o) ∨
    (c.status = .rejected ∧ c.observation = none ∧ c.reason.any isReason = true)

theorem captureReference_ended {s : Selection} {maxAgeMs : Int} (a : Attempt)
    (hs : validateSelection s = .ok s) (hage : isSafeInteger maxAgeMs = true ∧ 0 < maxAgeMs) :
    Ended jsonParse sha256 s maxAgeMs (captureReference jsonParse sha256 s maxAgeMs a) := by
  rcases hobserve : (observe jsonParse sha256 s maxAgeMs a).run.run [] with ⟨e | o, sources⟩
  · have hcapture : captureReference jsonParse sha256 s maxAgeMs a = {
        status := .rejected, reason := some (rejection a.aborted a.timedOut e), selection := s
        maxAgeMs, sources, observation := none } := by
      unfold captureReference
      rw [hs]
      simp only [if_pos hage, hobserve]
    rw [hcapture]
    exact ⟨rfl, rfl, (observe_upto hobserve).1, Or.inr ⟨rfl, rfl, isReason_rejection _ _ e⟩⟩
  · have hcapture : captureReference jsonParse sha256 s maxAgeMs a = {
        status := .accepted, reason := none, selection := s, maxAgeMs, sources
        observation := some o } := by
      unfold captureReference
      rw [hs]
      simp only [if_pos hage, hobserve]
    obtain ⟨hupto, hmade⟩ := observe_upto hobserve
    rw [hcapture]
    exact ⟨rfl, rfl, hupto, Or.inl ⟨rfl, o, replayReference_of_observed hs hage hupto.2
      (hmade o rfl)⟩⟩

/-! ## The batch -/

theorem inspectCapture_ended {policy : BatchPolicy} {i : Nat} {s : Selection}
    {c : ReferenceCapture} (h : Ended jsonParse sha256 s policy.maxAgeMs c)
    (hi : policy.selections[i]? = some s) :
    ∃ os, inspectCapture jsonParse sha256 policy i c = .ok os := by
  obtain ⟨rfl, hage, ⟨hcount, hsources⟩, houtcome⟩ := h
  unfold inspectCapture
  rw [ensure_of ⟨hi, hage⟩, ok_bind, ensure_of hcount, ok_bind, hsources, ok_bind]
  rcases houtcome with ⟨hstatus, o, ho⟩ | ⟨hstatus, hnone⟩
  · rw [hstatus]
    exact ⟨[o], by simp only [ho, ok_bind]; rfl⟩
  · rw [hstatus]
    exact ⟨[], by simp only [ensure_of hnone, ok_bind]; rfl⟩

theorem inspectCaptures_ended {policy : BatchPolicy} {capture : Selection → ReferenceCapture}
    (h : ∀ s ∈ policy.selections, Ended jsonParse sha256 s policy.maxAgeMs (capture s))
    {i : Nat} {rest : List Selection} (hrest : policy.selections.drop i = rest) :
    ∃ os, inspectCaptures jsonParse sha256 policy i (rest.map capture) = .ok os := by
  induction rest generalizing i with
  | nil => exact ⟨[], rfl⟩
  | cons s rest ih =>
      have hs : policy.selections[i]? = some s := by
        rw [← List.head?_drop, hrest]
        rfl
      have hnext : policy.selections.drop (i + 1) = rest := by
        rw [← List.tail_drop, hrest]
        rfl
      obtain ⟨first, hfirst⟩ := inspectCapture_ended (h s (List.mem_of_getElem? hs)) hs
      obtain ⟨others, hothers⟩ := ih hnext
      refine ⟨first ++ others, ?_⟩
      rw [List.map_cons, inspectCaptures, hfirst, ok_bind, hothers]
      rfl

/-- A batch that its policy, its clocks and its captures make inspectable. -/
theorem inspect_of {batch : ReferenceBatch} {os : List ReferenceObservation}
    (hpolicy : Parsed batch.policy) (hstart : timestamp batch.startedAt = .ok ())
    (hend : timestamp batch.completedAt = .ok ())
    (hcount : batch.captures.length ≤ batch.policy.selections.length)
    (hcaptures : inspectCaptures jsonParse sha256 batch.policy 0 batch.captures = .ok os) :
    inspect jsonParse sha256 batch = .ok (batch.policy, os) := by
  rw [inspect, hpolicy.again, ok_bind, hstart, ok_bind, hend, ok_bind, ensure_of hcount, ok_bind,
    hcaptures]
  rfl

/-- What a batch is worth: it validates, and replays to what it says it observed. -/
structure Valid (jsonParse : String → Option Json) (sha256 : String → String)
    (batch : ReferenceBatch) : Prop where
  validates : ∃ os, validateReferenceBatch jsonParse sha256 batch = .ok os
  replays : batch.status = .accepted → ∃ os, batch.observations = some os ∧
    replayReferenceBatch jsonParse sha256 batch = .ok os

theorem valid_of_rejected {batch : ReferenceBatch} {reason : String}
    {r : BatchPolicy × List ReferenceObservation} (h : inspect jsonParse sha256 batch = .ok r)
    (hstatus : batch.status = .rejected) (hnone : batch.observations = none)
    (hreason : batch.reason = some reason) (hform : isReason reason = true) :
    Valid jsonParse sha256 batch := by
  refine ⟨⟨none, ?_⟩, fun haccepted => ?_⟩
  · have hrejected : batch.observations = none ∧ batch.reason.any isReason = true := by
      rw [hreason]
      exact ⟨hnone, hform⟩
    unfold validateReferenceBatch
    rw [hstatus]
    simp only [h, ok_bind, ensure_of hrejected]
    rfl
  · rw [hstatus] at haccepted
    cases haccepted

theorem valid_of_derived {batch : ReferenceBatch} {os : List ReferenceObservation}
    (h : derive_ jsonParse sha256 batch = .ok os) (hstatus : batch.status = .accepted)
    (hreason : batch.reason = none) (hos : batch.observations = some os) :
    Valid jsonParse sha256 batch := by
  have hreplay : replayReferenceBatch jsonParse sha256 batch = .ok os := by
    rw [replayReferenceBatch, ensure_of ⟨hstatus, hreason⟩, ok_bind, h, ok_bind, ensure_of hos]
    rfl
  refine ⟨⟨some os, ?_⟩, fun _ => ⟨os, hos, hreplay⟩⟩
  unfold validateReferenceBatch
  rw [hstatus]
  simp only [hreplay, ok_bind]
  rfl

theorem settleBatch_valid {r : BatchRound} {batch : ReferenceBatch}
    {i : BatchPolicy × List ReferenceObservation} (h : inspect jsonParse sha256 batch = .ok i)
    (hstatus : batch.status = .rejected) (hreason : batch.reason = none)
    (hnone : batch.observations = none) :
    Valid jsonParse sha256 (settleBatch jsonParse sha256 r batch) := by
  unfold settleBatch
  split
  · exact valid_of_rejected h hstatus hnone rfl (by decide)
  · split
    · exact valid_of_rejected h hstatus hnone rfl (by decide)
    · split
      · exact valid_of_rejected h hstatus hnone rfl (by decide)
      · cases hderive : derive_ jsonParse sha256 batch with
        | ok os => exact valid_of_derived hderive rfl hreason rfl
        | error e =>
            refine valid_of_rejected h hstatus hnone rfl ?_
            split
            · assumption
            · decide

theorem captureReferenceBatch_valid {input policy : BatchPolicy} {r : BatchRound}
    (hpolicy : parseBatchPolicy input = .ok policy) (hstart : timestamp r.startedAt = .ok ())
    (hend : timestamp r.completedAt = .ok ()) :
    ∃ batch, captureReferenceBatch jsonParse sha256 input r = .ok batch ∧
      Valid jsonParse sha256 batch := by
  have hparsed := parseBatchPolicy_parsed hpolicy
  unfold captureReferenceBatch
  rw [hpolicy, ok_bind, hstart, ok_bind]
  by_cases hbefore : r.abortedBefore = true
  · refine ⟨_, if_pos hbefore, ?_⟩
    exact valid_of_rejected
      (inspect_of hparsed hstart hstart (Nat.zero_le _) rfl) rfl rfl rfl (by decide)
  · obtain ⟨os, hos⟩ := inspectCaptures_ended (i := 0)
      (fun s hs => @captureReference_ended jsonParse sha256 s _ (r.attempt s)
        (hparsed.selections s hs) hparsed.maxAge) List.drop_zero
    refine ⟨_, (if_neg hbefore).trans (by rw [hend, ok_bind]; rfl), ?_⟩
    exact settleBatch_valid (inspect_of hparsed hstart hend (Nat.le_of_eq (List.length_map _)) hos)
      rfl rfl rfl

end Receipts

end Reference
end AlphaForge
