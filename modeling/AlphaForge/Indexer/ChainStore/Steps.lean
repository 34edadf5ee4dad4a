/-
What one call does to the rows.

A recorded block gives every event a row: the canonical row that is there with the
same fingerprint, or one written over nothing or over an orphaned row with the same
payload.  No canonical row changes.  A rollback takes the mark off the canonical
rows of one contract from a block on.
-/
import AlphaForge.Indexer.ChainStore

namespace AlphaForge
namespace ChainStore

open Evm

variable {id : Int} {contract : Address} {s s' : Store}

/-! ## Checks that passed -/

theorem check_of {p : Prop} [Decidable p] (h : p) (code : String) : check p code = .ok () :=
  if_pos h

@[simp] theorem check_eq_ok {p : Prop} [Decidable p] {code : String} {u : Unit} :
    check p code = .ok u ↔ p := by
  unfold check
  by_cases h : p <;> simp [h]

@[simp] theorem safeNumber_eq_ok {value n : Int} :
    safeNumber value = .ok n ↔ (0 ≤ value ∧ value ≤ Json.maxSafeInteger) ∧ value = n := by
  simp [safeNumber]

@[simp] theorem chainId_eq_ok {value n : Int} :
    chainId value = .ok n ↔ (0 < value ∧ value ≤ Json.maxSafeInteger) ∧ value = n := by
  simp [chainId]

theorem boundedJson_eq_ok {value json : Json} :
    boundedJson value = .ok json ↔ value.text = some json ∧ json.byteLength ≤ 65536 := by
  unfold boundedJson
  cases h : value.text with
  | none => simp
  | some text =>
      simp only [bind_eq_ok, check_eq_ok, pure_eq_ok, Option.some.injEq, exists_const]
      constructor
      · rintro ⟨hlength, rfl⟩
        exact ⟨rfl, hlength⟩
      · rintro ⟨rfl, hlength⟩
        exact ⟨hlength, rfl⟩

/-! ## Fingerprints -/

/-- Two events have the same fingerprint. -/
def Same (fingerprint : IndexedChainEvent → Except String Json) (a b : IndexedChainEvent) : Prop :=
  ∃ json, fingerprint a = .ok json ∧ fingerprint b = .ok json

theorem compareRow_eq_ok {existing : EventKey × EventRow} {item : IndexedChainEvent} :
    compareRow existing item = .ok () ↔
      Same (if existing.2.canonical then eventFingerprint else eventPayloadFingerprint)
        (decodeEvent existing) item := by
  simp only [compareRow, bind_eq_ok, check_eq_ok, Same]
  constructor
  · rintro ⟨stored, hstored, supplied, hsupplied, rfl⟩
    exact ⟨stored, hstored, hsupplied⟩
  · rintro ⟨json, hstored, hsupplied⟩
    exact ⟨json, hstored, json, hsupplied, rfl⟩

theorem same_field {f : IndexedChainEvent → List (String × Json)} {a b : IndexedChainEvent}
    (h : Same (fun e => boundedJson (.object (f e))) a b)
    (hkeys : ((f a).map Prod.fst).Nodup) {k : String} {v w : Json} (hv : (k, v) ∈ f a)
    (hw : (k, w) ∈ f b) : v.text = w.text := by
  obtain ⟨json, ha, hb⟩ := h
  rw [boundedJson_eq_ok] at ha hb
  exact Json.text_object_agree ha.1 hb.1 hkeys hv hw

theorem fingerprint_keys (e : IndexedChainEvent) :
    ((placeFields e ++ payloadFields e).map Prod.fst).Nodup := by
  simp only [placeFields, payloadFields, List.cons_append, List.nil_append, List.map_cons,
    List.map_nil]
  decide

theorem payload_keys (e : IndexedChainEvent) : ((payloadFields e).map Prod.fst).Nodup := by
  have hkeys := fingerprint_keys e
  rw [List.map_append] at hkeys
  exact hkeys.of_append_right

theorem same_address {a b : IndexedChainEvent} (h : Same eventFingerprint a b) :
    a.address = b.address := by
  have hfield := same_field (f := fun e => placeFields e ++ payloadFields e) (k := "address") h
    (fingerprint_keys a) (v := .string (addressText a.address))
    (w := .string (addressText b.address)) (by simp [payloadFields]) (by simp [payloadFields])
  simp only [Json.text, Option.some.injEq, Json.string.injEq] at hfield
  exact addressText_injective hfield

theorem same_blockNumber {a b : IndexedChainEvent} (h : Same eventFingerprint a b)
    (ha : 0 ≤ a.blockNumber) (hb : 0 ≤ b.blockNumber) : a.blockNumber = b.blockNumber := by
  have hfield := same_field (f := fun e => placeFields e ++ payloadFields e)
    (k := "blockNumber") h (fingerprint_keys a) (v := .string (toString a.blockNumber))
    (w := .string (toString b.blockNumber)) (by simp [placeFields]) (by simp [placeFields])
  simp only [Json.text, Option.some.injEq, Json.string.injEq] at hfield
  obtain ⟨n, hn⟩ := Int.eq_ofNat_of_zero_le ha
  obtain ⟨m, hm⟩ := Int.eq_ofNat_of_zero_le hb
  rw [hn, hm] at hfield ⊢
  have hrepr : n.repr = m.repr := hfield
  rw [← Text.ofDecimal_repr n, hrepr, Text.ofDecimal_repr]

/-! ## The length of a fingerprint -/

theorem literalLength_plain {s : String} (h : ∀ d ∈ s.toList, Json.escapedLength d = 1) :
    Json.literalLength s = s.length + 2 := by
  have hmap : s.toList.map Json.escapedLength = List.replicate s.toList.length 1 :=
    List.map_eq_replicate_iff.mpr h
  rw [Json.literalLength, hmap, List.sum_replicate, String.length_toList]
  simp [Nat.add_comm]

theorem escapedLength_hexDigits {k n : Nat} :
    ∀ d ∈ Text.hexDigits k n, Json.escapedLength d = 1 := by
  induction k generalizing n with
  | zero => exact nofun
  | succ k ih =>
      intro d hd
      rw [Text.hexDigits, List.mem_append] at hd
      rcases hd with hd | hd
      · exact ih d hd
      · rw [List.mem_singleton.mp hd]
        have hlt : n % 16 < 16 := Nat.mod_lt n (by decide)
        generalize n % 16 = m at hlt
        interval_cases m <;> rfl

theorem literalLength_hexText (k n : Nat) : Json.literalLength (Text.hexText k n) = k + 4 := by
  rw [Text.hexText, literalLength_plain]
  · rw [String.length_ofList, List.length_cons, List.length_cons, Text.length_hexDigits]
  · rw [String.toList_ofList]
    intro d hd
    rcases List.mem_cons.mp hd with rfl | hd
    · rfl
    · rcases List.mem_cons.mp hd with rfl | hd
      · rfl
      · exact escapedLength_hexDigits d hd

theorem topicsJson_text (topics : List HexData) :
    (topicsJson topics).text = some (topicsJson topics) := by
  have hitems := Json.textItems_string (topics.map hexDataText)
  rw [List.map_map] at hitems
  simp only [topicsJson, Json.text, Option.bind_eq_bind]
  exact congrArg (fun items => items.bind fun texts => some (Json.array texts)) hitems

/-- An event whose data is its own text and that is not too long has a fingerprint. -/
theorem fingerprint_of_size {e : IndexedChainEvent}
    (htransaction : 0 ≤ e.transactionIndex ∧ e.transactionIndex ≤ Json.maxSafeInteger)
    (hlog : 0 ≤ e.logIndex ∧ e.logIndex ≤ Json.maxSafeInteger)
    (hdata : (Json.object e.normalizedData).text = some (.object e.normalizedData))
    (hsize : (Json.object (placeFields e ++ payloadFields e)).byteLength ≤ 65536) :
    ∃ json, eventFingerprint e = .ok json := by
  have hnumber : ∀ n : Int, 0 ≤ n ∧ n ≤ Json.maxSafeInteger →
      (Json.number n).text = some (.number n) := by
    intro n hn
    have hsafe : 0 ≤ Json.maxSafeInteger := by decide
    rw [Json.text, if_pos ⟨by omega, hn.2⟩]
  have hstring : ∀ v : String, (Json.string v).text = some (.string v) := fun _ => rfl
  have hbool : ∀ b : Bool, (Json.bool b).text = some (.bool b) := fun _ => rfl
  have hself : ∀ field ∈ placeFields e ++ payloadFields e, field.2.text = some field.2 := by
    simp only [placeFields, payloadFields, List.cons_append, List.nil_append, List.forall_mem_cons,
      hnumber _ htransaction, hnumber _ hlog, hdata, topicsJson_text, hstring, hbool, true_and]
    intro field hfield
    cases hfield
  refine ⟨_, boundedJson_eq_ok.mpr ⟨Json.text_object_self hself, ?_⟩⟩
  rwa [Json.byteLength_sortKeys]

/-- The payload of an event with a fingerprint has one too. -/
theorem payload_fingerprint {e : IndexedChainEvent} {json : Json}
    (h : eventFingerprint e = .ok json) : ∃ json, eventPayloadFingerprint e = .ok json := by
  rw [eventFingerprint, boundedJson_eq_ok] at h
  obtain ⟨htext, hsize⟩ := h
  simp only [Json.text, Option.bind_eq_bind, Option.bind_eq_some_iff, Json.textFields_append,
    Option.pure_def, Option.some.injEq] at htext
  obtain ⟨_, ⟨place, payload, _, hpayload, rfl⟩, rfl⟩ := htext
  refine ⟨.object (Json.sortKeys payload), boundedJson_eq_ok.mpr ⟨?_, ?_⟩⟩
  · rw [Json.text, hpayload]
    rfl
  · refine Nat.le_trans ?_ hsize
    rw [Json.byteLength_sortKeys, Json.byteLength_sortKeys, Json.byteLength, Json.byteLength,
      Json.fieldsLength_eq_sum, Json.fieldsLength_eq_sum, List.map_append, List.sum_append,
      List.length_append]
    omega

/-! ## The row of an event -/

theorem validateEvent_eq_ok {item : IndexedChainEvent} {block : ChainBlock}
    (h : validateEvent item id contract block = .ok ()) :
    item.address = contract ∧ item.blockNumber = block.number ∧
      ∃ json, eventFingerprint item = .ok json := by
  simp only [validateEvent, bind_eq_ok, check_eq_ok, pure_eq_ok] at h
  obtain ⟨_, ⟨_, haddress, hnumber, _⟩, json, hjson, _⟩ := h
  exact ⟨haddress, hnumber, json, hjson⟩

theorem eventRow_eq_ok {address : Address} {n : Int} {item : IndexedChainEvent} {row : EventRow}
    (h : eventRow address n item = .ok row) :
    row.contract = address ∧ row.blockNumber = n ∧
      row.transactionIndex = item.transactionIndex ∧ row.canonical = true := by
  simp only [eventRow, bind_eq_ok, pure_eq_ok] at h
  obtain ⟨_, _, _, _, rfl⟩ := h
  exact ⟨rfl, rfl, rfl, rfl⟩

/-- A row is read back as the event it was written for, with its data as text. -/
theorem decodeEvent_eventRow {item : IndexedChainEvent} {block : ChainBlock} {row : EventRow}
    (hvalid : validateEvent item id contract block = .ok ())
    (h : eventRow contract block.number item = .ok row) (canonical : Bool) :
    decodeEvent (eventKey id item, { row with canonical }) =
      { item with normalizedData := row.normalized } := by
  simp only [validateEvent, bind_eq_ok, check_eq_ok] at hvalid
  obtain ⟨_, ⟨rfl, rfl, hnumber, _, hremoved, _⟩, _⟩ := hvalid
  simp only [eventRow, bind_eq_ok, pure_eq_ok] at h
  obtain ⟨_, _, _, _, rfl⟩ := h
  simp only [decodeEvent, eventKey, ← hnumber, ← hremoved]

theorem eventRow_text {address : Address} {n : Int} {item : IndexedChainEvent} {row : EventRow}
    (h : eventRow address n item = .ok row) :
    (Json.object row.normalized).text = (Json.object item.normalizedData).text := by
  simp only [eventRow, bind_eq_ok, pure_eq_ok] at h
  obtain ⟨_, _, normalized, hnormalized, rfl⟩ := h
  obtain ⟨htext, _⟩ := boundedJson_eq_ok.mp hnormalized
  have hfields := htext
  simp only [Json.text, Option.bind_eq_bind, Option.bind_eq_some_iff, Option.pure_def,
    Option.some.injEq] at hfields
  obtain ⟨_, _, rfl⟩ := hfields
  rw [htext]
  exact Json.text_text _ htext

theorem fingerprint_normalized {item : IndexedChainEvent} {fields : List (String × Json)}
    (h : (Json.object fields).text = (Json.object item.normalizedData).text) :
    eventFingerprint { item with normalizedData := fields } = eventFingerprint item ∧
      eventPayloadFingerprint { item with normalizedData := fields } =
        eventPayloadFingerprint item := by
  have hbounded : ∀ a b : Json, a.text = b.text → boundedJson a = boundedJson b := by
    intro a b hab
    rw [boundedJson, boundedJson, hab]
  refine ⟨hbounded _ _ ?_, hbounded _ _ ?_⟩
  · exact Json.text_object_last h (placeFields item ++ (payloadFields item).dropLast)
      "normalizedData"
  · exact Json.text_object_last h (payloadFields item).dropLast "normalizedData"

/-- A row that was read has the fingerprints of the event it was written for. -/
theorem decodeEvent_fingerprint {item : IndexedChainEvent} {block : ChainBlock} {row : EventRow}
    (hvalid : validateEvent item id contract block = .ok ())
    (h : eventRow contract block.number item = .ok row) (canonical : Bool) :
    eventFingerprint (decodeEvent (eventKey id item, { row with canonical })) =
        eventFingerprint item ∧
      eventPayloadFingerprint (decodeEvent (eventKey id item, { row with canonical })) =
        eventPayloadFingerprint item := by
  rw [decodeEvent_eventRow hvalid h]
  exact fingerprint_normalized (eventRow_text h)

/-- A field of an event with a fingerprint can be stored. -/
theorem field_bounded {e : IndexedChainEvent} {json : Json} (h : eventFingerprint e = .ok json)
    {k : String} {v : Json} (hv : (k, v) ∈ placeFields e ++ payloadFields e) :
    ∃ text, boundedJson v = .ok text := by
  rw [eventFingerprint, boundedJson_eq_ok] at h
  obtain ⟨text, htext, hlength⟩ := Json.text_object_field h.1 hv
  exact ⟨text, boundedJson_eq_ok.mpr ⟨htext, Nat.le_trans hlength h.2⟩⟩

theorem eventRow_of_fingerprint {e : IndexedChainEvent} {json : Json}
    (h : eventFingerprint e = .ok json) (address : Address) (n : Int) :
    ∃ row, eventRow address n e = .ok row := by
  obtain ⟨topics, htopics⟩ := field_bounded h (k := "topics") (v := topicsJson e.topics)
    (by simp [payloadFields])
  obtain ⟨normalized, hnormalized⟩ := field_bounded h (k := "normalizedData")
    (v := .object e.normalizedData) (by simp [payloadFields])
  simp only [eventRow, htopics, hnormalized, ok_bind]
  exact ⟨_, rfl⟩

/-! ## The loop over the events of a block -/

/-- Nothing, or a row of an orphaned block with the same payload, stands under the key
of the event. -/
def Reusable (table : OrderedMap EventKey EventRow) (id : Int) (item : IndexedChainEvent) : Prop :=
  ∀ row, table.get? (eventKey id item) = some row → row.canonical = false ∧
    Same eventPayloadFingerprint (decodeEvent (eventKey id item, row)) item

/-- A canonical row with the same fingerprint stands for the event. -/
def Kept (table table' : OrderedMap EventKey EventRow) (id : Int) (item : IndexedChainEvent) :
    Prop :=
  ∃ row, table.get? (eventKey id item) = some row ∧ row.canonical = true ∧
    Same eventFingerprint (decodeEvent (eventKey id item, row)) item ∧
    table'.get? (eventKey id item) = some row

def Written (table table' : OrderedMap EventKey EventRow) (id : Int) (address : Address) (n : Int)
    (item : IndexedChainEvent) : Prop :=
  Reusable table id item ∧
    ∃ row, eventRow address n item = .ok row ∧ table'.get? (eventKey id item) = some row

variable {address : Address} {n : Int} {table out : OrderedMap EventKey EventRow × Nat}
  {item : IndexedChainEvent} {items : List IndexedChainEvent}

theorem recordEvent_ok (h : recordEvent id address n table item = .ok out) :
    (Kept table.1 out.1 id item ∧ out = table) ∨
      (Written table.1 out.1 id address n item ∧
        ∃ row, out.1 = table.1.set (eventKey id item) row) := by
  unfold recordEvent at h
  cases hrow : table.1.get? (eventKey id item) with
  | none =>
      simp only [hrow, bind_eq_ok, pure_eq_ok] at h
      obtain ⟨row, heventRow, rfl⟩ := h
      refine Or.inr ⟨⟨fun old hold => ?_, row, heventRow, OrderedMap.get?_set_self _ _ _⟩, row, rfl⟩
      rw [hrow] at hold
      cases hold
  | some existing =>
      simp only [hrow, bind_eq_ok] at h
      obtain ⟨_, hcompare, h⟩ := h
      rw [compareRow_eq_ok] at hcompare
      cases hcanonical : existing.canonical with
      | true =>
          simp only [hcanonical, if_true, Except.ok.injEq] at h hcompare
          subst h
          exact Or.inl ⟨⟨existing, hrow, hcanonical, hcompare, hrow⟩, rfl⟩
      | false =>
          simp only [hcanonical, Bool.false_eq_true, if_false, bind_eq_ok, pure_eq_ok] at h hcompare
          obtain ⟨row, heventRow, rfl⟩ := h
          refine Or.inr ⟨⟨fun old hold => ?_, row, heventRow, OrderedMap.get?_set_self _ _ _⟩,
            row, rfl⟩
          rw [hrow, Option.some.injEq] at hold
          rw [← hold]
          exact ⟨hcanonical, hcompare⟩

theorem recordEvent_of (hreusable : Reusable table.1 id item) {row : EventRow}
    (hrow : eventRow address n item = .ok row) :
    recordEvent id address n table item =
      .ok (table.1.set (eventKey id item) row, table.2 + 1) := by
  unfold recordEvent
  cases hold : table.1.get? (eventKey id item) with
  | none => simp only [hold, hrow, ok_bind, pure, Except.pure]
  | some existing =>
      obtain ⟨hcanonical, hsame⟩ := hreusable existing hold
      have hcompare : compareRow (eventKey id item, existing) item = .ok () := by
        rw [compareRow_eq_ok, hcanonical]
        exact hsame
      simp only [hold, hcompare, hcanonical, hrow, ok_bind, Bool.false_eq_true, if_false, pure,
        Except.pure]

/-- One turn of the loop leaves the rows under other keys. -/
theorem recordEvent_frame (h : recordEvent id address n table item = .ok out) {key : EventKey}
    (hkey : key ≠ eventKey id item) : out.1.get? key = table.1.get? key := by
  rcases recordEvent_ok h with ⟨_, rfl⟩ | ⟨_, row, heq⟩
  · rfl
  · rw [heq, OrderedMap.get?_set_of_ne hkey]

theorem recordEvent_keys (h : recordEvent id address n table item = .ok out)
    (hkeys : table.1.keys.Nodup) : out.1.keys.Nodup := by
  rcases recordEvent_ok h with ⟨_, rfl⟩ | ⟨_, row, heq⟩
  · exact hkeys
  · rw [heq]
    exact OrderedMap.nodup_keys_set hkeys

theorem reusable_congr {table table' : OrderedMap EventKey EventRow}
    (h : table'.get? (eventKey id item) = table.get? (eventKey id item)) :
    Reusable table' id item ↔ Reusable table id item := by
  simp only [Reusable, h]

theorem recordEvents_frame (h : items.foldlM (recordEvent id address n) table = .ok out)
    {key : EventKey} (hkey : key ∉ items.map (eventKey id)) :
    out.1.get? key = table.1.get? key := by
  induction items generalizing table with
  | nil =>
      simp only [List.foldlM_nil, pure_eq_ok] at h
      rw [h]
  | cons item rest ih =>
      simp only [List.foldlM_cons, bind_eq_ok] at h
      obtain ⟨mid, hitem, hrest⟩ := h
      rw [List.map_cons, List.mem_cons, not_or] at hkey
      rw [ih hrest hkey.2, recordEvent_frame hitem hkey.1]

theorem recordEvents_keys (h : items.foldlM (recordEvent id address n) table = .ok out)
    (hkeys : table.1.keys.Nodup) : out.1.keys.Nodup := by
  induction items generalizing table with
  | nil =>
      simp only [List.foldlM_nil, pure_eq_ok] at h
      rwa [← h]
  | cons item rest ih =>
      simp only [List.foldlM_cons, bind_eq_ok] at h
      obtain ⟨mid, hitem, hrest⟩ := h
      exact ih hrest (recordEvent_keys hitem hkeys)

/-- After the loop each event has a row, found or written. -/
theorem recordEvents_ok (h : items.foldlM (recordEvent id address n) table = .ok out)
    (hnodup : (items.map (eventKey id)).Nodup) :
    ∀ item ∈ items, Kept table.1 out.1 id item ∨ Written table.1 out.1 id address n item := by
  induction items generalizing table with
  | nil => simp
  | cons head rest ih =>
      simp only [List.foldlM_cons, bind_eq_ok] at h
      obtain ⟨mid, hhead, hrest⟩ := h
      rw [List.map_cons, List.nodup_cons] at hnodup
      intro item hitem
      rcases List.mem_cons.mp hitem with rfl | hitem
      · have hsame := recordEvents_frame hrest hnodup.1
        rcases recordEvent_ok hhead with ⟨hkept, _⟩ | ⟨hwritten, _⟩
        · exact Or.inl (by simpa only [Kept, hsame] using hkept)
        · exact Or.inr (by simpa only [Written, hsame] using hwritten)
      · have hne : eventKey id item ≠ eventKey id head := by
          intro heq
          exact hnodup.1 (heq ▸ List.mem_map_of_mem hitem)
        have hsame := recordEvent_frame hhead hne
        rcases ih hrest hnodup.2 item hitem with hkept | hwritten
        · exact Or.inl (by simpa only [Kept, hsame] using hkept)
        · exact Or.inr (by simpa only [Written, reusable_congr hsame] using hwritten)

theorem recordEvents_of (hnodup : (items.map (eventKey id)).Nodup)
    (h : ∀ item ∈ items, Reusable table.1 id item ∧ ∃ row, eventRow address n item = .ok row) :
    ∃ out, items.foldlM (recordEvent id address n) table = .ok out := by
  induction items generalizing table with
  | nil => exact ⟨table, rfl⟩
  | cons head rest ih =>
      rw [List.map_cons, List.nodup_cons] at hnodup
      obtain ⟨hreusable, row, hrow⟩ := h head List.mem_cons_self
      have hhead := recordEvent_of hreusable hrow
      have hlater : ∀ item ∈ rest, Reusable (table.1.set (eventKey id head) row) id item ∧
          ∃ row, eventRow address n item = .ok row := by
        intro item hitem
        obtain ⟨hitemReusable, hitemRow⟩ := h item (List.mem_cons_of_mem _ hitem)
        refine ⟨(reusable_congr (recordEvent_frame hhead fun heq => ?_)).mpr hitemReusable,
          hitemRow⟩
        exact hnodup.1 (heq ▸ List.mem_map_of_mem hitem)
      obtain ⟨out, hout⟩ := @ih (_, table.2 + 1) hnodup.2 hlater
      exact ⟨out, by rw [List.foldlM_cons, hhead, ok_bind, hout]⟩

/-! ## Refused events -/

/-- Every row can be compared. -/
def Stored (table : OrderedMap EventKey EventRow) : Prop :=
  ∀ key row, table.get? key = some row →
    ∃ json, eventFingerprint (decodeEvent (key, row)) = .ok json

theorem compareRow_conflict {existing : EventKey × EventRow}
    (hstored : ∃ json, eventFingerprint (decodeEvent existing) = .ok json)
    (hitem : ∃ json, eventFingerprint item = .ok json)
    (hnot : compareRow existing item ≠ .ok ()) :
    compareRow existing item = .error "CHAIN_EVENT_CONFLICT" := by
  obtain ⟨_, hstored⟩ := hstored
  obtain ⟨_, hitem⟩ := hitem
  obtain ⟨_, hstoredPayload⟩ := payload_fingerprint hstored
  obtain ⟨_, hitemPayload⟩ := payload_fingerprint hitem
  cases hcanonical : existing.2.canonical with
  | true =>
      simp only [compareRow, hcanonical, if_true, hstored, hitem, ok_bind, ne_eq,
        check_eq_ok] at hnot ⊢
      exact if_neg hnot
  | false =>
      simp only [compareRow, hcanonical, Bool.false_eq_true, if_false, hstoredPayload,
        hitemPayload, ok_bind, ne_eq, check_eq_ok] at hnot ⊢
      exact if_neg hnot

theorem recordEvent_refused (hstored : Stored table.1)
    (hitem : ∃ json, eventFingerprint item = .ok json) {e : String}
    (h : recordEvent id address n table item = .error e) : e = "CHAIN_EVENT_CONFLICT" := by
  obtain ⟨json, hjson⟩ := hitem
  obtain ⟨row, hrow⟩ := eventRow_of_fingerprint hjson address n
  unfold recordEvent at h
  cases hget : table.1.get? (eventKey id item) with
  | none =>
      simp only [hget, hrow, ok_bind] at h
      cases h
  | some existing =>
      simp only [hget] at h
      by_cases hcompare : compareRow (eventKey id item, existing) item = .ok ()
      · simp only [hcompare, hrow, ok_bind] at h
        split at h <;> cases h
      · rw [compareRow_conflict (hstored _ _ hget) ⟨json, hjson⟩ hcompare] at h
        exact (Except.error.inj h).symm

theorem recordEvent_stored {block : ChainBlock} (hstored : Stored table.1)
    (hvalid : validateEvent item id address block = .ok ())
    (h : recordEvent id address block.number table item = .ok out) : Stored out.1 := by
  intro key row hget
  by_cases hkey : key = eventKey id item
  · subst hkey
    rcases recordEvent_ok h with ⟨_, rfl⟩ | ⟨⟨_, row', hrow', hget'⟩, _⟩
    · exact hstored _ row hget
    · obtain rfl := Option.some.inj (hget.symm.trans hget')
      obtain ⟨_, _, json, hjson⟩ := validateEvent_eq_ok hvalid
      exact ⟨json, (decodeEvent_fingerprint hvalid hrow' row.canonical).1.trans hjson⟩
  · rw [recordEvent_frame h hkey] at hget
    exact hstored key row hget

theorem recordEvents_stored {block : ChainBlock} (hstored : Stored table.1)
    (hvalid : ∀ e ∈ items, validateEvent e id address block = .ok ())
    (h : items.foldlM (recordEvent id address block.number) table = .ok out) : Stored out.1 := by
  induction items generalizing table with
  | nil =>
      simp only [List.foldlM_nil, pure_eq_ok] at h
      rwa [← h]
  | cons item rest ih =>
      simp only [List.foldlM_cons, bind_eq_ok] at h
      obtain ⟨mid, hitem, hrest⟩ := h
      rw [List.forall_mem_cons] at hvalid
      exact ih (recordEvent_stored hstored hvalid.1 hitem) hvalid.2 hrest

theorem recordEvents_refused {block : ChainBlock} (hstored : Stored table.1)
    (hvalid : ∀ e ∈ items, validateEvent e id address block = .ok ()) {e : String}
    (h : items.foldlM (recordEvent id address block.number) table = .error e) :
    e = "CHAIN_EVENT_CONFLICT" := by
  induction items generalizing table with
  | nil => cases h
  | cons item rest ih =>
      rw [List.forall_mem_cons] at hvalid
      rw [List.foldlM_cons] at h
      cases hitem : recordEvent id address block.number table item with
      | error e' =>
          rw [hitem] at h
          obtain rfl := Except.error.inj h
          exact recordEvent_refused hstored (validateEvent_eq_ok hvalid.1).2.2 hitem
      | ok mid =>
          rw [hitem, ok_bind] at h
          exact ih (recordEvent_stored hstored hvalid.1 hitem) hvalid.2 h

/-! ## What a recorded block leaves -/

variable {r : Recording} {ownerToken : Option String}

theorem validateBlock_eq_ok {block : ChainBlock} {events sorted : List IndexedChainEvent}
    {syncTargetBlock : Option Int} :
    validateBlock id contract block events syncTargetBlock = .ok sorted ↔
      (0 ≤ block.number ∧ block.number ≤ Json.maxSafeInteger) ∧
      (0 ≤ block.timestamp ∧ events.length ≤ 10000) ∧
      (∀ target ∈ syncTargetBlock, block.number ≤ target) ∧
      (∀ e ∈ events, validateEvent e id contract block = .ok ()) ∧
      (events.map (eventKey id)).Nodup ∧ events.insertionSort suppliedOrder = sorted := by
  have hperm := (List.perm_insertionSort suppliedOrder events).map (eventKey id)
  simp only [validateBlock, bind_eq_ok, safeNumber_eq_ok, check_eq_ok, pure_eq_ok,
    List.forM_eq_forM, forM_eq_ok, hperm.nodup_iff]
  constructor
  · rintro ⟨_, ⟨hnumber, _⟩, _, hblock, _, htarget, _, hevents, _, hkeys, hsorted⟩
    exact ⟨hnumber, hblock, htarget, hevents, hkeys, hsorted⟩
  · rintro ⟨hnumber, hblock, htarget, hevents, hkeys, hsorted⟩
    exact ⟨_, ⟨hnumber, rfl⟩, (), hblock, (), htarget, (), hevents, (), hkeys, hsorted⟩

theorem step_record :
    step (.recordCanonicalBlock id contract r ownerToken) s = .ok s' ↔
      (0 < id ∧ id ≤ Json.maxSafeInteger) ∧
      ∃ sorted, validateBlock id contract r.block r.events r.syncTargetBlock = .ok sorted ∧
      s.leases.get? (id, contract) = ownerToken ∧
      ∃ blocks, admitBlock s id contract r.block sorted = .ok blocks ∧
      ∃ table, sorted.foldlM (recordEvent id contract r.block.number) (s.events, 0) = .ok table ∧
      ∃ checkpoints, setSyncTarget (advanceCheckpoint s.checkpoints id contract r.block) id contract
        r.syncTargetBlock = .ok checkpoints ∧
      { s with blocks, events := table.1, checkpoints } = s' := by
  simp only [step, recordCanonicalBlock, assertSyncOwner, bind_eq_ok, chainId_eq_ok, check_eq_ok,
    pure_eq_ok]
  constructor
  · rintro ⟨_, ⟨_, ⟨hid, rfl⟩, sorted, hsorted, _, howner, blocks, hblocks, table, htable,
      checkpoints, hcheckpoints, rfl⟩, rfl⟩
    exact ⟨hid, sorted, hsorted, howner, blocks, hblocks, table, htable, checkpoints, hcheckpoints,
      rfl⟩
  · rintro ⟨hid, sorted, hsorted, howner, blocks, hblocks, table, htable, checkpoints,
      hcheckpoints, rfl⟩
    exact ⟨_, ⟨_, ⟨hid, rfl⟩, sorted, hsorted, (), howner, blocks, hblocks, table, htable,
      checkpoints, hcheckpoints, rfl⟩, rfl⟩

theorem step_record_error {sorted : List IndexedChainEvent}
    {blocks : OrderedMap BlockKey BlockRow} {e : String}
    (hid : 0 < id ∧ id ≤ Json.maxSafeInteger)
    (hsorted : validateBlock id contract r.block r.events r.syncTargetBlock = .ok sorted)
    (howner : s.leases.get? (id, contract) = ownerToken)
    (hblocks : admitBlock s id contract r.block sorted = .ok blocks)
    (htable : sorted.foldlM (recordEvent id contract r.block.number) (s.events, 0) = .error e) :
    step (.recordCanonicalBlock id contract r ownerToken) s = .error e := by
  have hchain : chainId id = .ok id := chainId_eq_ok.mpr ⟨hid, rfl⟩
  simp only [step, recordCanonicalBlock, assertSyncOwner, hchain, hsorted, check, howner, if_true,
    hblocks, htable, ok_bind]
  rfl

/-- The rows of the events once the block is recorded. -/
structure Entered (id : Int) (contract : Address) (r : Recording) (s s' : Store) : Prop where
  valid : ∀ e ∈ r.events, validateEvent e id contract r.block = .ok ()
  entered : ∀ e ∈ r.events, Kept s.events s'.events id e ∨
    Written s.events s'.events id contract r.block.number e
  frame : ∀ key, key ∉ r.events.map (eventKey id) → s'.events.get? key = s.events.get? key
  keys : s.events.keys.Nodup → s'.events.keys.Nodup

theorem record_entered (h : step (.recordCanonicalBlock id contract r ownerToken) s = .ok s') :
    Entered id contract r s s' := by
  obtain ⟨_, sorted, hsorted, _, blocks, _, table, htable, _, _, rfl⟩ := step_record.mp h
  obtain ⟨_, _, _, hvalid, hnodup, rfl⟩ := validateBlock_eq_ok.mp hsorted
  have hperm := (List.perm_insertionSort suppliedOrder r.events).map (eventKey id)
  refine ⟨hvalid, fun e he => ?_, fun key hkey => ?_, fun hkeys => ?_⟩
  · exact recordEvents_ok htable (hperm.nodup_iff.mpr hnodup) e
      ((List.mem_insertionSort suppliedOrder).mpr he)
  · exact recordEvents_frame htable (fun hmem => hkey (hperm.mem_iff.mp hmem))
  · exact recordEvents_keys htable hkeys

/-- A canonical row is not touched. -/
theorem Entered.stays (h : Entered id contract r s s') {key : EventKey} {row : EventRow}
    (hrow : s.events.get? key = some row) (hcanonical : row.canonical = true) :
    s'.events.get? key = some row := by
  by_cases hkey : key ∈ r.events.map (eventKey id)
  · obtain ⟨e, he, rfl⟩ := List.mem_map.mp hkey
    rcases h.entered e he with ⟨old, hold, _, _, hnew⟩ | ⟨hreusable, _⟩
    · rw [hnew, ← hold, hrow]
    · have hnot := (hreusable row hrow).1
      rw [hcanonical] at hnot
      cases hnot
  · rw [h.frame key hkey, hrow]

/-- A row was there before or is written for one of the events. -/
theorem Entered.comes (h : Entered id contract r s s') {key : EventKey} {row : EventRow}
    (hrow : s'.events.get? key = some row) :
    s.events.get? key = some row ∨ ∃ e ∈ r.events, key = eventKey id e ∧
      Reusable s.events id e ∧ eventRow contract r.block.number e = .ok row := by
  by_cases hkey : key ∈ r.events.map (eventKey id)
  · obtain ⟨e, he, rfl⟩ := List.mem_map.mp hkey
    rcases h.entered e he with ⟨old, hold, _, _, hnew⟩ | ⟨hreusable, new, hnew, hget⟩
    · rw [hrow] at hnew
      exact Or.inl (hold.trans hnew.symm)
    · rw [hrow, Option.some.injEq] at hget
      exact Or.inr ⟨e, he, rfl, hreusable, hget ▸ hnew⟩
  · exact Or.inl ((h.frame key hkey).symm.trans hrow)

/-! ## Checkpoints -/

variable {checkpoints checkpoints' : OrderedMap (Int × Address) CheckpointRow} {block : ChainBlock}

theorem setSyncTarget_place {syncTargetBlock : Option Int}
    (h : setSyncTarget checkpoints id contract syncTargetBlock = .ok checkpoints')
    (key : Int × Address) :
    (checkpoints'.get? key).map CheckpointRow.place =
      (checkpoints.get? key).map CheckpointRow.place := by
  cases syncTargetBlock with
  | none =>
      rw [setSyncTarget, Except.ok.injEq] at h
      rw [h]
  | some target =>
      simp only [setSyncTarget, bind_eq_ok] at h
      obtain ⟨_, _, h⟩ := h
      cases hrow : checkpoints.get? (id, contract) with
      | none => simp only [hrow, reduceCtorEq] at h
      | some row =>
          simp only [hrow, pure_eq_ok] at h
          rw [← h]
          by_cases hkey : key = (id, contract)
          · rw [hkey, OrderedMap.get?_set_self, hrow]
            rfl
          · rw [OrderedMap.get?_set_of_ne hkey]

theorem setSyncTarget_of {syncTargetBlock : Option Int}
    (htarget : ∀ target ∈ syncTargetBlock, 0 ≤ target ∧ target ≤ Json.maxSafeInteger)
    (hrow : checkpoints.get? (id, contract) ≠ none) :
    ∃ checkpoints', setSyncTarget checkpoints id contract syncTargetBlock = .ok checkpoints' := by
  cases syncTargetBlock with
  | none => exact ⟨checkpoints, rfl⟩
  | some target =>
      obtain ⟨row, hrow⟩ := Option.ne_none_iff_exists'.mp hrow
      have hsafe : safeNumber target = .ok target :=
        safeNumber_eq_ok.mpr ⟨htarget target rfl, rfl⟩
      simp only [setSyncTarget, hsafe, ok_bind, hrow]
      exact ⟨_, rfl⟩

theorem advanceCheckpoint_of_ne {key : Int × Address} (hkey : key ≠ (id, contract)) :
    (advanceCheckpoint checkpoints id contract block).get? key = checkpoints.get? key := by
  unfold advanceCheckpoint
  split
  · exact OrderedMap.get?_set_of_ne hkey _ _
  · split
    · exact OrderedMap.get?_set_of_ne hkey _ _
    · rfl

/-- The checkpoint moves to a block beyond it. -/
theorem advanceCheckpoint_beyond
    (h : ∀ c ∈ (checkpoints.get? (id, contract)).map CheckpointRow.place,
      c.blockNumber < block.number) :
    ((advanceCheckpoint checkpoints id contract block).get? (id, contract)).map
        CheckpointRow.place = some ⟨block.number, block.hash⟩ := by
  unfold advanceCheckpoint
  cases hrow : checkpoints.get? (id, contract) with
  | none =>
      simp only [OrderedMap.get?_set_self]
      rfl
  | some row =>
      rw [hrow] at h
      have hlt : row.blockNumber < block.number := h row.place rfl
      simp only [if_pos hlt, OrderedMap.get?_set_self]
      rfl

theorem advanceCheckpoint_behind {c : ChainCheckpoint}
    (hrow : (checkpoints.get? (id, contract)).map CheckpointRow.place = some c)
    (h : block.number ≤ c.blockNumber) :
    advanceCheckpoint checkpoints id contract block = checkpoints := by
  obtain ⟨row, hget, rfl⟩ := Option.map_eq_some_iff.mp hrow
  have hnot : ¬ row.blockNumber < block.number := Int.not_lt.mpr h
  unfold advanceCheckpoint
  simp only [hget, if_neg hnot]

/-! ## Admitting a block -/

@[simp] theorem isCanonicalBlock_iff {e : BlockKey × BlockRow} :
    isCanonicalBlock id contract e = true ↔
      e.1.chainId = id ∧ e.1.contract = contract ∧ e.2.canonical = true := by
  simp [isCanonicalBlock]

@[simp] theorem isCanonicalEvent_iff {e : EventKey × EventRow} :
    isCanonicalEvent id contract e = true ↔
      e.1.chainId = id ∧ e.2.contract = contract ∧ e.2.canonical = true := by
  simp [isCanonicalEvent]

def blockKey (id : Int) (contract : Address) (block : ChainBlock) : BlockKey :=
  ⟨id, contract, block.number, block.hash⟩

theorem compareEvents_eq_ok {rows : List (EventKey × EventRow)}
    (h : compareEvents rows items = .ok ()) (hlength : rows.length = items.length) :
    ∀ e ∈ items, ∃ row ∈ rows, row.1.txHash = e.transactionHash ∧ row.1.logIndex = e.logIndex := by
  induction rows generalizing items with
  | nil =>
      rw [List.eq_nil_of_length_eq_zero hlength.symm]
      exact nofun
  | cons row rows ih =>
      cases items with
      | nil => exact nofun
      | cons e rest =>
          simp only [compareEvents, bind_eq_ok, check_eq_ok] at h
          obtain ⟨_, hkey, _, _, _, _, _, _, hrest⟩ := h
          intro e' he'
          rcases List.mem_cons.mp he' with rfl | he'
          · exact ⟨row, List.mem_cons_self, hkey⟩
          · obtain ⟨row', hrow', hkey'⟩ := ih hrest (Nat.succ.inj hlength) e' he'
            exact ⟨row', List.mem_cons_of_mem _ hrow', hkey'⟩

/-- A block is there, with a row for each event, or it is added after the checkpoint. -/
theorem admitBlock_eq_ok {blocks : OrderedMap BlockKey BlockRow}
    (h : admitBlock s id contract block items = .ok blocks) :
    ((∃ e, s.blocks.find? (fun e => isCanonicalBlock id contract e ∧ e.1.number = block.number) =
        some e) ∧ blocks = s.blocks ∧
      ∀ e ∈ items, ∃ row, (eventKey id e, row) ∈ s.events ∧ row.canonical = true) ∨
    (s.blocks.find? (fun e => isCanonicalBlock id contract e ∧ e.1.number = block.number) = none ∧
      (∀ c ∈ checkpointAt s id contract, c.blockNumber < block.number) ∧
      blocks = s.blocks.set (blockKey id contract block)
        ⟨block.parentHash, block.timestamp, items.length, true⟩) := by
  unfold admitBlock at h
  cases hfind : s.blocks.find?
      (fun e => isCanonicalBlock id contract e ∧ e.1.number = block.number) with
  | some found =>
      simp only [hfind, bind_eq_ok, check_eq_ok, pure_eq_ok] at h
      obtain ⟨_, _, _, _, _, hlength, _, hcompare, rfl⟩ := h
      refine Or.inl ⟨⟨found, rfl⟩, rfl, fun e he => ?_⟩
      obtain ⟨⟨key, row⟩, hrow, htx, hlog⟩ := compareEvents_eq_ok hcompare hlength e he
      rw [List.mem_insertionSort, List.mem_filter] at hrow
      simp only [decide_eq_true_eq, isCanonicalEvent_iff] at hrow
      have hkey : key = eventKey id e := by
        rw [eventKey, ← hrow.2.1.1, ← htx, ← hlog]
      exact ⟨row, hkey ▸ hrow.1, hrow.2.1.2.2⟩
  | none =>
      simp only [hfind, bind_eq_ok, check_eq_ok, pure_eq_ok] at h
      obtain ⟨_, _, _, hbeyond, rfl⟩ := h
      exact Or.inr ⟨rfl, hbeyond, rfl⟩

theorem admitBlock_of
    (hnone : s.blocks.find? (fun e => isCanonicalBlock id contract e ∧ e.1.number = block.number) =
      none)
    (hparent : ∀ c ∈ checkpointAt s id contract,
      block.number = c.blockNumber + 1 ∧ block.parentHash = c.blockHash)
    (items : List IndexedChainEvent) :
    ∃ blocks, admitBlock s id contract block items = .ok blocks := by
  refine ⟨s.blocks.set (blockKey id contract block)
    ⟨block.parentHash, block.timestamp, items.length, true⟩, ?_⟩
  unfold admitBlock
  simp only [hnone, bind_eq_ok, check_eq_ok, pure_eq_ok]
  refine ⟨(), ?_, (), fun c hc => ?_, rfl⟩
  · rintro ⟨c, hc, hnot⟩
    exact hnot (hparent c hc)
  · have hnumber := (hparent c hc).1
    omega

/-! ## Rolling back -/

variable {fromBlock : Int}

theorem step_rollback (h : step (.rollbackFromBlock id contract fromBlock ownerToken) s = .ok s') :
    s'.blocks = orphanBlocks id contract fromBlock s.blocks ∧
      s'.events = orphanEvents id contract fromBlock s.events ∧
      s'.checkpoints = restoreCheckpoint s.checkpoints id contract s'.blocks := by
  simp only [step, rollbackFromBlock, assertSyncOwner, bind_eq_ok, chainId_eq_ok, safeNumber_eq_ok,
    check_eq_ok, pure_eq_ok] at h
  obtain ⟨_, ⟨_, ⟨_, rfl⟩, _, ⟨_, rfl⟩, _, _, rfl⟩, rfl⟩ := h
  exact ⟨rfl, rfl, rfl⟩

/-- No call changes who holds a lease. -/
theorem step_leases {call : Call} (h : step call s = .ok s') : s'.leases = s.leases := by
  cases call with
  | recordCanonicalBlock id contract r ownerToken =>
      obtain ⟨_, _, _, _, _, _, _, _, _, _, rfl⟩ := step_record.mp h
      rfl
  | rollbackFromBlock id contract fromBlock ownerToken =>
      simp only [step, rollbackFromBlock, bind_eq_ok, pure_eq_ok] at h
      obtain ⟨_, ⟨_, _, _, _, _, _, rfl⟩, rfl⟩ := h
      rfl

theorem step_stored {call : Call} (hstored : Stored s.events) (h : step call s = .ok s') :
    Stored s'.events := by
  cases call with
  | recordCanonicalBlock id contract r ownerToken =>
      obtain ⟨_, _, hsorted, _, _, _, _, htable, _, _, rfl⟩ := step_record.mp h
      obtain ⟨_, _, _, hvalid, _, rfl⟩ := validateBlock_eq_ok.mp hsorted
      refine recordEvents_stored hstored (fun e he => hvalid e ?_) htable
      exact (List.mem_insertionSort suppliedOrder).mp he
  | rollbackFromBlock id contract fromBlock ownerToken =>
      obtain ⟨_, hevents, _⟩ := step_rollback h
      intro key row hget
      rw [hevents, orphanEvents, OrderedMap.get?_mapValues, Option.map_eq_some_iff] at hget
      obtain ⟨old, hold, rfl⟩ := hget
      -- What is read from a row does not depend on the mark.
      obtain ⟨json, hjson⟩ := hstored key old hold
      refine ⟨json, ?_⟩
      split <;> exact hjson

theorem step_rollback_of (hid : 0 < id ∧ id ≤ Json.maxSafeInteger)
    (hnumber : 0 ≤ fromBlock ∧ fromBlock ≤ Json.maxSafeInteger)
    (howner : s.leases.get? (id, contract) = ownerToken) :
    ∃ s', step (.rollbackFromBlock id contract fromBlock ownerToken) s = .ok s' := by
  have hchain : chainId id = .ok id := chainId_eq_ok.mpr ⟨hid, rfl⟩
  have hsafe : safeNumber fromBlock = .ok fromBlock := safeNumber_eq_ok.mpr ⟨hnumber, rfl⟩
  simp only [step, rollbackFromBlock, assertSyncOwner, hchain, hsafe, check, howner, if_true,
    ok_bind]
  exact ⟨_, rfl⟩

theorem orphanEvents_displaced {events : OrderedMap EventKey EventRow} {key : EventKey}
    {row : EventRow} (hrow : events.get? key = some row)
    (hdisplaced : displacedEvent id contract fromBlock (key, row)) :
    (orphanEvents id contract fromBlock events).get? key =
      some { row with canonical := false } := by
  rw [orphanEvents, OrderedMap.get?_mapValues, hrow, Option.map_some, if_pos hdisplaced]

variable {other : Int} {otherContract : Address}

/-- What a rollback of one contract's rows means for the canonical rows of another or
the same. -/
theorem canonical_after {found found' canonical : Prop} {chainId number : Int} {address : Address}
    (h : (found' ∧ canonical) ↔ found ∧ canonical ∧
      ¬ ((chainId = other ∧ address = otherContract ∧ canonical) ∧ fromBlock ≤ number)) :
    (found' ∧ chainId = id ∧ address = contract ∧ canonical) ↔
      (found ∧ chainId = id ∧ address = contract ∧ canonical) ∧
        ((id, contract) = (other, otherContract) → number < fromBlock) := by
  rw [Prod.mk.injEq]
  constructor
  · rintro ⟨hfound, rfl, rfl, hcanonical⟩
    obtain ⟨hbefore, _, hnot⟩ := h.mp ⟨hfound, hcanonical⟩
    refine ⟨⟨hbefore, rfl, rfl, hcanonical⟩, fun heq => Int.not_le.mp fun hle => ?_⟩
    exact hnot ⟨⟨heq.1, heq.2, hcanonical⟩, hle⟩
  · rintro ⟨⟨hfound, rfl, rfl, hcanonical⟩, hbelow⟩
    refine ⟨(h.mpr ⟨hfound, hcanonical, fun hdisplaced => ?_⟩).1, rfl, rfl, hcanonical⟩
    exact Int.not_lt.mpr hdisplaced.2 (hbelow ⟨hdisplaced.1.1, hdisplaced.1.2.1⟩)

theorem orphanBlocks_canonical {blocks : OrderedMap BlockKey BlockRow} {key : BlockKey}
    {row : BlockRow} :
    ((orphanBlocks other otherContract fromBlock blocks).get? key = some row ∧
        isCanonicalBlock id contract (key, row) = true) ↔
      (blocks.get? key = some row ∧ isCanonicalBlock id contract (key, row) = true) ∧
        ((id, contract) = (other, otherContract) → key.number < fromBlock) := by
  rw [isCanonicalBlock_iff]
  refine canonical_after ?_
  rw [← isCanonicalBlock_iff (e := (key, row))]
  exact OrderedMap.get?_clear BlockRow.canonical (fun _ => rfl)
    (fun key row => displacedBlock other otherContract fromBlock (key, row)) blocks

theorem orphanEvents_canonical {events : OrderedMap EventKey EventRow} {key : EventKey}
    {row : EventRow} :
    ((orphanEvents other otherContract fromBlock events).get? key = some row ∧
        isCanonicalEvent id contract (key, row) = true) ↔
      (events.get? key = some row ∧ isCanonicalEvent id contract (key, row) = true) ∧
        ((id, contract) = (other, otherContract) → row.blockNumber < fromBlock) := by
  rw [isCanonicalEvent_iff]
  refine canonical_after ?_
  rw [← isCanonicalEvent_iff (e := (key, row))]
  exact OrderedMap.get?_clear EventRow.canonical (fun _ => rfl)
    (fun key row => displacedEvent other otherContract fromBlock (key, row)) events

theorem restoreCheckpoint_of_ne {key : Int × Address} (hkey : key ≠ (id, contract))
    (blocks : OrderedMap BlockKey BlockRow) :
    (restoreCheckpoint checkpoints id contract blocks).get? key = checkpoints.get? key := by
  unfold restoreCheckpoint
  split
  · rw [OrderedMap.get?_mapValues]
    simp only [if_neg hkey, Option.map_id']
  · exact OrderedMap.get?_delete_of_ne hkey _

end ChainStore
end AlphaForge
