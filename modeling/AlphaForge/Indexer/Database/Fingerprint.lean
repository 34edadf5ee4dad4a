/-
The fingerprint of an operation, which the guarded save compares.

Two operations with the same fingerprint are the same: each field is in it under
its own key, and in a text that tells its values apart.  An operation of ordinary
size has one.
-/
import AlphaForge.Indexer.Database

namespace AlphaForge
namespace ChainStore

theorem hexDataText_injective {a b : HexData} (h : hexDataText a = hexDataText b) : a = b := by
  have hlist := String.ofList_injective h
  simp only [List.cons.injEq, true_and] at hlist
  clear h
  induction a generalizing b with
  | nil =>
      cases b with
      | nil => rfl
      | cons y ys =>
          have hlength := congrArg List.length hlist
          rw [List.flatMap_cons, List.length_append, Text.length_hexDigits, List.flatMap_nil,
            List.length_nil] at hlength
          omega
  | cons x xs ih =>
      cases b with
      | nil =>
          have hlength := congrArg List.length hlist
          rw [List.flatMap_cons, List.length_append, Text.length_hexDigits, List.flatMap_nil,
            List.length_nil] at hlength
          omega
      | cons y ys =>
          rw [List.flatMap_cons, List.flatMap_cons] at hlist
          obtain ⟨hhead, htail⟩ := List.append_inj hlist
            (by rw [Text.length_hexDigits, Text.length_hexDigits])
          have hbyte := Text.hexDigits_injective x.toNat_lt y.toNat_lt hhead
          rw [UInt8.toNat_inj.mp hbyte, ih htail]

end ChainStore

namespace Database

open Evm ChainStore Lifecycle

/-! ## Names -/

theorem readName_state (state : TransactionState) :
    readName states stateText (stateText state) = .ok state := by
  cases state <;> decide

theorem readName_receiptStatus (status : ReceiptStatus) :
    readName receiptStatuses receiptStatusText (receiptStatusText status) = .ok status := by
  cases status <;> decide

theorem readName_errorCode (code : OperationErrorCode) :
    readName errorCodes errorCodeText (errorCodeText code) = .ok code := by
  cases code <;> decide

/-- A text that reads back names one value. -/
theorem text_injective {α : Type} {values : List α} {text : α → String}
    (h : ∀ v, readName values text (text v) = .ok v) {a b : α} (heq : text a = text b) : a = b := by
  have ha := h a
  rw [heq, h b] at ha
  exact (Except.ok.inj ha).symm

/-! ## Telling operations apart -/

/-- The fields a fingerprint is made of. -/
def fingerprintFields (operation : ChainOperation) : List (String × Json) :=
  [("operationId", .string operation.operationId), ("chainId", .number operation.chainId),
    ("owner", .string (addressText operation.owner)),
    ("target", .string (addressText operation.target)),
    ("calldata", optionJson (fun d => .string (hexDataText d)) operation.calldata),
    ("state", .string (stateText operation.state)),
    ("txHash", optionJson (fun h => .string (digestText h)) operation.txHash),
    ("submittedAt", optionJson .string operation.submittedAt),
    ("blockNumber", optionJson (fun n => .string (toString n)) operation.blockNumber),
    ("blockHash", optionJson (fun h => .string (digestText h)) operation.blockHash),
    ("transactionIndex", optionJson .number operation.transactionIndex),
    ("receiptStatus", optionJson (fun r => .string (receiptStatusText r)) operation.receiptStatus),
    ("confirmations", .number operation.confirmations),
    ("replacementTxHash", optionJson (fun h => .string (digestText h))
      operation.replacementTxHash),
    ("canonical", .bool operation.canonical), ("reconciled", .bool operation.reconciled),
    ("confirmedAt", optionJson .string operation.confirmedAt),
    ("errorCode", optionJson (fun e => .string (errorCodeText e)) operation.errorCode)]

theorem digestText_injective {a b : Bytes32} (h : digestText a = digestText b) : a = b :=
  BitVec.eq_of_toNat_eq (Text.hexText_injective (Nat.lt_of_lt_of_eq a.isLt (by decide))
    (Nat.lt_of_lt_of_eq b.isLt (by decide)) h)

/-- Values that stay apart in their text. -/
def Apart {α : Type} (f : α → Json) : Prop :=
  ∀ a b t, (f a).text = some t → (f b).text = some t → a = b

theorem apart_string {α : Type} {g : α → String} (hg : ∀ {a b}, g a = g b → a = b) :
    Apart (fun a => .string (g a)) := by
  intro a b t ha hb
  have heq := ha.trans hb.symm
  simp only [Json.text, Option.some.injEq, Json.string.injEq] at heq
  exact hg heq

theorem apart_number : Apart .number := by
  intro a b t ha hb
  rw [Json.text] at ha hb
  split at ha
  · split at hb
    · exact Json.number.inj ((Option.some.inj ha).trans (Option.some.inj hb).symm)
    · cases hb
  · cases ha

theorem apart_bool : Apart .bool := by
  intro a b t ha hb
  have heq := ha.trans hb.symm
  simpa only [Json.text, Option.some.injEq, Json.bool.injEq] using heq

/-- A value that may be missing is apart from `null`, when no value is `null`. -/
theorem apart_option {α : Type} {f : α → Json} (hf : Apart f) (hnull : ∀ a, (f a).text ≠ some .null) :
    Apart (optionJson f) := by
  intro a b t ha hb
  cases a with
  | none =>
      cases b with
      | none => rfl
      | some b =>
          have heq := hb.trans ha.symm
          exact absurd heq (hnull b)
  | some a =>
      cases b with
      | none =>
          have heq := ha.trans hb.symm
          exact absurd heq (hnull a)
      | some b => rw [hf a b t ha hb]

theorem apart_option_string {α : Type} {g : α → String} (hg : ∀ {a b}, g a = g b → a = b) :
    Apart (optionJson (fun a => .string (g a))) :=
  apart_option (apart_string hg) (fun a h => by cases h)

theorem apart_option_number : Apart (optionJson .number) := by
  refine apart_option apart_number (fun a h => ?_)
  rw [Json.text] at h
  split at h <;> cases h

theorem operationFingerprint_injective {a b : ChainOperation} {json : Json}
    (ha : operationFingerprint a = .ok json) (hb : operationFingerprint b = .ok json) : a = b := by
  have hta : Json.text (.object (fingerprintFields a)) = some json := (boundedJson_eq_ok.mp ha).1
  have htb : Json.text (.object (fingerprintFields b)) = some json := (boundedJson_eq_ok.mp hb).1
  have hkeys : ((fingerprintFields a).map Prod.fst).Nodup := by
    simp only [fingerprintFields, List.map_cons, List.map_nil]
    decide
  -- one field of both, by its key
  have field : ∀ {α : Type} {f : α → Json} (k : String) {x y : α}, Apart f →
      (k, f x) ∈ fingerprintFields a → (k, f y) ∈ fingerprintFields b → x = y := by
    intro α f k x y hf hx hy
    obtain ⟨t, ht, _⟩ := Json.text_object_field hta hx
    have hagree := Json.text_object_agree hta htb hkeys hx hy
    exact hf x y t ht (hagree ▸ ht)
  have hid : a.operationId = b.operationId :=
    field "operationId" (apart_string (g := id) id) (by simp [fingerprintFields])
      (by simp [fingerprintFields])
  have hchain : a.chainId = b.chainId :=
    field "chainId" apart_number (by simp [fingerprintFields]) (by simp [fingerprintFields])
  have howner : a.owner = b.owner :=
    field "owner" (apart_string addressText_injective) (by simp [fingerprintFields])
      (by simp [fingerprintFields])
  have htarget : a.target = b.target :=
    field "target" (apart_string addressText_injective) (by simp [fingerprintFields])
      (by simp [fingerprintFields])
  have hcalldata : a.calldata = b.calldata :=
    field "calldata" (apart_option_string hexDataText_injective) (by simp [fingerprintFields])
      (by simp [fingerprintFields])
  have hstate : a.state = b.state :=
    field "state" (apart_string (text_injective readName_state)) (by simp [fingerprintFields])
      (by simp [fingerprintFields])
  have htxHash : a.txHash = b.txHash :=
    field "txHash" (apart_option_string digestText_injective) (by simp [fingerprintFields])
      (by simp [fingerprintFields])
  have hsubmittedAt : a.submittedAt = b.submittedAt :=
    field "submittedAt" (apart_option_string (g := id) id) (by simp [fingerprintFields])
      (by simp [fingerprintFields])
  have hblockNumber : a.blockNumber = b.blockNumber :=
    field "blockNumber" (apart_option_string Text.toString_int_injective)
      (by simp [fingerprintFields]) (by simp [fingerprintFields])
  have hblockHash : a.blockHash = b.blockHash :=
    field "blockHash" (apart_option_string digestText_injective) (by simp [fingerprintFields])
      (by simp [fingerprintFields])
  have hindex : a.transactionIndex = b.transactionIndex :=
    field "transactionIndex" apart_option_number (by simp [fingerprintFields])
      (by simp [fingerprintFields])
  have hreceipt : a.receiptStatus = b.receiptStatus :=
    field "receiptStatus" (apart_option_string (text_injective readName_receiptStatus))
      (by simp [fingerprintFields]) (by simp [fingerprintFields])
  have hconfirmations : a.confirmations = b.confirmations :=
    field "confirmations" apart_number (by simp [fingerprintFields]) (by simp [fingerprintFields])
  have hreplacement : a.replacementTxHash = b.replacementTxHash :=
    field "replacementTxHash" (apart_option_string digestText_injective)
      (by simp [fingerprintFields]) (by simp [fingerprintFields])
  have hcanonical : a.canonical = b.canonical :=
    field "canonical" apart_bool (by simp [fingerprintFields]) (by simp [fingerprintFields])
  have hreconciled : a.reconciled = b.reconciled :=
    field "reconciled" apart_bool (by simp [fingerprintFields]) (by simp [fingerprintFields])
  have hconfirmedAt : a.confirmedAt = b.confirmedAt :=
    field "confirmedAt" (apart_option_string (g := id) id) (by simp [fingerprintFields])
      (by simp [fingerprintFields])
  have herror : a.errorCode = b.errorCode :=
    field "errorCode" (apart_option_string (text_injective readName_errorCode))
      (by simp [fingerprintFields]) (by simp [fingerprintFields])
  clear field hkeys hta htb ha hb
  cases a
  cases b
  simp_all only

/-! ## Size -/

theorem escapedLength_le (d : Char) : Json.escapedLength d ≤ 6 := by
  unfold Json.escapedLength
  split
  · omega
  · split
    · omega
    · have hsize := Char.utf8Size_le_four d
      omega

theorem literalLength_le (s : String) : Json.literalLength s ≤ 2 + 6 * s.length := by
  have hsum : ∀ ds : List Char, (ds.map Json.escapedLength).sum ≤ 6 * ds.length := by
    intro ds
    induction ds with
    | nil => exact Nat.zero_le _
    | cons d ds ih =>
        have hd := escapedLength_le d
        rw [List.map_cons, List.sum_cons, List.length_cons]
        omega
  have hs := hsum s.toList
  rw [String.length_toList] at hs
  rw [Json.literalLength]
  omega

theorem length_hexDataText (data : HexData) : (hexDataText data).length = 2 + 2 * data.length := by
  have hflat : (data.flatMap (fun b => Text.hexDigits 2 b.toNat)).length = 2 * data.length := by
    induction data with
    | nil => rfl
    | cons b rest ih =>
        rw [List.flatMap_cons, List.length_append, ih, Text.length_hexDigits, List.length_cons]
        omega
  rw [hexDataText, String.length_ofList, List.length_cons, List.length_cons, hflat]
  omega

/-- A safe integer has at most sixteen digits and a sign. -/
theorem length_toString_le {n : Int} (h : isSafeInteger n) : (toString n).length ≤ 17 := by
  have hnat : ∀ m : Nat, (m : Int) ≤ Json.maxSafeInteger → m.repr.length ≤ 16 := by
    intro m hm
    have hlt : m < 10 ^ 16 := by
      have hmax : Json.maxSafeInteger = 2 ^ 53 - 1 := rfl
      omega
    rw [← String.length_toList, Nat.toList_repr]
    exact (Nat.length_toDigits_le_iff (by decide) (by decide)).mpr hlt
  obtain ⟨hlow, hhigh⟩ := h
  cases n with
  | ofNat m =>
      have hm := hnat m hhigh
      have htext : toString (Int.ofNat m) = m.repr := rfl
      rw [htext]
      omega
  | negSucc m =>
      have hm := hnat (m + 1) (by omega)
      have htext : toString (Int.negSucc m) = "-" ++ (m + 1).repr := rfl
      rw [htext, String.length_append]
      have hsign : "-".length = 1 := rfl
      omega

theorem fieldsLength_le {fields : List (String × Json)} {n : Nat}
    (h : ∀ field ∈ fields, Json.literalLength field.1 + 1 + field.2.byteLength ≤ n) :
    Json.fieldsLength fields ≤ fields.length * n := by
  induction fields with
  | nil => exact Nat.zero_le _
  | cons field rest ih =>
      obtain ⟨k, v⟩ := field
      rw [List.forall_mem_cons] at h
      have hrest := ih h.2
      have hfirst : Json.literalLength k + 1 + v.byteLength ≤ n := h.1
      rw [Json.fieldsLength, List.length_cons, Nat.succ_mul]
      omega

/-- An operation whose call is short and whose other texts are what they are in a
running system. -/
structure Compact (operation : ChainOperation) : Prop where
  calldata : ∀ data ∈ operation.calldata, data.length ≤ 4096
  submittedAt : ∀ time ∈ operation.submittedAt, time.length ≤ 100
  confirmedAt : ∀ time ∈ operation.confirmedAt, time.length ≤ 100
  blockNumber : ∀ number ∈ operation.blockNumber, number ≤ Json.maxSafeInteger

theorem length_operationId_le {id : String} (h : validOperationId id = true) : id.length ≤ 128 := by
  unfold validOperationId at h
  split at h
  · cases h
  · next d ds hlist =>
    simp only [Bool.and_eq_true, decide_eq_true_eq] at h
    rw [← String.length_toList, hlist, List.length_cons]
    omega

theorem byteLength_option_le {α : Type} {f : α → Json} {value : Option α} {n : Nat} (hn : 4 ≤ n)
    (h : ∀ v ∈ value, (f v).byteLength ≤ n) : (optionJson f value).byteLength ≤ n := by
  cases value with
  | none => exact hn
  | some v => exact h v rfl

theorem text_option {α : Type} {f : α → Json} {value : Option α}
    (h : ∀ v ∈ value, (f v).text = some (f v)) :
    (optionJson f value).text = some (optionJson f value) := by
  cases value with
  | none => rfl
  | some v => exact h v rfl

theorem text_number {n : Int} (h : isSafeInteger n) : (Json.number n).text = some (.number n) := by
  rw [Json.text]
  exact if_pos h

variable {validTime : String → Bool} {operation : ChainOperation}

theorem fingerprintFields_text (h : Sound validTime operation) :
    ∀ field ∈ fingerprintFields operation, field.2.text = some field.2 := by
  have hindex : ∀ n ∈ operation.transactionIndex, (Json.number n).text = some (.number n) := by
    intro n hn
    have hvalid := h.evidence
    rw [validateOperationEvidence, ensure_eq_ok] at hvalid
    have hsafe := hvalid.2
    rw [hn] at hsafe
    exact text_number hsafe.1
  simp only [fingerprintFields, List.forall_mem_cons, List.not_mem_nil, false_imp_iff,
    implies_true, and_true]
  exact ⟨rfl, text_number h.wellFormed.chainId.1, rfl, rfl, text_option (fun _ _ => rfl), rfl,
    text_option (fun _ _ => rfl), text_option (fun _ _ => rfl), text_option (fun _ _ => rfl),
    text_option (fun _ _ => rfl), text_option hindex, text_option (fun _ _ => rfl),
    text_number h.wellFormed.confirmations.1, text_option (fun _ _ => rfl), rfl, rfl,
    text_option (fun _ _ => rfl), text_option (fun _ _ => rfl)⟩

theorem fingerprintFields_length (h : Sound validTime operation) (hcompact : Compact operation) :
    (Json.object (fingerprintFields operation)).byteLength ≤ 65536 := by
  have hstring : ∀ (s : String) (n : Nat), s.length ≤ n → (Json.string s).byteLength ≤ 2 + 6 * n := by
    intro s n hs
    have hle := literalLength_le s
    rw [Json.byteLength]
    omega
  have hdigest : ∀ w : Bytes32, (Json.string (digestText w)).byteLength ≤ 770 := by
    intro w
    rw [Json.byteLength, digestText, literalLength_hexText]
    omega
  have haddress : ∀ a : Address, (Json.string (addressText a)).byteLength ≤ 770 := by
    intro a
    rw [Json.byteLength, addressText, literalLength_hexText]
    omega
  have htime : ∀ time : String, time.length ≤ 100 → (Json.string time).byteLength ≤ 770 :=
    fun time ht => (hstring time 100 ht).trans (by omega)
  have hnumber : ∀ n : Int, isSafeInteger n → (Json.number n).byteLength ≤ 770 :=
    fun n hn => (length_toString_le hn).trans (by omega)
  have hid : (Json.string operation.operationId).byteLength ≤ 770 :=
    hstring _ 128 (length_operationId_le h.wellFormed.operationId)
  have hstate : (Json.string (stateText operation.state)).byteLength ≤ 770 := by
    cases operation.state <;> decide
  have hreceipt : ∀ status : ReceiptStatus,
      (Json.string (receiptStatusText status)).byteLength ≤ 770 := by
    intro status
    cases status <;> decide
  have herror : ∀ code : OperationErrorCode,
      (Json.string (errorCodeText code)).byteLength ≤ 770 := by
    intro code
    cases code <;> decide
  have hbool : ∀ b : Bool, (Json.bool b).byteLength ≤ 770 := by decide
  have hblock : ∀ n ∈ operation.blockNumber, (Json.string (toString n)).byteLength ≤ 770 := by
    intro n hn
    have hlow := h.wellFormed.blockNumber n hn
    have hzero : (0 : Int) ≤ Json.maxSafeInteger := by decide
    exact (hstring _ 17 (length_toString_le ⟨by omega, hcompact.blockNumber n hn⟩)).trans (by omega)
  have hindex : ∀ n ∈ operation.transactionIndex, (Json.number n).byteLength ≤ 770 := by
    intro n hn
    have hvalid := h.evidence
    rw [validateOperationEvidence, ensure_eq_ok] at hvalid
    have hsafe := hvalid.2
    rw [hn] at hsafe
    exact hnumber n hsafe.1
  have hdata : (optionJson (fun d => .string (hexDataText d)) operation.calldata).byteLength ≤
      2 + 6 * 8194 := by
    refine byteLength_option_le (by omega) (fun data hmem => hstring _ _ ?_)
    have hle := hcompact.calldata data hmem
    rw [length_hexDataText]
    omega
  have hkeys : ∀ k ∈ (fingerprintFields operation).map Prod.fst, Json.literalLength k ≤ 20 := by
    simp only [fingerprintFields, List.map_cons, List.map_nil]
    decide
  have hvalues : ∀ field ∈ (fingerprintFields operation).eraseIdx 4, field.2.byteLength ≤ 770 := by
    simp only [fingerprintFields, List.eraseIdx_cons_succ, List.eraseIdx_cons_zero,
      List.forall_mem_cons, List.not_mem_nil, false_imp_iff, implies_true, and_true]
    exact ⟨hid, hnumber _ h.wellFormed.chainId.1, haddress _, haddress _, hstate,
      byteLength_option_le (by omega) (fun w _ => hdigest w),
      byteLength_option_le (by omega) (fun time ht => htime time (hcompact.submittedAt time ht)),
      byteLength_option_le (by omega) hblock,
      byteLength_option_le (by omega) (fun w _ => hdigest w),
      byteLength_option_le (by omega) hindex,
      byteLength_option_le (by omega) (fun status _ => hreceipt status),
      hnumber _ h.wellFormed.confirmations.1,
      byteLength_option_le (by omega) (fun w _ => hdigest w), hbool _, hbool _,
      byteLength_option_le (by omega) (fun time ht => htime time (hcompact.confirmedAt time ht)),
      byteLength_option_le (by omega) (fun code _ => herror code)⟩
  -- the call apart, the fields are short
  have hrest : Json.fieldsLength ((fingerprintFields operation).eraseIdx 4) ≤ 17 * 791 := by
    refine fieldsLength_le (n := 791) (fun field hfield => ?_)
    have hvalue := hvalues field hfield
    have hkey := hkeys field.1 (List.mem_map_of_mem (List.mem_of_mem_eraseIdx hfield))
    omega
  have hsplit : Json.fieldsLength (fingerprintFields operation) =
      Json.fieldsLength ((fingerprintFields operation).eraseIdx 4) +
        (Json.literalLength "calldata" + 1 +
          (optionJson (fun d => .string (hexDataText d)) operation.calldata).byteLength) := by
    simp only [fingerprintFields, List.eraseIdx_cons_succ, List.eraseIdx_cons_zero,
      Json.fieldsLength]
    omega
  have hkey : Json.literalLength "calldata" ≤ 20 := by decide
  have hcount : (fingerprintFields operation).length = 18 := rfl
  rw [Json.byteLength, hcount, hsplit]
  omega

theorem operationFingerprint_of (h : Sound validTime operation) (hcompact : Compact operation) :
    ∃ json, operationFingerprint operation = .ok json := by
  refine ⟨_, boundedJson_eq_ok.mpr
    ⟨Json.text_object_self (fingerprintFields_text h), ?_⟩⟩
  rw [Json.byteLength_sortKeys]
  exact fingerprintFields_length h hcompact

end Database
end AlphaForge
