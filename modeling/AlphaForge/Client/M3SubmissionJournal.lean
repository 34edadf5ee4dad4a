/-
The wallet submissions whose outcome is not known yet, `m3-submission-journal.ts`.

For each owner a browser keeps the transactions that it has a hash of, as one JSON text
in its storage, and asks the journal before it sends a transaction again.  What is
written is read back entry for entry, whatever the storage held before.

A stored text is kept as its length and the value that it parses to, `Json.unsupported`
for a text that is not JSON.  The storage of one deployment is a map from the owner,
which is all of a key that varies.
-/
import AlphaForge.Data.Json
import AlphaForge.Evm.Abi
import AlphaForge.Indexer.ChainRuntime
import AlphaForge.Indexer.ChainStore.Steps
import AlphaForge.Text.Hex

namespace AlphaForge
namespace M3SubmissionJournal

open Evm
open ChainRuntime (decodeM3VaultCalldata decodeM3StrategyPassCalldata)
open ChainStore (HexData hexDataText check)
open Lifecycle (validOperationId)

/-- The chain of every deployment. -/
def chainId : Int := 46630

structure PendingWalletSubmission where
  operationId : String
  chainId : Int
  owner : Address
  target : Address
  calldata : HexData
  txHash : Bytes32
  deriving DecidableEq

structure Context where
  vaultAddress : Address
  strategyPassAddress : Address

structure Stored where
  value : Json
  length : Nat
  deriving DecidableEq

/-- The texts by owner. -/
abbrev SubmissionStorage : Type := OrderedMap Address Stored

/-! ## Text -/

def rowJson (item : PendingWalletSubmission) : Json := .object [
  ("operationId", .string item.operationId),
  ("chainId", .number item.chainId),
  ("owner", .string (addressText item.owner)),
  ("target", .string (addressText item.target)),
  ("calldata", .string (hexDataText item.calldata)),
  ("txHash", .string (digestText item.txHash))]

/-- `JSON.stringify`. -/
def stringify (items : List PendingWalletSubmission) : Stored :=
  let value := Json.array (items.map rowJson)
  ⟨value, value.byteLength⟩

def rowKeys : List String := ["calldata", "chainId", "operationId", "owner", "target", "txHash"]

def textOf (row : List (String × Json)) (key : String) : Option String :=
  match row.lookup key with
  | some (.string v) => some v
  | _ => none

/-- The entry is one of the contract's: a call of the vault or a transfer of its pass. -/
def known (c : Context) (target : Address) (calldata : HexData) : Prop :=
  (target = c.vaultAddress ∧ (decodeM3VaultCalldata calldata).isSome = true) ∨
    (target = c.strategyPassAddress ∧ (decodeM3StrategyPassCalldata calldata).isSome = true)

instance (c : Context) (target : Address) (calldata : HexData) :
    Decidable (known c target calldata) := by
  unfold known; infer_instance

/-- The longest calldata has 138 characters. -/
def accepted (c : Context) (owner : Address) (parsed : PendingWalletSubmission) : Prop :=
  validOperationId parsed.operationId = true ∧ parsed.chainId = chainId ∧
    parsed.owner = owner ∧ 2 + 2 * parsed.calldata.length ≤ 138 ∧
    known c parsed.target parsed.calldata

instance (c : Context) (owner : Address) (parsed : PendingWalletSubmission) :
    Decidable (accepted c owner parsed) := by
  unfold accepted; infer_instance

def parseRow (c : Context) (owner : Address) : Json → Option PendingWalletSubmission
  | .object row => do
      guard ((row.map Prod.fst).insertionSort (· ≤ ·) = rowKeys)
      let operationId ← textOf row "operationId"
      guard (row.lookup "chainId" = some (.number chainId))
      let ownerValue ← Text.ofHexText 40 (← textOf row "owner")
      let target ← Text.ofHexText 40 (← textOf row "target")
      let calldata ← Text.ofHexData (← textOf row "calldata")
      let txHash ← Text.ofHexText 64 (← textOf row "txHash")
      let parsed : PendingWalletSubmission := {
        operationId
        chainId := chainId
        owner := BitVec.ofNat 160 ownerValue
        target := BitVec.ofNat 160 target
        calldata
        txHash := BitVec.ofNat 256 txHash }
      guard (accepted c owner parsed)
      return parsed
  | _ => none

/-- `ids` are those of the rows before. -/
def parseRows (c : Context) (owner : Address) :
    List String → List Json → Option (List PendingWalletSubmission)
  | _, [] => some []
  | ids, value :: rest => do
      let parsed ← parseRow c owner value
      guard (parsed.operationId ∉ ids)
      return parsed :: (← parseRows c owner (parsed.operationId :: ids) rest)

/-! ## The journal -/

section Journal

variable (c : Context)

def read (owner : Address) (storage : SubmissionStorage) :
    Except String (List PendingWalletSubmission) :=
  match storage.get? owner with
  | none => .ok []
  | some raw => do
      check (raw.length ≤ 65536) "M3_SUBMISSION_RECOVERY_INVALID"
      match raw.value with
      | .array values => do
          check (values.length ≤ 32) "M3_SUBMISSION_RECOVERY_INVALID"
          match parseRows c owner [] values with
          | some items => return items
          | none => .error "M3_SUBMISSION_RECOVERY_INVALID"
      | _ => .error "M3_SUBMISSION_RECOVERY_INVALID"

/-- The text is written, and has to be there afterwards. -/
def write (owner : Address) (items : List PendingWalletSubmission) (storage : SubmissionStorage) :
    Except String SubmissionStorage := do
  let bytes := stringify items
  let storage := storage.set owner bytes
  check (storage.get? owner = some bytes) "M3_SUBMISSION_RECOVERY_UNAVAILABLE"
  return storage

def assertWritable (owner target : Address) (calldata : HexData) (storage : SubmissionStorage) :
    Except String SubmissionStorage := do
  let pending ← read c owner storage
  check (∀ item ∈ pending, ¬ (item.target = target ∧ item.calldata = calldata))
    "M3_SUBMISSION_RECOVERY_REQUIRED"
  check (pending.length < 32) "M3_SUBMISSION_RECOVERY_FULL"
  write owner pending storage

def record (input : PendingWalletSubmission) (storage : SubmissionStorage) :
    Except String SubmissionStorage := do
  let previous ← read c input.owner storage
  let existing := previous.find? fun item => item.operationId = input.operationId
  check (∀ item ∈ existing, item = input) "M3_SUBMISSION_RECOVERY_INVALID"
  let entries := if existing.isSome then previous else previous ++ [input]
  check (entries.length ≤ 32) "M3_SUBMISSION_RECOVERY_FULL"
  write input.owner entries storage

def remove (input : PendingWalletSubmission) (storage : SubmissionStorage) :
    Except String SubmissionStorage := do
  let retained := (← read c input.owner storage).filter fun item =>
    item.operationId ≠ input.operationId
  return storage.set input.owner (stringify retained)

end Journal

/-! ## What is written is accepted -/

/-- Entries that the journal may hold for an owner. -/
structure Acceptable (c : Context) (owner : Address) (items : List PendingWalletSubmission) :
    Prop where
  few : items.length ≤ 32
  distinct : (items.map PendingWalletSubmission.operationId).Nodup
  each : ∀ item ∈ items, accepted c owner item

variable {c : Context} {owner : Address} {item : PendingWalletSubmission}
  {items : List PendingWalletSubmission} {storage storage' : SubmissionStorage}

theorem parseRow_accepted {value : Json} (h : parseRow c owner value = some item) :
    accepted c owner item := by
  cases value with
  | object row =>
      simp only [parseRow, Option.bind_eq_bind, Option.bind_eq_some_iff, Option.guard_eq_some',
        Option.pure_def, Option.some.injEq] at h
      obtain ⟨_, _, _, _, _, _, _, _, _, _, _, _, _, _, _, _, _, _, _, _, _, _, _, haccepted, rfl⟩ := h
      exact haccepted
  | _ => cases h

theorem ofHexData_hexDataText (data : HexData) : Text.ofHexData (hexDataText data) = some data := by
  have hdigits : Text.hexDigitsOf (hexDataText data) =
      some (data.flatMap fun b : UInt8 => Text.hexDigits 2 b.toNat) := by
    simp only [Text.hexDigitsOf, hexDataText, String.toList_ofList]
  rw [Text.ofHexData, hdigits]
  exact Text.hexPairs_digits data

theorem parseRow_rowJson (h : accepted c owner item) :
    parseRow c owner (rowJson item) = some item := by
  have howner : Text.ofHexText 40 (addressText item.owner) = some item.owner.toNat :=
    Text.ofHexText_hexText item.owner.isLt
  have htarget : Text.ofHexText 40 (addressText item.target) = some item.target.toNat :=
    Text.ofHexText_hexText item.target.isLt
  have hhash : Text.ofHexText 64 (digestText item.txHash) = some item.txHash.toNat :=
    Text.ofHexText_hexText item.txHash.isLt
  have hkeys : ["operationId", "chainId", "owner", "target", "calldata", "txHash"].insertionSort
      (· ≤ ·) = rowKeys := by decide
  simp only [parseRow, rowJson, List.map_cons, List.map_nil, hkeys]
  simp [textOf, List.lookup_cons, howner, htarget, hhash, ofHexData_hexDataText, h.2.1.symm, guard, h]

theorem parseRows_accepted {ids : List String} {values : List Json}
    (h : parseRows c owner ids values = some items) :
    items.length = values.length ∧ (items.map PendingWalletSubmission.operationId).Nodup ∧
      ∀ item ∈ items, accepted c owner item ∧ item.operationId ∉ ids := by
  induction values generalizing ids items with
  | nil =>
      obtain rfl := Option.some.inj h
      exact ⟨rfl, List.nodup_nil, fun item hitem => absurd hitem List.not_mem_nil⟩
  | cons value rest ih =>
      simp only [parseRows, Option.bind_eq_bind, Option.bind_eq_some_iff, Option.guard_eq_some',
        Option.pure_def, Option.some.injEq] at h
      obtain ⟨parsed, hparsed, _, hnew, later, hlater, rfl⟩ := h
      obtain ⟨hlength, hdistinct, heach⟩ := ih hlater
      refine ⟨?_, ?_, ?_⟩
      · rw [List.length_cons, List.length_cons, hlength]
      · rw [List.map_cons, List.nodup_cons]
        refine ⟨fun hin => ?_, hdistinct⟩
        obtain ⟨item, hitem, hid⟩ := List.mem_map.mp hin
        exact (heach item hitem).2 (hid ▸ List.mem_cons_self)
      · intro item hitem
        rcases List.mem_cons.mp hitem with rfl | hitem
        · exact ⟨parseRow_accepted hparsed, hnew⟩
        · exact ⟨(heach item hitem).1, fun hin => (heach item hitem).2 (List.mem_cons_of_mem _ hin)⟩

theorem parseRows_rowJson {ids : List String}
    (hdistinct : (items.map PendingWalletSubmission.operationId).Nodup)
    (heach : ∀ item ∈ items, accepted c owner item)
    (hnew : ∀ item ∈ items, item.operationId ∉ ids) :
    parseRows c owner ids (items.map rowJson) = some items := by
  induction items generalizing ids with
  | nil => rfl
  | cons item rest ih =>
      rw [List.map_cons, List.nodup_cons] at hdistinct
      have hrest : parseRows c owner (item.operationId :: ids) (rest.map rowJson) = some rest := by
        refine ih hdistinct.2 (fun x hx => heach x (List.mem_cons_of_mem _ hx)) fun x hx hin => ?_
        rcases List.mem_cons.mp hin with hid | hin
        · exact hdistinct.1 (List.mem_map.mpr ⟨x, hx, hid⟩)
        · exact hnew x (List.mem_cons_of_mem _ hx) hin
      rw [List.map_cons, parseRows, parseRow_rowJson (heach item List.mem_cons_self)]
      simp only [Option.bind_eq_bind, Option.bind_some, hrest, guard,
        if_pos (hnew item List.mem_cons_self), Option.pure_def]

/-! ## The length of the text -/

theorem escapedLength_identifier {d : Char} (h : d.isAlphanum = true ∨ d = '_' ∨ d = '-') :
    Json.escapedLength d = 1 := by
  rcases h with h | rfl | rfl
  · have hbounds : 48 ≤ d.toNat ∧ d.toNat ≤ 122 ∧ d.toNat ≠ 92 := by
      delta Char.isAlphanum Char.isAlpha Char.isUpper Char.isLower Char.isDigit at h
      simp only [Bool.or_eq_true, Bool.and_eq_true, decide_eq_true_eq, ge_iff_le,
        UInt32.le_iff_toNat_le] at h
      have hval : d.toNat = d.val.toNat := rfl
      simp at h
      omega
    have hquote : d ≠ '"' := fun hd => by
      rw [hd] at hbounds
      exact absurd hbounds.1 (by decide)
    have hslash : d ≠ '\\' := fun hd => by
      rw [hd] at hbounds
      exact absurd rfl hbounds.2.2
    have hcontrol : d.toNat ∉ [8, 9, 10, 12, 13] := by
      simp only [List.mem_cons, List.not_mem_nil, or_false, not_or]
      omega
    rw [Json.escapedLength, if_neg (by tauto), if_neg (by omega), Char.utf8Size, if_pos]
    show d.toNat ≤ 127
    omega
  · rfl
  · rfl

theorem literalLength_operationId {id : String} (h : validOperationId id = true) :
    Json.literalLength id ≤ 130 := by
  rw [validOperationId] at h
  split at h
  · cases h
  · next d ds hid =>
    simp only [Bool.and_eq_true, decide_eq_true_eq, List.all_eq_true, Bool.or_eq_true] at h
    obtain ⟨⟨hhead, hlength⟩, hrest⟩ := h
    rw [ChainStore.literalLength_plain]
    · rw [← String.length_toList, hid, List.length_cons]
      omega
    · intro x hx
      rw [hid] at hx
      rcases List.mem_cons.mp hx with rfl | hx
      · exact escapedLength_identifier (Or.inl hhead)
      · exact escapedLength_identifier (or_assoc.mp (hrest x hx))

theorem literalLength_hexDataText (data : HexData) :
    Json.literalLength (hexDataText data) = 2 * data.length + 4 := by
  have hdigits : (data.flatMap fun b : UInt8 => Text.hexDigits 2 b.toNat).length =
      2 * data.length := by
    induction data with
    | nil => rfl
    | cons b rest ih =>
        rw [List.flatMap_cons, List.length_append, ih, Text.length_hexDigits, List.length_cons]
        omega
  rw [hexDataText, ChainStore.literalLength_plain]
  · rw [String.length_ofList, List.length_cons, List.length_cons, hdigits]
  · rw [String.toList_ofList]
    intro d hd
    rcases List.mem_cons.mp hd with rfl | hd
    · rfl
    · rcases List.mem_cons.mp hd with rfl | hd
      · rfl
      · obtain ⟨b, _, hb⟩ := List.mem_flatMap.mp hd
        exact ChainStore.escapedLength_hexDigits d hb

theorem byteLength_rowJson (h : accepted c owner item) : (rowJson item).byteLength ≤ 600 := by
  have hid := literalLength_operationId h.1
  have hdata := literalLength_hexDataText item.calldata
  have hlength := h.2.2.2.1
  have hnumber : (toString item.chainId).length = 5 := by
    rw [h.2.1]
    rfl
  have hkeys : Json.literalLength "operationId" + Json.literalLength "chainId" +
      Json.literalLength "owner" + Json.literalLength "target" + Json.literalLength "calldata" +
      Json.literalLength "txHash" = 55 := by decide
  simp only [rowJson, Json.byteLength, Json.fieldsLength, addressText, digestText,
    ChainStore.literalLength_hexText, List.length_cons, List.length_nil]
  omega

theorem length_stringify (h : Acceptable c owner items) : (stringify items).length ≤ 65536 := by
  have hitems : ∀ rows : List PendingWalletSubmission, (∀ item ∈ rows, accepted c owner item) →
      Json.itemsLength (rows.map rowJson) ≤ 600 * rows.length := by
    intro rows hrows
    induction rows with
    | nil => exact Nat.le_refl 0
    | cons item rest ih =>
        have hitem := byteLength_rowJson (hrows item List.mem_cons_self)
        have hrest := ih fun x hx => hrows x (List.mem_cons_of_mem _ hx)
        rw [List.map_cons, Json.itemsLength, List.length_cons]
        omega
  have hlength := hitems items h.each
  have hfew := h.few
  show 2 + ((items.map rowJson).length - 1) + Json.itemsLength (items.map rowJson) ≤ 65536
  rw [List.length_map]
  omega

/-! ## The calls -/

theorem read_stringify (h : Acceptable c owner items)
    (hget : storage.get? owner = some (stringify items)) : read c owner storage = .ok items := by
  have hrows : parseRows c owner [] (items.map rowJson) = some items :=
    parseRows_rowJson h.distinct h.each fun _ _ => List.not_mem_nil
  have hfew : (items.map rowJson).length ≤ 32 := by
    rw [List.length_map]
    exact h.few
  rw [read, hget]
  show (do
    check ((stringify items).length ≤ 65536) "M3_SUBMISSION_RECOVERY_INVALID"
    check ((items.map rowJson).length ≤ 32) "M3_SUBMISSION_RECOVERY_INVALID"
    match parseRows c owner [] (items.map rowJson) with
    | some items => return items
    | none => .error "M3_SUBMISSION_RECOVERY_INVALID") = .ok items
  rw [ChainStore.check_of (length_stringify h), ChainStore.check_of hfew, hrows]
  rfl

theorem read_acceptable (h : read c owner storage = .ok items) : Acceptable c owner items := by
  rw [read] at h
  split at h
  · obtain rfl := Except.ok.inj h
    exact ⟨Nat.zero_le 32, List.nodup_nil, fun item hitem => absurd hitem List.not_mem_nil⟩
  · simp only [bind_eq_ok, ChainStore.check_eq_ok] at h
    obtain ⟨_, _, h⟩ := h
    split at h
    · next values hvalue =>
      simp only [bind_eq_ok, ChainStore.check_eq_ok] at h
      obtain ⟨_, hfew, h⟩ := h
      split at h
      · next parsed hparsed =>
        obtain rfl := Except.ok.inj h
        obtain ⟨hlength, hdistinct, heach⟩ := parseRows_accepted hparsed
        exact ⟨hlength ▸ hfew, hdistinct, fun item hitem => (heach item hitem).1⟩
      · cases h
    · cases h

/-- Reading depends on the owner's own text. -/
theorem read_congr (h : storage'.get? owner = storage.get? owner) :
    read c owner storage' = read c owner storage := by
  rw [read, read, h]

theorem write_spec (h : write owner items storage = .ok storage') :
    storage' = storage.set owner (stringify items) := by
  simp only [write, bind_eq_ok, ChainStore.check_eq_ok, pure_eq_ok] at h
  obtain ⟨_, _, rfl⟩ := h
  rfl

theorem assertWritable_spec {target : Address} {calldata : HexData}
    (h : assertWritable c owner target calldata storage = .ok storage') :
    ∃ pending, read c owner storage = .ok pending ∧
      (∀ item ∈ pending, ¬ (item.target = target ∧ item.calldata = calldata)) ∧
      storage' = storage.set owner (stringify pending) := by
  simp only [assertWritable, bind_eq_ok, ChainStore.check_eq_ok] at h
  obtain ⟨pending, hread, _, hnone, _, _, hwrite⟩ := h
  exact ⟨pending, hread, hnone, write_spec hwrite⟩

theorem record_spec {input : PendingWalletSubmission} (hinput : accepted c input.owner input)
    (h : record c input storage = .ok storage') :
    ∃ previous entries, read c input.owner storage = .ok previous ∧
      Acceptable c input.owner entries ∧ input ∈ entries ∧ (∀ item ∈ previous, item ∈ entries) ∧
      (∀ item ∈ entries, item ∈ previous ∨ item = input) ∧
      storage' = storage.set input.owner (stringify entries) := by
  simp only [record, bind_eq_ok, ChainStore.check_eq_ok] at h
  obtain ⟨previous, hread, _, hsame, _, hfew, hwrite⟩ := h
  have hprevious := read_acceptable hread
  cases hfound : previous.find? fun item => item.operationId = input.operationId with
  | some existing =>
      rw [hfound] at hsame hfew hwrite
      obtain rfl : existing = input := hsame existing rfl
      exact ⟨previous, previous, hread, hprevious, List.mem_of_find?_eq_some hfound,
        fun _ hitem => hitem, fun _ hitem => Or.inl hitem, write_spec hwrite⟩
  | none =>
      rw [hfound] at hfew hwrite
      have hnew : ∀ item ∈ previous, item.operationId ≠ input.operationId := fun item hitem heq =>
        List.find?_eq_none.mp hfound item hitem (decide_eq_true heq)
      refine ⟨previous, previous ++ [input], hread, ⟨hfew, ?_, ?_⟩,
        List.mem_append_right _ (List.mem_singleton.mpr rfl),
        fun _ hitem => List.mem_append_left _ hitem, ?_, write_spec hwrite⟩
      · rw [List.map_append, List.nodup_append]
        refine ⟨hprevious.distinct, List.pairwise_singleton _ _, ?_⟩
        intro a ha b hb
        obtain ⟨item, hitem, rfl⟩ := List.mem_map.mp ha
        rw [List.mem_singleton.mp hb]
        exact hnew item hitem
      · intro item hitem
        rcases List.mem_append.mp hitem with hitem | hitem
        · exact hprevious.each item hitem
        · rw [List.mem_singleton.mp hitem]
          exact hinput
      · intro item hitem
        rcases List.mem_append.mp hitem with hitem | hitem
        · exact Or.inl hitem
        · exact Or.inr (List.mem_singleton.mp hitem)

theorem remove_spec {input : PendingWalletSubmission} (h : remove c input storage = .ok storage') :
    ∃ previous, read c input.owner storage = .ok previous ∧
      storage' = storage.set input.owner (stringify (previous.filter fun item =>
        item.operationId ≠ input.operationId)) := by
  simp only [remove, bind_eq_ok, pure_eq_ok] at h
  obtain ⟨previous, hread, rfl⟩ := h
  exact ⟨previous, hread, rfl⟩

theorem Acceptable.filter (h : Acceptable c owner items) (p : PendingWalletSubmission → Bool) :
    Acceptable c owner (items.filter p) where
  few := Nat.le_trans (List.length_filter_le p items) h.few
  distinct := h.distinct.sublist (List.filter_sublist.map _)
  each item hitem := h.each item (List.mem_filter.mp hitem).1

end M3SubmissionJournal
end AlphaForge
