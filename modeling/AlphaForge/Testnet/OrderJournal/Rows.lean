/-
What an accepted call does to the rows of the order journal.

An intent that was validated is validated to itself, so a row gives back the
intent it holds.  `RowStep` lists what can happen to one row, and `Moves` what can
happen to the journal; every invariant of the journal is a case analysis on these.
-/
import AlphaForge.Testnet.OrderJournal

namespace AlphaForge
namespace OrderJournal

open Evm

/-! ## Lower case -/

def hexChars : List Char :=
  ['0', '1', '2', '3', '4', '5', '6', '7', '8', '9', 'a', 'b', 'c', 'd', 'e', 'f', 'A', 'B', 'C', 'D',
    'E', 'F']

theorem mem_hexChars {d : Char} (h : isHexAny d = true) : d ∈ hexChars := by
  have hof : Char.ofNat d.toNat = d := Char.ofNat_toNat d
  have hrange : (48 ≤ d.toNat ∧ d.toNat ≤ 57) ∨ (97 ≤ d.toNat ∧ d.toNat ≤ 102) ∨
      (65 ≤ d.toNat ∧ d.toNat ≤ 70) := by
    simp only [isHexAny, Bool.or_eq_true, Bool.and_eq_true, decide_eq_true_eq] at h
    rcases h with (h | h) | h
    · exact .inl h
    · exact .inr (.inl h)
    · exact .inr (.inr h)
  rw [← hof]
  generalize d.toNat = n at hrange
  rcases hrange with h | h | h
  · obtain ⟨hlow, hhigh⟩ := h
    interval_cases n <;> decide
  · obtain ⟨hlow, hhigh⟩ := h
    interval_cases n <;> decide
  · obtain ⟨hlow, hhigh⟩ := h
    interval_cases n <;> decide

/-- What lower case does to a digit. -/
structure Lowered (d : Char) : Prop where
  hex : isHexAny d.toLower = true
  again : d.toLower.toLower = d.toLower
  zero : d.toLower = '0' ↔ d = '0'
  small : ('A' ≤ d.toLower && d.toLower ≤ 'F') = false

instance (d : Char) : Decidable (Lowered d) :=
  decidable_of_iff (isHexAny d.toLower = true ∧ d.toLower.toLower = d.toLower ∧
      (d.toLower = '0' ↔ d = '0') ∧ ('A' ≤ d.toLower && d.toLower ≤ 'F') = false)
    ⟨fun h => ⟨h.1, h.2.1, h.2.2.1, h.2.2.2⟩, fun h => ⟨h.hex, h.again, h.zero, h.small⟩⟩

theorem lowered_hexChars : ∀ d ∈ hexChars, Lowered d := by
  have hall : hexChars.all (fun d => decide (Lowered d)) = true := by decide
  intro d hd
  exact of_decide_eq_true (List.all_eq_true.mp hall d hd)

theorem lowered {d : Char} (h : isHexAny d = true) : Lowered d := lowered_hexChars d (mem_hexChars h)

theorem isHexData_iff {least most : Nat} {v : String} : isHexData least most v = true ↔
    ∃ ds, v.toList = '0' :: 'x' :: ds ∧ least ≤ ds.length ∧ ds.length ≤ most ∧
      ∀ d ∈ ds, isHexAny d = true := by
  unfold isHexData
  split
  · next ds hv => simp [hv, and_assoc]
  · next hne =>
      constructor
      · intro h
        cases h
      · rintro ⟨ds, hv, _⟩
        exact absurd hv (hne ds)

theorem toList_lower {v : String} {ds : List Char} (h : v.toList = '0' :: 'x' :: ds) :
    (lower v).toList = '0' :: 'x' :: ds.map Char.toLower := by
  rw [lower, String.toList_ofList, h]
  rfl

theorem isHexData_lower {least most : Nat} {v : String} (h : isHexData least most v = true) :
    isHexData least most (lower v) = true := by
  obtain ⟨ds, hv, hleast, hmost, hall⟩ := isHexData_iff.mp h
  refine isHexData_iff.mpr ⟨_, toList_lower hv, ?_, ?_, ?_⟩
  · rw [List.length_map]
    exact hleast
  · rw [List.length_map]
    exact hmost
  · intro d hd
    obtain ⟨c, hc, rfl⟩ := List.mem_map.mp hd
    exact (lowered (hall c hc)).hex

theorem lower_lower {least most : Nat} {v : String} (h : isHexData least most v = true) :
    lower (lower v) = lower v := by
  obtain ⟨ds, hv, _, _, hall⟩ := isHexData_iff.mp h
  have htwice : (ds.map Char.toLower).map Char.toLower = ds.map Char.toLower := by
    rw [List.map_map]
    exact List.map_congr_left fun d hd => (lowered (hall d hd)).again
  rw [lower, toList_lower hv]
  show String.ofList ('0' :: 'x' :: (ds.map Char.toLower).map Char.toLower) = lower v
  rw [htwice, lower, hv]
  rfl

theorem isZeroData_lower {least most : Nat} {v : String} (h : isHexData least most v = true) :
    isZeroData (lower v) = isZeroData v := by
  obtain ⟨ds, hv, _, _, hall⟩ := isHexData_iff.mp h
  have hzeros : (ds.map Char.toLower).all (· = '0') = ds.all (· = '0') := by
    rw [List.all_map, Bool.eq_iff_iff, List.all_eq_true, List.all_eq_true]
    refine forall₂_congr fun d hd => ?_
    simp only [Function.comp_apply, decide_eq_true_eq]
    exact (lowered (hall d hd)).zero
  unfold isZeroData
  rw [toList_lower hv, hv]
  show (!(ds.map Char.toLower).isEmpty && (ds.map Char.toLower).all (· = '0')) =
    (!ds.isEmpty && ds.all (· = '0'))
  rw [hzeros, List.isEmpty_map]

theorem digest_lower {v : String} (h : digest v = true) : digest (lower v) = true := by
  simp only [digest, Bool.and_eq_true, Bool.not_eq_true'] at h ⊢
  rw [isZeroData_lower h.1]
  exact ⟨isHexData_lower h.1, h.2⟩

theorem isBytes_lower {least most : Nat} {v : String} (h : isBytes least most v = true) :
    isBytes least most (lower v) = true := by
  simp only [isBytes, Bool.and_eq_true, decide_eq_true_eq] at h ⊢
  refine ⟨isHexData_lower h.1, ?_⟩
  rw [lower, String.length_ofList, List.length_map, String.length_toList]
  exact h.2

/-! ## Intents -/

section Rows

variable {ethers : Ethers}

theorem walletAddress_eq_ok {value address : String} (h : walletAddress ethers value = .ok address) :
    address = lower value ∧ isHexData 40 40 value = true ∧ isZeroData value = false := by
  simp only [walletAddress, bind_eq_ok, ensure_eq_ok, pure_eq_ok] at h
  obtain ⟨_, hhex, _, _, rfl⟩ := h
  exact ⟨rfl, hhex.1, hhex.2⟩

/-- An address that was read is read as itself. -/
theorem walletAddress_idem {value address : String} (h : walletAddress ethers value = .ok address) :
    walletAddress ethers address = .ok address := by
  obtain ⟨rfl, hhex, hzero⟩ := walletAddress_eq_ok h
  obtain ⟨ds, hv, _, _, hall⟩ := isHexData_iff.mp hhex
  have hnonzero : isZeroData (lower value) = false := by
    rw [isZeroData_lower hhex]
    exact hzero
  have hsmall : (lower value).toList.all (fun d => !('A' ≤ d && d ≤ 'F')) = true := by
    rw [toList_lower hv, List.all_eq_true]
    intro d hd
    simp only [List.mem_cons, List.mem_map] at hd
    rcases hd with rfl | rfl | ⟨c, hc, rfl⟩
    · decide
    · decide
    · rw [(lowered (hall c hc)).small]
      rfl
  refine bind_eq_ok.mpr ⟨(), ensure_of ⟨isHexData_lower hhex, hnonzero⟩ _, ?_⟩
  refine bind_eq_ok.mpr ⟨(), ensure_of (Or.inl hsmall) _, ?_⟩
  rw [lower_lower hhex]
  rfl

/-- What is asked of an intent beside its addresses. -/
def WellFormed (input : OrderIntent) : Prop :=
  input.feed ≠ some "" ∧ (input.purpose = some .feedUpdate ↔ input.feed ≠ none) ∧
    input.chainId = 46630 ∧ isOrderId input.id = true ∧ digest input.manifestDigest = true ∧
    digest input.sourceDigest = true ∧ digest input.snapshotHash = true ∧
    integer input.grantVersion = true ∧ integer input.stateVersion = true ∧
    isBytes 4 4096 input.calldata = true ∧ 0 ≤ input.createdAt ∧
    input.createdAt ≤ Json.maxSafeInteger

theorem validate_eq_ok {input intent : OrderIntent} : validate ethers input = .ok intent ↔
    WellFormed input ∧ ∃ owner executor vault feed, walletAddress ethers input.owner = .ok owner ∧
      walletAddress ethers input.executor = .ok executor ∧
      walletAddress ethers input.vault = .ok vault ∧
      (owner ≠ executor ∧ vault ≠ executor ∧ vault ≠ owner) ∧
      input.feed.mapM (walletAddress ethers) = .ok feed ∧
      intent = { input with
        feed, owner, executor, vault
        manifestDigest := lower input.manifestDigest, sourceDigest := lower input.sourceDigest
        snapshotHash := lower input.snapshotHash, calldata := lower input.calldata } := by
  unfold validate
  rw [mapError_eq_ok]
  simp only [bind_eq_ok, ensure_eq_ok, pure_eq_ok]
  constructor
  · rintro ⟨_, hformed, owner, howner, executor, hexecutor, vault, hvault, _, hne, feed, hfeed, rfl⟩
    exact ⟨hformed, owner, executor, vault, feed, howner, hexecutor, hvault, hne, hfeed, rfl⟩
  · rintro ⟨hformed, owner, executor, vault, feed, howner, hexecutor, hvault, hne, hfeed, rfl⟩
    exact ⟨(), hformed, owner, howner, executor, hexecutor, vault, hvault, (), hne, feed, hfeed, rfl⟩

theorem feed_mapM {feed read : Option String} (h : feed.mapM (walletAddress ethers) = .ok read) :
    read.mapM (walletAddress ethers) = .ok read ∧ (read = none ↔ feed = none) ∧
      (feed ≠ some "" → read ≠ some "") := by
  cases feed with
  | none =>
      cases h
      exact ⟨rfl, Iff.rfl, id⟩
  | some value =>
      obtain ⟨address, haddress, hread⟩ := bind_eq_ok.mp h
      cases hread
      have hhex := (walletAddress_eq_ok (walletAddress_idem haddress)).2.1
      refine ⟨bind_eq_ok.mpr ⟨address, walletAddress_idem haddress, rfl⟩, by simp, fun _ hempty => ?_⟩
      rw [Option.some.injEq] at hempty
      rw [hempty] at hhex
      exact absurd hhex (by decide)

/-- An intent that was validated is validated to itself. -/
theorem validate_idem {input intent : OrderIntent} (h : validate ethers input = .ok intent) :
    validate ethers intent = .ok intent := by
  obtain ⟨hformed, owner, executor, vault, feed, howner, hexecutor, hvault, hne, hfeed, rfl⟩ :=
    validate_eq_ok.mp h
  obtain ⟨hempty, hpurpose, hchain, hid, hmanifest, hsource, hsnapshot, hgrant, hstate, hcalldata,
    hcreated⟩ := hformed
  obtain ⟨hread, hnone, hnonempty⟩ := feed_mapM hfeed
  have hhex : ∀ {v : String}, digest v = true → isHexData 64 64 v = true := by
    intro v hv
    simp only [digest, Bool.and_eq_true] at hv
    exact hv.1
  have hbytes : isHexData 8 8192 input.calldata = true := by
    simp only [isBytes, Bool.and_eq_true] at hcalldata
    exact hcalldata.1
  refine validate_eq_ok.mpr ⟨?_, owner, executor, vault, feed, walletAddress_idem howner,
    walletAddress_idem hexecutor, walletAddress_idem hvault, hne, hread, ?_⟩
  · refine ⟨hnonempty hempty, ?_, hchain, hid, digest_lower hmanifest, digest_lower hsource,
      digest_lower hsnapshot, hgrant, hstate, isBytes_lower hcalldata, hcreated⟩
    rw [hpurpose, ne_eq, ne_eq, hnone]
  · simp only [lower_lower (hhex hmanifest), lower_lower (hhex hsource), lower_lower (hhex hsnapshot),
      lower_lower hbytes]

/-- The hash of an envelope is given when it is the order's. -/
theorem signedHash_eq_ok {raw hash : String} {intent : OrderIntent} {nonce : Option String} :
    signedHash ethers raw intent nonce = .ok hash ↔ isBytes 1 16384 raw = true ∧
      ∃ tx, ethers.transactionFrom raw = some tx ∧ SignedFor ethers raw intent nonce tx ∧
        hash = ethers.keccak256 raw := by
  unfold signedHash
  by_cases hbytes : isBytes 1 16384 raw = true
  · rw [if_pos hbytes]
    cases hparsed : ethers.transactionFrom raw with
    | none => simp [hbytes]
    | some tx =>
        simp only [bind_eq_ok, ensure_eq_ok, pure_eq_ok, Option.some.injEq, hbytes, true_and]
        constructor
        · rintro ⟨_, hfor, rfl⟩
          exact ⟨tx, rfl, hfor, rfl⟩
        · rintro ⟨_, rfl, hfor, rfl⟩
          exact ⟨(), hfor, rfl⟩
  · rw [if_neg hbytes]
    simp [hbytes]

/-! ## Rows -/

/-- What a row holds in each state. -/
structure RowSound (ethers : Ethers) (id : String) (row : OrderRow) : Prop where
  valid : validate ethers row.intent = .ok row.intent
  id_eq : id = row.intent.id
  executor_eq : row.executor = row.intent.executor
  unsigned : row.state = .prepared ∨ row.state = .cancelled →
    row.nonce = none ∧ row.rawTransaction = none ∧ row.transactionHash = none ∧ row.evidence = none
  numbered : ¬ (row.state = .prepared ∨ row.state = .cancelled) → ∃ nonce, row.nonce = some nonce ∧
    integer nonce = true ∧ Text.ofDecimal nonce ≤ 2147483647
  unsealed : row.state = .reserved →
    row.rawTransaction = none ∧ row.transactionHash = none ∧ row.evidence = none
  sealed : ¬ (row.state = .prepared ∨ row.state = .cancelled) → row.state ≠ .reserved →
    ∃ raw hash, row.rawTransaction = some raw ∧ row.transactionHash = some hash ∧
      signedHash ethers raw row.intent row.nonce = .ok hash
  open_ : row.state = .signed ∨ row.state = .broadcastUncertain → row.evidence = none
  concluded : row.state = .reconciled ∨ row.state = .reverted ∨ row.state = .reorged →
    ∃ evidence, row.evidence = some evidence ∧ evidence ≠ "" ∧ units evidence.toList ≤ 32768

/-- What can happen to one row. -/
inductive RowStep (ethers : Ethers) (row : OrderRow) : OrderRow → Prop
  | reserve (nonce : String) (hstate : row.state = .prepared) (hinteger : integer nonce = true)
      (hmost : Text.ofDecimal nonce ≤ 2147483647) :
      RowStep ethers row { row with nonce := some nonce, state := .reserved }
  | sign (raw hash : String) (hstate : row.state = .reserved)
      (hhash : signedHash ethers raw row.intent row.nonce = .ok hash) :
      RowStep ethers row
        { row with rawTransaction := some raw, transactionHash := some hash, state := .signed }
  | claim (hstate : row.state = .signed) :
      RowStep ethers row { row with state := .broadcastUncertain }
  | conclude (state : Conclusion) (evidence : String) (hstate : row.state ∈ afterBroadcast)
      (hevidence : evidence ≠ "") (hunits : units evidence.toList ≤ 32768) :
      RowStep ethers row { row with state := state.state, evidence := some evidence }
  | cancel (hstate : row.state = .prepared) : RowStep ethers row { row with state := .cancelled }

theorem RowSound.step {id : String} {row row' : OrderRow} (h : RowSound ethers id row)
    (hstep : RowStep ethers row row') : RowSound ethers id row' := by
  cases hstep with
  | reserve nonce hstate hinteger hmost =>
      obtain ⟨_, hraw, hhash, hevidence⟩ := h.unsigned (.inl hstate)
      exact {
        valid := h.valid, id_eq := h.id_eq, executor_eq := h.executor_eq
        unsigned := by simp
        numbered := fun _ => ⟨nonce, rfl, hinteger, hmost⟩
        unsealed := fun _ => ⟨hraw, hhash, hevidence⟩
        sealed := fun _ hne => absurd rfl hne
        open_ := by simp
        concluded := by simp }
  | sign raw hash hstate hhash =>
      have hnumbered := h.numbered (by rw [hstate]; simp)
      exact {
        valid := h.valid, id_eq := h.id_eq, executor_eq := h.executor_eq
        unsigned := by simp
        numbered := fun _ => hnumbered
        unsealed := by simp
        sealed := fun _ _ => ⟨raw, hash, rfl, rfl, hhash⟩
        open_ := fun _ => (h.unsealed hstate).2.2
        concluded := by simp }
  | claim hstate =>
      have hnumbered := h.numbered (by rw [hstate]; simp)
      have hsealed := h.sealed (by rw [hstate]; simp) (by rw [hstate]; simp)
      exact {
        valid := h.valid, id_eq := h.id_eq, executor_eq := h.executor_eq
        unsigned := by simp
        numbered := fun _ => hnumbered
        unsealed := by simp
        sealed := fun _ _ => hsealed
        open_ := fun _ => h.open_ (.inl hstate)
        concluded := by simp }
  | conclude state evidence hstate hevidence hunits =>
      have hlate : ¬ (row.state = .prepared ∨ row.state = .cancelled) ∧ row.state ≠ .reserved := by
        simp only [afterBroadcast, List.mem_cons, List.not_mem_nil, or_false] at hstate
        rcases hstate with hs | hs | hs | hs <;> rw [hs] <;> simp
      have hnumbered := h.numbered hlate.1
      have hsealed := h.sealed hlate.1 hlate.2
      exact {
        valid := h.valid, id_eq := h.id_eq, executor_eq := h.executor_eq
        unsigned := by cases state <;> simp [Conclusion.state]
        numbered := fun _ => hnumbered
        unsealed := by cases state <;> simp [Conclusion.state]
        sealed := fun _ _ => hsealed
        open_ := by cases state <;> simp [Conclusion.state]
        concluded := fun _ => ⟨evidence, rfl, hevidence, hunits⟩ }
  | cancel hstate =>
      have hunsigned := h.unsigned (.inl hstate)
      exact {
        valid := h.valid, id_eq := h.id_eq, executor_eq := h.executor_eq
        unsigned := fun _ => hunsigned
        numbered := fun hnot => absurd (.inr rfl) hnot
        unsealed := by simp
        sealed := fun hnot => absurd (.inr rfl) hnot
        open_ := by simp
        concluded := by simp }

/-! ## The journal -/

structure Sound (ethers : Ethers) (j : Journal) : Prop where
  nodup : j.orders.keys.Nodup
  rows : ∀ e ∈ j.orders, RowSound ethers e.1 e.2

theorem Sound.row {j : Journal} (h : Sound ethers j) {id : String} {row : OrderRow}
    (hrow : j.orders.get? id = some row) : RowSound ethers id row :=
  h.rows (id, row) (OrderedMap.mem_of_get? hrow)

/-- The row of an order that was just prepared. -/
def freshRow (intent : OrderIntent) : OrderRow where
  executor := intent.executor
  intent := intent
  state := .prepared
  nonce := none
  rawTransaction := none
  transactionHash := none
  evidence := none

theorem freshRow_sound {intent : OrderIntent} (h : validate ethers intent = .ok intent) :
    RowSound ethers intent.id (freshRow intent) where
  valid := h
  id_eq := rfl
  executor_eq := rfl
  unsigned _ := ⟨rfl, rfl, rfl, rfl⟩
  numbered hnot := absurd (.inl rfl) hnot
  unsealed := by simp [freshRow]
  sealed hnot := absurd (.inl rfl) hnot
  open_ := by simp [freshRow]
  concluded := by simp [freshRow]

/-- What an accepted call does to the rows.  The outcomes are left open. -/
inductive Moves (ethers : Ethers) (j : Journal) : Journal → Prop
  | same : Moves ethers j j
  | insert (intent : OrderIntent) (hvalid : validate ethers intent = .ok intent)
      (hnew : j.orders.get? intent.id = none) :
      Moves ethers j { j with orders := j.orders.set intent.id (freshRow intent) }
  | change (id : String) (row row' : OrderRow) (outcomes : List OutcomeRow)
      (hrow : j.orders.get? id = some row) (hstep : RowStep ethers row row') :
      Moves ethers j { j with orders := j.orders.set id row', outcomes }

theorem Sound.moves {j j' : Journal} (h : Sound ethers j) (hmoves : Moves ethers j j') :
    Sound ethers j' := by
  cases hmoves with
  | same => exact h
  | insert intent hvalid hnew =>
      refine ⟨OrderedMap.nodup_keys_set h.nodup, fun e he => ?_⟩
      rcases OrderedMap.mem_of_mem_set he with rfl | hin
      · exact freshRow_sound hvalid
      · exact h.rows e hin
  | change id row row' outcomes hrow hstep =>
      refine ⟨OrderedMap.nodup_keys_set h.nodup, fun e he => ?_⟩
      rcases OrderedMap.mem_of_mem_set he with rfl | hin
      · exact (h.row hrow).step hstep
      · exact h.rows e hin

/-! ## Calls -/

theorem get_eq {j : Journal} (h : Sound ethers j) (id : String) :
    get ethers j id = .ok (j.orders.get? id) := by
  unfold get
  cases hrow : j.orders.get? id with
  | none => rfl
  | some row => exact bind_eq_ok.mpr ⟨row.intent, (h.row hrow).valid, rfl⟩

theorem getIn_eq_ok {j : Journal} (h : Sound ethers j) {id : String} {states : List OrderState}
    {order : OrderRow} : getIn ethers j id states = .ok order ↔
      j.orders.get? id = some order ∧ order.state ∈ states := by
  unfold getIn
  rw [get_eq h, ok_bind]
  cases hrow : j.orders.get? id with
  | none =>
      constructor
      · intro hget
        cases hget
      · rintro ⟨hget, _⟩
        cases hget
  | some row =>
      simp only [bind_eq_ok, ensure_eq_ok, pure_eq_ok, Option.some.injEq]
      constructor
      · rintro ⟨_, hstate, rfl⟩
        exact ⟨rfl, hstate⟩
      · rintro ⟨rfl, hstate⟩
        exact ⟨(), hstate, rfl⟩

theorem update_eq {j : Journal} {id : String} {row : OrderRow} {f : OrderRow → OrderRow}
    (hrow : j.orders.get? id = some row) :
    update j id f = { j with orders := j.orders.set id (f row) } := by
  unfold update
  rw [hrow]

theorem prepare_eq_ok {j j' : Journal} {input : OrderIntent} {order : Option OrderRow}
    (h : prepare ethers j input = .ok (j', order)) :
    ∃ intent, validate ethers input = .ok intent ∧ insertOrder j intent = .ok j' ∧
      get ethers j' intent.id = .ok order := by
  simp only [prepare, bind_eq_ok, pure_eq_ok, Prod.mk.injEq] at h
  obtain ⟨intent, hvalid, next, hnext, found, hfound, rfl, rfl⟩ := h
  exact ⟨intent, hvalid, hnext, hfound⟩

theorem insertOrder_eq_ok {j j' : Journal} {intent : OrderIntent} (h : insertOrder j intent = .ok j') :
    j' = j ∨ j.orders.get? intent.id = none ∧
      j' = { j with orders := j.orders.set intent.id (freshRow intent) } := by
  unfold insertOrder at h
  cases hrow : j.orders.get? intent.id with
  | some existing =>
      simp only [hrow, bind_eq_ok, pure_eq_ok] at h
      obtain ⟨_, _, rfl⟩ := h
      exact .inl rfl
  | none =>
      simp only [hrow, pure_eq_ok] at h
      exact .inr ⟨rfl, h.symm⟩

/-- A nonce is reserved for an order that has none, under a number that no order of the
executor has, while no order of it is open. -/
theorem reserve_eq_ok {j j' : Journal} {id nonce : String} (hj : Sound ethers j)
    (h : reserve ethers j id nonce = .ok j') :
    ∃ row, j.orders.get? id = some row ∧ row.state = .prepared ∧ integer nonce = true ∧
      Text.ofDecimal nonce ≤ 2147483647 ∧
      (∀ e ∈ j.orders, e.2.executor = row.executor → e.2.nonce ≠ some nonce) ∧
      (∀ e ∈ j.orders, e.2.executor = row.executor → e.2.state ∉ blocking) ∧
      j' = { j with
        orders := j.orders.set id { row with nonce := some nonce, state := .reserved } } := by
  simp only [reserve, blocked, bind_eq_ok, ensure_eq_ok, pure_eq_ok, getIn_eq_ok hj] at h
  obtain ⟨_, ⟨hinteger, hmost⟩, row, ⟨hrow, hstate⟩, _, hconflict, _, ⟨address, haddress, rfl⟩, _, hblocked,
    rfl⟩ := h
  have hsound := hj.row hrow
  have hexecutor : address = row.executor := by
    obtain ⟨_, _, executor, _, _, _, hread, _, _, _, hintent⟩ := validate_eq_ok.mp hsound.valid
    have hsame : row.intent.executor = executor := congrArg OrderIntent.executor hintent
    rw [haddress, Except.ok.injEq] at hread
    rw [hread, hsound.executor_eq, hsame]
  rw [← hsound.executor_eq, List.any_eq_false] at hconflict
  rw [isBlocked, List.any_eq_false, hexecutor] at hblocked
  refine ⟨row, hrow, List.mem_singleton.mp hstate, hinteger, hmost, fun e he hsame hnonce => ?_,
    fun e he hsame hin => ?_, update_eq hrow⟩
  · exact hconflict e he (by simp [hsame, hnonce])
  · exact hblocked e he (by simp [hsame, hin])

theorem signed_eq_ok {j j' : Journal} {id raw hash : String} (hj : Sound ethers j)
    (h : signed ethers j id raw = .ok (j', hash)) :
    ∃ row, j.orders.get? id = some row ∧ row.state = .reserved ∧
      signedHash ethers raw row.intent row.nonce = .ok hash ∧
      j' = { j with
        orders := j.orders.set id {
          row with rawTransaction := some raw, transactionHash := some hash, state := .signed } } := by
  simp only [signed, bind_eq_ok, pure_eq_ok, getIn_eq_ok hj, Prod.mk.injEq] at h
  obtain ⟨row, ⟨hrow, hstate⟩, found, hfound, rfl, rfl⟩ := h
  exact ⟨row, hrow, List.mem_singleton.mp hstate, hfound, update_eq hrow⟩

theorem claimBroadcast_eq_ok {j j' : Journal} {id raw : String} (hj : Sound ethers j)
    (h : claimBroadcast ethers j id = .ok (j', raw)) :
    ∃ row, j.orders.get? id = some row ∧ row.state = .signed ∧ row.rawTransaction = some raw ∧
      j' = { j with orders := j.orders.set id { row with state := .broadcastUncertain } } := by
  unfold claimBroadcast at h
  cases hrow : j.orders.get? id with
  | none =>
      rw [hrow] at h
      cases h
  | some row =>
      by_cases hstate : row.state = .signed
      · have hfilter : (some row).filter (fun row => row.state = .signed) = some row := by
          simp [hstate]
        rw [hrow, hfilter] at h
        cases hraw : row.rawTransaction with
        | none =>
            simp only [hraw] at h
            cases h
        | some stored =>
            simp only [hraw, get_eq hj, hrow, ok_bind, bind_eq_ok, ensure_eq_ok, pure_eq_ok,
              Prod.mk.injEq] at h
            obtain ⟨hash, _, _, _, rfl, rfl⟩ := h
            exact ⟨row, rfl, hstate, hraw, update_eq hrow⟩
      · have hfilter : (some row).filter (fun row => row.state = .signed) = none := by
          simp [hstate]
        rw [hrow, hfilter] at h
        cases h

/-- The outcome row of a change. -/
def outcomeRow (ethers : Ethers) (id : String) (state : Conclusion) (evidence : String) : OutcomeRow where
  id := id
  payload := ⟨id, state, evidence⟩
  sha256 := ethers.keccak256Utf8 (String.ofList (outcomeText ⟨id, state, evidence⟩))

theorem recordOutcome_eq_ok {j j' : Journal} {id evidence : String} {state : Conclusion}
    (hj : Sound ethers j) (h : recordOutcome ethers j id state evidence = .ok j') :
    ∃ row, j.orders.get? id = some row ∧ row.state ∈ afterBroadcast ∧ evidence ≠ "" ∧
      units evidence.toList ≤ 32768 ∧
      j' = { j with
        orders := j.orders.set id { row with state := state.state, evidence := some evidence }
        outcomes := if row.state ≠ state.state ∨ row.evidence ≠ some evidence then
            j.outcomes ++ [outcomeRow ethers id state evidence]
          else j.outcomes } := by
  simp only [recordOutcome, bind_eq_ok, ensure_eq_ok, pure_eq_ok, getIn_eq_ok hj] at h
  obtain ⟨_, ⟨hevidence, hunits⟩, row, ⟨hrow, hstate⟩, rfl⟩ := h
  refine ⟨row, hrow, hstate, hevidence, hunits, ?_⟩
  split
  · exact update_eq hrow
  · exact update_eq hrow

theorem cancel_eq_ok {j j' : Journal} {id : String} (hj : Sound ethers j)
    (h : cancel ethers j id = .ok j') :
    ∃ row, j.orders.get? id = some row ∧ row.state = .prepared ∧
      j' = { j with orders := j.orders.set id { row with state := .cancelled } } := by
  simp only [cancel, bind_eq_ok, pure_eq_ok, getIn_eq_ok hj] at h
  obtain ⟨row, ⟨hrow, hstate⟩, rfl⟩ := h
  exact ⟨row, hrow, List.mem_singleton.mp hstate, update_eq hrow⟩

theorem insertOrder_moves {j j' : Journal} {intent : OrderIntent}
    (hvalid : validate ethers intent = .ok intent) (h : insertOrder j intent = .ok j') :
    Moves ethers j j' := by
  rcases insertOrder_eq_ok h with rfl | ⟨hnew, rfl⟩
  · exact .same
  · exact .insert intent hvalid hnew

theorem call_moves {j j' : Journal} {c : Call} (hj : Sound ethers j) (h : call ethers c j = .ok j') :
    Moves ethers j j' := by
  cases c with
  | prepare input =>
      obtain ⟨⟨next, order⟩, hprepare, rfl⟩ := map_eq_ok.mp h
      obtain ⟨intent, hvalid, hinsert, _⟩ := prepare_eq_ok hprepare
      exact insertOrder_moves (validate_idem hvalid) hinsert
  | reserve id nonce =>
      obtain ⟨row, hrow, hstate, hinteger, hmost, _, _, rfl⟩ := reserve_eq_ok hj h
      exact .change id row _ _ hrow (.reserve nonce hstate hinteger hmost)
  | signed id raw =>
      obtain ⟨⟨next, hash⟩, hsigned, rfl⟩ := map_eq_ok.mp h
      obtain ⟨row, hrow, hstate, hhash, rfl⟩ := signed_eq_ok hj hsigned
      exact .change id row _ _ hrow (.sign raw hash hstate hhash)
  | claimBroadcast id =>
      obtain ⟨⟨next, raw⟩, hclaim, rfl⟩ := map_eq_ok.mp h
      obtain ⟨row, hrow, hstate, _, rfl⟩ := claimBroadcast_eq_ok hj hclaim
      exact .change id row _ _ hrow (.claim hstate)
  | recordOutcome id state evidence =>
      obtain ⟨row, hrow, hstate, hevidence, hunits, rfl⟩ := recordOutcome_eq_ok hj h
      exact .change id row _ _ hrow (.conclude state evidence hstate hevidence hunits)
  | cancel id =>
      obtain ⟨row, hrow, hstate, rfl⟩ := cancel_eq_ok hj h
      exact .change id row _ _ hrow (.cancel hstate)

end Rows

end OrderJournal
end AlphaForge
