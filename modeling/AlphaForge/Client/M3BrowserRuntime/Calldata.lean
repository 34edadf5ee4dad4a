/-
The journal may keep whatever is prepared.

An action of the vault and a transfer of its pass are encoded so that the decoders of
the journal take them: a word is read back as the number it was made of, and the amount
of a form is not zero.
-/
import AlphaForge.Client.M3BrowserRuntime.Protocol

namespace AlphaForge
namespace M3BrowserRuntime

open Evm
open ChainRuntime (decodeM3VaultCalldata decodeM3StrategyPassCalldata parseAddressWord
  parseUintWord)
open ChainStore (HexData)
open M3SubmissionJournal (chainId known)

/-! ## Words -/

theorem length_toBytes (k n : Nat) : (toBytes k n).length = k := by
  induction k generalizing n with
  | zero => rfl
  | succ k ih => rw [toBytes, List.length_append, ih, List.length_singleton]

theorem parseUintWord_toBytes {k n : Nat} (h : n < 256 ^ k) : parseUintWord (toBytes k n) = n := by
  induction k generalizing n with
  | zero => exact (Nat.lt_one_iff.mp h).symm
  | succ k ih =>
      have hhigh : n / 256 < 256 ^ k := Nat.div_lt_of_lt_mul (by rwa [Nat.pow_succ'] at h)
      have hlow : (UInt8.ofNat (n % 256)).toNat = n % 256 :=
        UInt8.toNat_ofNat_of_lt' (Nat.mod_lt n (by decide))
      have hprefix := ih hhigh
      rw [parseUintWord] at hprefix
      rw [parseUintWord, toBytes, List.foldl_append, hprefix, List.foldl_cons, List.foldl_nil, hlow]
      exact Nat.div_add_mod' n 256

theorem length_addressWord (a : Address) : (addressWord a).length = 32 := by
  rw [addressWord, List.length_append, List.length_replicate, length_toBytes]

theorem parseAddressWord_addressWord (a : Address) : parseAddressWord (addressWord a) = some a := by
  have htake : (addressWord a).take 12 = List.replicate 12 0 :=
    List.take_left' (List.length_replicate ..)
  have hdrop : (addressWord a).drop 12 = toBytes 20 a.toNat :=
    List.drop_left' (List.length_replicate ..)
  have hlt : a.toNat < 256 ^ 20 := a.isLt
  rw [parseAddressWord, if_pos htake, hdrop, parseUintWord_toBytes hlt, BitVec.ofNat_toNat,
    BitVec.setWidth_eq]

/-! ## Amounts -/

theorem amountOf_pos {text : String} {n : Nat} (h : amountOf text = some n) : 0 < n := by
  rw [amountOf] at h
  split at h
  · next d ds htext =>
    split at h
    · next hdigits =>
      obtain rfl := Option.some.inj h
      have hd : 49 ≤ d.toNat := hdigits.1
      rw [Text.ofDecimal, htext, Nat.ofDigitChars_cons, Nat.ofDigitChars_eq_ofDigitChars_zero]
      have hpow : 0 < 10 ^ ds.length := Nat.pow_pos (by decide)
      have hhead : 0 < 10 * 0 + (d.toNat - '0'.toNat) := by
        show 0 < 10 * 0 + (d.toNat - 48)
        omega
      exact Nat.add_pos_left (Nat.mul_pos hpow hhead) _
    · cases h
  · cases h

theorem amount_spec {text code : String} {n : Nat} (h : amount text code = .ok n) :
    0 < n ∧ n ≤ maxUint256 := by
  rw [amount] at h
  split at h
  · next m hm =>
    split at h
    · next hle =>
      obtain rfl := Except.ok.inj h
      exact ⟨amountOf_pos hm, hle⟩
    · cases h
  · cases h

/-! ## What the decoders take -/

theorem vaultCalldata_spec {request : ProductActionRequest} {data : HexData}
    (h : vaultCalldata request = .ok data) :
    data.length ≤ 68 ∧ (decodeM3VaultCalldata data).isSome = true := by
  cases request with
  | deposit usdcBaseUnits =>
      simp only [vaultCalldata, bind_eq_ok, pure_eq_ok] at h
      obtain ⟨n, _, rfl⟩ := h
      have hlength : ([0xb6, 0xb5, 0x5f, 0x25] ++ uintWord n : HexData).length = 36 := by
        rw [List.length_append, uintWord, length_toBytes]
        rfl
      refine ⟨by omega, ?_⟩
      rw [decodeM3VaultCalldata, if_pos ⟨rfl, hlength⟩]
      rfl
  | withdraw usdcBaseUnits =>
      simp only [vaultCalldata, bind_eq_ok, pure_eq_ok] at h
      obtain ⟨n, _, rfl⟩ := h
      have hlength : ([0x2e, 0x1a, 0x7d, 0x4d] ++ uintWord n : HexData).length = 36 := by
        rw [List.length_append, uintWord, length_toBytes]
        rfl
      have hother : ¬ (([0x2e, 0x1a, 0x7d, 0x4d] ++ uintWord n : HexData).take 4 =
          [0xb6, 0xb5, 0x5f, 0x25] ∧
          ([0x2e, 0x1a, 0x7d, 0x4d] ++ uintWord n : HexData).length = 36) :=
        fun h => absurd (show ([0x2e, 0x1a, 0x7d, 0x4d] : HexData) = _ from h.1) (by decide)
      refine ⟨by omega, ?_⟩
      rw [decodeM3VaultCalldata, if_neg hother, if_pos ⟨rfl, hlength⟩]
      rfl
  | close =>
      obtain rfl := Except.ok.inj h
      exact ⟨by decide, rfl⟩
  | rescueToken token =>
      obtain rfl := Except.ok.inj h
      have hlength : ([0x45, 0xf5, 0x03, 0x0f] ++ addressWord token : HexData).length = 36 := by
        rw [List.length_append, length_addressWord]
        rfl
      have hother : ∀ (selector : HexData) (k : Nat), selector ≠ [0x45, 0xf5, 0x03, 0x0f] →
          ¬ (([0x45, 0xf5, 0x03, 0x0f] ++ addressWord token : HexData).take 4 = selector ∧
            ([0x45, 0xf5, 0x03, 0x0f] ++ addressWord token : HexData).length = k) :=
        fun selector k hne h => hne h.1.symm
      refine ⟨by omega, ?_⟩
      rw [decodeM3VaultCalldata, if_neg (hother _ _ (by decide)), if_neg (hother _ _ (by decide)),
        if_neg (hother _ _ (by decide)), if_pos ⟨rfl, hlength⟩]
      show ((parseAddressWord (addressWord token)).map _).isSome = true
      rw [parseAddressWord_addressWord]
      rfl
  | rescueNative =>
      obtain rfl := Except.ok.inj h
      exact ⟨by decide, rfl⟩

theorem passTransferCalldata_spec {request : PassTransferRequest} {data : HexData}
    (h : passTransferCalldata request = .ok data) :
    data.length ≤ 68 ∧ (decodeM3StrategyPassCalldata data).isSome = true := by
  rw [passTransferCalldata] at h
  split at h
  · cases h
  · next hrecipient =>
    simp only [bind_eq_ok, pure_eq_ok] at h
    obtain ⟨n, hamount, rfl⟩ := h
    obtain ⟨hpos, hmax⟩ := amount_spec hamount
    have hlt : n < 256 ^ 32 := Nat.lt_of_le_of_lt hmax (by decide)
    have hlength : ([0xa9, 0x05, 0x9c, 0xbb] ++ addressWord request.recipient ++
        uintWord n : HexData).length = 68 := by
      rw [List.length_append, List.length_append, length_addressWord, uintWord, length_toBytes]
      rfl
    have hword : (([0xa9, 0x05, 0x9c, 0xbb] ++ addressWord request.recipient ++
        uintWord n : HexData).drop 4).take 32 = addressWord request.recipient :=
      List.take_left' (length_addressWord _)
    have hamountWord : ([0xa9, 0x05, 0x9c, 0xbb] ++ addressWord request.recipient ++
        uintWord n : HexData).drop 36 = uintWord n :=
      List.drop_left' (by rw [List.length_append, length_addressWord]; rfl)
    have hnonzero : ¬ (request.recipient = 0 ∨ n < 1) := by
      rintro (hzero | hsmall)
      · exact hrecipient hzero
      · omega
    refine ⟨by omega, ?_⟩
    rw [decodeM3StrategyPassCalldata, if_neg (not_or.mpr ⟨fun h => h hlength, fun h => h rfl⟩),
      hword, hamountWord, parseAddressWord_addressWord, uintWord, parseUintWord_toBytes hlt]
    simp only [Option.bind_eq_bind, Option.bind_some, if_neg hnonzero, Option.isSome_some]

/-! ## What is prepared -/

theorem prepare_spec {operationId : String} {owner target : Address}
    {encoded : Except Failure HexData} {prepared : PreparedAction}
    (h : prepare operationId owner target encoded = .ok prepared) :
    Lifecycle.validOperationId prepared.operationId = true ∧ prepared.target = target ∧
      encoded = .ok prepared.data := by
  simp only [prepare, bind_eq_ok] at h
  obtain ⟨data, hdata, h⟩ := h
  split at h
  · cases h
  · split at h
    · next hvalid =>
      obtain rfl := Except.ok.inj h
      exact ⟨hvalid, rfl, hdata⟩
    · cases h

/-- A short calldata of one of the two contracts is one that the journal may keep. -/
theorem fit_of {c : Options} {prepared : PreparedAction}
    (hid : Lifecycle.validOperationId prepared.operationId = true)
    (hlength : prepared.data.length ≤ 68)
    (hknown : known (context c) prepared.target prepared.data) : Fit c prepared :=
  fun txHash => ⟨hid, rfl, rfl, by show 2 + 2 * prepared.data.length ≤ 138; omega, hknown⟩

variable {c : Options} {d : Deployment} {id : String} {owner : Address} {prepared : PreparedAction}

theorem vault_fit (hd : c.deployment = some d) {request : ProductActionRequest}
    (h : prepare id owner d.vaultAddress (vaultCalldata request) = .ok prepared) :
    Fit c prepared := by
  obtain ⟨hid, htarget, hdata⟩ := prepare_spec h
  obtain ⟨hlength, hdecoded⟩ := vaultCalldata_spec hdata
  refine fit_of hid hlength (Or.inl ⟨?_, hdecoded⟩)
  rw [htarget, context, hd]
  rfl

theorem pass_fit (hd : c.deployment = some d) {request : PassTransferRequest}
    (h : prepare id owner d.strategyPassAddress (passTransferCalldata request) = .ok prepared) :
    Fit c prepared := by
  obtain ⟨hid, htarget, hdata⟩ := prepare_spec h
  obtain ⟨hlength, hdecoded⟩ := passTransferCalldata_spec hdata
  refine fit_of hid hlength (Or.inr ⟨?_, hdecoded⟩)
  rw [htarget, context, hd]
  rfl

end M3BrowserRuntime
end AlphaForge
