/-
The hash is the sponge of Keccak-256, for every text of bytes.

The loop over the offsets absorbs one block a turn, and a block is absorbed lane by lane
from integers that are put together byte by byte.
-/
import AlphaForge.ChainAdapter.Keccak.Lanes

namespace AlphaForge
namespace Keccak

open Keccak1600 (State littleEndian)
open VaultAbi (HexData asHexData isHexData isHexOf)

/-! ## Padding -/

theorem pad_eq (bytes : List UInt8) : pad bytes = Keccak1600.pad rateBytes 0x01 bytes := by
  have hrate : bytes.length % 136 < 136 := Nat.mod_lt _ (by decide)
  have hmissing : paddedLength bytes - bytes.length = rateBytes - 1 - bytes.length % rateBytes + 1 := by
    unfold paddedLength rateBytes
    omega
  unfold pad Keccak1600.pad
  rw [hmissing]
  generalize rateBytes - 1 - bytes.length % rateBytes = zeros
  cases zeros with
  | zero => simp [List.set_append_right]
  | succ zeros =>
      rw [List.replicate_succ, List.replicate_succ']
      simp [List.set_append_right]

theorem length_pad (bytes : List UInt8) : (pad bytes).length = paddedLength bytes := by
  have hle : bytes.length ≤ paddedLength bytes := by
    unfold paddedLength rateBytes
    omega
  rw [pad, List.length_set, List.length_set, List.length_append, List.length_replicate]
  omega

/-! ## One block -/

/-- Bytes that are shifted into their places are the number that they are the digits of. -/
theorem laneValue_eq {padded : List UInt8} {start : Nat} (h : start + 8 ≤ padded.length) :
    laneValue padded start = littleEndian ((padded.drop start).take 8) := by
  have hloop : ∀ k, start + k ≤ padded.length →
      (List.range k).foldl (fun value byte => Int.lor value
        (((padded.getD (start + byte) 0).toNat : Int) <<< ((byte * 8 : Nat) : Int))) 0 =
      littleEndian ((padded.drop start).take k) := by
    intro k
    induction k with
    | zero => exact fun _ => rfl
    | succ k ih =>
        intro hk
        have hget : (padded.drop start)[k]? = some (padded.getD (start + k) 0) := by
          rw [List.getElem?_drop, List.getD_eq_getElem?_getD, List.getElem?_eq_getElem (by omega)]
          rfl
        have hlength : ((padded.drop start).take k).length = k := by
          rw [List.length_take, List.length_drop]
          omega
        have hlow := Keccak1600.littleEndian_lt ((padded.drop start).take k)
        rw [hlength] at hlow
        have hpow : 256 ^ k = 2 ^ (k * 8) := by rw [Nat.mul_comm, Nat.pow_mul]
        rw [List.range_succ, List.foldl_append, ih (by omega), List.foldl_cons, List.foldl_nil,
          List.take_add_one, hget, Option.toList_some, Keccak1600.littleEndian_append, hlength,
          Int.shiftLeft_natCast]
        show ((littleEndian _ ||| _ : Nat) : Int) = _
        rw [Nat.or_comm, ← Nat.shiftLeft_add_eq_or_of_lt (hpow ▸ hlow), Nat.shiftLeft_eq, ← hpow,
          Nat.add_comm, Nat.mul_comm]
        simp [littleEndian]
  exact hloop 8 h

section Absorb

variable {padded : List UInt8} {state : List Int} {a : State}

theorem absorbBlock_eq (padded : List UInt8) (offset : Nat) (state : List Int) :
    absorbBlock padded offset state =
      (List.range 17).foldl (Writes.write id (fun lane value =>
        Int.xor value (laneValue padded (offset + lane * 8))) 0) state :=
  rfl

theorem holds_absorbBlock {offset : Nat} (h : Holds state a) (hin : offset + 136 ≤ padded.length) :
    Holds (absorbBlock padded offset state)
      (a.xorBlock ((padded.drop offset).take rateBytes)) := by
  rw [absorbBlock_eq]
  refine ⟨by rw [Writes.length_foldl_write, h.length], fun x y => ?_⟩
  have hindex := index_lt x y
  rw [State.xorBlock, State.lane_of, Nat.add_comm (5 * y.val)]
  by_cases hlane : x.val + 5 * y.val < 17
  · refine (Writes.getD_foldl_write (by decide) (List.mem_range.mpr hlane)
      (by rw [h.length]; exact hindex)).trans ?_
    have hread : laneValue padded (offset + (x.val + 5 * y.val) * 8) =
        (Keccak1600.blockLane ((padded.drop offset).take rateBytes) (x.val + 5 * y.val)).toNat := by
      rw [laneValue_eq (by omega), Keccak1600.blockLane_take_drop (by unfold rateBytes; omega),
        Nat.mul_comm 8]
    show Int.xor (entry state (x.val + 5 * y.val)) _ = _
    rw [h.entry, hread, xor_toNat]
  · have hblock : ((padded.drop offset).take rateBytes).length ≤ 8 * (x.val + 5 * y.val) :=
      (List.length_take_le _ _).trans (by unfold rateBytes; omega)
    rw [Keccak1600.blockLane_of_le hblock, BitVec.xor_zero]
    refine (Writes.getD_foldl_write_of_ne (fun lane hmem => ?_) state).trans (h.entry x y)
    have hlow := List.mem_range.mp hmem
    show lane ≠ x.val + 5 * y.val
    omega

/-! ## All blocks -/

/-- From block `i` on there are `count` blocks. -/
theorem holds_absorb {i count : Nat} (hlength : padded.length = (i + count) * rateBytes)
    (h : Holds state a) :
    Holds (absorb padded (i * rateBytes) state)
      (((List.range' i count).map fun i => (padded.drop (i * rateBytes)).take rateBytes).foldl
        (fun a block => Keccak1600.permutation (a.xorBlock block)) a) := by
  unfold rateBytes at hlength
  induction count generalizing i state a with
  | zero =>
      rw [absorb, if_neg (by unfold rateBytes; omega)]
      exact h
  | succ count ih =>
      have hin : i * rateBytes + 136 ≤ padded.length := by
        unfold rateBytes
        omega
      have hnext : i * rateBytes + rateBytes = (i + 1) * rateBytes := (Nat.succ_mul i _).symm
      rw [absorb, if_pos (by omega), hnext, List.range'_succ, List.map_cons, List.foldl_cons]
      exact ih (by omega) (holds_permutation (holds_absorbBlock h hin))

theorem holds_zero : Holds (List.replicate 25 0) State.zero := by
  refine ⟨List.length_replicate, fun x y => ?_⟩
  rw [State.zero, State.lane_of, entry, List.getD_eq_getElem?_getD,
    List.getElem?_replicate_of_lt (index_lt x y)]
  rfl

end Absorb

/-! ## The output -/

theorem outputByte_eq {state : List Int} {a : State} (h : Holds state a) {index : Nat}
    (hindex : index < 40) :
    outputByte state index = UInt8.ofBitVec ((a.lane (Fin.ofNat 5 (index / 8))
      (Fin.ofNat 5 (index / 40))).extractLsb' (8 * (index % 8)) 8) := by
  have hx : (Fin.ofNat 5 (index / 8)).val = index / 8 := by
    rw [Fin.val_ofNat]
    omega
  have hy : (Fin.ofNat 5 (index / 40)).val = 0 := by
    rw [Fin.val_ofNat]
    omega
  have hentry := h.entry (Fin.ofNat 5 (index / 8)) (Fin.ofNat 5 (index / 40))
  rw [hx, hy, Nat.mul_zero, Nat.add_zero] at hentry
  rw [outputByte, hentry, Int.shiftRight_natCast, Nat.mul_comm]
  refine UInt8.toNat_inj.mp ?_
  show ((UInt8.ofNat (_ &&& 2 ^ 8 - 1 : Nat))).toNat = _
  rw [Nat.and_two_pow_sub_one_eq_mod]
  simp [BitVec.extractLsb'_toNat]

theorem holds_absorbed (bytes : List UInt8) :
    Holds (absorb (pad bytes) 0 (List.replicate 25 0))
      (Keccak1600.absorb Keccak1600.permutation rateBytes (Keccak1600.pad rateBytes 0x01 bytes)) := by
  have hcount : (pad bytes).length / rateBytes * rateBytes = (pad bytes).length := by
    rw [length_pad, paddedLength, Nat.mul_div_cancel _ (by decide)]
  have hholds := holds_absorb (i := 0) (by rw [Nat.zero_add, hcount]) holds_zero
  rw [Nat.zero_mul, ← List.range_eq_range'] at hholds
  rw [← pad_eq]
  exact hholds

theorem digest_eq (bytes : List UInt8) : digest bytes = Keccak1600.keccak256 bytes := by
  have hholds : Holds _ (Keccak1600.absorb Keccak1600.permutation 136
    (Keccak1600.pad 136 0x01 bytes)) := holds_absorbed bytes
  unfold digest Keccak1600.keccak256 Keccak1600.sponge
  generalize Keccak1600.absorb Keccak1600.permutation 136 (Keccak1600.pad 136 1 bytes) = a at *
  show _ = ((a.bytes.take 136) ++ []).take 32
  rw [List.append_nil, List.take_take, State.bytes, ← List.map_take, List.take_range]
  refine List.map_congr_left fun index hindex => ?_
  have hlow := List.mem_range.mp hindex
  exact outputByte_eq hholds (Nat.lt_of_lt_of_le hlow (by decide))

/-! ## Text -/

/-- Digits in pairs spell bytes, in either case. -/
theorem hexPairs_of_all : ∀ {ds : List Char}, ds.all Text.isHexChar = true → ds.length % 2 = 0 →
    ∃ bytes, Text.hexPairs ds = some bytes
  | [], _, _ => ⟨[], rfl⟩
  | [_], _, hlength => by cases hlength
  | hi :: lo :: rest, hall, hlength => by
      simp only [List.all_cons, Bool.and_eq_true, Text.isHexChar, Option.isSome_iff_exists] at hall
      obtain ⟨⟨high, hhigh⟩, ⟨low, hlow⟩, hrest⟩ := hall
      obtain ⟨bytes, hbytes⟩ := hexPairs_of_all hrest
        (by rw [List.length_cons, List.length_cons] at hlength; omega)
      exact ⟨_, by simp only [Text.hexPairs, hhigh, hlow, hbytes, Option.bind_eq_bind,
        Option.bind_some, Option.pure_def]; rfl⟩

theorem hexPairs_text (input : HexData) : ∃ bytes, Text.hexPairs (input.text.drop 2) = some bytes := by
  have hvalid := input.valid
  unfold isHexData at hvalid
  split at hvalid
  · next ds hds =>
    simp only [Bool.and_eq_true, decide_eq_true_eq] at hvalid
    rw [hds]
    exact hexPairs_of_all hvalid.1 hvalid.2
  · cases hvalid

theorem all_hexOf (bytes : List UInt8) : (hexOf bytes).all Text.isHexChar = true := by
  induction bytes with
  | nil => rfl
  | cons b rest ih =>
      rw [hexOf, List.flatMap_cons, List.all_append, Text.isHexChar_hexDigits, Bool.true_and]
      exact ih

theorem length_hexOf (bytes : List UInt8) : (hexOf bytes).length = bytes.length * 2 := by
  induction bytes with
  | nil => rfl
  | cons b rest ih =>
      rw [hexOf, List.flatMap_cons, List.length_append, Text.length_hexDigits, List.length_cons,
        ← hexOf, ih]
      omega

/-- The text of some bytes. -/
def hexText (bytes : List UInt8) : HexData where
  text := '0' :: 'x' :: hexOf bytes
  valid := by
    have heven : bytes.length * 2 % 2 = 0 := Nat.mul_mod_left _ 2
    simp only [isHexData, all_hexOf, length_hexOf, heven, decide_true, Bool.and_true]

theorem hexPairs_hexText (bytes : List UInt8) :
    Text.hexPairs ((hexText bytes).text.drop 2) = some bytes :=
  Text.hexPairs_digits bytes

theorem keccak256_of_bytes {input : HexData} {bytes : List UInt8}
    (h : Text.hexPairs (input.text.drop 2) = some bytes) :
    BlockHash.text <$> keccak256 input.text =
      .ok (hexText (Keccak1600.keccak256 bytes)).text := by
  have hread : asHexData input.text = .ok input := by
    rw [asHexData, dif_pos input.valid]
  have hlength : (digest bytes).length = 32 := by
    rw [digest, List.length_map, List.length_range]
  have hhash : isHexOf 32 ('0' :: 'x' :: hexOf (digest bytes)) = true := by
    simp only [isHexOf, all_hexOf, length_hexOf, hlength, decide_true, Bool.and_true]
  rw [keccak256, hread, Evm.ok_bind, bytesOf, h, Option.getD_some, asBlockHash, dif_pos hhash]
  show Except.ok ('0' :: 'x' :: hexOf (digest bytes)) = _
  rw [digest_eq]
  rfl

/-- Every text of bytes has the hash that the sponge gives for its bytes, and every byte string
has a text. -/
theorem keccak256_is_sponge :
    (∀ input : HexData, ∃ bytes, Text.hexPairs (input.text.drop 2) = some bytes ∧
      BlockHash.text <$> keccak256 input.text =
        .ok (hexText (Keccak1600.keccak256 bytes)).text) ∧
    ∀ bytes : List UInt8, ∃ input : HexData, Text.hexPairs (input.text.drop 2) = some bytes := by
  refine ⟨fun input => ?_, fun bytes => ⟨hexText bytes, hexPairs_hexText bytes⟩⟩
  obtain ⟨bytes, hbytes⟩ := hexPairs_text input
  exact ⟨bytes, hbytes, keccak256_of_bytes hbytes⟩


end Keccak
end AlphaForge
