/-
The hash of the chain adapter, `keccak.ts`.

Lanes are integers of any size that are masked by hand, and the complement of a lane is
negative until it is masked by the lane it is combined with.
-/
import AlphaForge.ChainAdapter.VaultAbi
import Mathlib.Data.Int.Bitwise

namespace AlphaForge
namespace Keccak

open VaultAbi (HexData asHexData isHexOf)

/-! ## The permutation -/

def mask64 : Int := (1 : Int) <<< (64 : Int) - 1

def rateBytes : Nat := 136

def rotations : List Nat :=
  [0, 1, 62, 28, 27, 36, 44, 6, 55, 20, 3, 10, 43, 25, 39, 41, 45, 15, 21, 8, 18, 2, 61, 56, 14]

def roundConstants : List Int :=
  [0x0000000000000001,
    0x0000000000008082,
    0x800000000000808a,
    0x8000000080008000,
    0x000000000000808b,
    0x0000000080000001,
    0x8000000080008081,
    0x8000000000008009,
    0x000000000000008a,
    0x0000000000000088,
    0x0000000080008009,
    0x000000008000000a,
    0x000000008000808b,
    0x800000000000008b,
    0x8000000000008089,
    0x8000000000008003,
    0x8000000000008002,
    0x8000000000000080,
    0x000000000000800a,
    0x800000008000000a,
    0x8000000080008081,
    0x8000000000008080,
    0x0000000080000001,
    0x8000000080008008]

def rotateLeft (value : Int) (count : Nat) : Int :=
  if count = 0 then Int.land value mask64
  else
    let shift : Int := count
    Int.land (Int.lor (value <<< shift) (value >>> (64 - shift))) mask64

/-- `array[index]!`. -/
def entry (array : List Int) (index : Nat) : Int := array.getD index 0

/-- `array[index] = value(array[index]!)`. -/
def update (array : List Int) (index : Nat) (value : Int → Int) : List Int :=
  array.set index (value (entry array index))

/-- `columns[x] = ...`. -/
def columnParities (state : List Int) : List Int :=
  (List.range 5).foldl
    (fun columns x => update columns x fun _ =>
      Int.xor (Int.xor (Int.xor (Int.xor (entry state x) (entry state (x + 5)))
        (entry state (x + 10))) (entry state (x + 15))) (entry state (x + 20)))
    (List.replicate 5 0)

/-- `state[x + 5 * y] = state[x + 5 * y]! ^ delta`. -/
def mixColumns (columns state : List Int) : List Int :=
  (List.range 5).foldl
    (fun state x =>
      let delta := Int.xor (entry columns ((x + 4) % 5)) (rotateLeft (entry columns ((x + 1) % 5)) 1)
      (List.range 5).foldl
        (fun state y => update state (x + 5 * y) fun lane => Int.xor lane delta) state)
    state

/-- `mixed[destinationX + 5 * destinationY] = ...`. -/
def moveLanes (state : List Int) : List Int :=
  (List.range 5).foldl
    (fun mixed x => (List.range 5).foldl
      (fun mixed y =>
        let destinationX := y
        let destinationY := (2 * x + 3 * y) % 5
        update mixed (destinationX + 5 * destinationY) fun _ =>
          rotateLeft (entry state (x + 5 * y)) (rotations.getD (x + 5 * y) 0))
      mixed)
    (List.replicate 25 0)

/-- `state[x + 5 * y] = mixed[x + 5 * y]! ^ ...`. -/
def combineRows (mixed state : List Int) : List Int :=
  (List.range 5).foldl
    (fun state y => (List.range 5).foldl
      (fun state x => update state (x + 5 * y) fun _ =>
        Int.xor (entry mixed (x + 5 * y))
          (Int.land (~~~ entry mixed ((x + 1) % 5 + 5 * y)) (entry mixed ((x + 2) % 5 + 5 * y))))
      state)
    state

/-- One turn of the loop over `roundConstants`. -/
def round (state : List Int) (constant : Int) : List Int :=
  let state := mixColumns (columnParities state) state
  let state := combineRows (moveLanes state) state
  update state 0 fun lane => Int.xor lane constant

def permutation (state : List Int) : List Int := roundConstants.foldl round state

/-! ## The sponge -/

/-- `paddedLength`. -/
def paddedLength (bytes : List UInt8) : Nat :=
  (bytes.length + 1 + (rateBytes - 1)) / rateBytes * rateBytes

def pad (bytes : List UInt8) : List UInt8 :=
  let padded := bytes ++ List.replicate (paddedLength bytes - bytes.length) 0
  let padded := padded.set bytes.length 0x01
  padded.set (padded.length - 1) (padded.getD (padded.length - 1) 0 ||| 0x80)

/-- The eight bytes of a lane. -/
def laneValue (padded : List UInt8) (start : Nat) : Int :=
  (List.range 8).foldl
    (fun value byte =>
      Int.lor value (((padded.getD (start + byte) 0).toNat : Int) <<< ((byte * 8 : Nat) : Int)))
    0

def absorbBlock (padded : List UInt8) (offset : Nat) (state : List Int) : List Int :=
  (List.range (rateBytes / 8)).foldl
    (fun state lane => update state lane fun value =>
      Int.xor value (laneValue padded (offset + lane * 8)))
    state

/-- The loop over the offsets, from the one it has reached. -/
def absorb (padded : List UInt8) (offset : Nat) (state : List Int) : List Int :=
  if offset < padded.length then
    absorb padded (offset + rateBytes) (permutation (absorbBlock padded offset state))
  else state
termination_by padded.length - offset
decreasing_by
  unfold rateBytes
  omega

def outputByte (state : List Int) (index : Nat) : UInt8 :=
  UInt8.ofNat
    (Int.land (entry state (index / 8) >>> ((index % 8 * 8 : Nat) : Int)) 0xff).toNat

def digest (bytes : List UInt8) : List UInt8 :=
  let state := absorb (pad bytes) 0 (List.replicate 25 0)
  (List.range 32).map (outputByte state)

/-! ## Text -/

structure BlockHash where
  text : List Char
  valid : isHexOf 32 text = true

def asBlockHash (value : List Char) : Except String BlockHash :=
  if h : isHexOf 32 value = true then .ok ⟨value, h⟩ else .error "INVALID_BLOCK_HASH"

/-- `Buffer.from(digits, 'hex')`, of whole pairs of digits. -/
def bytesOf (digits : List Char) : List UInt8 := (Text.hexPairs digits).getD []

/-- `Buffer.from(bytes).toString('hex')`. -/
def hexOf (bytes : List UInt8) : List Char := bytes.flatMap fun b => Text.hexDigits 2 b.toNat

def keccak256 (input : List Char) : Except String BlockHash := do
  let normalized ← asHexData input
  asBlockHash ('0' :: 'x' :: hexOf (digest (bytesOf (normalized.text.drop 2))))

end Keccak
end AlphaForge
