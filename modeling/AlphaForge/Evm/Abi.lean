/-
The ABI encoding of event logs with static arguments.

Each argument fills one 32-byte word, an indexed one among the topics and any
other in the data.  Reading masks an integer to its width, takes any word that is
not zero as true and refuses a word too large for an address, so it accepts words
that no encoder writes; reading what was written gives the arguments back.
Addresses and digests are printed in lowercase hexadecimal.
-/
import AlphaForge.Evm.Exec
import AlphaForge.Text.Digits
import Mathlib.Data.List.Forall2

namespace Evm

def addressText (a : Address) : String := Text.hexText 40 a.toNat

def digestText (w : Bytes32) : String := Text.hexText 64 w.toNat

theorem addressText_injective {a b : Address} (h : addressText a = addressText b) : a = b := by
  have hlt : ∀ x : Address, x.toNat < 16 ^ 40 := fun x => x.isLt
  exact BitVec.eq_of_toNat_eq (Text.hexText_injective (hlt a) (hlt b) h)

inductive AbiType where
  | uint (bits : Nat)
  | bool
  | address
  deriving DecidableEq

inductive AbiValue where
  | uint (n : Nat)
  | bool (b : Bool)
  | address (a : Address)
  deriving DecidableEq

structure Param where
  name : String
  type : AbiType
  indexed : Bool

structure Fragment where
  name : String
  /-- The keccak digest of the name and the argument types. -/
  topicHash : Bytes32
  inputs : List Param

def AbiValue.word : AbiValue → Bytes32
  | .uint n => BitVec.ofNat 256 n
  | .bool b => if b then 1 else 0
  | .address a => a.setWidth 256

def AbiType.decode (w : Bytes32) : AbiType → Except String AbiValue
  | .uint bits => .ok (.uint (w.toNat % 2 ^ bits))
  | .bool => .ok (.bool (w ≠ 0))
  | .address =>
      if w.toNat < 2 ^ 160 then .ok (.address (w.setWidth 160)) else .error "NUMERIC_FAULT"

def encodeWords : List Param → List AbiValue → List Bytes32 × List Bytes32
  | p :: ps, v :: vs =>
      let (topics, data) := encodeWords ps vs
      if p.indexed then (v.word :: topics, data) else (topics, v.word :: data)
  | _, _ => ([], [])

def decodeWords : List Param → List Bytes32 → List Bytes32 → Except String (List AbiValue)
  | [], _, _ => .ok []
  | p :: ps, topics, data =>
      if p.indexed then
        match topics with
        | [] => .error "BUFFER_OVERRUN"
        | w :: topics => do
            let v ← p.type.decode w
            return v :: (← decodeWords ps topics data)
      else
        match data with
        | [] => .error "BUFFER_OVERRUN"
        | w :: data => do
            let v ← p.type.decode w
            return v :: (← decodeWords ps topics data)

/-- The topics and the data of an event. -/
def encodeEventLog (f : Fragment) (values : List AbiValue) : List Bytes32 × List Bytes32 :=
  let (topics, data) := encodeWords f.inputs values
  (f.topicHash :: topics, data)

def decodeEventLog (f : Fragment) (data topics : List Bytes32) : Except String (List AbiValue) :=
  match topics with
  | [] => .error "INVALID_ARGUMENT"
  | topic :: rest =>
      if topic = f.topicHash then decodeWords f.inputs rest data else .error "INVALID_ARGUMENT"

/-! ## Reading what was written -/

def AbiType.Holds : AbiType → AbiValue → Prop
  | .uint bits, .uint n => bits ≤ 256 ∧ n < 2 ^ bits
  | .bool, .bool _ => True
  | .address, .address _ => True
  | _, _ => False

@[simp] theorem AbiType.bool_holds (b : Bool) : AbiType.bool.Holds (.bool b) := trivial

@[simp] theorem AbiType.address_holds (a : Address) : AbiType.address.Holds (.address a) := trivial

theorem AbiType.decode_word {t : AbiType} {v : AbiValue} (h : t.Holds v) :
    t.decode v.word = .ok v := by
  cases t with
  | uint bits =>
      cases v with
      | uint n =>
          have hlt : n < 2 ^ 256 := Nat.lt_of_lt_of_le h.2 (Nat.pow_le_pow_right (by decide) h.1)
          simp only [AbiType.decode, AbiValue.word, BitVec.toNat_ofNat, Nat.mod_eq_of_lt hlt,
            Nat.mod_eq_of_lt h.2]
      | bool b => cases h
      | address a => cases h
  | bool =>
      cases v with
      | uint n => cases h
      | bool b => cases b <;> rfl
      | address a => cases h
  | address =>
      cases v with
      | uint n => cases h
      | bool b => cases h
      | address a =>
          have hlt : (a.setWidth 256).toNat < 2 ^ 160 := by
            rw [BitVec.toNat_setWidth_of_le (by decide)]
            exact a.isLt
          simp only [AbiType.decode, AbiValue.word]
          rw [BitVec.setWidth_setWidth_of_le a (by decide), BitVec.setWidth_eq]
          exact if_pos hlt

theorem decodeWords_encodeWords {ps : List Param} {vs : List AbiValue}
    (h : List.Forall₂ (fun p v => p.type.Holds v) ps vs) :
    decodeWords ps (encodeWords ps vs).1 (encodeWords ps vs).2 = .ok vs := by
  induction h with
  | nil => rfl
  | @cons p v ps vs hv _ ih =>
      by_cases hindexed : p.indexed = true
      · simp only [encodeWords, decodeWords, hindexed, if_true, AbiType.decode_word hv, ih]
        rfl
      · simp only [encodeWords, decodeWords, hindexed, Bool.false_eq_true, if_false,
          AbiType.decode_word hv, ih]
        rfl

theorem decodeEventLog_encodeEventLog {f : Fragment} {vs : List AbiValue}
    (h : List.Forall₂ (fun p v => p.type.Holds v) f.inputs vs) :
    decodeEventLog f (encodeEventLog f vs).2 (encodeEventLog f vs).1 = .ok vs := by
  simp only [decodeEventLog, encodeEventLog, if_true]
  exact decodeWords_encodeWords h

end Evm
