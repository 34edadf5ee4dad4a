/-
Hexadecimal text behind `0x`, in either case.

What is read is the number or the bytes that the digits spell, so that two texts agree
after `toLowerCase` exactly when what is read of them does.
-/
import AlphaForge.Text.Digits
import Mathlib.Data.List.Induction

namespace Text

def hexValue (d : Char) : Option Nat :=
  if '0' ≤ d ∧ d ≤ '9' then some (d.toNat - '0'.toNat)
  else if 'a' ≤ d ∧ d ≤ 'f' then some (d.toNat - 'a'.toNat + 10)
  else if 'A' ≤ d ∧ d ≤ 'F' then some (d.toNat - 'A'.toNat + 10)
  else none

def ofHex (ds : List Char) : Option Nat :=
  ds.foldlM (fun acc d => do return acc * 16 + (← hexValue d)) 0

def hexPairs : List Char → Option (List UInt8)
  | [] => some []
  | hi :: lo :: rest => do
      let b := (← hexValue hi) * 16 + (← hexValue lo)
      return UInt8.ofNat b :: (← hexPairs rest)
  | _ => none

/-- The digits of a text that begins with `0x`. -/
def hexDigitsOf (text : String) : Option (List Char) :=
  match text.toList with
  | '0' :: 'x' :: ds => some ds
  | _ => none

/-- A text of `k` digits. -/
def ofHexText (k : Nat) (text : String) : Option Nat := do
  let ds ← hexDigitsOf text
  if ds.length = k then ofHex ds else none

/-- A number without leading zeros, of at most 64 digits. -/
def ofQuantity (text : String) : Option Nat := do
  let ds ← hexDigitsOf text
  if ds = ['0'] ∨ (ds.length ≤ 64 ∧ ds.head?.any (· ≠ '0')) then ofHex ds else none

/-- One byte or more. -/
def ofHexBytes (text : String) : Option (List UInt8) := do
  let ds ← hexDigitsOf text
  if ds = [] then none else hexPairs ds

example : ofQuantity "0xB626" = some 46630 := by decide

/-- Any whole number of bytes. -/
def ofHexData (text : String) : Option (List UInt8) := do
  hexPairs (← hexDigitsOf text)

/-! ## What was written is read -/

theorem hexValue_digitChar {d : Nat} (h : d < 16) : hexValue d.digitChar = some d := by
  interval_cases d <;> decide

theorem ofHex_hexDigits (k n : Nat) : ofHex (hexDigits k n) = some (n % 16 ^ k) := by
  induction k generalizing n with
  | zero =>
      rw [Nat.pow_zero, Nat.mod_one]
      rfl
  | succ k ih =>
      have hfold := ih (n / 16)
      rw [ofHex] at hfold ⊢
      rw [hexDigits, List.foldlM_append, hfold]
      have hlast : hexValue (n % 16).digitChar = some (n % 16) :=
        hexValue_digitChar (Nat.mod_lt n (by decide))
      simp only [Option.bind_eq_bind, Option.bind_some, List.foldlM_cons, List.foldlM_nil, hlast,
        Option.pure_def]
      rw [Nat.pow_succ, Nat.mul_comm (16 ^ k), Nat.mod_mul, Nat.mul_comm, Nat.add_comm]

theorem ofHexText_hexText {k n : Nat} (h : n < 16 ^ k) : ofHexText k (hexText k n) = some n := by
  have hdigits : hexDigitsOf (hexText k n) = some (hexDigits k n) := by
    simp only [hexDigitsOf, hexText, String.toList_ofList]
  rw [ofHexText, hdigits]
  show (if (hexDigits k n).length = k then ofHex (hexDigits k n) else none) = some n
  rw [if_pos (length_hexDigits k n), ofHex_hexDigits, Nat.mod_eq_of_lt h]

theorem hexPairs_digits (data : List UInt8) :
    hexPairs (data.flatMap fun b : UInt8 => hexDigits 2 b.toNat) = some data := by
  induction data with
  | nil => rfl
  | cons b rest ih =>
      have hlt : b.toNat < 256 := b.toNat_lt
      have hhigh : hexValue (b.toNat / 16 % 16).digitChar = some (b.toNat / 16) := by
        rw [Nat.mod_eq_of_lt (by omega), hexValue_digitChar (by omega)]
      have hlow : hexValue (b.toNat % 16).digitChar = some (b.toNat % 16) :=
        hexValue_digitChar (Nat.mod_lt _ (by decide))
      have hbyte : UInt8.ofNat (b.toNat / 16 * 16 + b.toNat % 16) = b := by
        rw [Nat.div_add_mod', UInt8.ofNat_toNat]
      show hexPairs ((b.toNat / 16 % 16).digitChar :: (b.toNat % 16).digitChar ::
        rest.flatMap fun b : UInt8 => hexDigits 2 b.toNat) = _
      simp only [hexPairs, hhigh, hlow, ih, Option.bind_eq_bind, Option.bind_some, hbyte,
        Option.pure_def]

end Text

/-! ## Words in either case

A number is written with the lower-case digits and filled up with zeros from the left.
Reading takes either case, so what is read and written again is the word in lower case. -/

namespace Text

def isHexChar (d : Char) : Bool := (hexValue d).isSome

def digitOf (d : Char) : Nat := (hexValue d).getD 0

/-- The number that a word of digits spells. -/
def ofHexWord (word : List Char) : Nat := word.foldl (fun acc d => acc * 16 + digitOf d) 0

variable {d : Char} {word : List Char} {k n : Nat}

theorem char_of_toNat {m : Nat} (h : d.toNat = m) : d = Char.ofNat m := by
  rw [← h, Char.ofNat_toNat]

/-- The digits are ten, and six letters twice. -/
theorem hexChar_cases (h : isHexChar d = true) :
    (48 ≤ d.toNat ∧ d.toNat ≤ 57) ∨ (97 ≤ d.toNat ∧ d.toNat ≤ 102) ∨
      (65 ≤ d.toNat ∧ d.toNat ≤ 70) := by
  unfold isHexChar hexValue at h
  split at h
  · next hdigit => exact Or.inl hdigit
  · split at h
    · next hlower => exact Or.inr (Or.inl hlower)
    · split at h
      · next hupper => exact Or.inr (Or.inr hupper)
      · cases h

/-- A digit in lower case is the digit of its value, and has it too. -/
theorem hexChar_spec (h : isHexChar d = true) :
    digitOf d < 16 ∧ (digitOf d).digitChar = d.toLower ∧ isHexChar d.toLower = true ∧
      digitOf d.toLower = digitOf d := by
  generalize hm : d.toNat = m
  obtain rfl := char_of_toNat hm
  rcases hexChar_cases h with hrange | hrange | hrange <;> rw [hm] at hrange <;>
    obtain ⟨hlow, hhigh⟩ := hrange <;> clear h hm <;> interval_cases m <;> decide

theorem isHexChar_digitChar (h : n < 16) : isHexChar n.digitChar = true := by
  rw [isHexChar, hexValue_digitChar h]
  rfl

theorem digitOf_digitChar (h : n < 16) : digitOf n.digitChar = n := by
  rw [digitOf, hexValue_digitChar h]
  rfl

theorem toLower_digitChar (h : n < 16) : n.digitChar.toLower = n.digitChar := by
  interval_cases n <;> decide

/-! ## Writing -/

theorem isHexChar_hexDigits : (hexDigits k n).all isHexChar = true := by
  induction k generalizing n with
  | zero => rfl
  | succ k ih =>
      rw [hexDigits, List.all_append, ih, List.all_cons, List.all_nil,
        isHexChar_digitChar (Nat.mod_lt n (by decide))]
      rfl

/-- What is written is in lower case. -/
theorem toLower_hexDigits : (hexDigits k n).map Char.toLower = hexDigits k n := by
  induction k generalizing n with
  | zero => rfl
  | succ k ih =>
      rw [hexDigits, List.map_append, ih, List.map_singleton,
        toLower_digitChar (Nat.mod_lt n (by decide))]

theorem hexDigits_zero : hexDigits k 0 = List.replicate k '0' := by
  induction k with
  | zero => rfl
  | succ k ih =>
      rw [hexDigits, Nat.zero_div, ih, List.replicate_succ']
      rfl

/-- The digits without leading zeros, filled up from the left. -/
theorem leftpad_toDigits (hk : 0 < k) (h : n < 16 ^ k) :
    List.leftpad k '0' (Nat.toDigits 16 n) = hexDigits k n := by
  induction n using Nat.strongRecOn generalizing k with
  | ind n ih =>
      obtain ⟨k, rfl⟩ := Nat.exists_eq_add_of_lt hk
      rw [Nat.zero_add] at h ⊢
      by_cases hsmall : n < 16
      · rw [Nat.toDigits_of_lt_base hsmall, hexDigits, Nat.div_eq_of_lt hsmall, hexDigits_zero,
          Nat.mod_eq_of_lt hsmall]
        rfl
      · have hlt : n / 16 < 16 ^ k :=
          Nat.div_lt_of_lt_mul (by rw [Nat.mul_comm, ← Nat.pow_succ]; exact h)
        have hpos : 0 < k := Nat.pos_of_ne_zero fun hzero => by
          rw [hzero, Nat.pow_zero] at hlt
          omega
        have hrest := ih (n / 16) (by omega) hpos hlt
        rw [List.leftpad] at hrest
        rw [Nat.toDigits_of_base_le (by decide) (by omega), hexDigits, ← hrest, List.leftpad,
          List.length_append, List.length_singleton, Nat.add_sub_add_right, List.append_assoc]

/-! ## Reading -/

theorem ofHexWord_append_singleton : ofHexWord (word ++ [d]) = ofHexWord word * 16 + digitOf d := by
  rw [ofHexWord, List.foldl_append]
  rfl

theorem ofHexWord_hexDigits : ofHexWord (hexDigits k n) = n % 16 ^ k := by
  induction k generalizing n with
  | zero =>
      rw [Nat.pow_zero, Nat.mod_one]
      rfl
  | succ k ih =>
      rw [hexDigits, ofHexWord_append_singleton, ih, digitOf_digitChar (Nat.mod_lt n (by decide)),
        Nat.pow_succ, Nat.mul_comm (16 ^ k), Nat.mod_mul, Nat.mul_comm, Nat.add_comm]

/-- What is read and written again is the word in lower case. -/
theorem hexDigits_ofHexWord (h : word.all isHexChar = true) :
    ofHexWord word < 16 ^ word.length ∧
      hexDigits word.length (ofHexWord word) = word.map Char.toLower := by
  induction word using List.reverseRecOn with
  | nil => exact ⟨Nat.one_pos, rfl⟩
  | append_singleton word d ih =>
      rw [List.all_append, Bool.and_eq_true, List.all_cons, List.all_nil, Bool.and_true] at h
      obtain ⟨hlt, hdigits⟩ := ih h.1
      obtain ⟨hdigit, hchar, -, -⟩ := hexChar_spec h.2
      rw [ofHexWord_append_singleton, List.length_append, List.length_singleton, hexDigits,
        List.map_append, List.map_singleton]
      have hhigh : (ofHexWord word * 16 + digitOf d) / 16 = ofHexWord word := by omega
      have hlow : (ofHexWord word * 16 + digitOf d) % 16 = digitOf d := by omega
      rw [hhigh, hlow, hdigits, hchar, Nat.pow_succ]
      exact ⟨by omega, rfl⟩

theorem ofHexWord_toLower (h : word.all isHexChar = true) :
    ofHexWord (word.map Char.toLower) = ofHexWord word := by
  obtain ⟨hlt, hdigits⟩ := hexDigits_ofHexWord h
  rw [← hdigits, ofHexWord_hexDigits, Nat.mod_eq_of_lt hlt]

end Text
