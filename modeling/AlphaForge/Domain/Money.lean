/-
Amounts of money as decimal text, `packages/domain/src/money.ts`.

`parseUnits` reads decimal text as a number of smallest units, and `formatUnits` writes
such a number with all of its digits behind the point.  A `Decimal` is what decimal text
spells, and its value is a fraction, so that both are compared with a multiplication by a
power of ten and not with each other.
-/
import AlphaForge.Domain.Vault
import AlphaForge.Text.Decimal
import Mathlib.Data.Rat.Cast.Order
import Mathlib.Tactic.FieldSimp
import Mathlib.Tactic.Ring

namespace AlphaForge
namespace Money

open Evm DomainVault

/-- `Number.isSafeInteger` and the range. -/
def checkPrecision (decimals : Int) : Except String Unit :=
  ensure (-maxSafeInteger ≤ decimals ∧ decimals ≤ maxSafeInteger ∧ 0 ≤ decimals ∧ decimals ≤ 36)
    "INVALID_PRECISION"

def parseUnits (value : String) (decimals : Int) : Except String String := do
  checkPrecision decimals
  ensure (value.length ≤ 115 ∧ Text.isPlainDecimal value = true) "INVALID_DECIMAL"
  let whole := Text.beforePoint value
  let fraction := (Text.afterPoint value).getD []
  ensure ((fraction.length : Int) ≤ decimals) "EXCESS_PRECISION"
  let result := Text.scaled decimals.toNat whole fraction
  return toString (← unsignedText result.repr)

def formatUnits (value : String) (decimals : Int) : Except String String := do
  let amount ← unsignedText value
  checkPrecision decimals
  if decimals = 0 then return toString amount
  let padded := Text.padStart (decimals.toNat + 1) (toString amount).toList
  -- a slice that ends or begins so many places before the end
  let cut := padded.length - decimals.toNat
  return String.ofList (padded.take cut ++ '.' :: padded.drop cut)

/-! ## Decimal numbers -/

/-- A number, and any digits behind its point. -/
structure Decimal where
  whole : Nat
  fraction : List Char
  digits : fraction.all Char.isDigit = true

namespace Decimal

variable (v : Decimal)

def text : String := Text.pointed (Nat.toDigits 10 v.whole) v.fraction

def value : ℚ := v.whole + Nat.ofDigitChars 10 v.fraction 0 / 10 ^ v.fraction.length

theorem beforePoint_text : Text.beforePoint v.text = Nat.toDigits 10 v.whole :=
  Text.beforePoint_pointed (Text.all_isDigit_toDigits v.whole)

theorem afterPoint_text : (Text.afterPoint v.text).getD [] = v.fraction := by
  rw [text, Text.afterPoint_pointed (Text.all_isDigit_toDigits v.whole)]
  split
  · next hnone => rw [hnone, Option.getD_none]
  · rw [Option.getD_some]

theorem isPlainDecimal_text : Text.isPlainDecimal v.text = true :=
  Text.isPlainDecimal_pointed (Text.all_isDigit_toDigits v.whole) (Text.isWhole_toDigits v.whole)
    v.digits

end Decimal

theorem toDigits_of_isWhole {ds : List Char} (h : Text.isWhole ds = true) :
    Nat.toDigits 10 (Nat.ofDigitChars 10 ds 0) = ds := by
  cases ds with
  | nil => cases h
  | cons d ds =>
      simp only [Text.isWhole, Bool.or_eq_true, Bool.and_eq_true, decide_eq_true_eq,
        List.isEmpty_iff] at h
      rcases h with ⟨rfl, rfl⟩ | ⟨⟨hlow, hhigh⟩, hdigits⟩
      · rfl
      · exact (Text.toDigits_ofDigitChars hlow hhigh hdigits).1

/-- The regular expression takes the texts of decimals, and nothing else. -/
theorem isPlainDecimal_iff {s : String} : Text.isPlainDecimal s = true ↔ ∃ v : Decimal, v.text = s := by
  constructor
  · intro h
    obtain ⟨hwhole, hfraction⟩ := (Bool.and_eq_true _ _).mp h
    have hsplit : Text.beforePoint s ++ s.toList.dropWhile (· ≠ '.') = s.toList :=
      List.takeWhile_append_dropWhile
    cases hrest : s.toList.dropWhile (· ≠ '.') with
    | nil =>
        refine ⟨⟨Nat.ofDigitChars 10 (Text.beforePoint s) 0, [], rfl⟩, ?_⟩
        rw [hrest, List.append_nil] at hsplit
        rw [Decimal.text, Text.pointed, if_pos rfl, toDigits_of_isWhole hwhole, hsplit,
          String.ofList_toList]
    | cons c ds =>
        have hpoint : c = '.' := by
          have hhead := List.head?_dropWhile_not (fun c : Char => decide (c ≠ '.')) s.toList
          rw [hrest] at hhead
          simpa using hhead
        rw [Text.afterPoint, hrest] at hfraction
        obtain ⟨hne, hdigits⟩ := (Bool.and_eq_true _ _).mp hfraction
        refine ⟨⟨Nat.ofDigitChars 10 (Text.beforePoint s) 0, ds, hdigits⟩, ?_⟩
        have hsome : ds ≠ [] := by
          rintro rfl
          cases hne
        rw [hrest, hpoint] at hsplit
        rw [Decimal.text, Text.pointed, if_neg hsome, toDigits_of_isWhole hwhole, hsplit,
          String.ofList_toList]
  · rintro ⟨v, rfl⟩
    exact v.isPlainDecimal_text

/-! ## Reading -/

theorem unsignedText_repr {n : Nat} {x : Int} :
    unsignedText n.repr = .ok x ↔ n ≤ 2 ^ 256 - 1 ∧ x = n := by
  have hmax : maxInteger = ((2 ^ 256 - 1 : Nat) : Int) := by decide
  simp only [unsignedText, bind_eq_ok, ensure_eq_ok, pure_eq_ok, exists_const, Text.ofDecimal_repr,
    hmax, Int.ofNat_le]
  constructor
  · rintro ⟨-, hle, rfl⟩
    exact ⟨hle, rfl⟩
  · rintro ⟨hle, rfl⟩
    have hdigits : n < 10 ^ (77 + 1) := by
      have hpow : 2 ^ 256 - 1 < 10 ^ (77 + 1) := by decide
      omega
    exact ⟨Text.isDecimal_repr hdigits, hle, rfl⟩

theorem checkPrecision_of {d : Nat} (hd : d ≤ 36) : checkPrecision d = .ok () := by
  have hrange : -maxSafeInteger ≤ (d : Int) ∧ (d : Int) ≤ maxSafeInteger ∧ 0 ≤ (d : Int) ∧
      (d : Int) ≤ 36 := by
    unfold maxSafeInteger
    omega
  exact ensure_of hrange _

/-- A fraction that is filled up with zeros is multiplied by as many tens. -/
theorem ofDigitChars_padEnd {k : Nat} {ds : List Char} :
    Nat.ofDigitChars 10 (Text.padEnd k ds) 0 = 10 ^ (k - ds.length) * Nat.ofDigitChars 10 ds 0 := by
  rw [Text.padEnd, Nat.ofDigitChars_append, Nat.ofDigitChars_replicate_zero]

theorem scaled_eq_value {v : Decimal} {d : Nat} (h : v.fraction.length ≤ d) :
    (Text.scaled d (Nat.toDigits 10 v.whole) v.fraction : ℚ) = v.value * 10 ^ d := by
  have hpow : (10 : ℚ) ^ d = 10 ^ (d - v.fraction.length) * 10 ^ v.fraction.length := by
    rw [← pow_add, Nat.sub_add_cancel h]
  have hne : (10 : ℚ) ^ v.fraction.length ≠ 0 := pow_ne_zero _ (by norm_num)
  rw [Text.scaled, ofDigitChars_padEnd, Nat.ofDigitChars_ten_toDigits, Decimal.value]
  push_cast
  rw [add_mul, hpow]
  field_simp

theorem parseUnits_eq_ok {s raw : String} {d : Nat} (hd : d ≤ 36) :
    parseUnits s d = .ok raw ↔ ∃ (v : Decimal) (x : Nat), v.text = s ∧ s.length ≤ 115 ∧
      v.fraction.length ≤ d ∧ (x : ℚ) = v.value * 10 ^ d ∧ x ≤ 2 ^ 256 - 1 ∧ raw = x.repr := by
  have hread : ∀ v : Decimal, v.text = s → (parseUnits s d = .ok raw ↔ s.length ≤ 115 ∧
      v.fraction.length ≤ d ∧ Text.scaled d (Nat.toDigits 10 v.whole) v.fraction ≤ 2 ^ 256 - 1 ∧
        raw = (Text.scaled d (Nat.toDigits 10 v.whole) v.fraction).repr) := by
    rintro v rfl
    simp only [parseUnits, checkPrecision_of hd, ok_bind, bind_eq_ok, ensure_eq_ok, exists_const,
      v.isPlainDecimal_text, and_true, v.beforePoint_text, v.afterPoint_text, Int.ofNat_le,
      Int.toNat_natCast, unsignedText_repr, pure_eq_ok, and_assoc, exists_and_left, exists_eq_left]
    rw [eq_comm (b := raw)]
    rfl
  constructor
  · intro h
    have hplain : Text.isPlainDecimal s = true := by
      simp only [parseUnits, checkPrecision_of hd, ok_bind, bind_eq_ok, ensure_eq_ok,
        exists_const] at h
      exact h.1.2
    obtain ⟨v, hv⟩ := isPlainDecimal_iff.mp hplain
    obtain ⟨hlength, hfraction, hmax, hraw⟩ := (hread v hv).mp h
    exact ⟨v, _, hv, hlength, hfraction, scaled_eq_value hfraction, hmax, hraw⟩
  · rintro ⟨v, x, hv, hlength, hfraction, hx, hmax, rfl⟩
    rw [← scaled_eq_value hfraction, Nat.cast_inj] at hx
    subst hx
    exact (hread v hv).mpr ⟨hlength, hfraction, hmax, rfl⟩

/-! ## Writing -/

section Writing

variable {d n : Nat}

/-- The digits of a number, with a zero before the point of a fraction. -/
def padded (d n : Nat) : List Char := Text.padStart (d + 1) (Nat.toDigits 10 n)

theorem length_padded : (padded d n).length = max (d + 1) (Nat.toDigits 10 n).length := by
  rw [padded, Text.padStart, List.length_append, List.length_replicate]
  omega

theorem all_isDigit_padded : (padded d n).all Char.isDigit = true :=
  Text.all_isDigit_padStart (Text.all_isDigit_toDigits n)

/-- What stands before the point has no zero in front but one of its own. -/
theorem isWhole_take : Text.isWhole ((padded d n).take ((padded d n).length - d)) = true := by
  have hlength := length_padded (d := d) (n := n)
  have hstarts := Text.isWhole_toDigits n
  by_cases hshort : (Nat.toDigits 10 n).length ≤ d
  · -- a number below one: the only digit before the point is a zero of the padding
    have hone : (padded d n).length - d = 1 := by omega
    have hzeros : d + 1 - (Nat.toDigits 10 n).length = d - (Nat.toDigits 10 n).length + 1 := by omega
    rw [hone, padded, Text.padStart, hzeros, List.replicate_succ]
    rfl
  · have hpad : padded d n = Nat.toDigits 10 n := by
      rw [padded, Text.padStart, Nat.sub_eq_zero_of_le (by omega)]
      rfl
    rw [hpad]
    generalize Nat.toDigits 10 n = ds at *
    cases ds with
    | nil => cases hstarts
    | cons c ds =>
        rw [List.length_cons] at hshort ⊢
        rw [show ds.length + 1 - d = ds.length - d + 1 by omega, List.take_succ_cons]
        simp only [Text.isWhole, Bool.or_eq_true, Bool.and_eq_true, decide_eq_true_eq,
          List.isEmpty_iff, List.all_eq_true] at hstarts ⊢
        rcases hstarts with ⟨rfl, rfl⟩ | ⟨hfirst, hdigits⟩
        · exact .inl ⟨rfl, List.take_nil⟩
        · exact .inr ⟨hfirst, fun x hx => hdigits x (List.mem_of_mem_take hx)⟩

/-- The decimal that is written for a number of smallest units. -/
def ofUnits (d n : Nat) : Decimal where
  whole := Nat.ofDigitChars 10 ((padded d n).take ((padded d n).length - d)) 0
  fraction := (padded d n).drop ((padded d n).length - d)
  digits := by
    rw [List.all_eq_true]
    exact fun x hx => List.all_eq_true.mp all_isDigit_padded x (List.mem_of_mem_drop hx)

theorem length_ofUnits_fraction : (ofUnits d n).fraction.length = d := by
  have hlength := length_padded (d := d) (n := n)
  show ((padded d n).drop ((padded d n).length - d)).length = d
  rw [List.length_drop]
  omega

theorem ofUnits_value : (ofUnits d n).value * 10 ^ d = n := by
  have hall : Nat.ofDigitChars 10 (padded d n) 0 = n := by
    rw [padded, Text.ofDigitChars_padStart, Nat.ofDigitChars_ten_toDigits]
  have hsum : n = 10 ^ d * (ofUnits d n).whole + Nat.ofDigitChars 10 (ofUnits d n).fraction 0 := by
    have hlength : ((padded d n).drop ((padded d n).length - d)).length = d := length_ofUnits_fraction
    rw [← List.take_append_drop ((padded d n).length - d) (padded d n), Nat.ofDigitChars_append,
      Nat.ofDigitChars_eq_ofDigitChars_zero, hlength] at hall
    exact hall.symm
  have hne : (10 : ℚ) ^ d ≠ 0 := pow_ne_zero _ (by norm_num)
  rw [Decimal.value, length_ofUnits_fraction, add_mul, div_mul_cancel₀ _ hne]
  conv_rhs => rw [hsum]
  push_cast
  ring

theorem formatUnits_repr (hd : d ≤ 36) (hn : n ≤ 2 ^ 256 - 1) :
    formatUnits n.repr d = .ok (ofUnits d n).text := by
  have hread : unsignedText n.repr = .ok (n : Int) := unsignedText_repr.mpr ⟨hn, rfl⟩
  have hdigits : (toString (n : Int)).toList = Nat.toDigits 10 n := Nat.toList_repr
  have hwhole : Nat.toDigits 10 (ofUnits d n).whole =
      (padded d n).take ((padded d n).length - d) := toDigits_of_isWhole isWhole_take
  have hlength := length_ofUnits_fraction (d := d) (n := n)
  rw [formatUnits, hread, ok_bind, checkPrecision_of hd, ok_bind, Decimal.text, hwhole,
    Text.pointed]
  by_cases hzero : d = 0
  · subst hzero
    have hnone : (ofUnits 0 n).fraction = [] := List.length_eq_zero_iff.mp hlength
    have hpad : padded 0 n = Nat.toDigits 10 n := by
      have hpos : 0 < (Nat.toDigits 10 n).length := List.length_pos_iff.mpr Nat.toDigits_ne_nil
      rw [padded, Text.padStart, Nat.sub_eq_zero_of_le (by omega)]
      rfl
    rw [if_pos Int.natCast_zero, if_pos hnone, hpad, Nat.sub_zero, List.take_length, ← hdigits,
      String.ofList_toList]
    rfl
  · have hsome : (ofUnits d n).fraction ≠ [] := by
      intro hnone
      rw [hnone] at hlength
      exact hzero hlength.symm
    rw [if_neg (by omega), if_neg hsome, hdigits, Int.toNat_natCast]
    rfl

/-- So long a text is never refused. -/
theorem length_text_ofUnits (hd : d ≤ 36) (hn : n ≤ 2 ^ 256 - 1) :
    (ofUnits d n).text.length ≤ 115 := by
  have hdigits : (Nat.toDigits 10 n).length ≤ 78 := by
    rw [Nat.length_toDigits_le_iff (by decide) (by decide)]
    have hpow : 2 ^ 256 - 1 < 10 ^ 78 := by decide
    omega
  have hlength := length_padded (d := d) (n := n)
  have hwhole : Nat.toDigits 10 (ofUnits d n).whole =
      (padded d n).take ((padded d n).length - d) := toDigits_of_isWhole isWhole_take
  have hfraction := length_ofUnits_fraction (d := d) (n := n)
  rw [Decimal.text, Text.pointed, hwhole, String.length_ofList]
  split
  · rw [List.length_take]
    omega
  · rw [List.length_append, List.length_cons, List.length_take, hfraction]
    omega

end Writing

/-! ## Both ways -/

/-- The number that a text denotes. -/
def Denotes (s : String) (q : ℚ) : Prop := ∃ v : Decimal, v.text = s ∧ v.value = q

theorem parseUnits_ofUnits {d n : Nat} (hd : d ≤ 36) (hn : n ≤ 2 ^ 256 - 1) :
    parseUnits (ofUnits d n).text d = .ok n.repr :=
  (parseUnits_eq_ok hd).mpr ⟨ofUnits d n, n, rfl, length_text_ofUnits hd hn,
    Nat.le_of_eq length_ofUnits_fraction, ofUnits_value.symm, hn, rfl⟩

/-- Writing and reading give back every amount, reading is multiplying by the power of ten
and writing undoes that, and what is read is all decimal text within the three limits. -/
theorem money_converted (d : Nat) (hd : d ≤ 36) :
    (∀ x : Nat, x ≤ 2 ^ 256 - 1 →
      ∃ text, formatUnits x.repr d = .ok text ∧ parseUnits text d = .ok x.repr) ∧
    (∀ s raw, parseUnits s d = .ok raw → ∃ (q : ℚ) (x : Nat),
      Denotes s q ∧ raw = x.repr ∧ (x : ℚ) = q * 10 ^ d ∧
      ∃ text, formatUnits raw d = .ok text ∧ Denotes text q) ∧
    (∀ s, (∃ raw, parseUnits s d = .ok raw) ↔ ∃ v : Decimal, v.text = s ∧ s.length ≤ 115 ∧
      v.fraction.length ≤ d ∧ v.value * 10 ^ d ≤ 2 ^ 256 - 1) := by
  have hne : (10 : ℚ) ^ d ≠ 0 := pow_ne_zero _ (by norm_num)
  refine ⟨fun x hx => ?_, fun s raw h => ?_, fun s => ⟨?_, ?_⟩⟩
  · exact ⟨(ofUnits d x).text, formatUnits_repr hd hx, parseUnits_ofUnits hd hx⟩
  · obtain ⟨v, x, hv, -, -, hx, hmax, rfl⟩ := (parseUnits_eq_ok hd).mp h
    have hsame : (ofUnits d x).value = v.value := by
      have hunits := ofUnits_value (d := d) (n := x)
      rw [hx] at hunits
      exact mul_right_cancel₀ hne hunits
    exact ⟨v.value, x, ⟨v, hv, rfl⟩, rfl, hx, (ofUnits d x).text, formatUnits_repr hd hmax,
      ofUnits d x, rfl, hsame⟩
  · rintro ⟨raw, h⟩
    obtain ⟨v, x, hv, hlength, hfraction, hx, hmax, -⟩ := (parseUnits_eq_ok hd).mp h
    refine ⟨v, hv, hlength, hfraction, ?_⟩
    rw [← hx]
    have hcast : (x : ℚ) ≤ ((2 ^ 256 - 1 : Nat) : ℚ) := Nat.cast_le.mpr hmax
    exact hcast.trans_eq (by norm_num)
  · rintro ⟨v, hv, hlength, hfraction, hmax⟩
    rw [← scaled_eq_value hfraction] at hmax
    have hcast : ((2 ^ 256 - 1 : Nat) : ℚ) = 2 ^ 256 - 1 := by norm_num
    rw [← hcast, Nat.cast_le] at hmax
    exact ⟨_, (parseUnits_eq_ok hd).mpr ⟨v, _, hv, hlength, hfraction, scaled_eq_value hfraction,
      hmax, rfl⟩⟩

theorem six_decimals_converted :
    (∃ text, formatUnits "1500000" 6 = .ok text ∧ parseUnits text 6 = .ok "1500000") ∧
    (∃ (q : ℚ) (x : Nat), Denotes "1.5" q ∧ "1500000" = x.repr ∧ (x : ℚ) = q * 10 ^ 6 ∧
      ∃ text, formatUnits "1500000" 6 = .ok text ∧ Denotes text q) ∧
    ∃ v : Decimal, v.text = "1.5" ∧ v.fraction.length ≤ 6 := by
  obtain ⟨hback, hread, htaken⟩ := money_converted 6 (by decide)
  have hparsed : parseUnits "1.5" 6 = .ok "1500000" := by decide +kernel
  obtain ⟨v, hv, -, hfraction, -⟩ := (htaken "1.5").mp ⟨_, hparsed⟩
  exact ⟨hback 1500000 (by decide +kernel), hread "1.5" "1500000" hparsed, v, hv, hfraction⟩

example : formatUnits "5" 3 = .ok "0.005" ∧ parseUnits "1.50" 1 = .error "EXCESS_PRECISION" := by
  decide +kernel

end Money
end AlphaForge
