/-
Decimal text with digits behind a point, and `BigInt` of a text.

An amount with `k` decimals is a number of its smallest unit.  Its text is padded to
`k` digits behind the point and stripped of the zeros at its end; what is read back is
padded again.
-/
import AlphaForge.Text.Hex
import Mathlib.Data.List.DropRight

namespace Text

/-! ## Digits behind a point -/

/-- `split('.')`: what stands before the first point. -/
def beforePoint (v : String) : List Char := v.toList.takeWhile (· ≠ '.')

/-- What stands behind the first point, if there is one. -/
def afterPoint (v : String) : Option (List Char) := (v.toList.dropWhile (· ≠ '.')).tail?

/-- `0`, or a first digit that is not zero and any more. -/
def isWhole : List Char → Bool
  | [] => false
  | d :: ds => (d = '0' && ds.isEmpty) || ('1' ≤ d && d ≤ '9' && ds.all Char.isDigit)

/-- `/^(0|[1-9][0-9]*)(\.[0-9]+)?$/`. -/
def isPlainDecimal (v : String) : Bool :=
  isWhole (beforePoint v) && (afterPoint v).all fun ds => !ds.isEmpty && ds.all Char.isDigit

/-- `padStart(k, '0')`. -/
def padStart (k : Nat) (ds : List Char) : List Char := List.replicate (k - ds.length) '0' ++ ds

/-- `padEnd(k, '0')`. -/
def padEnd (k : Nat) (ds : List Char) : List Char := ds ++ List.replicate (k - ds.length) '0'

/-- `replace(/0+$/, '')`. -/
def stripZeros (ds : List Char) : List Char := ds.rdropWhile (· = '0')

/-- The smallest units that digits before and behind the point stand for. -/
def scaled (k : Nat) (whole fraction : List Char) : Nat :=
  Nat.ofDigitChars 10 whole 0 * 10 ^ k + Nat.ofDigitChars 10 (padEnd k fraction) 0

/-- The digits, and behind a point those that are left of the fraction. -/
def pointed (whole fraction : List Char) : String :=
  String.ofList (if fraction = [] then whole else whole ++ '.' :: fraction)

/-! ### Padding and stripping -/

theorem length_padStart {k : Nat} {ds : List Char} (h : ds.length ≤ k) :
    (padStart k ds).length = k := by
  rw [padStart, List.length_append, List.length_replicate]
  omega

theorem ofDigitChars_padStart (k : Nat) (ds : List Char) :
    Nat.ofDigitChars 10 (padStart k ds) 0 = Nat.ofDigitChars 10 ds 0 := by
  rw [padStart, Nat.ofDigitChars_append, Nat.ofDigitChars_replicate_zero, Nat.mul_zero]

theorem all_isDigit_replicate (k : Nat) : (List.replicate k '0').all Char.isDigit = true := by
  rw [List.all_replicate]
  split <;> rfl

theorem all_isDigit_padStart {k : Nat} {ds : List Char} (h : ds.all Char.isDigit = true) :
    (padStart k ds).all Char.isDigit = true := by
  rw [padStart, List.all_append, all_isDigit_replicate, h]
  rfl

/-- What was stripped is zeros, as many as are missing. -/
theorem stripZeros_append (ds : List Char) :
    stripZeros ds ++ List.replicate (ds.length - (stripZeros ds).length) '0' = ds := by
  have hsplit := List.rdropWhile_append_rtakeWhile (p := fun d : Char => decide (d = '0')) (l := ds)
  have hzeros : ds.rtakeWhile (fun d => decide (d = '0')) =
      List.replicate (ds.rtakeWhile fun d => decide (d = '0')).length '0' := by
    refine List.eq_replicate_of_mem fun d hd => ?_
    exact of_decide_eq_true (List.mem_rtakeWhile_imp (p := fun d => decide (d = '0')) hd)
  have hlength := congrArg List.length hsplit
  rw [List.length_append] at hlength
  have hcount : ds.length - (stripZeros ds).length =
      (ds.rtakeWhile fun d => decide (d = '0')).length := by
    unfold stripZeros
    omega
  rw [hcount, ← hzeros]
  exact hsplit

theorem padEnd_stripZeros {k : Nat} {ds : List Char} (h : ds.length = k) :
    padEnd k (stripZeros ds) = ds := by
  subst h
  exact stripZeros_append ds

theorem length_stripZeros_le (ds : List Char) : (stripZeros ds).length ≤ ds.length :=
  ( List.rdropWhile_prefix (fun d : Char => decide (d = '0')) (l := ds)).length_le

theorem all_isDigit_stripZeros {ds : List Char} (h : ds.all Char.isDigit = true) :
    (stripZeros ds).all Char.isDigit = true := by
  rw [List.all_eq_true] at h ⊢
  intro d hd
  exact h d (( List.rdropWhile_prefix (fun d : Char => decide (d = '0')) (l := ds)).subset hd)

/-! ### The text of an amount -/

theorem all_isDigit_toDigits (n : Nat) : (Nat.toDigits 10 n).all Char.isDigit = true := by
  rw [List.all_eq_true]
  intro d hd
  exact Nat.isDigit_of_mem_toDigits (by decide) (by decide) hd

theorem isWhole_toDigits (n : Nat) : isWhole (Nat.toDigits 10 n) = true := by
  rcases Nat.eq_zero_or_pos n with rfl | hpos
  · rfl
  · obtain ⟨d, ds, hd, hlow, hhigh⟩ := toDigits_head hpos
    have hdigits := all_isDigit_toDigits n
    rw [hd, List.all_cons, Bool.and_eq_true] at hdigits
    rw [hd]
    simp only [isWhole, Bool.or_eq_true, Bool.and_eq_true, decide_eq_true_eq]
    exact .inr ⟨⟨hlow, hhigh⟩, hdigits.2⟩

theorem ne_point_of_isDigit {ds : List Char} (h : ds.all Char.isDigit = true) :
    ∀ d ∈ ds, decide (d ≠ '.') = true := by
  intro d hd
  rw [List.all_eq_true] at h
  refine decide_eq_true fun hpoint => ?_
  have hdigit := h d hd
  rw [hpoint] at hdigit
  cases hdigit

section Pointed

variable {whole fraction : List Char} (hwhole : whole.all Char.isDigit = true)

include hwhole

theorem beforePoint_pointed : beforePoint (pointed whole fraction) = whole := by
  have hdigits := ne_point_of_isDigit hwhole
  unfold beforePoint pointed
  rw [String.toList_ofList]
  split
  · exact List.takeWhile_eq_self_iff.mpr hdigits
  · rw [List.takeWhile_append_of_pos hdigits, List.takeWhile_cons_of_neg (by decide),
      List.append_nil]

theorem afterPoint_pointed :
    afterPoint (pointed whole fraction) = if fraction = [] then none else some fraction := by
  have hdigits := ne_point_of_isDigit hwhole
  unfold afterPoint pointed
  rw [String.toList_ofList]
  split
  · rw [List.dropWhile_eq_nil_iff.mpr hdigits]
    rfl
  · rw [List.dropWhile_append_of_pos hdigits, List.dropWhile_cons_of_neg (by decide)]
    rfl

theorem isPlainDecimal_pointed (hfirst : isWhole whole = true)
    (hfraction : fraction.all Char.isDigit = true) :
    isPlainDecimal (pointed whole fraction) = true := by
  rw [isPlainDecimal, beforePoint_pointed hwhole, afterPoint_pointed hwhole, hfirst]
  split
  · rfl
  · next hsome => simp [hsome, hfraction]

end Pointed

/-! ## `BigInt` -/

/-- White space and ends of lines. -/
def isStrWhiteSpace (c : Char) : Bool :=
  [9, 10, 11, 12, 13, 32, 0xa0, 0x1680, 0x2028, 0x2029, 0x202f, 0x205f, 0x3000, 0xfeff].contains
    c.toNat || (0x2000 ≤ c.toNat && c.toNat ≤ 0x200a)

/-- One digit or more of a base up to sixteen. -/
def ofRadix (base : Nat) (ds : List Char) : Option Int :=
  if ds = [] then none
  else (ds.foldlM (fun acc d => do
    let v ← hexValue d
    if v < base then some (base * acc + v) else none) 0).map Int.ofNat

/-- `BigInt` of a text, which throws on what is no number. -/
def bigInt (v : String) : Option Int :=
  match (v.toList.dropWhile isStrWhiteSpace).rdropWhile isStrWhiteSpace with
  | [] => some 0
  | '0' :: 'x' :: ds | '0' :: 'X' :: ds => ofRadix 16 ds
  | '0' :: 'o' :: ds | '0' :: 'O' :: ds => ofRadix 8 ds
  | '0' :: 'b' :: ds | '0' :: 'B' :: ds => ofRadix 2 ds
  | '+' :: ds => ofRadix 10 ds
  | '-' :: ds => (ofRadix 10 ds).map (-·)
  | ds => ofRadix 10 ds

theorem hexValue_of_isDigit {d : Char} (h : d.isDigit = true) :
    hexValue d = some (d.toNat - '0'.toNat) ∧ d.toNat - '0'.toNat < 10 := by
  obtain ⟨hlow, hhigh⟩ := Char.isDigit_iff_toNat.mp h
  have h57 : '9'.toNat = 57 := rfl
  have h48 : '0'.toNat = 48 := rfl
  have hrange : '0' ≤ d ∧ d ≤ '9' := ⟨hlow, hhigh⟩
  exact ⟨by rw [hexValue, if_pos hrange], by omega⟩

theorem ofRadix_ten {ds : List Char} (hne : ds ≠ []) (h : ds.all Char.isDigit = true) :
    ofRadix 10 ds = some (Nat.ofDigitChars 10 ds 0 : Int) := by
  have hfold : ∀ (es : List Char) (acc : Nat), es.all Char.isDigit = true →
      es.foldlM (fun acc d => do
        let v ← hexValue d
        if v < 10 then some (10 * acc + v) else none) acc =
      some (Nat.ofDigitChars 10 es acc) := by
    intro es
    induction es with
    | nil => intro acc _; rfl
    | cons d es ih =>
        intro acc hes
        rw [List.all_cons, Bool.and_eq_true] at hes
        obtain ⟨hvalue, hlt⟩ := hexValue_of_isDigit hes.1
        simp only [List.foldlM_cons, hvalue, Option.bind_eq_bind, Option.bind_some, if_pos hlt,
          Nat.ofDigitChars_cons]
        exact ih _ hes.2
  rw [ofRadix, if_neg hne, hfold ds 0 h]
  rfl

theorem not_isStrWhiteSpace {d : Char} (h : d.isDigit = true) : isStrWhiteSpace d = false := by
  obtain ⟨hlow, hhigh⟩ := Char.isDigit_iff_toNat.mp h
  have h57 : '9'.toNat = 57 := rfl
  have h48 : '0'.toNat = 48 := rfl
  have hcode : d.toNat = d.toNat - 48 + 48 := by omega
  have hten : d.toNat - 48 < 10 := by omega
  rw [isStrWhiteSpace, hcode]
  interval_cases d.toNat - 48 <;> rfl

/-- Digits are read in base ten, whatever they begin with. -/
theorem bigInt_of_digits {v : String} (hne : v.toList ≠ [])
    (h : v.toList.all Char.isDigit = true) : bigInt v = some (ofDecimal v : Int) := by
  have hspace : ∀ d ∈ v.toList, ¬ isStrWhiteSpace d = true := fun d hd => by
    rw [not_isStrWhiteSpace (List.all_eq_true.mp h d hd)]
    exact Bool.false_ne_true
  have hstart : v.toList.dropWhile isStrWhiteSpace = v.toList := by
    rw [List.dropWhile_eq_self_iff]
    exact fun hlength => hspace _ (List.getElem_mem hlength)
  have hend : v.toList.rdropWhile isStrWhiteSpace = v.toList :=
    List.rdropWhile_eq_self_iff.mpr fun hl => hspace _ (List.getLast_mem hl)
  unfold bigInt ofDecimal
  rw [hstart, hend]
  -- no letter and no sign is a digit
  split <;> simp_all [ofRadix_ten]

theorem bigInt_of_isDecimal {k : Nat} {v : String} (h : isDecimal k v = true) :
    bigInt v = some (ofDecimal v : Int) := by
  have hrepr := repr_ofDecimal h
  have hlist : v.toList = Nat.toDigits 10 (ofDecimal v) := by
    rw [← Nat.toList_repr, hrepr]
  refine bigInt_of_digits ?_ ?_
  · rw [hlist]
    exact Nat.toDigits_ne_nil
  · rw [hlist]
    exact all_isDigit_toDigits _

example : bigInt " 0x1F\n" = some 31 := by decide

end Text
