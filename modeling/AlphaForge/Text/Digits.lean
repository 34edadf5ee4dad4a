/-
Numbers as text.

Decimal text is what a big integer prints as, without sign or leading zero, and
fixed-width lowercase hexadecimal is what a byte string of known length prints as.
Both are read back to the number they came from, so two numbers with the same text
are equal.
-/
import Mathlib.Data.List.Induction
import Mathlib.Tactic.IntervalCases

namespace Text

/-- `0`, or a first digit that is not zero and at most `k` more. -/
def isDecimal (k : Nat) (v : String) : Bool :=
  match v.toList with
  | [] => false
  | d :: ds =>
      (d = '0' && ds.isEmpty) || ('1' ≤ d && d ≤ '9' && ds.all Char.isDigit && ds.length ≤ k)

def ofDecimal (v : String) : Nat := Nat.ofDigitChars 10 v.toList 0

theorem ofDecimal_repr (n : Nat) : ofDecimal n.repr = n := by
  rw [ofDecimal, Nat.toList_repr]
  exact Nat.ofDigitChars_ten_toDigits

/-- The first digit of a positive number is not zero. -/
theorem toDigits_head {n : Nat} (hn : 0 < n) :
    ∃ d ds, Nat.toDigits 10 n = d :: ds ∧ '1' ≤ d ∧ d ≤ '9' := by
  induction n using Nat.strongRecOn with
  | ind n ih =>
      by_cases hsmall : n < 10
      · refine ⟨n.digitChar, [], Nat.toDigits_of_lt_base hsmall, ?_⟩
        interval_cases n <;> decide
      · obtain ⟨d, ds, hd, hrange⟩ := ih (n / 10) (by omega) (by omega)
        rw [Nat.toDigits_of_base_le (by decide) (by omega), hd]
        exact ⟨d, _, rfl, hrange⟩

theorem isDecimal_repr {n k : Nat} (h : n < 10 ^ (k + 1)) : isDecimal k n.repr = true := by
  rcases Nat.eq_zero_or_pos n with rfl | hpos
  · rfl
  · obtain ⟨d, ds, hd, hlow, hhigh⟩ := toDigits_head hpos
    have hlength : (Nat.toDigits 10 n).length ≤ k + 1 :=
      (Nat.length_toDigits_le_iff (by decide) (Nat.succ_pos k)).mpr h
    have hdigits : ∀ x ∈ ds, x.isDigit = true := by
      intro x hx
      refine Nat.isDigit_of_mem_toDigits (n := n) (b := 10) (by decide) (by decide) ?_
      rw [hd]
      exact List.mem_cons_of_mem d hx
    rw [hd, List.length_cons] at hlength
    unfold isDecimal
    rw [Nat.toList_repr, hd]
    simp only [Bool.or_eq_true, Bool.and_eq_true, decide_eq_true_eq, List.all_eq_true]
    exact Or.inr ⟨⟨⟨hlow, hhigh⟩, hdigits⟩, by omega⟩

/-- So many digits make a number below that power of ten. -/
theorem ofDigitChars_lt {ds : List Char} (h : ds.all Char.isDigit = true) (init : Nat) :
    Nat.ofDigitChars 10 ds init < (init + 1) * 10 ^ ds.length := by
  induction ds generalizing init with
  | nil => simp
  | cons d ds ih =>
      rw [List.all_cons, Bool.and_eq_true] at h
      have hd : d.toNat - '0'.toNat < 10 := by
        have hrange := Char.isDigit_iff_toNat.mp h.1
        have hzero : '0'.toNat = 48 := rfl
        have hnine : '9'.toNat = 57 := rfl
        omega
      have hrest := ih h.2 (10 * init + (d.toNat - '0'.toNat))
      rw [Nat.ofDigitChars_cons]
      calc Nat.ofDigitChars 10 ds (10 * init + (d.toNat - '0'.toNat))
          < (10 * init + (d.toNat - '0'.toNat) + 1) * 10 ^ ds.length := hrest
        _ ≤ ((init + 1) * 10) * 10 ^ ds.length := Nat.mul_le_mul_right _ (by omega)
        _ = (init + 1) * 10 ^ (d :: ds).length := by
            rw [List.length_cons, Nat.pow_succ, Nat.mul_assoc, Nat.mul_comm 10]

theorem ofDecimal_lt {k : Nat} {v : String} (h : isDecimal k v = true) :
    ofDecimal v < 10 ^ (k + 1) := by
  unfold isDecimal at h
  unfold ofDecimal
  split at h
  · cases h
  · rename_i d ds hv
    simp only [Bool.or_eq_true, Bool.and_eq_true, decide_eq_true_eq, List.isEmpty_iff] at h
    rw [hv]
    rcases h with ⟨rfl, rfl⟩ | ⟨⟨⟨hlow, hhigh⟩, hall⟩, hlength⟩
    · exact Nat.pow_pos (by decide)
    · have hd : d.isDigit = true := by
        have h48 : '1'.toNat ≤ d.toNat := hlow
        have h57 : d.toNat ≤ '9'.toNat := hhigh
        exact Char.isDigit_iff_toNat.mpr ⟨Nat.le_trans (by decide) h48, h57⟩
      have hdigits : (d :: ds).all Char.isDigit = true := by
        rw [List.all_cons, hd, hall]
        rfl
      have hlt := ofDigitChars_lt hdigits 0
      rw [Nat.zero_add, Nat.one_mul] at hlt
      exact hlt.trans_le (Nat.pow_le_pow_right (by decide) (by rw [List.length_cons]; omega))

/-! ## The text of a number that was read -/

theorem digit_toNat {d : Char} (h : d.isDigit = true) :
    48 ≤ d.toNat ∧ d.toNat ≤ 57 ∧ (d.toNat - 48).digitChar = d := by
  obtain ⟨hlow, hhigh⟩ := Char.isDigit_iff_toNat.mp h
  have h48 : '0'.toNat = 48 := rfl
  have h57 : '9'.toNat = 57 := rfl
  refine ⟨by omega, by omega, ?_⟩
  have hcode : d.toNat - 48 + 48 = d.toNat := by omega
  have hten : d.toNat - 48 < 10 := by omega
  refine Char.toNat_inj.mp ?_
  rw [← hcode]
  interval_cases d.toNat - 48 <;> rfl

/-- Digits that do not start with a zero are those of the number they spell. -/
theorem toDigits_ofDigitChars {d : Char} (hlow : '1' ≤ d) (hhigh : d ≤ '9') {ds : List Char}
    (hds : ds.all Char.isDigit = true) :
    Nat.toDigits 10 (Nat.ofDigitChars 10 (d :: ds) 0) = d :: ds ∧
      0 < Nat.ofDigitChars 10 (d :: ds) 0 := by
  have h49 : 49 ≤ d.toNat := hlow
  have h57 : d.toNat ≤ 57 := hhigh
  have hdigit : d.isDigit = true := Char.isDigit_iff_toNat.mpr ⟨Nat.le_trans (by decide) h49, h57⟩
  induction ds using List.reverseRecOn with
  | nil =>
      obtain ⟨_, _, hchar⟩ := digit_toNat hdigit
      have hvalue : Nat.ofDigitChars 10 [d] 0 = d.toNat - 48 := by
        rw [Nat.ofDigitChars_cons, Nat.ofDigitChars_nil, Nat.mul_zero, Nat.zero_add]
        rfl
      rw [hvalue]
      exact ⟨by rw [Nat.toDigits_of_lt_base (by omega), hchar], by omega⟩
  | append_singleton ds x ih =>
      rw [List.all_append, List.all_cons, List.all_nil, Bool.and_true, Bool.and_eq_true] at hds
      obtain ⟨hdigits, hpos⟩ := ih hds.1
      obtain ⟨hx48, hx57, hchar⟩ := digit_toNat hds.2
      have hvalue : Nat.ofDigitChars 10 (d :: (ds ++ [x])) 0 =
          10 * Nat.ofDigitChars 10 (d :: ds) 0 + (x.toNat - 48) := by
        rw [← List.cons_append, Nat.ofDigitChars_append, Nat.ofDigitChars_cons,
          Nat.ofDigitChars_nil]
        rfl
      rw [hvalue]
      refine ⟨?_, by omega⟩
      rw [Nat.toDigits_of_base_le (by decide) (by omega)]
      have hquotient : (10 * Nat.ofDigitChars 10 (d :: ds) 0 + (x.toNat - 48)) / 10 =
          Nat.ofDigitChars 10 (d :: ds) 0 := by omega
      have hrest : (10 * Nat.ofDigitChars 10 (d :: ds) 0 + (x.toNat - 48)) % 10 =
          x.toNat - 48 := by omega
      rw [hquotient, hrest, hdigits, hchar, List.cons_append]

/-- Decimal text is the text of the number it is read as. -/
theorem repr_ofDecimal {k : Nat} {v : String} (h : isDecimal k v = true) :
    (ofDecimal v).repr = v := by
  rw [← String.toList_inj, Nat.toList_repr]
  unfold isDecimal at h
  unfold ofDecimal
  split at h
  · cases h
  · rename_i d ds hv
    simp only [Bool.or_eq_true, Bool.and_eq_true, decide_eq_true_eq, List.isEmpty_iff] at h
    rw [hv]
    rcases h with ⟨rfl, rfl⟩ | ⟨⟨⟨hlow, hhigh⟩, hall⟩, _⟩
    · rfl
    · exact (toDigits_ofDigitChars hlow hhigh hall).1

theorem toString_int_injective {a b : Int} (h : toString a = toString b) : a = b := by
  have hnat : ∀ {m n : Nat}, m.repr = n.repr → m = n := fun {m n} hrepr => by
    rw [← ofDecimal_repr m, hrepr, ofDecimal_repr]
  -- a minus sign is not a digit
  have hsign : ∀ m n : Nat, m.repr ≠ "-" ++ n.repr := fun m n heq => by
    have hlist : Nat.toDigits 10 m = '-' :: Nat.toDigits 10 n := by
      rw [← Nat.toList_repr, heq, String.toList_append, Nat.toList_repr]
      rfl
    have hdigit : '-'.isDigit = true :=
      Nat.isDigit_of_mem_toDigits (b := 10) (n := m) (by decide) (by decide)
        (by rw [hlist]; exact List.mem_cons_self)
    cases hdigit
  cases a with
  | ofNat m =>
      cases b with
      | ofNat n => exact congrArg Int.ofNat (hnat h)
      | negSucc n => exact absurd h (hsign m (n + 1))
  | negSucc m =>
      cases b with
      | ofNat n => exact absurd h.symm (hsign n (m + 1))
      | negSucc n =>
          have hlist := congrArg String.toList h
          have hrest : (m + 1).repr = (n + 1).repr := by
            have : ("-" ++ (m + 1).repr).toList = ("-" ++ (n + 1).repr).toList := hlist
            rw [String.toList_append, String.toList_append] at this
            exact String.toList_injective (List.append_cancel_left this)
          have heq := hnat hrest
          rw [Nat.succ.inj heq]
/-! ## Fixed-width hexadecimal -/

def hexDigits : Nat → Nat → List Char
  | 0, _ => []
  | k + 1, n => hexDigits k (n / 16) ++ [Nat.digitChar (n % 16)]

def isHexDigit (d : Char) : Bool := ('0' ≤ d && d ≤ '9') || ('a' ≤ d && d ≤ 'f')

theorem length_hexDigits (k n : Nat) : (hexDigits k n).length = k := by
  induction k generalizing n with
  | zero => rfl
  | succ k ih => rw [hexDigits, List.length_append, ih, List.length_singleton]

theorem isHexDigit_digitChar {d : Nat} (h : d < 16) : isHexDigit d.digitChar = true := by
  interval_cases d <;> decide

theorem all_hexDigits (k n : Nat) : (hexDigits k n).all isHexDigit = true := by
  induction k generalizing n with
  | zero => rfl
  | succ k ih =>
      rw [hexDigits, List.all_append, ih, List.all_cons, List.all_nil,
        isHexDigit_digitChar (Nat.mod_lt n (by decide))]
      rfl

theorem digitChar_injective {a b : Nat} (ha : a < 16) (hb : b < 16)
    (h : a.digitChar = b.digitChar) : a = b := by
  interval_cases a <;> interval_cases b <;> first | rfl | exact absurd h (by decide)

/-- Equal digits of equal width are of equal numbers. -/
theorem hexDigits_injective {k a b : Nat} (ha : a < 16 ^ k) (hb : b < 16 ^ k)
    (h : hexDigits k a = hexDigits k b) : a = b := by
  induction k generalizing a b with
  | zero =>
      rw [Nat.pow_zero] at ha hb
      omega
  | succ k ih =>
      obtain ⟨hhigh, hlow⟩ := List.append_inj' h rfl
      rw [Nat.pow_succ] at ha hb
      have hquotient := ih (Nat.div_lt_of_lt_mul (by omega)) (Nat.div_lt_of_lt_mul (by omega)) hhigh
      have hdigit := digitChar_injective (Nat.mod_lt a (by decide)) (Nat.mod_lt b (by decide))
        (List.head_eq_of_cons_eq hlow)
      omega

/-- `0x` and the digits of a number below `16 ^ k`. -/
def hexText (k n : Nat) : String := String.ofList ('0' :: 'x' :: hexDigits k n)

def isHexText (k : Nat) (v : String) : Bool :=
  match v.toList with
  | '0' :: 'x' :: ds => ds.length = k && ds.all isHexDigit
  | _ => false

theorem isHexText_hexText (k n : Nat) : isHexText k (hexText k n) = true := by
  simp [isHexText, hexText, length_hexDigits, all_hexDigits]

theorem hexText_injective {k a b : Nat} (ha : a < 16 ^ k) (hb : b < 16 ^ k)
    (h : hexText k a = hexText k b) : a = b := by
  have hlist := String.ofList_injective h
  simp only [List.cons.injEq, true_and] at hlist
  exact hexDigits_injective ha hb hlist

end Text
