/-
Times as text.

A time is a number of milliseconds from the start of 1970, and its text is the
date and the time of day in the Gregorian calendar: four digits for a year that
fits, and a sign and six digits otherwise.  Years are counted from March, in eras
of 400 years, so that the day that comes and goes is the last of its year.
-/
import AlphaForge.Text.Digits

namespace Text

/-- The furthest a date goes from 1970. -/
def maxTime : Int := 8640000000000000

/-! ## Dates -/

/-- Year, month and day of a day counted from 1970-01-01. -/
def civilOfDays (days : Int) : Int × Int × Int :=
  let era := (days + 719468) / 146097
  let inEra := (days + 719468) % 146097
  let century := min 3 (inEra / 36524)
  let inCentury := inEra - 36524 * century
  let cycle := min 24 (inCentury / 1461)
  let inCycle := inCentury - 1461 * cycle
  let inYears := min 3 (inCycle / 365)
  let inYear := inCycle - 365 * inYears
  let month := (5 * inYear + 2) / 153
  let year := 400 * era + 100 * century + 4 * cycle + inYears
  (if month < 10 then year else year + 1, if month < 10 then month + 3 else month - 9,
    inYear - (153 * month + 2) / 5 + 1)

def daysOfCivil (year month day : Int) : Int :=
  let y := if month ≤ 2 then year - 1 else year
  let m := (month + 9) % 12
  365 * y + y / 4 - y / 100 + y / 400 + (153 * m + 2) / 5 + day - 1 - 719468

/-- What one era looks like: the parts of a day of it, within their bounds. -/
theorem era_parts {n : Int} (hlow : 0 ≤ n) (hhigh : n < 146097) :
    ∃ c q y d : Int, c = min 3 (n / 36524) ∧ q = min 24 ((n - 36524 * c) / 1461) ∧
      y = min 3 ((n - 36524 * c - 1461 * q) / 365) ∧ d = n - 36524 * c - 1461 * q - 365 * y ∧
      0 ≤ c ∧ c ≤ 3 ∧ 0 ≤ q ∧ q ≤ 24 ∧ 0 ≤ y ∧ y ≤ 3 ∧ 0 ≤ d ∧ d ≤ 365 := by
  refine ⟨_, _, _, _, rfl, rfl, rfl, rfl, ?_⟩
  have hcentury : 0 ≤ n - 36524 * min 3 (n / 36524) ∧ n - 36524 * min 3 (n / 36524) ≤ 36524 := by
    omega
  generalize hc : min 3 (n / 36524) = c at hcentury ⊢
  generalize n - 36524 * c = r at hcentury ⊢
  have hcycle : 0 ≤ r - 1461 * min 24 (r / 1461) ∧ r - 1461 * min 24 (r / 1461) ≤ 1460 := by
    omega
  generalize hq : min 24 (r / 1461) = q at hcycle ⊢
  generalize r - 1461 * q = s at hcycle ⊢
  omega

theorem daysOfCivil_civilOfDays (days : Int) :
    daysOfCivil (civilOfDays days).1 (civilOfDays days).2.1 (civilOfDays days).2.2 = days := by
  have hlow := Int.emod_nonneg (days + 719468) (show (146097 : Int) ≠ 0 by decide)
  have hhigh := Int.emod_lt_of_pos (days + 719468) (show (0 : Int) < 146097 by decide)
  obtain ⟨c, q, y, d, hc, hq, hy, hd, hbounds⟩ := era_parts hlow hhigh
  have hera := Int.emod_add_mul_ediv (days + 719468) 146097
  simp only [civilOfDays, ← hc, ← hq, ← hy, ← hd]
  generalize (days + 719468) / 146097 = era at hera ⊢
  generalize (days + 719468) % 146097 = n at hera hd hc ⊢
  clear hc hq hy
  have hmonth : 0 ≤ (5 * d + 2) / 153 ∧ (5 * d + 2) / 153 ≤ 11 := by omega
  generalize (5 * d + 2) / 153 = m at hmonth ⊢
  have hquarter : (400 * era + 100 * c + 4 * q + y) / 4 = 100 * era + 25 * c + q := by omega
  have hhundred : (400 * era + 100 * c + 4 * q + y) / 100 = 4 * era + c := by omega
  have hfour : (400 * era + 100 * c + 4 * q + y) / 400 = era := by omega
  unfold daysOfCivil
  by_cases hm : m < 10
  · have hnot : ¬ m + 3 ≤ 2 := by omega
    have hwrap : (m + 3 + 9) % 12 = m := by omega
    simp only [if_pos hm, if_neg hnot, hwrap, hquarter, hhundred, hfour]
    omega
  · have hle : m - 9 ≤ 2 := by omega
    have hwrap : (m - 9 + 9) % 12 = m := by omega
    have hyear : 400 * era + 100 * c + 4 * q + y + 1 - 1 = 400 * era + 100 * c + 4 * q + y := by
      omega
    simp only [if_neg hm, if_pos hle, hwrap, hyear, hquarter, hhundred, hfour]
    omega

theorem civilOfDays_bounds (days : Int) :
    1 ≤ (civilOfDays days).2.1 ∧ (civilOfDays days).2.1 ≤ 12 ∧
      1 ≤ (civilOfDays days).2.2 ∧ (civilOfDays days).2.2 ≤ 31 := by
  have hlow := Int.emod_nonneg (days + 719468) (show (146097 : Int) ≠ 0 by decide)
  have hhigh := Int.emod_lt_of_pos (days + 719468) (show (0 : Int) < 146097 by decide)
  obtain ⟨c, q, y, d, hc, hq, hy, hd, hbounds⟩ := era_parts hlow hhigh
  simp only [civilOfDays, ← hc, ← hq, ← hy, ← hd]
  clear hc hq hy hd hlow hhigh
  refine ⟨?_, ?_, by omega, by omega⟩ <;> split <;> omega

/-- A day that a date holds lies in a year of six digits. -/
theorem civilOfDays_year (days : Int) (hlow : -100000000 ≤ days) (hhigh : days ≤ 100000000) :
    -999999 ≤ (civilOfDays days).1 ∧ (civilOfDays days).1 ≤ 999999 := by
  have hpos := Int.emod_nonneg (days + 719468) (show (146097 : Int) ≠ 0 by decide)
  have hlt := Int.emod_lt_of_pos (days + 719468) (show (0 : Int) < 146097 by decide)
  obtain ⟨c, q, y, d, hc, hq, hy, hd, hbounds⟩ := era_parts hpos hlt
  have hera : -1000 ≤ (days + 719468) / 146097 ∧ (days + 719468) / 146097 ≤ 1000 := by omega
  simp only [civilOfDays, ← hc, ← hq, ← hy, ← hd]
  generalize (days + 719468) / 146097 = era at hera ⊢
  clear hc hq hy hd hpos hlt
  split <;> omega

/-! ## Digits of one width -/

def fixedDigits : Nat → Nat → List Char
  | 0, _ => []
  | k + 1, n => fixedDigits k (n / 10) ++ [Nat.digitChar (n % 10)]

/-- The number that some characters spell, when all of them are digits. -/
def readDigits (ds : List Char) : Option Int :=
  if ds.all Char.isDigit then some (Nat.ofDigitChars 10 ds 0 : Nat) else none

theorem length_fixedDigits (k n : Nat) : (fixedDigits k n).length = k := by
  induction k generalizing n with
  | zero => rfl
  | succ k ih => rw [fixedDigits, List.length_append, ih, List.length_singleton]

theorem isDigit_digitChar {d : Nat} (h : d < 10) : d.digitChar.isDigit = true := by
  interval_cases d <;> decide

theorem all_fixedDigits (k n : Nat) : (fixedDigits k n).all Char.isDigit = true := by
  induction k generalizing n with
  | zero => rfl
  | succ k ih =>
      rw [fixedDigits, List.all_append, ih, List.all_cons, List.all_nil,
        isDigit_digitChar (Nat.mod_lt n (by decide))]
      rfl

theorem ofDigitChars_fixedDigits {k n : Nat} (h : n < 10 ^ k) :
    Nat.ofDigitChars 10 (fixedDigits k n) 0 = n := by
  induction k generalizing n with
  | zero =>
      rw [Nat.pow_zero] at h
      exact (Nat.lt_one_iff.mp h).symm
  | succ k ih =>
      rw [Nat.pow_succ] at h
      rw [fixedDigits, Nat.ofDigitChars_append, ih (Nat.div_lt_of_lt_mul (by omega)),
        Nat.ofDigitChars_cons_digitChar_of_lt_ten (Nat.mod_lt n (by decide)), Nat.ofDigitChars_nil]
      omega

theorem readDigits_fixedDigits {k : Nat} {n : Int} (hlow : 0 ≤ n) (hhigh : n < 10 ^ k) :
    readDigits (fixedDigits k n.toNat) = some n := by
  have hlt : n.toNat < 10 ^ k := by
    have hcast : ((n.toNat : Nat) : Int) < ((10 ^ k : Nat) : Int) := by
      rw [Int.toNat_of_nonneg hlow]
      exact_mod_cast hhigh
    exact_mod_cast hcast
  rw [readDigits, if_pos (all_fixedDigits _ _), ofDigitChars_fixedDigits hlt,
    Int.toNat_of_nonneg hlow]

/-! ## Text -/

def yearDigits (year : Int) : List Char :=
  if 0 ≤ year ∧ year ≤ 9999 then fixedDigits 4 year.toNat
  else if year < 0 then '-' :: fixedDigits 6 (-year).toNat
  else '+' :: fixedDigits 6 year.toNat

/-- `Date.prototype.toISOString`. -/
def toISOString (t : Int) : String :=
  let civil := civilOfDays (t / 86400000)
  let ms := t % 86400000
  String.ofList (yearDigits civil.1 ++ '-' :: (fixedDigits 2 civil.2.1.toNat ++
    '-' :: (fixedDigits 2 civil.2.2.toNat ++ 'T' :: (fixedDigits 2 (ms / 3600000).toNat ++
    ':' :: (fixedDigits 2 (ms / 60000 % 60).toNat ++ ':' :: (fixedDigits 2 (ms / 1000 % 60).toNat ++
    '.' :: (fixedDigits 3 (ms % 1000).toNat ++ ['Z'])))))))

/-- The digits in front and what follows them, after the character that has to stand there. -/
def takeField (width : Nat) (stop : Char) (text : List Char) : Option (Int × List Char) := do
  let n ← readDigits (text.take width)
  let rest := text.drop width
  if (text.take width).length = width ∧ rest.head? = some stop then some (n, rest.tail) else none

/-- The year in front and what follows it. -/
def takeYear : List Char → Option (Int × List Char)
  | '+' :: rest => takeField 6 '-' rest
  | '-' :: rest => do
      let (year, rest) ← takeField 6 '-' rest
      if year = 0 then none else some (-year, rest)
  | text => takeField 4 '-' text

/-- `Date.parse` of the texts that `toISOString` writes, with nothing for a text that
names no time.  Other texts that it reads do not print as they were written. -/
def dateParse (v : String) : Option Int := do
  let (year, rest) ← takeYear v.toList
  let (month, rest) ← takeField 2 '-' rest
  let (day, rest) ← takeField 2 'T' rest
  let (hour, rest) ← takeField 2 ':' rest
  let (minute, rest) ← takeField 2 ':' rest
  let (second, rest) ← takeField 2 '.' rest
  let (ms, rest) ← takeField 3 'Z' rest
  let t := daysOfCivil year month day * 86400000 + hour * 3600000 + minute * 60000 + second * 1000 + ms
  if rest = [] ∧ 1 ≤ month ∧ month ≤ 12 ∧ 1 ≤ day ∧ day ≤ 31 ∧ hour ≤ 23 ∧ minute ≤ 59 ∧
      second ≤ 59 ∧ -maxTime ≤ t ∧ t ≤ maxTime then
    some t
  else none

theorem takeField_fixedDigits {k : Nat} {n : Int} (hlow : 0 ≤ n) (hhigh : n < 10 ^ k) (stop : Char)
    (rest : List Char) :
    takeField k stop (fixedDigits k n.toNat ++ stop :: rest) = some (n, rest) := by
  have hlength := length_fixedDigits k n.toNat
  have htake : (fixedDigits k n.toNat ++ stop :: rest).take k = fixedDigits k n.toNat :=
    List.take_left' hlength
  have hdrop : (fixedDigits k n.toNat ++ stop :: rest).drop k = stop :: rest :=
    List.drop_left' hlength
  simp only [takeField, htake, hdrop, readDigits_fixedDigits hlow hhigh, hlength,
    List.head?_cons, List.tail_cons, and_self, if_true, Option.bind_eq_bind, Option.bind_some]

theorem takeYear_yearDigits {year : Int} (hlow : -999999 ≤ year) (hhigh : year ≤ 999999)
    (rest : List Char) : takeYear (yearDigits year ++ '-' :: rest) = some (year, rest) := by
  unfold yearDigits
  split
  · next hshort =>
      obtain ⟨d, ds, hd, hdigit⟩ : ∃ d ds, fixedDigits 4 year.toNat = d :: ds ∧ d.isDigit = true := by
        have hall := all_fixedDigits 4 year.toNat
        have hlength := length_fixedDigits 4 year.toNat
        cases hcases : fixedDigits 4 year.toNat with
        | nil =>
            rw [hcases] at hlength
            cases hlength
        | cons d ds =>
            rw [hcases, List.all_cons, Bool.and_eq_true] at hall
            exact ⟨d, ds, rfl, hall.1⟩
      have hplus : d ≠ '+' := by
        rintro rfl
        exact absurd hdigit (by decide)
      have hminus : d ≠ '-' := by
        rintro rfl
        exact absurd hdigit (by decide)
      have hfield := takeField_fixedDigits (k := 4) hshort.1 (by omega) '-' rest
      rw [hd, List.cons_append] at hfield ⊢
      unfold takeYear
      split
      · next heq => exact absurd (List.cons.inj heq).1 hplus
      · next heq => exact absurd (List.cons.inj heq).1 hminus
      · exact hfield
  · next hlong =>
      split
      · next hneg =>
          have hfield := takeField_fixedDigits (k := 6) (n := -year) (by omega) (by omega) '-' rest
          have hne : ¬ -year = 0 := by omega
          simp only [List.cons_append, takeYear, hfield, Option.bind_eq_bind, Option.bind_some,
            if_neg hne, neg_neg]
      · next hpos =>
          have hfield := takeField_fixedDigits (k := 6) (n := year) (by omega) (by omega) '-' rest
          simp only [List.cons_append, takeYear, hfield]

/-- A time is read back from its text. -/
theorem dateParse_toISOString {t : Int} (hlow : -maxTime ≤ t) (hhigh : t ≤ maxTime) :
    dateParse (toISOString t) = some t := by
  unfold maxTime at hlow hhigh
  have hyear := civilOfDays_year (t / 86400000) (by omega) (by omega)
  have hcivil := civilOfDays_bounds (t / 86400000)
  have hdays := daysOfCivil_civilOfDays (t / 86400000)
  have hms : 0 ≤ t % 86400000 ∧ t % 86400000 < 86400000 := by omega
  have hsplit : t = t / 86400000 * 86400000 + t % 86400000 := by omega
  have htime : t % 86400000 / 3600000 * 3600000 + t % 86400000 / 60000 % 60 * 60000 +
      t % 86400000 / 1000 % 60 * 1000 + t % 86400000 % 1000 = t % 86400000 := by omega
  generalize hms' : t % 86400000 = ms at hms hsplit htime
  generalize hdays' : t / 86400000 = days at hyear hcivil hdays hsplit
  unfold dateParse toISOString
  rw [hdays', hms', String.toList_ofList, takeYear_yearDigits hyear.1 hyear.2]
  simp only [Option.bind_eq_bind, Option.bind_some]
  rw [takeField_fixedDigits (by omega) (by omega)]
  simp only [Option.bind_some]
  rw [takeField_fixedDigits (by omega) (by omega)]
  simp only [Option.bind_some]
  rw [takeField_fixedDigits (by omega) (by omega)]
  simp only [Option.bind_some]
  rw [takeField_fixedDigits (by omega) (by omega)]
  simp only [Option.bind_some]
  rw [takeField_fixedDigits (by omega) (by omega)]
  simp only [Option.bind_some]
  rw [takeField_fixedDigits (by omega) (by omega)]
  simp only [Option.bind_some]
  rw [hdays]
  have hsum : days * 86400000 + ms / 3600000 * 3600000 + ms / 60000 % 60 * 60000 +
      ms / 1000 % 60 * 1000 + ms % 1000 = t := by omega
  rw [hsum, if_pos]
  unfold maxTime
  refine ⟨trivial, hcivil.1, hcivil.2.1, hcivil.2.2.1, hcivil.2.2.2, by omega, by omega, by omega, hlow,
    hhigh⟩

theorem dateParse_bounds {v : String} {t : Int} (h : dateParse v = some t) :
    -maxTime ≤ t ∧ t ≤ maxTime := by
  simp only [dateParse, Option.bind_eq_bind, Option.bind_eq_some_iff] at h
  obtain ⟨_, _, _, _, _, _, _, _, _, _, _, _, _, _, h⟩ := h
  split at h
  · next hbounds =>
      cases h
      exact hbounds.2.2.2.2.2.2.2.2
  · cases h

end Text
