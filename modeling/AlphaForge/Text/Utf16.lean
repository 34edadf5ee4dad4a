/-
Strings of sixteen-bit code units.

Half of a surrogate pair may stand alone, so a string is not always text.  Its code
points are the characters it spells and the surrogates without their other half, and
the string is read back from them.
-/
import Mathlib.Data.List.Basic

namespace Text

abbrev CodeUnits := List UInt16

def isHighSurrogate (u : UInt16) : Prop := 0xD800 ≤ u.toNat ∧ u.toNat ≤ 0xDBFF

def isLowSurrogate (u : UInt16) : Prop := 0xDC00 ≤ u.toNat ∧ u.toNat ≤ 0xDFFF

instance (u : UInt16) : Decidable (isHighSurrogate u) := by unfold isHighSurrogate; infer_instance

instance (u : UInt16) : Decidable (isLowSurrogate u) := by unfold isLowSurrogate; infer_instance

inductive CodePoint where
  | char (d : Char)
  | lone (u : UInt16) (h : isHighSurrogate u ∨ isLowSurrogate u)
  deriving DecidableEq

/-- The character that a surrogate pair stands for. -/
def ofPair (u v : UInt16) : Char :=
  Char.ofNat (0x10000 + (u.toNat - 0xD800) * 0x400 + (v.toNat - 0xDC00))

def codePoints : CodeUnits → List CodePoint
  | [] => []
  | u :: rest =>
      if h : isHighSurrogate u then
        match rest with
        | [] => [.lone u (.inl h)]
        | v :: rest' =>
            if isLowSurrogate v then .char (ofPair u v) :: codePoints rest'
            else .lone u (.inl h) :: codePoints (v :: rest')
      else if h : isLowSurrogate u then .lone u (.inr h) :: codePoints rest
      else .char (Char.ofNat u.toNat) :: codePoints rest

def CodePoint.units : CodePoint → CodeUnits
  | .char d =>
      if d.toNat < 0x10000 then [UInt16.ofNat d.toNat]
      else [UInt16.ofNat (0xD800 + (d.toNat - 0x10000) / 0x400),
        UInt16.ofNat (0xDC00 + (d.toNat - 0x10000) % 0x400)]
  | .lone u _ => [u]

theorem toNat_ofNat_of_valid {n : Nat} (h : n.isValidChar) : (Char.ofNat n).toNat = n := by
  rw [Char.ofNat, dif_pos h]
  rfl

theorem ofPair_toNat {u v : UInt16} (hu : isHighSurrogate u) (hv : isLowSurrogate v) :
    (ofPair u v).toNat = 0x10000 + (u.toNat - 0xD800) * 0x400 + (v.toNat - 0xDC00) := by
  obtain ⟨_, hu⟩ := hu
  obtain ⟨_, hv⟩ := hv
  exact toNat_ofNat_of_valid (.inr ⟨by omega, by omega⟩)

theorem units_ofPair {u v : UInt16} (hu : isHighSurrogate u) (hv : isLowSurrogate v) :
    (CodePoint.char (ofPair u v)).units = [u, v] := by
  have hvalue := ofPair_toNat hu hv
  obtain ⟨hu, _⟩ := hu
  obtain ⟨hv, hv'⟩ := hv
  rw [CodePoint.units, if_neg (by omega)]
  have hhigh : 0xD800 + ((ofPair u v).toNat - 0x10000) / 0x400 = u.toNat := by omega
  have hlow : 0xDC00 + ((ofPair u v).toNat - 0x10000) % 0x400 = v.toNat := by omega
  rw [hhigh, hlow, UInt16.ofNat_toNat, UInt16.ofNat_toNat]

theorem units_ofNat {u : UInt16} (hu : ¬ isHighSurrogate u) (hv : ¬ isLowSurrogate u) :
    (CodePoint.char (Char.ofNat u.toNat)).units = [u] := by
  have hlt := u.toNat_lt
  unfold isHighSurrogate at hu
  unfold isLowSurrogate at hv
  have hvalid : u.toNat.isValidChar := by
    unfold Nat.isValidChar
    omega
  have hvalue := toNat_ofNat_of_valid hvalid
  rw [CodePoint.units, hvalue, if_pos (by omega), UInt16.ofNat_toNat]

/-- A string is read back from its code points. -/
theorem units_codePoints (s : CodeUnits) : (codePoints s).flatMap CodePoint.units = s := by
  fun_induction codePoints s with
  | case1 => rfl
  | case2 u h => rfl
  | case3 u h v rest hv ih => rw [List.flatMap_cons, ih, units_ofPair h hv]; rfl
  | case4 u h v rest hv ih => rw [List.flatMap_cons, ih]; rfl
  | case5 u rest h hlow ih => rw [List.flatMap_cons, ih]; rfl
  | case6 u rest h hlow ih => rw [List.flatMap_cons, ih, units_ofNat h hlow]; rfl

theorem codePoints_injective {s t : CodeUnits} (h : codePoints s = codePoints t) : s = t := by
  rw [← units_codePoints s, h, units_codePoints]

end Text
