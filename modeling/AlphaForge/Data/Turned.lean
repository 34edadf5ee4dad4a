/-
A linear order turned at a key.

What goes through the keys from wherever it stands, and starts again from the least one
when it has reached the end, passes every key above `x` and then every key below it before
it comes to `x`.  In the order turned at `x` the keys above it come first and those below
it after them, so going through the keys is going up until `x` is met.
-/
import Mathlib.Data.Finset.Card
import Mathlib.Data.Prod.Lex
import Mathlib.Data.String.Basic

namespace Turned

variable {K : Type} [LinearOrder K] {S : Finset K} {x c c' k : K} {v : List K}

/-- Where a key stands in the order turned at `x`. -/
def place (x k : K) : Bool ×ₗ K := toLex (decide (k < x), k)

theorem place_lt_iff : place x c < place x k ↔ (x ≤ c ∧ k < x) ∨ ((c < x ↔ k < x) ∧ c < k) := by
  rw [place, place, Prod.Lex.toLex_lt_toLex]
  by_cases hc : c < x <;> by_cases hk : k < x <;> simp [hc, hk, not_lt.mp]

/-- The keys of a set that are met from `c` on, before `x`. -/
def ahead (S : Finset K) (x c : K) : Finset K :=
  S.filter fun k => k ≠ x ∧ place x c < place x k

theorem mem_ahead : k ∈ ahead S x c ↔ k ∈ S ∧ k ≠ x ∧ place x c < place x k := Finset.mem_filter

theorem ahead_subset (h : place x c ≤ place x c') : ahead S x c' ⊆ ahead S x c := by
  intro k hk
  obtain ⟨hin, hne, hlt⟩ := mem_ahead.mp hk
  exact mem_ahead.mpr ⟨hin, hne, lt_of_le_of_lt h hlt⟩

/-- The keys that were passed are no longer ahead. -/
theorem ahead_card (hnodup : v.Nodup) (hahead : ∀ k ∈ v, k ∈ ahead S x c)
    (hle : place x c ≤ place x c') (hpassed : ∀ k ∈ v, place x k ≤ place x c') :
    (ahead S x c').card + v.length ≤ (ahead S x c).card := by
  have hdisjoint : Disjoint (ahead S x c') v.toFinset := by
    rw [Finset.disjoint_left]
    intro k hk hv
    exact absurd (mem_ahead.mp hk).2.2 (not_lt.mpr (hpassed k (List.mem_toFinset.mp hv)))
  have hunion : ahead S x c' ∪ v.toFinset ⊆ ahead S x c := by
    intro k hk
    rcases Finset.mem_union.mp hk with hk | hk
    · exact ahead_subset hle hk
    · exact hahead k (List.mem_toFinset.mp hk)
  rw [← List.toFinset_card_of_nodup hnodup, ← Finset.card_union_of_disjoint hdisjoint]
  exact Finset.card_le_card hunion

/-- Keys that were passed going up, to the last of them. -/
theorem ahead_rising {last : K} (hrising : (v ++ [last]).Pairwise fun a b => place x a < place x b)
    (hin : ∀ k ∈ v ++ [last], k ∈ S ∧ k ≠ x ∧ place x c < place x k) :
    (ahead S x last).card + (v ++ [last]).length ≤ (ahead S x c).card := by
  have hlast : last ∈ v ++ [last] := List.mem_append_right v List.mem_cons_self
  refine ahead_card (hrising.imp fun h heq => ?_) (fun k hk => mem_ahead.mpr (hin k hk))
    (le_of_lt (hin last hlast).2.2) fun k hk => ?_
  · rw [heq] at h
    exact lt_irrefl _ h
  · rcases List.mem_append.mp hk with hk | hk
    · exact le_of_lt ((List.pairwise_append.mp hrising).2.2 k hk last List.mem_cons_self)
    · rw [List.mem_singleton.mp hk]

/-- Everything but `x` at most is ahead. -/
theorem ahead_lt (hx : x ∈ S) : (ahead S x c).card < S.card :=
  Finset.card_lt_card (Finset.filter_ssubset.mpr ⟨x, hx, fun h => h.1 rfl⟩)

/-- A cursor that is before all texts. -/
theorem empty_le (text : String) : "" ≤ text := by
  rw [String.le_iff_toList_le]
  exact not_lt.mp (List.not_lt_nil _)

/-! ## Going round -/

/-- The keys of a list from behind `c` on, and then from its start. -/
def around (T : List K) (c : K) : List K := T.filter (fun k => c < k) ++ T.filter fun k => k ≤ c

variable {T : List K} {n : Nat}

theorem mem_around : k ∈ around T c ↔ k ∈ T := by
  simp only [around, List.mem_append, List.mem_filter, decide_eq_true_eq]
  constructor
  · rintro (h | h) <;> exact h.1
  · intro h
    rcases lt_or_ge c k with hlt | hle
    · exact Or.inl ⟨h, hlt⟩
    · exact Or.inr ⟨h, hle⟩

theorem lt_of_take (hT : T.Pairwise (· < ·)) (hx : x ∈ T) (hnot : x ∉ T.take n) :
    ∀ k ∈ T.take n, k < x := by
  rw [← List.take_append_drop n T] at hT hx
  have hrest : x ∈ T.drop n := (List.mem_append.mp hx).resolve_left hnot
  exact fun k hk => (List.pairwise_append.mp hT).2.2 k hk x hrest

/-- What is met going round before `x` goes up in the order turned at `x`. -/
theorem around_rising (hT : T.Pairwise (· < ·)) (hx : x ∈ T) (hnot : x ∉ (around T c).take n) :
    ((around T c).take n).Pairwise (fun a b => place x a < place x b) ∧
      ∀ k ∈ (around T c).take n, place x c < place x k := by
  have habove : (T.filter fun k => c < k).Pairwise (· < ·) := hT.filter _
  have hbelow : (T.filter fun k => k ≤ c).Pairwise (· < ·) := hT.filter _
  rw [around, List.take_append] at hnot ⊢
  obtain ⟨hnotAbove, hnotBelow⟩ := not_or.mp (mt List.mem_append.mpr hnot)
  have hbeyond : ∀ k ∈ (T.filter fun k => c < k).take n, c < k := fun k hk =>
    of_decide_eq_true (List.mem_filter.mp (List.mem_of_mem_take hk)).2
  rcases lt_or_ge c x with hlt | hle
  · -- `x` comes before the end, and nothing is met from the start
    have hxAbove : x ∈ T.filter fun k => c < k := List.mem_filter.mpr ⟨hx, decide_eq_true hlt⟩
    have hless := lt_of_take habove hxAbove hnotAbove
    have hshort : n - (T.filter fun k => c < k).length = 0 := by
      refine Nat.sub_eq_zero_of_le (Nat.le_of_lt (Nat.lt_of_not_le fun hlong => hnotAbove ?_))
      rw [List.take_of_length_le hlong]
      exact hxAbove
    rw [hshort, List.take_zero, List.append_nil]
    refine ⟨List.Pairwise.imp_of_mem (fun ha hb h => ?_) (habove.sublist (List.take_sublist n _)),
      fun k hk => ?_⟩
    · exact place_lt_iff.mpr (Or.inr ⟨iff_of_true (hless _ ha) (hless _ hb), h⟩)
    · exact place_lt_iff.mpr (Or.inr ⟨iff_of_true hlt (hless k hk), hbeyond k hk⟩)
  · -- all keys from behind `c` on are above `x`, those from the start on below it
    have hxBelow : x ∈ T.filter fun k => k ≤ c := List.mem_filter.mpr ⟨hx, decide_eq_true hle⟩
    have hless := lt_of_take hbelow hxBelow hnotBelow
    have hmore : ∀ k ∈ (T.filter fun k => c < k).take n, ¬ k < x := fun k hk =>
      not_lt.mpr (le_of_lt (lt_of_le_of_lt hle (hbeyond k hk)))
    refine ⟨List.pairwise_append.mpr ⟨?_, ?_, fun a ha b hb => ?_⟩, fun k hk => ?_⟩
    · exact List.Pairwise.imp_of_mem (fun ha hb h =>
        place_lt_iff.mpr (Or.inr ⟨iff_of_false (hmore _ ha) (hmore _ hb), h⟩))
        (habove.sublist (List.take_sublist n _))
    · exact List.Pairwise.imp_of_mem (fun ha hb h =>
        place_lt_iff.mpr (Or.inr ⟨iff_of_true (hless _ ha) (hless _ hb), h⟩))
        (hbelow.sublist (List.take_sublist _ _))
    · exact place_lt_iff.mpr (Or.inl ⟨not_lt.mp (hmore a ha), hless b hb⟩)
    · rcases List.mem_append.mp hk with hk | hk
      · exact place_lt_iff.mpr (Or.inr ⟨iff_of_false (not_lt.mpr hle) (hmore k hk), hbeyond k hk⟩)
      · exact place_lt_iff.mpr (Or.inl ⟨hle, hless k hk⟩)

end Turned
