/-
Intervals that cover a range of a linear order without gap or overlap.

An interval is closed below and open above.  A tiling goes on where it ends, so that
covering and disjointness follow from one list after the other.
-/
import Mathlib.Order.Lattice

/-- The intervals follow each other from `a` to `b`, and none is empty. -/
def Tiles {α : Type} [LT α] : List (α × α) → α → α → Prop
  | [], a, b => a = b
  | i :: rest, a, b => i.1 = a ∧ i.1 < i.2 ∧ Tiles rest i.2 b

namespace Tiles

variable {α : Type} [LinearOrder α] {l l' : List (α × α)} {a b c x : α}

theorem nil (a : α) : Tiles [] a a := rfl

theorem single (h : a < b) : Tiles [(a, b)] a b := ⟨rfl, h, rfl⟩

theorem append_iff : Tiles (l ++ l') a c ↔ ∃ b, Tiles l a b ∧ Tiles l' b c := by
  induction l generalizing a with
  | nil =>
      constructor
      · exact fun h => ⟨a, rfl, h⟩
      · rintro ⟨b, rfl, h⟩
        exact h
  | cons i rest ih =>
      constructor
      · rintro ⟨hbegin, hlt, h⟩
        obtain ⟨b, hrest, h'⟩ := ih.mp h
        exact ⟨b, ⟨hbegin, hlt, hrest⟩, h'⟩
      · rintro ⟨b, ⟨hbegin, hlt, hrest⟩, h'⟩
        exact ⟨hbegin, hlt, ih.mpr ⟨b, hrest, h'⟩⟩

theorem append (h : Tiles l a b) (h' : Tiles l' b c) : Tiles (l ++ l') a c :=
  append_iff.mpr ⟨b, h, h'⟩

/-- The last interval may be made longer. -/
theorem extend (h : Tiles (l ++ [(x, b)]) a b) (hbc : b ≤ c) : Tiles (l ++ [(x, c)]) a c := by
  obtain ⟨y, hl, rfl, hlt, _⟩ := append_iff.mp h
  exact hl.append (single (lt_of_lt_of_le hlt hbc))

theorem le (h : Tiles l a b) : a ≤ b := by
  induction l generalizing a with
  | nil => exact le_of_eq h
  | cons i rest ih =>
      obtain ⟨rfl, hlt, hrest⟩ := h
      exact le_trans (le_of_lt hlt) (ih hrest)

theorem begins (h : Tiles l a b) {i : α × α} (hi : i ∈ l) : a ≤ i.1 := by
  induction l generalizing a with
  | nil => cases hi
  | cons j rest ih =>
      obtain ⟨rfl, hlt, hrest⟩ := h
      rcases List.mem_cons.mp hi with rfl | hi
      · exact le_refl _
      · exact le_trans (le_of_lt hlt) (ih hrest hi)

theorem nonempty (h : Tiles l a b) {i : α × α} (hi : i ∈ l) : i.1 < i.2 := by
  induction l generalizing a with
  | nil => cases hi
  | cons j rest ih =>
      obtain ⟨_, hlt, hrest⟩ := h
      rcases List.mem_cons.mp hi with rfl | hi
      · exact hlt
      · exact ih hrest hi

/-- They are disjoint and in order. -/
theorem disjoint (h : Tiles l a b) : l.Pairwise fun i j => i.2 ≤ j.1 := by
  induction l generalizing a with
  | nil => exact .nil
  | cons i rest ih =>
      obtain ⟨_, _, hrest⟩ := h
      exact .cons (fun j hj => hrest.begins hj) (ih hrest)

/-- They cover the range and nothing else. -/
theorem covers (h : Tiles l a b) : (∃ i ∈ l, i.1 ≤ x ∧ x < i.2) ↔ a ≤ x ∧ x < b := by
  induction l generalizing a with
  | nil =>
      obtain rfl : a = b := h
      constructor
      · rintro ⟨i, hi, _⟩
        cases hi
      · rintro ⟨hle, hlt⟩
        exact absurd hlt (not_lt_of_ge hle)
  | cons i rest ih =>
      obtain ⟨rfl, hlt, hrest⟩ := h
      have hle := hrest.le
      constructor
      · rintro ⟨j, hj, hx⟩
        rcases List.mem_cons.mp hj with rfl | hj
        · exact ⟨hx.1, lt_of_lt_of_le hx.2 hle⟩
        · obtain ⟨hfrom, huntil⟩ := (ih hrest).mp ⟨j, hj, hx⟩
          exact ⟨le_trans (le_of_lt hlt) hfrom, huntil⟩
      · rintro ⟨hfrom, huntil⟩
        by_cases hin : x < i.2
        · exact ⟨i, List.mem_cons_self, hfrom, hin⟩
        · obtain ⟨j, hj, hx⟩ := (ih hrest).mpr ⟨le_of_not_gt hin, huntil⟩
          exact ⟨j, List.mem_cons_of_mem _ hj, hx⟩

end Tiles
