/-
Folding a list into one value a key.

Every element goes to the value of its key, so what a key has after the fold is what its
own elements fold to, whatever came between them.
-/
import AlphaForge.Data.OrderedMap

namespace OrderedMap

variable {κ α ν : Type} [DecidableEq κ]

/-- One element, added to what its key has. -/
def addTo (key : α → κ) (step : Option ν → α → ν) (m : OrderedMap κ ν) (a : α) : OrderedMap κ ν :=
  m.set (key a) (step (m.get? (key a)) a)

/-- The values of all keys. -/
def grouped (key : α → κ) (step : Option ν → α → ν) (as : List α) : OrderedMap κ ν :=
  as.foldl (addTo key step) []

variable {key : α → κ} {step : Option ν → α → ν} {as : List α} {m : OrderedMap κ ν}

theorem get?_foldl_addTo (k : κ) : (as.foldl (addTo key step) m).get? k =
    (as.filter (fun a => key a = k)).foldl (fun old a => some (step old a)) (m.get? k) := by
  induction as generalizing m with
  | nil => rfl
  | cons a rest ih =>
      rw [List.foldl_cons, ih, addTo]
      by_cases h : key a = k
      · rw [List.filter_cons_of_pos (by simp [h]), List.foldl_cons, ← h, get?_set_self]
      · rw [List.filter_cons_of_neg (by simp [h]), get?_set_of_ne (Ne.symm h)]

/-- What a key has is what its own elements fold to. -/
theorem get?_grouped (k : κ) : (grouped key step as).get? k =
    (as.filter (fun a => key a = k)).foldl (fun old a => some (step old a)) none :=
  get?_foldl_addTo k

theorem mem_keys_grouped {k : κ} : k ∈ (grouped key step as).keys ↔ ∃ a ∈ as, key a = k := by
  have hfold : ∀ (as : List α) (m : OrderedMap κ ν), k ∈ (as.foldl (addTo key step) m).keys ↔
      k ∈ m.keys ∨ ∃ a ∈ as, key a = k := by
    intro as
    induction as with
    | nil => simp
    | cons a rest ih =>
        intro m
        rw [List.foldl_cons, ih, addTo, mem_keys_set, List.exists_mem_cons_iff]
        constructor
        · rintro ((rfl | h) | h)
          · exact Or.inr (Or.inl rfl)
          · exact Or.inl h
          · exact Or.inr (Or.inr h)
        · rintro (h | rfl | h)
          · exact Or.inl (Or.inr h)
          · exact Or.inl (Or.inl rfl)
          · exact Or.inr h
  exact (hfold as []).trans ⟨fun h => h.resolve_left List.not_mem_nil, Or.inr⟩

theorem nodup_keys_grouped : (grouped key step as).keys.Nodup := by
  have hfold : ∀ (as : List α) (m : OrderedMap κ ν), m.keys.Nodup →
      (as.foldl (addTo key step) m).keys.Nodup := by
    intro as
    induction as with
    | nil => exact fun m h => h
    | cons a rest ih => exact fun m h => ih _ (nodup_keys_set h)
  exact hfold as [] List.nodup_nil

end OrderedMap
