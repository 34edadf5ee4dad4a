/-
A map that remembers the order in which keys came in.

Setting a key that is there replaces its value in place, and a new key goes to the
end.
-/
import Mathlib.Algebra.Ring.Int.Defs
import Mathlib.Data.List.Basic

abbrev OrderedMap (κ ν : Type) := List (κ × ν)

namespace OrderedMap

variable {κ ν : Type} [DecidableEq κ]

def get? (k : κ) : OrderedMap κ ν → Option ν
  | [] => none
  | (k', v) :: rest => if k' = k then some v else get? k rest

def set (k : κ) (v : ν) : OrderedMap κ ν → OrderedMap κ ν
  | [] => [(k, v)]
  | (k', v') :: rest => if k' = k then (k, v) :: rest else (k', v') :: set k v rest

@[simp] theorem get?_set_self (k : κ) (v : ν) (m : OrderedMap κ ν) :
    (m.set k v).get? k = some v := by
  induction m with
  | nil => exact if_pos rfl
  | cons head rest ih =>
      by_cases h : head.1 = k
      · rw [set, if_pos h, get?, if_pos rfl]
      · rw [set, if_neg h, get?, if_neg h, ih]

theorem get?_set_of_ne {k k' : κ} (h : k' ≠ k) (v : ν) (m : OrderedMap κ ν) :
    (m.set k v).get? k' = m.get? k' := by
  induction m with
  | nil => exact if_neg h.symm
  | cons head rest ih =>
      by_cases hk : head.1 = k
      · have hne : head.1 ≠ k' := fun e => h (e.symm.trans hk)
        rw [set, if_pos hk, get?, if_neg h.symm, get?, if_neg hne]
      · rw [set, if_neg hk, get?, get?, ih]

theorem get?_set (k k' : κ) (v : ν) (m : OrderedMap κ ν) :
    (m.set k v).get? k' = if k' = k then some v else m.get? k' := by
  by_cases h : k' = k
  · rw [h, get?_set_self, if_pos rfl]
  · rw [get?_set_of_ne h, if_neg h]

theorem mem_of_get? {m : OrderedMap κ ν} {k : κ} {v : ν} (h : m.get? k = some v) : (k, v) ∈ m := by
  induction m with
  | nil => cases h
  | cons head rest ih =>
      rw [get?] at h
      by_cases hk : head.1 = k
      · rw [if_pos hk, Option.some.injEq] at h
        rw [← hk, ← h]
        exact List.mem_cons_self
      · rw [if_neg hk] at h
        exact List.mem_cons_of_mem _ (ih h)

/-- The first entry of a list made from the map that carries a key is the key's. -/
theorem find?_map {β : Type} (k : κ) (key : β → κ) (f : κ × ν → β) (hf : ∀ e, key (f e) = e.1)
    (m : OrderedMap κ ν) :
    (m.map f).find? (fun b => key b = k) = (m.get? k).map (fun v => f (k, v)) := by
  induction m with
  | nil => rfl
  | cons head rest ih =>
      obtain ⟨k', v⟩ := head
      by_cases h : k' = k
      · subst h
        rw [List.map_cons, List.find?_cons_of_pos (by simp [hf]), get?, if_pos rfl]
        rfl
      · rw [List.map_cons, List.find?_cons_of_neg (by simp [hf, h]), get?, if_neg h, ih]

/-! ## Tables

A table with a primary key is a map whose keys do not repeat.  An update of all
rows keeps the keys. -/

def keys (m : OrderedMap κ ν) : List κ := m.map Prod.fst

def mapValues (f : κ → ν → ν) (m : OrderedMap κ ν) : OrderedMap κ ν :=
  m.map fun e => (e.1, f e.1 e.2)

theorem get?_mapValues (f : κ → ν → ν) (k : κ) (m : OrderedMap κ ν) :
    (m.mapValues f).get? k = (m.get? k).map (f k) := by
  induction m with
  | nil => rfl
  | cons head rest ih =>
      obtain ⟨k', v⟩ := head
      by_cases h : k' = k
      · subst h
        simp only [mapValues, List.map_cons, get?, if_true, Option.map_some]
      · simp only [mapValues, List.map_cons, get?, if_neg h] at ih ⊢
        exact ih

/-- An update that clears a flag in some rows leaves the other flagged rows. -/
theorem get?_clear (flag : ν → Bool) {clear : ν → ν} (hclear : ∀ v, flag (clear v) = false)
    (p : κ → ν → Prop) [∀ k v, Decidable (p k v)] {k : κ} {v : ν} (m : OrderedMap κ ν) :
    ((m.mapValues fun k v => if p k v then clear v else v).get? k = some v ∧ flag v = true) ↔
      m.get? k = some v ∧ flag v = true ∧ ¬ p k v := by
  rw [get?_mapValues]
  cases hget : m.get? k with
  | none => simp
  | some w =>
      rw [Option.map_some, Option.some.injEq, Option.some.injEq]
      by_cases hp : p k w
      · rw [if_pos hp]
        constructor
        · rintro ⟨rfl, hflag⟩
          rw [hclear] at hflag
          cases hflag
        · rintro ⟨rfl, _, hnot⟩
          exact absurd hp hnot
      · rw [if_neg hp]
        constructor
        · rintro ⟨rfl, hflag⟩
          exact ⟨rfl, hflag, hp⟩
        · rintro ⟨rfl, hflag, _⟩
          exact ⟨rfl, hflag⟩

omit [DecidableEq κ] in
theorem keys_mapValues (f : κ → ν → ν) (m : OrderedMap κ ν) : (m.mapValues f).keys = m.keys := by
  simp [keys, mapValues]

theorem mem_keys_set {k k' : κ} {v : ν} {m : OrderedMap κ ν} :
    k' ∈ (m.set k v).keys ↔ k' = k ∨ k' ∈ m.keys := by
  induction m with
  | nil => simp [set, keys]
  | cons head rest ih =>
      by_cases h : head.1 = k
      · simp [set, keys, h]
      · rw [set, if_neg h]
        simp only [keys, List.map_cons, List.mem_cons] at ih ⊢
        rw [ih]
        exact or_left_comm

theorem get?_eq_none_iff {k : κ} {m : OrderedMap κ ν} : m.get? k = none ↔ k ∉ m.keys := by
  induction m with
  | nil => simp [get?, keys]
  | cons head rest ih =>
      by_cases h : head.1 = k
      · simp [get?, keys, h]
      · rw [get?, if_neg h, ih]
        simp only [keys, List.map_cons, List.mem_cons, not_or]
        exact ⟨fun hrest => ⟨fun heq => h heq.symm, hrest⟩, fun hboth => hboth.2⟩

theorem set_eq_append {k : κ} {v : ν} {m : OrderedMap κ ν} (h : m.get? k = none) :
    m.set k v = m ++ [(k, v)] := by
  induction m with
  | nil => rfl
  | cons head rest ih =>
      rw [get?] at h
      split at h
      · cases h
      · next hne => rw [set, if_neg hne, ih h, List.cons_append]

theorem set_set {k : κ} {v w : ν} (m : OrderedMap κ ν) : (m.set k v).set k w = m.set k w := by
  induction m with
  | nil => exact if_pos rfl
  | cons head rest ih =>
      by_cases h : head.1 = k
      · rw [set, if_pos h, set, if_pos rfl, set, if_pos h]
      · rw [set, if_neg h, set, if_neg h, ih, set, if_neg h]

theorem nodup_keys_set {k : κ} {v : ν} {m : OrderedMap κ ν} (h : m.keys.Nodup) :
    (m.set k v).keys.Nodup := by
  induction m with
  | nil => simp [set, keys]
  | cons head rest ih =>
      obtain ⟨hhead, hrest⟩ := List.nodup_cons.mp h
      by_cases hk : head.1 = k
      · rw [set, if_pos hk]
        refine List.nodup_cons.mpr ⟨?_, hrest⟩
        rw [← hk]
        exact hhead
      · rw [set, if_neg hk]
        refine List.nodup_cons.mpr ⟨fun hmem => ?_, ih hrest⟩
        rcases mem_keys_set.mp hmem with heq | hin
        · exact hk heq
        · exact hhead hin

theorem mem_of_mem_set {k : κ} {v : ν} {m : OrderedMap κ ν} {e : κ × ν} (h : e ∈ m.set k v) :
    e = (k, v) ∨ e ∈ m := by
  induction m with
  | nil =>
      rw [set, List.mem_singleton] at h
      exact Or.inl h
  | cons head rest ih =>
      rw [set] at h
      split at h
      · rcases List.mem_cons.mp h with heq | hin
        · exact Or.inl heq
        · exact Or.inr (List.mem_cons_of_mem _ hin)
      · rcases List.mem_cons.mp h with heq | hin
        · rw [heq]
          exact Or.inr List.mem_cons_self
        · exact (ih hin).imp_right (List.mem_cons_of_mem _)

/-- A sum over the rows changes by the new row and the one it replaces. -/
theorem sum_set (f : κ × ν → Int) (k : κ) (v : ν) (m : OrderedMap κ ν) :
    ((m.set k v).map f).sum =
      (m.map f).sum - ((m.get? k).map (fun w => f (k, w))).getD 0 + f (k, v) := by
  induction m with
  | nil => simp [set, get?]
  | cons head rest ih =>
      obtain ⟨k', w⟩ := head
      rw [set, get?]
      by_cases h : k' = k
      · subst h
        rw [if_pos rfl, if_pos rfl]
        simp only [List.map_cons, List.sum_cons, Option.map_some, Option.getD_some]
        omega
      · rw [if_neg h, if_neg h]
        simp only [List.map_cons, List.sum_cons, ih]
        omega

theorem sum_set_values (f : ν → Int) (k : κ) (v : ν) (m : OrderedMap κ ν) :
    ((m.set k v).map (fun e => f e.2)).sum =
      (m.map (fun e => f e.2)).sum - ((m.get? k).map f).getD 0 + f v :=
  sum_set (fun e => f e.2) k v m

/-- Setting one row changes a count of rows by at most one. -/
theorem countP_set_le (p : κ × ν → Bool) (k : κ) (v : ν) (m : OrderedMap κ ν) :
    (m.set k v).countP p ≤ m.countP p + 1 := by
  induction m with
  | nil =>
      rw [set, List.countP_singleton]
      split <;> omega
  | cons head rest ih =>
      rw [set]
      split
      · simp only [List.countP_cons]
        split <;> split <;> omega
      · simp only [List.countP_cons]
        split <;> omega

theorem get?_delete_self (k : κ) (m : OrderedMap κ ν) :
    get? k (m.filter (fun e => e.1 ≠ k)) = none := by
  induction m with
  | nil => rfl
  | cons head rest ih =>
      by_cases h : head.1 = k
      · rw [List.filter_cons_of_neg (by simp [h]), ih]
      · rw [List.filter_cons_of_pos (by simp [h]), get?, if_neg h, ih]

theorem get?_delete_of_ne {k k' : κ} (h : k' ≠ k) (m : OrderedMap κ ν) :
    get? k' (m.filter (fun e => e.1 ≠ k)) = m.get? k' := by
  induction m with
  | nil => rfl
  | cons head rest ih =>
      by_cases hk : head.1 = k
      · have hne : head.1 ≠ k' := fun heq => h (heq.symm.trans hk)
        rw [List.filter_cons_of_neg (by simp [hk]), ih, get?, if_neg hne]
      · rw [List.filter_cons_of_pos (by simp [hk]), get?, get?, ih]

omit [DecidableEq κ] in
theorem nodup_keys_filter {m : OrderedMap κ ν} (h : m.keys.Nodup) (p : κ × ν → Bool) :
    keys (m.filter p) |>.Nodup :=
  h.sublist (List.filter_sublist.map Prod.fst)

/-- A row of a table and the others. -/
theorem perm_delete {k : κ} {v : ν} {m : OrderedMap κ ν} (h : m.keys.Nodup)
    (hget : m.get? k = some v) : m.Perm ((k, v) :: m.filter (fun e => e.1 ≠ k)) := by
  induction m with
  | nil => cases hget
  | cons head rest ih =>
      obtain ⟨k', w⟩ := head
      obtain ⟨hhead, hrest⟩ := List.nodup_cons.mp h
      rw [get?] at hget
      by_cases hk : k' = k
      · rw [if_pos hk, Option.some.injEq] at hget
        subst hk hget
        have hsame : rest.filter (fun e => e.1 ≠ k') = rest := by
          refine List.filter_eq_self.mpr fun e he => decide_eq_true fun heq => hhead ?_
          have hmem : e.1 ∈ rest.map Prod.fst := List.mem_map_of_mem he
          rw [heq] at hmem
          exact hmem
        rw [List.filter_cons_of_neg (by simp), hsame]
      · rw [if_neg hk] at hget
        rw [List.filter_cons_of_pos (by simp [hk])]
        exact ((ih hrest hget).cons (k', w)).trans (List.Perm.swap _ _ _)

/-- In a table the rows are what the keys find. -/
theorem mem_iff_get? {m : OrderedMap κ ν} (h : m.keys.Nodup) {k : κ} {v : ν} :
    (k, v) ∈ m ↔ m.get? k = some v := by
  induction m with
  | nil => simp [get?]
  | cons head rest ih =>
      obtain ⟨k', w⟩ := head
      obtain ⟨hhead, hrest⟩ := List.nodup_cons.mp h
      rw [get?, List.mem_cons, Prod.mk.injEq]
      by_cases hk : k' = k
      · subst hk
        rw [if_pos rfl, Option.some.injEq]
        constructor
        · rintro (⟨_, rfl⟩ | hin)
          · rfl
          · exact absurd (List.mem_map_of_mem (f := Prod.fst) hin) hhead
        · intro heq
          exact Or.inl ⟨rfl, heq.symm⟩
      · rw [if_neg hk, ← ih hrest]
        constructor
        · rintro (⟨heq, _⟩ | hin)
          · exact absurd heq.symm hk
          · exact hin
        · exact Or.inr

end OrderedMap

/-! ## Rows that a condition selects

A write to one row, or an update of many, leaves a selection alone when the rows it
touches are not in it, neither before nor after. -/

namespace OrderedMap

variable {κ ν μ : Type} [DecidableEq κ]

theorem get?_map (f : ν → μ) (k : κ) (m : OrderedMap κ ν) :
    get? k (m.map (fun e => (e.1, f e.2))) = (m.get? k).map f := by
  induction m with
  | nil => rfl
  | cons head rest ih =>
      rw [List.map_cons, get?, get?, ih]
      by_cases h : head.1 = k
      · rw [if_pos h, if_pos h]
        rfl
      · rw [if_neg h, if_neg h]

/-- A row that is not selected before or after the write. -/
theorem filter_set {p : κ × ν → Bool} {k : κ} {v : ν} {m : OrderedMap κ ν}
    (hold : ∀ w, (k, w) ∈ m → p (k, w) = false) (hnew : p (k, v) = false) :
    (m.set k v).filter p = m.filter p := by
  induction m with
  | nil => rw [set, List.filter_cons_of_neg (by simp [hnew])]
  | cons head rest ih =>
      obtain ⟨k', w⟩ := head
      have hrest : ∀ w, (k, w) ∈ rest → p (k, w) = false :=
        fun w hw => hold w (List.mem_cons_of_mem _ hw)
      by_cases h : k' = k
      · subst h
        have hhead : p (k', w) = false := hold w List.mem_cons_self
        rw [set, if_pos rfl, List.filter_cons_of_neg (by simp [hnew]),
          List.filter_cons_of_neg (by simp [hhead])]
      · rw [set, if_neg h, List.filter_cons, List.filter_cons, ih hrest]

omit [DecidableEq κ] in
/-- An update that keeps the selected rows, and selects no others. -/
theorem filter_mapValues {p : κ × ν → Bool} {f : κ → ν → ν} {m : OrderedMap κ ν}
    (hsame : ∀ k v, p (k, v) = true → f k v = v)
    (hnone : ∀ k v, p (k, v) = false → p (k, f k v) = false) :
    (m.mapValues f).filter p = m.filter p := by
  induction m with
  | nil => rfl
  | cons head rest ih =>
      obtain ⟨k, v⟩ := head
      rw [mapValues, List.map_cons, List.filter_cons, List.filter_cons]
      rw [mapValues] at ih
      cases hp : p (k, v) with
      | true =>
          dsimp only
          rw [hsame k v hp, hp, if_pos rfl, if_pos rfl, ih]
      | false =>
          dsimp only
          rw [hnone k v hp, if_neg Bool.false_ne_true, if_neg Bool.false_ne_true, ih]

/-- A selection by the key finds what the table finds. -/
theorem get?_filter {p : κ → Bool} {k : κ} (hk : p k = true) (m : OrderedMap κ ν) :
    get? k (m.filter (fun e => p e.1)) = m.get? k := by
  induction m with
  | nil => rfl
  | cons head rest ih =>
      by_cases h : head.1 = k
      · rw [List.filter_cons_of_pos (by rw [h, hk]), get?, get?, if_pos h, if_pos h]
      · rw [get?, if_neg h, ← ih]
        cases hp : p head.1 with
        | true => rw [List.filter_cons_of_pos (by simpa using hp), get?, if_neg h]
        | false => rw [List.filter_cons_of_neg (by simpa using hp)]

end OrderedMap
