/-
Loops that write into an array, each index at most once.

A loop that sets the entry of each of its items from what that entry was leaves every
other entry alone, and no write sees what another one wrote.
-/
import Mathlib.Data.List.Nodup
import Mathlib.Data.List.ProdSigma

namespace Writes

variable {α ι κ : Type}

/-- Write each item's entry from what is there. -/
def write (place : ι → Nat) (f : ι → α → α) (d : α) (a : List α) (i : ι) : List α :=
  a.set (place i) (f i (a.getD (place i) d))

section Write

variable {place : ι → Nat} {f : ι → α → α} {d : α}

theorem length_write (a : List α) (i : ι) : (write place f d a i).length = a.length :=
  List.length_set

theorem getD_write_self {a : List α} {i : ι} (h : place i < a.length) :
    (write place f d a i).getD (place i) d = f i (a.getD (place i) d) := by
  rw [write, List.getD_eq_getElem?_getD, List.getElem?_set_self h]
  rfl

theorem getD_write_of_ne {a : List α} {i : ι} {j : Nat} (h : place i ≠ j) :
    (write place f d a i).getD j d = a.getD j d := by
  rw [write, List.getD_eq_getElem?_getD, List.getElem?_set_ne h, ← List.getD_eq_getElem?_getD]

theorem length_foldl_write (items : List ι) (a : List α) :
    (items.foldl (write place f d) a).length = a.length := by
  induction items generalizing a with
  | nil => rfl
  | cons i rest ih => rw [List.foldl_cons, ih, length_write]

theorem getD_foldl_write_of_ne {items : List ι} {j : Nat} (h : ∀ i ∈ items, place i ≠ j)
    (a : List α) : (items.foldl (write place f d) a).getD j d = a.getD j d := by
  induction items generalizing a with
  | nil => rfl
  | cons i rest ih =>
      rw [List.foldl_cons, ih fun k hk => h k (List.mem_cons_of_mem i hk),
        getD_write_of_ne (h i List.mem_cons_self)]

/-- What stands at the entry of an item after the loop. -/
theorem getD_foldl_write {items : List ι} (hnodup : (items.map place).Nodup) {a : List α} {i : ι}
    (hi : i ∈ items) (hbound : place i < a.length) :
    (items.foldl (write place f d) a).getD (place i) d = f i (a.getD (place i) d) := by
  induction items generalizing a with
  | nil => cases hi
  | cons k rest ih =>
      rw [List.map_cons, List.nodup_cons] at hnodup
      rw [List.foldl_cons]
      rcases List.mem_cons.mp hi with rfl | hrest
      · have hothers : ∀ l ∈ rest, place l ≠ place i := fun l hl heq =>
          hnodup.1 (heq ▸ List.mem_map_of_mem hl)
        rw [getD_foldl_write_of_ne hothers, getD_write_self hbound]
      · have hother : place k ≠ place i := fun heq => hnodup.1 (heq ▸ List.mem_map_of_mem hrest)
        rw [ih hnodup.2 hrest (by rwa [length_write]), getD_write_of_ne hother]

end Write

/-- A loop in a loop is a loop over pairs. -/
theorem foldl_foldl (rows : List ι) (columns : List κ) (f : α → ι × κ → α) (a : α) :
    rows.foldl (fun a i => columns.foldl (fun a k => f a (i, k)) a) a =
      (rows.product columns).foldl f a := by
  rw [List.product, List.foldl_flatMap]
  congr 1
  funext a i
  rw [List.foldl_map]

end Writes
