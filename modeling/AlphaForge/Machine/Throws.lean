/-
The errors a computation may end with.

`ThrowsOnly P x` says that whatever `x` throws satisfies `P`, and `Throws codes x`
that it is one of `codes`.  The rules follow the way a computation is put together, so
a code that is in none of its parts is never thrown by the whole.
-/
import Mathlib.Init

variable {ε α β : Type} {codes : List ε} {P : ε → Prop}

def ThrowsOnly (P : ε → Prop) (x : Except ε α) : Prop := ∀ e, x = .error e → P e

namespace ThrowsOnly

theorem ok (a : α) : ThrowsOnly P (.ok a : Except ε α) := by
  intro e h
  cases h

theorem pure (a : α) : ThrowsOnly P (Pure.pure a : Except ε α) := ok a

theorem error {e : ε} (h : P e) : ThrowsOnly P (.error e : Except ε α) := by
  intro e' he
  cases he
  exact h

theorem bind {x : Except ε α} {f : α → Except ε β} (hx : ThrowsOnly P x)
    (hf : ∀ a, x = .ok a → ThrowsOnly P (f a)) : ThrowsOnly P (x >>= f) := by
  intro e h
  cases hrun : x with
  | ok a =>
      rw [hrun] at h
      exact hf a hrun e h
  | error e' =>
      rw [hrun] at h
      have he : e' = e := Except.error.inj h
      exact hx e (he ▸ hrun)

theorem ite {p : Prop} [Decidable p] {x y : Except ε α} (hx : p → ThrowsOnly P x)
    (hy : ¬ p → ThrowsOnly P y) : ThrowsOnly P (if p then x else y) := by
  by_cases h : p
  · rw [if_pos h]
    exact hx h
  · rw [if_neg h]
    exact hy h

theorem mapM {f : α → Except ε β} {items : List α} (hf : ∀ a ∈ items, ThrowsOnly P (f a)) :
    ThrowsOnly P (items.mapM f) := by
  induction items with
  | nil => exact pure []
  | cons a rest ih =>
      rw [List.mapM_cons]
      refine bind (hf a List.mem_cons_self) fun b _ => ?_
      exact bind (ih fun a' ha' => hf a' (List.mem_cons_of_mem a ha')) fun bs _ => pure _

theorem foldlM {f : β → α → Except ε β} (hf : ∀ b a, ThrowsOnly P (f b a)) (items : List α)
    (b : β) : ThrowsOnly P (items.foldlM f b) := by
  induction items generalizing b with
  | nil => exact pure b
  | cons a rest ih =>
      rw [List.foldlM_cons]
      exact bind (hf b a) fun b' _ => ih b'

theorem forM {f : α → Except ε PUnit} (hf : ∀ a, ThrowsOnly P (f a)) (items : List α) :
    ThrowsOnly P (items.forM f) := by
  induction items with
  | nil => exact pure ()
  | cons a rest ih => exact bind (hf a) fun _ _ => ih

end ThrowsOnly

def Throws (codes : List ε) (x : Except ε α) : Prop := ∀ e, x = .error e → e ∈ codes

namespace Throws

theorem ok (a : α) : Throws codes (.ok a : Except ε α) := ThrowsOnly.ok a

theorem pure (a : α) : Throws codes (Pure.pure a : Except ε α) := ThrowsOnly.pure a

theorem error {e : ε} (h : e ∈ codes) : Throws codes (.error e : Except ε α) :=
  ThrowsOnly.error (P := (· ∈ codes)) h

theorem bind {x : Except ε α} {f : α → Except ε β} (hx : Throws codes x)
    (hf : ∀ a, x = .ok a → Throws codes (f a)) : Throws codes (x >>= f) :=
  ThrowsOnly.bind (P := (· ∈ codes)) hx hf

theorem ite {p : Prop} [Decidable p] {x y : Except ε α} (hx : p → Throws codes x)
    (hy : ¬ p → Throws codes y) : Throws codes (if p then x else y) :=
  ThrowsOnly.ite (P := (· ∈ codes)) hx hy

theorem mapM {f : α → Except ε β} {items : List α} (hf : ∀ a ∈ items, Throws codes (f a)) :
    Throws codes (items.mapM f) :=
  ThrowsOnly.mapM (P := (· ∈ codes)) hf

theorem foldlM {f : β → α → Except ε β} (hf : ∀ b a, Throws codes (f b a)) (items : List α)
    (b : β) : Throws codes (items.foldlM f b) :=
  ThrowsOnly.foldlM (P := (· ∈ codes)) hf items b

/-- A code that is not listed is not thrown. -/
theorem ne {x : Except ε α} (h : Throws codes x) {e : ε} (he : e ∉ codes) : x ≠ .error e :=
  fun hx => he (h e hx)

end Throws
