/-
Chains of blocks that are linked by number and hash.

A chain lists its blocks with the newest first.  Each block's number is one more
than that of the block below it, and its parent is that block's hash, so a chain
holds one block to a height and no height between its ends is missing.  Where a
hash belongs to one block only, two chains that share a block agree below it.
-/
import Mathlib.Data.List.Chain

namespace LinkedChain

variable {β η : Type} (number : β → Nat) (hash parent : β → η)

/-- A block on top of another. -/
def Follows (b below : β) : Prop := number b = number below + 1 ∧ parent b = hash below

def Linked (chain : List β) : Prop := chain.IsChain (Follows number hash parent)

variable {number hash parent}

theorem Linked.tail {b : β} {rest : List β} (h : Linked number hash parent (b :: rest)) :
    Linked number hash parent rest :=
  List.IsChain.tail h

theorem Linked.lt_head {b : β} {rest : List β} (h : Linked number hash parent (b :: rest)) :
    ∀ c ∈ rest, number c < number b := by
  induction rest generalizing b with
  | nil => intro c hc; cases hc
  | cons d rest ih =>
      obtain ⟨hfollows, _⟩ := List.isChain_cons.mp h
      have hnumber : number b = number d + 1 := (hfollows d rfl).1
      intro c hc
      rcases List.mem_cons.mp hc with rfl | hc
      · omega
      · have := ih h.tail c hc
        omega

theorem Linked.le_head {b c : β} {rest : List β} (h : Linked number hash parent (b :: rest))
    (hc : c ∈ b :: rest) : number c ≤ number b := by
  rcases List.mem_cons.mp hc with rfl | hc
  · exact Nat.le_refl _
  · exact Nat.le_of_lt (h.lt_head c hc)

/-- One block to a height. -/
theorem Linked.eq_of_number {chain : List β} (h : Linked number hash parent chain) {b c : β}
    (hb : b ∈ chain) (hc : c ∈ chain) (hnumber : number b = number c) : b = c := by
  induction chain with
  | nil => cases hb
  | cons d rest ih =>
      rcases List.mem_cons.mp hb with hbd | hbr <;> rcases List.mem_cons.mp hc with hcd | hcr
      · rw [hbd, hcd]
      · have := h.lt_head c hcr
        rw [hbd] at hnumber
        omega
      · have := h.lt_head b hbr
        rw [hcd] at hnumber
        omega
      · exact ih h.tail hbr hcr

/-- No height between the ends is missing. -/
theorem Linked.exists_number {chain : List β} (h : Linked number hash parent chain) {b low : β}
    (hb : b ∈ chain) (hlow : chain.getLast? = some low) {n : Nat} (hn : number low ≤ n)
    (hnb : n ≤ number b) : ∃ c ∈ chain, number c = n := by
  induction chain generalizing b with
  | nil => cases hb
  | cons d rest ih =>
      by_cases htop : n = number d
      · exact ⟨d, List.mem_cons_self, htop.symm⟩
      · have hle := h.le_head hb
        cases rest with
        | nil =>
            rw [List.getLast?_singleton, Option.some.injEq] at hlow
            rw [← hlow] at hn
            omega
        | cons e rest =>
            have hfollows : number d = number e + 1 := ((List.isChain_cons.mp h).1 e rfl).1
            rw [List.getLast?_cons_cons] at hlow
            obtain ⟨c, hc, hnumber⟩ := ih h.tail List.mem_cons_self hlow (by omega)
            exact ⟨c, List.mem_cons_of_mem _ hc, hnumber⟩

/-- The lowest block of a chain is the one it ends with. -/
theorem Linked.ge_last {chain : List β} (h : Linked number hash parent chain) {b low : β}
    (hb : b ∈ chain) (hlow : chain.getLast? = some low) : number low ≤ number b := by
  induction chain with
  | nil => cases hb
  | cons d rest ih =>
      cases rest with
      | nil =>
          rw [List.getLast?_singleton, Option.some.injEq] at hlow
          rw [List.mem_singleton.mp hb, hlow]
      | cons e rest =>
          rw [List.getLast?_cons_cons] at hlow
          rcases List.mem_cons.mp hb with rfl | hb
          · exact Nat.le_of_lt (h.lt_head low (List.mem_of_getLast? hlow))
          · exact ih h.tail hb hlow

/-- A block's parent is the block below it. -/
theorem Linked.parent_eq {chain : List β} (h : Linked number hash parent chain) {b c : β}
    (hb : b ∈ chain) (hc : c ∈ chain) (hnumber : number b = number c + 1) :
    parent b = hash c := by
  induction chain with
  | nil => cases hb
  | cons d rest ih =>
      rcases List.mem_cons.mp hb with hbd | hbr
      · rcases List.mem_cons.mp hc with hcd | hcr
        · rw [hbd, hcd] at hnumber
          omega
        · cases rest with
          | nil => cases hcr
          | cons e rest =>
              have hfollows : Follows number hash parent d e := (List.isChain_cons.mp h).1 e rfl
              rw [hbd] at hnumber ⊢
              have heq : c = e :=
                h.tail.eq_of_number hcr List.mem_cons_self (by have := hfollows.1; omega)
              rw [heq]
              exact hfollows.2
      · rcases List.mem_cons.mp hc with hcd | hcr
        · have := h.lt_head b hbr
          rw [hcd] at hnumber
          omega
        · exact ih h.tail hbr hcr

/-- The blocks below a height are the lower part of the chain. -/
theorem Linked.below {chain : List β} (h : Linked number hash parent chain) (n : Nat) :
    Linked number hash parent (chain.filter (fun b => number b < n)) := by
  induction chain with
  | nil => exact h
  | cons d rest ih =>
      by_cases hd : number d < n
      · have hall : (d :: rest).filter (fun b => number b < n) = d :: rest := by
          rw [List.filter_eq_self]
          intro b hb
          have := h.le_head hb
          simp only [decide_eq_true_eq]
          omega
        rw [hall]
        exact h
      · rw [List.filter_cons_of_neg (by simpa using hd)]
        exact ih h.tail

theorem Linked.below_getLast? {chain : List β} (h : Linked number hash parent chain) (n : Nat) :
    ∀ low ∈ (chain.filter (fun b => number b < n)).getLast?, chain.getLast? = some low := by
  induction chain with
  | nil => intro low hlow; cases hlow
  | cons d rest ih =>
      intro low hlow
      by_cases hd : number d < n
      · have hall : (d :: rest).filter (fun b => number b < n) = d :: rest := by
          rw [List.filter_eq_self]
          intro b hb
          have := h.le_head hb
          simp only [decide_eq_true_eq]
          omega
        rwa [hall] at hlow
      · rw [List.filter_cons_of_neg (by simpa using hd)] at hlow
        have hrest := ih h.tail low hlow
        cases rest with
        | nil => cases hrest
        | cons e rest => rwa [List.getLast?_cons_cons]

/-- The top of the blocks below a height is the block just under it. -/
theorem Linked.below_head? {chain : List β} (h : Linked number hash parent chain) {b : β}
    (hb : b ∈ chain) : (chain.filter (fun c => number c < number b + 1)).head? = some b := by
  induction chain with
  | nil => cases hb
  | cons d rest ih =>
      by_cases hd : number d < number b + 1
      · rw [List.filter_cons_of_pos (by simpa using hd), List.head?_cons, Option.some.injEq]
        have hle := h.le_head hb
        exact h.eq_of_number List.mem_cons_self hb (by omega)
      · rw [List.filter_cons_of_neg (by simpa using hd)]
        rcases List.mem_cons.mp hb with rfl | hb
        · omega
        · exact ih h.tail hb

/-- Blocks put on top of a chain, given with the oldest first. -/
theorem Linked.extend {chain new : List β} (h : Linked number hash parent chain)
    (hnew : new.IsChain (fun below b => Follows number hash parent b below))
    (hjoin : ∀ top ∈ chain.head?, ∀ b ∈ new.head?, Follows number hash parent b top) :
    Linked number hash parent (new.reverse ++ chain) := by
  refine List.IsChain.append (List.isChain_reverse.mpr hnew) h ?_
  intro b hb top htop
  rw [List.getLast?_reverse] at hb
  exact hjoin top htop b hb

end LinkedChain
