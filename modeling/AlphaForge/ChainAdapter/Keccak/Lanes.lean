/-
The permutation on masked integers is Keccak-f[1600].

An integer stands for a lane as its number.  Every loop of a round writes each entry
once, so what it leaves is one step mapping, or two.
-/
import AlphaForge.ChainAdapter.Keccak
import AlphaForge.Crypto.Keccak1600
import AlphaForge.Data.Writes

namespace AlphaForge
namespace Keccak

open Keccak1600 (Lane State)

/-! ## Integers as lanes -/

theorem xor_toNat (a b : Lane) : Int.xor a.toNat b.toNat = ((a ^^^ b).toNat : Int) := by
  rw [BitVec.toNat_xor]
  rfl

/-- The complement is negative, and the other lane masks it. -/
theorem complement_land_toNat (a b : Lane) :
    Int.land (~~~ (a.toNat : Int)) b.toNat = ((~~~ a &&& b).toNat : Int) := by
  have hdiff : Nat.ldiff b.toNat a.toNat = (~~~ a &&& b).toNat := by
    refine Nat.eq_of_testBit_eq fun i => ?_
    rw [Nat.testBit_ldiff, BitVec.testBit_toNat, BitVec.testBit_toNat, BitVec.testBit_toNat,
      BitVec.getLsbD_and, BitVec.getLsbD_not]
    by_cases hi : i < 64
    · rw [decide_eq_true hi, Bool.true_and, Bool.and_comm]
    · rw [BitVec.getLsbD_of_ge b i (Nat.le_of_not_lt hi), Bool.false_and, Bool.and_false]
  rw [← hdiff]
  rfl

theorem land_mask64 (n : Nat) : Int.land n mask64 = ((n % 2 ^ 64 : Nat) : Int) := by
  rw [← Nat.and_two_pow_sub_one_eq_mod]
  rfl

theorem rotateLeft_toNat (a : Lane) {count : Nat} (hcount : count < 64) :
    rotateLeft a.toNat count = ((a.rotateLeft count).toNat : Int) := by
  unfold rotateLeft
  split
  · next hzero =>
    rw [hzero, land_mask64, BitVec.toNat_rotateLeft, Nat.zero_mod, Nat.shiftLeft_zero, Nat.sub_zero,
      Nat.shiftRight_eq_div_pow, Nat.div_eq_of_lt a.isLt, Nat.or_zero]
  · have hrest : (64 : Int) - count = ((64 - count : Nat) : Int) := by omega
    simp only [hrest, Int.shiftLeft_natCast, Int.shiftRight_natCast]
    show Int.land ((a.toNat <<< count ||| a.toNat >>> (64 - count) : Nat) : Int) mask64 = _
    have hlow : a.toNat >>> (64 - count) < 2 ^ 64 :=
      (Nat.shiftRight_le _ _).trans_lt a.isLt
    rw [land_mask64, Nat.or_mod_two_pow, Nat.mod_eq_of_lt hlow, BitVec.toNat_rotateLeft,
      Nat.mod_eq_of_lt hcount]

/-! ## Arrays as states -/

/-- The array has the lanes of the state. -/
structure Holds (array : List Int) (a : State) : Prop where
  length : array.length = 25
  entry : ∀ x y : Fin 5, entry array (x.val + 5 * y.val) = (a.lane x y).toNat

/-- The turns of two loops over five. -/
def pairs : List (Nat × Nat) := (List.range 5).product (List.range 5)

theorem mem_pairs (x y : Fin 5) : (x.val, y.val) ∈ pairs :=
  List.mem_product.mpr ⟨List.mem_range.mpr x.isLt, List.mem_range.mpr y.isLt⟩

section Plane

variable {place : Nat × Nat → Nat} {value : Nat × Nat → Int → Int} {array : List Int}

/-- What stands at an entry that one of the turns writes. -/
theorem entry_pairs (hnodup : (pairs.map place).Nodup) (hlength : array.length = 25) (x y : Fin 5)
    (hbound : place (x.val, y.val) < 25) :
    entry (pairs.foldl (Writes.write place value 0) array) (place (x.val, y.val)) =
      value (x.val, y.val) (entry array (place (x.val, y.val))) :=
  Writes.getD_foldl_write hnodup (mem_pairs x y) (by rw [hlength]; exact hbound)

theorem length_pairs (hlength : array.length = 25) :
    (pairs.foldl (Writes.write place value 0) array).length = 25 := by
  rw [Writes.length_foldl_write, hlength]

end Plane

theorem index_lt (x y : Fin 5) : x.val + 5 * y.val < 25 := by omega

/-! ## One round -/

section Round

variable {state : List Int} {a : State}

theorem columnParities_eq (state : List Int) : columnParities state =
    (List.range 5).foldl (Writes.write id (fun x _ =>
      Int.xor (Int.xor (Int.xor (Int.xor (entry state x) (entry state (x + 5)))
        (entry state (x + 10))) (entry state (x + 15))) (entry state (x + 20))) 0)
      (List.replicate 5 0) :=
  rfl

theorem entry_columnParities (h : Holds state a) (x : Fin 5) :
    entry (columnParities state) x.val = (Keccak1600.parity a x).toNat := by
  have h0 : entry state x.val = _ := h.entry x 0
  have h1 : entry state (x.val + 5) = _ := h.entry x 1
  have h2 : entry state (x.val + 10) = _ := h.entry x 2
  have h3 : entry state (x.val + 15) = _ := h.entry x 3
  have h4 : entry state (x.val + 20) = _ := h.entry x 4
  rw [columnParities_eq]
  refine (Writes.getD_foldl_write (by decide) (List.mem_range.mpr x.isLt) x.isLt).trans ?_
  rw [h0, h1, h2, h3, h4, xor_toNat, xor_toNat, xor_toNat, xor_toNat]
  rfl

/-- What a column is mixed with. -/
def delta (columns : List Int) (x : Nat) : Int :=
  Int.xor (entry columns ((x + 4) % 5)) (rotateLeft (entry columns ((x + 1) % 5)) 1)

theorem mixColumns_eq (columns state : List Int) : mixColumns columns state =
    pairs.foldl (Writes.write (fun p => p.1 + 5 * p.2) (fun p lane => Int.xor lane (delta columns p.1))
      0) state := by
  rw [pairs, ← Writes.foldl_foldl]
  rfl

theorem holds_mixColumns (h : Holds state a) :
    Holds (mixColumns (columnParities state) state) (Keccak1600.theta a) := by
  rw [mixColumns_eq]
  refine ⟨length_pairs h.length, fun x y => ?_⟩
  refine (entry_pairs (by decide) h.length x y (index_lt x y)).trans ?_
  have hleft : (x.val + 4) % 5 = (x - 1).val := by revert x; decide
  have hright : (x.val + 1) % 5 = (x + 1).val := by revert x; decide
  simp only [delta]
  rw [h.entry, hleft, hright, entry_columnParities h, entry_columnParities h,
    rotateLeft_toNat _ (by decide), xor_toNat, xor_toNat, Keccak1600.theta, State.lane_of]

theorem moveLanes_eq (state : List Int) : moveLanes state =
    pairs.foldl (Writes.write (fun p => p.2 + 5 * ((2 * p.1 + 3 * p.2) % 5))
      (fun p _ => rotateLeft (entry state (p.1 + 5 * p.2)) (rotations.getD (p.1 + 5 * p.2) 0)) 0)
      (List.replicate 25 0) := by
  rw [pairs, ← Writes.foldl_foldl]
  rfl

/-- The table has the offsets that the walk gives, up to whole turns. -/
theorem rotations_eq : ∀ x y : Fin 5,
    rotations.getD (x.val + 5 * y.val) 0 = Keccak1600.offset x y % 64 := by
  decide

/-- The lane that is moved to `(x, y)` was at `(x + 3 y, x)`. -/
theorem moved_from : ∀ x y : Fin 5,
    (2 * (x + 3 * y).val + 3 * x.val) % 5 = y.val := by
  decide

theorem holds_moveLanes (h : Holds state a) :
    Holds (moveLanes state) (Keccak1600.pi (Keccak1600.rho a)) := by
  rw [moveLanes_eq]
  refine ⟨length_pairs List.length_replicate, fun x y => ?_⟩
  have hplace : x.val + 5 * y.val = x.val + 5 * ((2 * (x + 3 * y).val + 3 * x.val) % 5) := by
    rw [moved_from]
  rw [hplace]
  refine (entry_pairs (by decide) List.length_replicate (x + 3 * y) x
    (by simp only [moved_from]; exact index_lt x y)).trans ?_
  simp only []
  rw [h.entry, rotations_eq, rotateLeft_toNat _ (Nat.mod_lt _ (by decide)),
    BitVec.rotateLeft_mod_eq_rotateLeft, Keccak1600.pi, State.lane_of, Keccak1600.rho,
    State.lane_of]

theorem combineRows_eq (mixed state : List Int) : combineRows mixed state =
    pairs.foldl (Writes.write (fun p => p.2 + 5 * p.1) (fun p _ =>
      Int.xor (entry mixed (p.2 + 5 * p.1)) (Int.land (~~~ entry mixed ((p.2 + 1) % 5 + 5 * p.1))
        (entry mixed ((p.2 + 2) % 5 + 5 * p.1)))) 0) state := by
  rw [pairs, ← Writes.foldl_foldl]
  rfl

theorem holds_combineRows {mixed : List Int} (hlength : state.length = 25) (h : Holds mixed a) :
    Holds (combineRows mixed state) (Keccak1600.chi a) := by
  rw [combineRows_eq]
  refine ⟨length_pairs hlength, fun x y => ?_⟩
  refine (entry_pairs (by decide) hlength y x (index_lt x y)).trans ?_
  have hone : (x.val + 1) % 5 = (x + 1).val := by revert x; decide
  have htwo : (x.val + 2) % 5 = (x + 2).val := by revert x; decide
  simp only [hone, htwo]
  rw [h.entry, h.entry, h.entry, complement_land_toNat, xor_toNat, Keccak1600.chi, State.lane_of]

theorem update_eq (array : List Int) (index : Nat) (value : Int → Int) :
    update array index value = Writes.write id (fun _ => value) 0 array index :=
  rfl

theorem holds_update (h : Holds state a) (constant : Lane) :
    Holds (update state 0 fun lane => Int.xor lane constant.toNat)
      (Keccak1600.iota constant a) := by
  refine ⟨by rw [update, List.length_set, h.length], fun x y => ?_⟩
  rw [Keccak1600.iota, State.lane_of]
  split
  · next horigin =>
    obtain ⟨rfl, rfl⟩ := horigin
    have hzero : entry state 0 = _ := h.entry 0 0
    rw [update_eq]
    refine (Writes.getD_write_self (by rw [h.length]; decide)).trans ?_
    show Int.xor (entry state 0) constant.toNat = _
    rw [hzero, xor_toNat]
  · next hother =>
    have hne : (0 : Nat) ≠ x.val + 5 * y.val := fun heq => by
      refine hother ⟨Fin.ext ?_, Fin.ext ?_⟩
      · rw [Fin.val_zero]; omega
      · rw [Fin.val_zero]; omega
    rw [update_eq]
    refine (Writes.getD_write_of_ne ?_).trans (h.entry x y)
    exact hne

theorem holds_round (h : Holds state a) (constant : Lane) :
    Holds (round state constant.toNat) (Keccak1600.round a constant) := by
  have hmixed := holds_mixColumns h
  have hmoved := holds_moveLanes hmixed
  exact holds_update (holds_combineRows hmixed.length hmoved) constant

end Round

/-- The table has the constants that the register gives. -/
theorem roundConstants_eq : roundConstants =
    ((List.range 24).map Keccak1600.roundConstant).map fun c => (c.toNat : Int) := by
  decide

theorem holds_permutation {state : List Int} {a : State} (h : Holds state a) :
    Holds (permutation state) (Keccak1600.permutation a) := by
  rw [permutation, roundConstants_eq, List.foldl_map, Keccak1600.permutation]
  generalize (List.range 24).map Keccak1600.roundConstant = constants
  induction constants generalizing state a with
  | nil => exact h
  | cons c rest ih =>
      rw [List.foldl_cons, List.foldl_cons]
      exact ih (holds_round h c)

end Keccak
end AlphaForge
