/-
Keccak-f[1600] and the sponge over it, with 64-bit lanes.

Bit `z` of lane `(x, y)` is bit `(x, y, z)` of the state.  The rotation offsets and the
round constants are generated as the specification generates them, by the walk over the
plane and by the linear feedback shift register.
-/
import Mathlib.Algebra.Ring.Nat
import Mathlib.Data.List.Basic

namespace Keccak1600

/-! ## The state -/

abbrev Lane := BitVec 64

/-- Five by five lanes. -/
structure State where
  lanes : Vector Lane 25
  deriving DecidableEq

def State.lane (a : State) (x y : Fin 5) : Lane := a.lanes[5 * y.val + x.val]

def State.of (f : Fin 5 → Fin 5 → Lane) : State where
  lanes := Vector.ofFn fun i => f (Fin.ofNat 5 i.val) (Fin.ofNat 5 (i.val / 5))

@[simp] theorem State.lane_of (f : Fin 5 → Fin 5 → Lane) (x y : Fin 5) :
    (State.of f).lane x y = f x y := by
  have hx : Fin.ofNat 5 (5 * y.val + x.val) = x := by
    apply Fin.ext
    rw [Fin.val_ofNat]
    omega
  have hy : Fin.ofNat 5 ((5 * y.val + x.val) / 5) = y := by
    apply Fin.ext
    rw [Fin.val_ofNat]
    omega
  simp only [State.lane, State.of, Vector.getElem_ofFn]
  rw [hx, hy]

def State.zero : State := State.of fun _ _ => 0

/-! ## The step mappings -/

/-- The parity of a column of the plane. -/
def parity (a : State) (x : Fin 5) : Lane :=
  a.lane x 0 ^^^ a.lane x 1 ^^^ a.lane x 2 ^^^ a.lane x 3 ^^^ a.lane x 4

def theta (a : State) : State :=
  .of fun x y => a.lane x y ^^^ (parity a (x - 1) ^^^ (parity a (x + 1)).rotateLeft 1)

/-- The walk that starts at `(1, 0)` and meets every lane but the one at the origin. -/
def walk : Nat → Fin 5 × Fin 5
  | 0 => (1, 0)
  | t + 1 => ((walk t).2, 2 * (walk t).1 + 3 * (walk t).2)

/-- Triangular numbers along the walk, and zero at the origin. -/
def offset (x y : Fin 5) : Nat :=
  match (List.range 24).find? fun t => walk t = (x, y) with
  | some t => (t + 1) * (t + 2) / 2
  | none => 0

def rho (a : State) : State := .of fun x y => (a.lane x y).rotateLeft (offset x y)

def pi (a : State) : State := .of fun x y => a.lane (x + 3 * y) x

def chi (a : State) : State :=
  .of fun x y => a.lane x y ^^^ (~~~ a.lane (x + 1) y &&& a.lane (x + 2) y)

/-- The register of `x^8 + x^6 + x^5 + x^4 + 1`. -/
def register : Nat → BitVec 8
  | 0 => 1
  | t + 1 => (register t <<< 1) ^^^ (if (register t).msb then 0x71 else 0)

/-- Bit `2^j - 1` of the constant of round `i` is the output of the register at `j + 7 i`. -/
def roundConstant (i : Nat) : Lane :=
  (List.range 7).foldl
    (fun c j => if (register (j + 7 * i)).getLsbD 0 then c ^^^ BitVec.twoPow 64 (2 ^ j - 1) else c) 0

def iota (constant : Lane) (a : State) : State :=
  .of fun x y => if x = 0 ∧ y = 0 then a.lane x y ^^^ constant else a.lane x y

def round (a : State) (constant : Lane) : State := iota constant (chi (pi (rho (theta a))))

/-- Keccak-f[1600]. -/
def permutation (a : State) : State := ((List.range 24).map roundConstant).foldl round a

/-! ## The sponge -/

/-- The number of some bytes, the first of which is the lowest. -/
def littleEndian : List UInt8 → Nat
  | [] => 0
  | b :: rest => b.toNat + 256 * littleEndian rest

/-- The eight bytes of a lane; those that a block does not have are zero. -/
def blockLane (block : List UInt8) (i : Nat) : Lane :=
  BitVec.ofNat 64 (littleEndian ((block.drop (8 * i)).take 8))

def State.xorBlock (a : State) (block : List UInt8) : State :=
  .of fun x y => a.lane x y ^^^ blockLane block (5 * y.val + x.val)

/-- The bytes of the state, lane by lane and each lane from its lowest byte. -/
def State.bytes (a : State) : List UInt8 :=
  (List.range 200).map fun i =>
    UInt8.ofBitVec ((a.lane (Fin.ofNat 5 (i / 8)) (Fin.ofNat 5 (i / 40))).extractLsb' (8 * (i % 8)) 8)

/-- Multi-rate padding with the first bits in a domain byte: at least one byte is added, and the
last one has its highest bit set. -/
def pad (rate : Nat) (domain : UInt8) (message : List UInt8) : List UInt8 :=
  match rate - 1 - message.length % rate with
  | 0 => message ++ [domain ||| 0x80]
  | zeros + 1 => message ++ domain :: List.replicate zeros 0 ++ [0x80]

def blocks (rate : Nat) (bytes : List UInt8) : List (List UInt8) :=
  (List.range (bytes.length / rate)).map fun i => (bytes.drop (i * rate)).take rate

def absorb (f : State → State) (rate : Nat) (padded : List UInt8) : State :=
  (blocks rate padded).foldl (fun a block => f (a.xorBlock block)) .zero

/-- As many blocks of output as are asked for. -/
def squeeze (f : State → State) (rate : Nat) : Nat → State → List UInt8
  | 0, _ => []
  | count + 1, a => a.bytes.take rate ++ squeeze f rate count (f a)

def sponge (f : State → State) (rate : Nat) (domain : UInt8) (length : Nat)
    (message : List UInt8) : List UInt8 :=
  (squeeze f rate ((length + rate - 1) / rate) (absorb f rate (pad rate domain message))).take length

def keccak256 (message : List UInt8) : List UInt8 := sponge permutation 136 0x01 32 message

/-! ## Bytes and lanes -/

theorem littleEndian_append (low high : List UInt8) :
    littleEndian (low ++ high) = littleEndian low + 256 ^ low.length * littleEndian high := by
  induction low with
  | nil => simp [littleEndian]
  | cons b rest ih =>
      rw [List.cons_append, littleEndian, littleEndian, ih, List.length_cons, Nat.pow_succ,
        Nat.mul_add, Nat.add_assoc, Nat.mul_assoc, Nat.mul_left_comm]

theorem littleEndian_lt (bytes : List UInt8) : littleEndian bytes < 256 ^ bytes.length := by
  induction bytes with
  | nil => decide
  | cons b rest ih =>
      have hb : b.toNat < 256 := b.toNat_lt
      rw [littleEndian, List.length_cons, Nat.pow_succ]
      omega

theorem toNat_blockLane (block : List UInt8) (i : Nat) :
    (blockLane block i).toNat = littleEndian ((block.drop (8 * i)).take 8) := by
  have hlt := littleEndian_lt ((block.drop (8 * i)).take 8)
  have hlength : ((block.drop (8 * i)).take 8).length ≤ 8 := List.length_take_le 8 _
  rw [blockLane, BitVec.toNat_ofNat, Nat.mod_eq_of_lt]
  exact Nat.lt_of_lt_of_le hlt (Nat.pow_le_pow_right (by decide) hlength)

/-- A lane behind the block is not changed by it. -/
theorem blockLane_of_le {block : List UInt8} {i : Nat} (h : block.length ≤ 8 * i) :
    blockLane block i = 0#64 := by
  rw [blockLane, List.drop_eq_nil_of_le h]
  rfl

/-- A block of whole lanes has the bytes of a longer text from where it starts. -/
theorem blockLane_take_drop {bytes : List UInt8} {start rate i : Nat} (h : 8 * i + 8 ≤ rate) :
    (blockLane ((bytes.drop start).take rate) i).toNat =
      littleEndian ((bytes.drop (start + 8 * i)).take 8) := by
  rw [toNat_blockLane, List.drop_take, List.take_take, List.drop_drop,
    Nat.min_eq_left (by omega)]

end Keccak1600
