/-
Checked execution of contract code.

A call either returns a value or reverts, and a revert undoes everything the
call did.  `Result ε` is that outcome, with `ε` the custom errors of the contract
at hand.  Machine words are natural numbers.  The compiler's overflow checks are
the explicit `checkedAdd`, `checkedSub` and `checkedMul`, and `mulDiv` and
`mulDivCeil` are the exact floor and ceiling quotients with a 512-bit product.

The `_eq_ok` lemmas are the simp set every later proof uses: unfolding a body
under them turns a successful call into the conjunction of the checks it passed
and the state it left.
-/
import Mathlib.Algebra.Ring.Int.Defs
import Mathlib.Algebra.Ring.Nat

namespace Evm

/-- A 20-byte account address. -/
abbrev Address := BitVec 160

instance : LawfulBEq Address := inferInstance

/-- A 32-byte word used as an identifier or a digest. -/
abbrev Bytes32 := BitVec 256

/-- `type(uint256).max`. -/
def maxUint256 : Nat := 2 ^ 256 - 1

theorem maxUint256_lt : maxUint256 < 2 ^ 256 := by
  unfold maxUint256
  omega

/-- The context of one external call. -/
structure Msg where
  sender : Address
  value : Nat
  timestamp : Nat
  chainId : Nat

/-- The errors of the plain ERC-20 implementation. -/
inductive TokenError where
  | insufficientBalance (sender : Address) (balance needed : Nat)
  | invalidSender (sender : Address)
  | invalidReceiver (receiver : Address)
  | insufficientAllowance (spender : Address) (allowance needed : Nat)
  | invalidApprover (approver : Address)
  | invalidSpender (spender : Address)
  deriving DecidableEq, Repr

/-- Why a call reverted: a `require` text, a compiler panic, an error of a token
contract passed through, a failed payment of native currency, or one of the
contract's own errors.  `nonpayable` is value sent to a function that takes none.
`notACaller` stands for a call that does not exist, because its sender is a
contract whose code makes no such call. -/
inductive Revert (ε : Type) where
  | reason (text : String)
  | panic (code : Nat)
  | erc20 (error : TokenError)
  | sendValueFailed
  | nonpayable
  | notACaller
  | custom (error : ε)
  deriving DecidableEq, Repr

abbrev Result (ε α : Type) := Except (Revert ε) α

variable {ε α β : Type}

def require (p : Prop) [Decidable p] (e : Revert ε) : Result ε Unit :=
  if p then .ok () else .error e

/-- A check of a program beside the contracts, which throws whatever it throws. -/
def ensure {ε : Type} (p : Prop) [Decidable p] (e : ε) : Except ε Unit :=
  if p then .ok () else .error e

/-- A call to a payable function from an account outside `own`. -/
def payFrom (own : List Address) (m : Msg) (body : Result ε α) : Result ε α := do
  require (m.sender ∉ own) .notACaller
  body

/-- A call to a function that takes no value. -/
def callFrom (own : List Address) (m : Msg) (body : Result ε α) : Result ε α :=
  payFrom own m do
    require (m.value = 0) .nonpayable
    body

/-- The same revert under the error type of a caller. -/
def Revert.map {ε' : Type} (f : ε → ε') : Revert ε → Revert ε'
  | .reason text => .reason text
  | .panic code => .panic code
  | .erc20 error => .erc20 error
  | .sendValueFailed => .sendValueFailed
  | .nonpayable => .nonpayable
  | .notACaller => .notACaller
  | .custom error => .custom (f error)

/-- A call into another contract, whose reverts come through to the caller. -/
def nested {ε' : Type} (f : ε → ε') : Result ε α → Result ε' α
  | .ok a => .ok a
  | .error e => .error (e.map f)

def arithmeticPanic : Revert ε := .panic 0x11

def divisionPanic : Revert ε := .panic 0x12

def checkedAdd (a b : Nat) : Result ε Nat :=
  if a + b ≤ maxUint256 then .ok (a + b) else .error arithmeticPanic

def checkedSub (a b : Nat) : Result ε Nat :=
  if b ≤ a then .ok (a - b) else .error arithmeticPanic

def checkedMul (a b : Nat) : Result ε Nat :=
  if a * b ≤ maxUint256 then .ok (a * b) else .error arithmeticPanic

/-- `Math.mulDiv`: the floor of `x * y / d`, with no overflow in the product. -/
def mulDiv (x y d : Nat) : Result ε Nat :=
  if d = 0 then .error divisionPanic
  else if x * y / d ≤ maxUint256 then .ok (x * y / d) else .error arithmeticPanic

/-- `Math.mulDiv` with `Math.Rounding.Ceil`. -/
def mulDivCeil (x y d : Nat) : Result ε Nat := do
  let q ← mulDiv x y d
  if x * y % d = 0 then .ok q else checkedAdd q 1

/-- `int256(x)`, which wraps from `2 ^ 255` on. -/
def toInt256 (x : Nat) : Int := Int.bmod x (2 ^ 256)

/-- A signed result in range. -/
def checkedInt (a : Int) : Result ε Int :=
  if -2 ^ 255 ≤ a ∧ a < 2 ^ 255 then .ok a else .error arithmeticPanic

/-! ## Running a call whose checks hold -/

@[simp] theorem ok_bind {a : α} {f : α → Except ε β} : ((.ok a : Except ε α) >>= f) = f a := rfl

theorem require_of {p : Prop} [Decidable p] (h : p) (e : Revert ε) : require p e = .ok () :=
  if_pos h

theorem ensure_of {p : Prop} [Decidable p] (h : p) (e : ε) : ensure p e = .ok () := if_pos h

theorem checkedAdd_of {a b : Nat} (h : a + b ≤ maxUint256) :
    (checkedAdd a b : Result ε Nat) = .ok (a + b) := if_pos h

theorem checkedSub_of {a b : Nat} (h : b ≤ a) : (checkedSub a b : Result ε Nat) = .ok (a - b) :=
  if_pos h

theorem checkedMul_of {a b : Nat} (h : a * b ≤ maxUint256) :
    (checkedMul a b : Result ε Nat) = .ok (a * b) := if_pos h

theorem mulDiv_of {x y d : Nat} (hd : d ≠ 0) (h : x * y / d ≤ maxUint256) :
    (mulDiv x y d : Result ε Nat) = .ok (x * y / d) := by
  rw [mulDiv, if_neg hd, if_pos h]

/-- The ceiling quotient in one division. -/
theorem checkedInt_of {a : Int} (h : a.natAbs < 2 ^ 255) :
    (checkedInt a : Result ε Int) = .ok a := by
  have hrange : ∀ n : Nat, a.natAbs < n → -(n : Int) ≤ a ∧ a < n := fun n hn => by omega
  have hbound := hrange (2 ^ 255) h
  rw [Int.natCast_pow] at hbound
  exact if_pos hbound

theorem mulDivCeil_of {x y d : Nat} (hd : d ≠ 0) (h : (x * y + d - 1) / d ≤ maxUint256) :
    (mulDivCeil x y d : Result ε Nat) = .ok ((x * y + d - 1) / d) := by
  have hdiv : x * y = x * y / d * d + x * y % d := by
    rw [Nat.mul_comm (x * y / d), Nat.div_add_mod]
  have hmod : x * y % d < d := Nat.mod_lt _ (Nat.pos_of_ne_zero hd)
  have hfloor : x * y / d ≤ (x * y + d - 1) / d := Nat.div_le_div_right (by omega)
  rw [mulDivCeil, mulDiv_of hd (Nat.le_trans hfloor h), ok_bind]
  split
  · next hexact =>
    have hquotient : (x * y + d - 1) / d = x * y / d := by
      refine Nat.div_eq_of_lt_le (by omega) ?_
      rw [Nat.add_mul, Nat.one_mul]
      omega
    rw [hquotient]
  · next hrest =>
    have hquotient : (x * y + d - 1) / d = x * y / d + 1 := by
      refine Nat.div_eq_of_lt_le ?_ ?_ <;> simp only [Nat.add_mul, Nat.one_mul] <;> omega
    rw [hquotient] at h ⊢
    exact checkedAdd_of h

/-! ## What a successful call tells -/

@[simp] theorem bind_eq_ok {x : Except ε α} {f : α → Except ε β} {r : β} :
    (x >>= f) = .ok r ↔ ∃ a, x = .ok a ∧ f a = .ok r := by
  cases x <;> simp [bind, Except.bind]

@[simp] theorem pure_eq_ok {a r : α} : (pure a : Except ε α) = .ok r ↔ a = r := by
  simp [pure, Except.pure]

theorem toOption_eq_some {x : Except ε α} {a : α} : x.toOption = some a ↔ x = .ok a := by
  cases x with
  | ok b => simp [Except.toOption]
  | error e => simp [Except.toOption]

@[simp] theorem map_eq_ok {x : Except ε α} {f : α → β} {r : β} :
    (f <$> x) = .ok r ↔ ∃ a, x = .ok a ∧ f a = r := by
  cases x <;> simp [Functor.map, Except.map]

theorem mapError_eq_ok {ε' : Type} {x : Except ε α} {f : ε → ε'} {a : α} :
    x.mapError f = .ok a ↔ x = .ok a := by
  cases x <;> simp [Except.mapError]

@[simp] theorem forM_eq_ok {f : α → Except ε Unit} {items : List α} {u : Unit} :
    forM items f = .ok u ↔ ∀ item ∈ items, f item = .ok () := by
  induction items with
  | nil => simp [pure, Except.pure]
  | cons item rest ih =>
      rw [List.forM_cons, bind_eq_ok, List.forall_mem_cons, ← ih]
      exact ⟨fun ⟨_, hitem, hrest⟩ => ⟨hitem, hrest⟩, fun ⟨hitem, hrest⟩ => ⟨(), hitem, hrest⟩⟩

theorem mapM_length {f : α → Except ε β} {items : List α} {r : List β} (h : items.mapM f = .ok r) :
    r.length = items.length := by
  induction items generalizing r with
  | nil =>
      rw [List.mapM_nil] at h
      cases h
      rfl
  | cons a rest ih =>
      simp only [List.mapM_cons, bind_eq_ok, pure_eq_ok] at h
      obtain ⟨b, -, bs, hbs, rfl⟩ := h
      rw [List.length_cons, List.length_cons, ih hbs]

theorem mapM_mem {f : α → Except ε β} {items : List α} {r : List β} (h : items.mapM f = .ok r)
    {b : β} (hb : b ∈ r) : ∃ item ∈ items, f item = .ok b := by
  induction items generalizing r with
  | nil =>
      rw [List.mapM_nil] at h
      cases h
      cases hb
  | cons a rest ih =>
      simp only [List.mapM_cons, bind_eq_ok, pure_eq_ok] at h
      obtain ⟨b', hb', bs, hbs, rfl⟩ := h
      rcases List.mem_cons.mp hb with rfl | hin
      · exact ⟨a, List.mem_cons_self, hb'⟩
      · obtain ⟨item, hitem, hf⟩ := ih hbs hin
        exact ⟨item, List.mem_cons_of_mem a hitem, hf⟩

theorem mem_of_mapM {f : α → Except ε β} {items : List α} {r : List β} (h : items.mapM f = .ok r)
    {item : α} (hitem : item ∈ items) : ∃ b ∈ r, f item = .ok b := by
  induction items generalizing r with
  | nil => cases hitem
  | cons a rest ih =>
      simp only [List.mapM_cons, bind_eq_ok, pure_eq_ok] at h
      obtain ⟨b, hb, bs, hbs, rfl⟩ := h
      rcases List.mem_cons.mp hitem with rfl | hin
      · exact ⟨b, List.mem_cons_self, hb⟩
      · obtain ⟨b', hb', hf⟩ := ih hbs hin
        exact ⟨b', List.mem_cons_of_mem b hb', hf⟩

/-- Results from which the items can be read back are read back in order. -/
theorem mapM_map_eq {f : α → Except ε β} {g : β → α} (hg : ∀ a b, f a = .ok b → g b = a)
    {items : List α} {r : List β} (h : items.mapM f = .ok r) : r.map g = items := by
  induction items generalizing r with
  | nil =>
      rw [List.mapM_nil] at h
      cases h
      rfl
  | cons a rest ih =>
      simp only [List.mapM_cons, bind_eq_ok, pure_eq_ok] at h
      obtain ⟨b, hb, bs, hbs, rfl⟩ := h
      rw [List.map_cons, hg a b hb, ih hbs]

theorem mapM_eq_map {f : α → Except ε β} {g : α → β} {items : List α}
    (hg : ∀ a ∈ items, ∀ b, f a = .ok b → g a = b) {r : List β} (h : items.mapM f = .ok r) :
    r = items.map g := by
  induction items generalizing r with
  | nil =>
      rw [List.mapM_nil] at h
      cases h
      rfl
  | cons a rest ih =>
      simp only [List.mapM_cons, bind_eq_ok, pure_eq_ok] at h
      obtain ⟨b, hb, bs, hbs, rfl⟩ := h
      rw [List.map_cons, hg a List.mem_cons_self b hb,
        ih (fun a ha => hg a (List.mem_cons_of_mem _ ha)) hbs]

/-- A property that every turn of a loop keeps holds when the loop is done. -/
theorem foldlM_keeps {P : β → Prop} {f : β → α → Except ε β} {items : List α}
    (hstep : ∀ x, ∀ item ∈ items, ∀ y, P x → f x item = .ok y → P y) {x y : β} (hx : P x)
    (h : items.foldlM f x = .ok y) : P y := by
  induction items generalizing x with
  | nil =>
      rw [List.foldlM_nil, pure_eq_ok] at h
      exact h ▸ hx
  | cons item rest ih =>
      rw [List.foldlM_cons, bind_eq_ok] at h
      obtain ⟨z, hz, hrest⟩ := h
      exact ih (fun x item hitem => hstep x item (List.mem_cons_of_mem _ hitem))
        (hstep x item List.mem_cons_self z hx hz) hrest

theorem mapM_isOk {f : α → Except ε β} {items : List α} :
    (∃ r, items.mapM f = .ok r) ↔ ∀ item ∈ items, ∃ b, f item = .ok b := by
  induction items with
  | nil => exact ⟨fun _ item hitem => absurd hitem List.not_mem_nil, fun _ => ⟨[], rfl⟩⟩
  | cons a rest ih =>
      rw [List.forall_mem_cons, ← ih]
      constructor
      · rintro ⟨r, hr⟩
        simp only [List.mapM_cons, bind_eq_ok, pure_eq_ok] at hr
        obtain ⟨b, hb, bs, hbs, -⟩ := hr
        exact ⟨⟨b, hb⟩, ⟨bs, hbs⟩⟩
      · rintro ⟨⟨b, hb⟩, ⟨bs, hbs⟩⟩
        refine ⟨b :: bs, ?_⟩
        rw [List.mapM_cons, hb, ok_bind, hbs, ok_bind]
        rfl

@[simp] theorem require_eq_ok {p : Prop} [Decidable p] {e : Revert ε} {u : Unit} :
    require p e = .ok u ↔ p := by
  unfold require
  by_cases h : p <;> simp [h]

@[simp] theorem ensure_eq_ok {p : Prop} [Decidable p] {e : ε} {u : Unit} :
    ensure p e = .ok u ↔ p := by
  unfold ensure
  by_cases h : p <;> simp [h]

@[simp] theorem nested_eq_ok {ε' : Type} {f : ε → ε'} {x : Result ε α} {r : α} :
    nested f x = .ok r ↔ x = .ok r := by
  cases x <;> simp [nested]

@[simp] theorem payFrom_eq_ok {own : List Address} {m : Msg} {body : Result ε α} {r : α} :
    payFrom own m body = .ok r ↔ m.sender ∉ own ∧ body = .ok r := by
  simp [payFrom]

@[simp] theorem callFrom_eq_ok {own : List Address} {m : Msg} {body : Result ε α} {r : α} :
    callFrom own m body = .ok r ↔ m.sender ∉ own ∧ m.value = 0 ∧ body = .ok r := by
  simp [callFrom]

@[simp] theorem checkedAdd_eq_ok {a b c : Nat} :
    (checkedAdd a b : Result ε Nat) = .ok c ↔ a + b ≤ maxUint256 ∧ a + b = c := by
  unfold checkedAdd
  by_cases h : a + b ≤ maxUint256 <;> simp [h]

@[simp] theorem checkedSub_eq_ok {a b c : Nat} :
    (checkedSub a b : Result ε Nat) = .ok c ↔ b ≤ a ∧ a - b = c := by
  unfold checkedSub
  by_cases h : b ≤ a <;> simp [h]

@[simp] theorem checkedMul_eq_ok {a b c : Nat} :
    (checkedMul a b : Result ε Nat) = .ok c ↔ a * b ≤ maxUint256 ∧ a * b = c := by
  unfold checkedMul
  by_cases h : a * b ≤ maxUint256 <;> simp [h]

@[simp] theorem checkedInt_eq_ok {a b : Int} :
    (checkedInt a : Result ε Int) = .ok b ↔ (-2 ^ 255 ≤ a ∧ a < 2 ^ 255) ∧ a = b := by
  unfold checkedInt
  split
  · next h => simp only [Except.ok.injEq, h, true_and]
  · next h => simp only [reduceCtorEq, h, false_and]

theorem toInt256_of_lt {x : Nat} (h : x < 2 ^ 255) : toInt256 x = x := by
  unfold toInt256
  rw [Int.bmod_def]
  omega

@[simp] theorem mulDiv_eq_ok {x y d c : Nat} :
    (mulDiv x y d : Result ε Nat) = .ok c ↔
      d ≠ 0 ∧ x * y / d ≤ maxUint256 ∧ x * y / d = c := by
  unfold mulDiv
  by_cases hd : d = 0
  · simp [hd]
  · by_cases h : x * y / d ≤ maxUint256 <;> simp [hd, h]

/-- The ceiling quotient is the least `c` with `x * y ≤ c * d`. -/
theorem mulDivCeil_eq_ok {x y d c : Nat} (h : (mulDivCeil x y d : Result ε Nat) = .ok c) :
    d ≠ 0 ∧ c ≤ maxUint256 ∧ x * y ≤ c * d ∧ c * d < x * y + d := by
  unfold mulDivCeil at h
  simp only [bind_eq_ok, mulDiv_eq_ok] at h
  obtain ⟨q, ⟨hd, hq, rfl⟩, h⟩ := h
  have hdiv : x * y = x * y / d * d + x * y % d := by
    rw [Nat.mul_comm (x * y / d), Nat.div_add_mod]
  have hmod : x * y % d < d := Nat.mod_lt _ (Nat.pos_of_ne_zero hd)
  split at h
  next hm =>
    simp only [Except.ok.injEq] at h
    subst h
    exact ⟨hd, hq, by omega, by omega⟩
  next hm =>
    simp only [checkedAdd_eq_ok] at h
    obtain ⟨hb, rfl⟩ := h
    refine ⟨hd, hb, ?_, ?_⟩ <;> rw [Nat.add_mul, Nat.one_mul] <;> omega

/-! ## What a reverted call tells -/

theorem bind_eq_error {x : Except ε α} {f : α → Except ε β} {e : ε} :
    (x >>= f) = .error e ↔ x = .error e ∨ ∃ a, x = .ok a ∧ f a = .error e := by
  cases x <;> simp [bind, Except.bind]

/-- A loop that fails does so in one of its turns. -/
theorem foldlM_eq_error {f : β → α → Except ε β} {items : List α} {x : β} {e : ε}
    (h : items.foldlM f x = .error e) : ∃ y, ∃ item ∈ items, f y item = .error e := by
  induction items generalizing x with
  | nil => cases h
  | cons item rest ih =>
      rw [List.foldlM_cons] at h
      rcases bind_eq_error.mp h with hitem | ⟨y, _, hrest⟩
      · exact ⟨x, item, List.mem_cons_self, hitem⟩
      · obtain ⟨y, other, hother, hf⟩ := ih hrest
        exact ⟨y, other, List.mem_cons_of_mem item hother, hf⟩

theorem mapM_eq_error {f : α → Except ε β} {items : List α} {e : ε}
    (h : items.mapM f = .error e) : ∃ item ∈ items, f item = .error e := by
  induction items with
  | nil =>
      rw [List.mapM_nil] at h
      cases h
  | cons item rest ih =>
      rw [List.mapM_cons] at h
      rcases bind_eq_error.mp h with hitem | ⟨b, _, hrest⟩
      · exact ⟨item, List.mem_cons_self, hitem⟩
      · rcases bind_eq_error.mp hrest with hrest | ⟨bs, _, hpure⟩
        · obtain ⟨other, hother, hf⟩ := ih hrest
          exact ⟨other, List.mem_cons_of_mem item hother, hf⟩
        · cases hpure

theorem ensure_eq_error {p : Prop} [Decidable p] {e e' : ε} :
    ensure p e = .error e' ↔ ¬ p ∧ e = e' := by
  unfold ensure
  by_cases h : p <;> simp [h]

theorem require_eq_error {p : Prop} [Decidable p] {e e' : Revert ε} :
    require p e = .error e' ↔ ¬ p ∧ e = e' := by
  unfold require
  by_cases h : p <;> simp [h]

theorem checkedAdd_eq_error {a b : Nat} {e : Revert ε} :
    checkedAdd a b = .error e ↔ ¬ a + b ≤ maxUint256 ∧ arithmeticPanic = e := by
  unfold checkedAdd
  by_cases h : a + b ≤ maxUint256 <;> simp [h]

theorem checkedSub_eq_error {a b : Nat} {e : Revert ε} :
    checkedSub a b = .error e ↔ ¬ b ≤ a ∧ arithmeticPanic = e := by
  unfold checkedSub
  by_cases h : b ≤ a <;> simp [h]

/-- A quotient fails with a panic, never with a text of the contract. -/
theorem mulDiv_ne_reason {x y d : Nat} (text : String) :
    (mulDiv x y d : Result ε Nat) ≠ .error (.reason text) := by
  unfold mulDiv
  intro h
  split at h
  · cases h
  · split at h <;> cases h

theorem mulDivCeil_ne_reason {x y d : Nat} (text : String) :
    (mulDivCeil x y d : Result ε Nat) ≠ .error (.reason text) := by
  unfold mulDivCeil
  intro h
  rcases bind_eq_error.mp h with hq | ⟨q, _, hq⟩
  · exact mulDiv_ne_reason text hq
  · split at hq
    · cases hq
    · cases (checkedAdd_eq_error.mp hq).2

end Evm
