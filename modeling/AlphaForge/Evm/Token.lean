/-
Plain ERC-20 ledgers.

`Tokens` holds the ledger of every token contract at once, indexed by the token's
address.  Transfers move exactly the stated amount.  `TokenCall` is what an
account outside the contracts under study can do to the ledgers, and the frame
lemmas at the end say what such calls leave alone: an account that has approved
nobody never loses tokens to them.
-/
import AlphaForge.Evm.Exec

namespace Evm

structure Tokens where
  /-- Token, then holder. -/
  balanceOf : Address → Address → Nat
  /-- Token, then owner, then spender. -/
  allowance : Address → Address → Address → Nat
  totalSupply : Address → Nat

namespace Tokens

variable {ε : Type}

def credit (k : Tokens) (token account : Address) (amount : Nat) : Tokens :=
  { k with balanceOf := fun t a =>
      if t = token ∧ a = account then k.balanceOf t a + amount else k.balanceOf t a }

def debit (k : Tokens) (token account : Address) (amount : Nat) : Tokens :=
  { k with balanceOf := fun t a =>
      if t = token ∧ a = account then k.balanceOf t a - amount else k.balanceOf t a }

/-- The ledger update of a transfer.  The debit comes first, so a transfer to
oneself changes nothing. -/
def move (k : Tokens) (token src dst : Address) (amount : Nat) : Tokens :=
  (k.debit token src amount).credit token dst amount

def setAllowance (k : Tokens) (token owner spender : Address) (amount : Nat) : Tokens :=
  { k with allowance := fun t o s =>
      if t = token ∧ o = owner ∧ s = spender then amount else k.allowance t o s }

def setTotalSupply (k : Tokens) (token : Address) (amount : Nat) : Tokens :=
  { k with totalSupply := fun t => if t = token then amount else k.totalSupply t }

def transfer (k : Tokens) (token src dst : Address) (amount : Nat) : Result ε Tokens := do
  require (src ≠ 0) (.erc20 (.invalidSender src))
  require (dst ≠ 0) (.erc20 (.invalidReceiver dst))
  require (amount ≤ k.balanceOf token src)
    (.erc20 (.insufficientBalance src (k.balanceOf token src) amount))
  return k.move token src dst amount

def approve (k : Tokens) (token owner spender : Address) (amount : Nat) : Result ε Tokens := do
  require (owner ≠ 0) (.erc20 (.invalidApprover owner))
  require (spender ≠ 0) (.erc20 (.invalidSpender spender))
  return k.setAllowance token owner spender amount

/-- An allowance of `type(uint256).max` is unlimited and is not reduced. -/
def spendAllowance (k : Tokens) (token owner spender : Address) (amount : Nat) :
    Result ε Tokens :=
  let current := k.allowance token owner spender
  if current < maxUint256 then do
    require (amount ≤ current) (.erc20 (.insufficientAllowance spender current amount))
    k.approve token owner spender (current - amount)
  else .ok k

def transferFrom (k : Tokens) (token spender src dst : Address) (amount : Nat) :
    Result ε Tokens := do
  let k ← k.spendAllowance token src spender amount
  k.transfer token src dst amount

def mint (k : Tokens) (token account : Address) (amount : Nat) : Result ε Tokens := do
  require (account ≠ 0) (.erc20 (.invalidReceiver account))
  let supply ← checkedAdd (k.totalSupply token) amount
  return (k.setTotalSupply token supply).credit token account amount

def burn (k : Tokens) (token account : Address) (amount : Nat) : Result ε Tokens := do
  require (account ≠ 0) (.erc20 (.invalidSender account))
  require (amount ≤ k.balanceOf token account)
    (.erc20 (.insufficientBalance account (k.balanceOf token account) amount))
  return (k.setTotalSupply token (k.totalSupply token - amount)).debit token account amount

/-- A token contract just created at `token` starts with empty storage. -/
def deploy (k : Tokens) (token : Address) : Tokens where
  balanceOf t a := if t = token then 0 else k.balanceOf t a
  allowance t o s := if t = token then 0 else k.allowance t o s
  totalSupply t := if t = token then 0 else k.totalSupply t

/-- Pull `amount` from `src` and require that exactly this amount arrived. -/
def pullExact (k : Tokens) (token spender src dst : Address) (amount : Nat)
    (mismatch : Revert ε) : Result ε Tokens := do
  let beforeBalance := k.balanceOf token dst
  let k ← k.transferFrom token spender src dst amount
  let received ← checkedSub (k.balanceOf token dst) beforeBalance
  require (received = amount) mismatch
  return k

/-- Send `amount` and require that exactly this amount arrived. -/
def sendExact (k : Tokens) (token src dst : Address) (amount : Nat)
    (mismatch : Revert ε) : Result ε Tokens := do
  let beforeBalance := k.balanceOf token dst
  let k ← k.transfer token src dst amount
  let received ← checkedSub (k.balanceOf token dst) beforeBalance
  require (received = amount) mismatch
  return k

/-- `pullExact` for contracts whose error reports what arrived. -/
def pullReceived (k : Tokens) (token spender src dst : Address) (amount : Nat)
    (mismatch : Nat → Revert ε) : Result ε Tokens := do
  let beforeBalance := k.balanceOf token dst
  let k ← k.transferFrom token spender src dst amount
  let afterBalance := k.balanceOf token dst
  require (beforeBalance ≤ afterBalance ∧ afterBalance - beforeBalance = amount)
    (mismatch (afterBalance - beforeBalance))
  return k

/-- `sendExact` for contracts whose error reports what arrived. -/
def sendReceived (k : Tokens) (token src dst : Address) (amount : Nat)
    (mismatch : Nat → Revert ε) : Result ε Tokens := do
  let beforeBalance := k.balanceOf token dst
  let k ← k.transfer token src dst amount
  let afterBalance := k.balanceOf token dst
  require (beforeBalance ≤ afterBalance ∧ afterBalance - beforeBalance = amount)
    (mismatch (afterBalance - beforeBalance))
  return k

/-- `sendExact` that also checks what left the sender. -/
def sendExactBoth (k : Tokens) (token src dst : Address) (amount : Nat)
    (mismatch : Revert ε) : Result ε Tokens := do
  let beforeBalance := k.balanceOf token dst
  let ownBalance := k.balanceOf token src
  let k ← k.transfer token src dst amount
  let received ← checkedSub (k.balanceOf token dst) beforeBalance
  require (received = amount) mismatch
  let sent ← checkedSub ownBalance (k.balanceOf token src)
  require (sent = amount) mismatch
  return k

/-! ## Reading the updates -/

@[simp] theorem balanceOf_credit (k : Tokens) (token account t a : Address) (amount : Nat) :
    (k.credit token account amount).balanceOf t a =
      if t = token ∧ a = account then k.balanceOf t a + amount else k.balanceOf t a := rfl

@[simp] theorem balanceOf_debit (k : Tokens) (token account t a : Address) (amount : Nat) :
    (k.debit token account amount).balanceOf t a =
      if t = token ∧ a = account then k.balanceOf t a - amount else k.balanceOf t a := rfl

@[simp] theorem balanceOf_setAllowance (k : Tokens) (token owner spender : Address)
    (amount : Nat) : (k.setAllowance token owner spender amount).balanceOf = k.balanceOf := rfl

@[simp] theorem balanceOf_setTotalSupply (k : Tokens) (token : Address) (amount : Nat) :
    (k.setTotalSupply token amount).balanceOf = k.balanceOf := rfl

@[simp] theorem allowance_credit (k : Tokens) (token account : Address) (amount : Nat) :
    (k.credit token account amount).allowance = k.allowance := rfl

@[simp] theorem allowance_debit (k : Tokens) (token account : Address) (amount : Nat) :
    (k.debit token account amount).allowance = k.allowance := rfl

@[simp] theorem allowance_move (k : Tokens) (token src dst : Address) (amount : Nat) :
    (k.move token src dst amount).allowance = k.allowance := rfl

@[simp] theorem allowance_setAllowance (k : Tokens) (token owner spender t o s : Address)
    (amount : Nat) :
    (k.setAllowance token owner spender amount).allowance t o s =
      if t = token ∧ o = owner ∧ s = spender then amount else k.allowance t o s := rfl

@[simp] theorem allowance_setTotalSupply (k : Tokens) (token : Address) (amount : Nat) :
    (k.setTotalSupply token amount).allowance = k.allowance := rfl

@[simp] theorem totalSupply_credit (k : Tokens) (token account : Address) (amount : Nat) :
    (k.credit token account amount).totalSupply = k.totalSupply := rfl

@[simp] theorem totalSupply_debit (k : Tokens) (token account : Address) (amount : Nat) :
    (k.debit token account amount).totalSupply = k.totalSupply := rfl

@[simp] theorem totalSupply_move (k : Tokens) (token src dst : Address) (amount : Nat) :
    (k.move token src dst amount).totalSupply = k.totalSupply := rfl

@[simp] theorem totalSupply_setAllowance (k : Tokens) (token owner spender : Address)
    (amount : Nat) : (k.setAllowance token owner spender amount).totalSupply = k.totalSupply := rfl

@[simp] theorem totalSupply_setTotalSupply (k : Tokens) (token t : Address) (amount : Nat) :
    (k.setTotalSupply token amount).totalSupply t =
      if t = token then amount else k.totalSupply t := rfl

theorem balanceOf_move_token {k : Tokens} {token src dst t : Address} {amount : Nat}
    (h : t ≠ token) (a : Address) : (k.move token src dst amount).balanceOf t a = k.balanceOf t a := by
  simp [move, h]

theorem balanceOf_move_src {k : Tokens} {token src dst : Address} {amount : Nat}
    (h : src ≠ dst) :
    (k.move token src dst amount).balanceOf token src = k.balanceOf token src - amount := by
  simp [move, h]

theorem balanceOf_move_dst {k : Tokens} {token src dst : Address} {amount : Nat}
    (h : src ≠ dst) :
    (k.move token src dst amount).balanceOf token dst = k.balanceOf token dst + amount := by
  simp [move, Ne.symm h]

/-- Whoever did not send never loses. -/
theorem le_balanceOf_move {k : Tokens} {token src dst a : Address} {amount : Nat}
    (h : a ≠ src) (t : Address) :
    k.balanceOf t a ≤ (k.move token src dst amount).balanceOf t a := by
  have hns : ¬(t = token ∧ a = src) := fun e => h e.2
  simp only [move, balanceOf_credit, balanceOf_debit, if_neg hns]
  split
  · omega
  · exact Nat.le_refl _

theorem balanceOf_move_self {k : Tokens} {token src : Address} {amount : Nat}
    (hb : amount ≤ k.balanceOf token src) :
    (k.move token src src amount).balanceOf token src = k.balanceOf token src := by
  simp only [move, balanceOf_credit, balanceOf_debit, and_self, if_true]
  omega

/-! ## Successful operations -/

theorem transfer_eq_ok {k k' : Tokens} {token src dst : Address} {amount : Nat} :
    (k.transfer token src dst amount : Result ε Tokens) = .ok k' ↔
      src ≠ 0 ∧ dst ≠ 0 ∧ amount ≤ k.balanceOf token src ∧ k.move token src dst amount = k' := by
  simp [transfer]

theorem approve_eq_ok {k k' : Tokens} {token owner spender : Address} {amount : Nat} :
    (k.approve token owner spender amount : Result ε Tokens) = .ok k' ↔
      owner ≠ 0 ∧ spender ≠ 0 ∧ k.setAllowance token owner spender amount = k' := by
  simp [approve]

/-- A spent allowance covers the amount, and only the spender's own entry
changes, downwards. -/
theorem spendAllowance_ok {k k' : Tokens} {token owner spender : Address} {amount : Nat}
    (h : (k.spendAllowance token owner spender amount : Result ε Tokens) = .ok k') :
    (amount ≤ k.allowance token owner spender ∨ maxUint256 ≤ k.allowance token owner spender) ∧
      k'.balanceOf = k.balanceOf ∧ k'.totalSupply = k.totalSupply ∧
      (∀ t o s, k'.allowance t o s ≤ k.allowance t o s) ∧
      (∀ t o s, t ≠ token ∨ o ≠ owner → k'.allowance t o s = k.allowance t o s) := by
  unfold spendAllowance at h
  dsimp only at h
  split at h
  · simp only [bind_eq_ok, require_eq_ok, approve_eq_ok, exists_and_left] at h
    obtain ⟨ha, _, _, _, rfl⟩ := h
    refine ⟨Or.inl ha, rfl, rfl, fun t o s => ?_, fun t o s ho => ?_⟩
    · simp only [allowance_setAllowance]
      split
      · next e => obtain ⟨rfl, rfl, rfl⟩ := e; omega
      · exact Nat.le_refl _
    · rcases ho with ho | ho <;> simp [ho]
  · simp only [Except.ok.injEq] at h
    subst h
    exact ⟨Or.inr (by omega), rfl, rfl, fun _ _ _ => Nat.le_refl _, fun _ _ _ _ => rfl⟩

theorem transferFrom_ok {k k' : Tokens} {token spender src dst : Address} {amount : Nat}
    (h : (k.transferFrom token spender src dst amount : Result ε Tokens) = .ok k') :
    (amount ≤ k.allowance token src spender ∨ maxUint256 ≤ k.allowance token src spender) ∧
      amount ≤ k.balanceOf token src ∧
      k'.balanceOf = (k.move token src dst amount).balanceOf ∧
      k'.totalSupply = k.totalSupply ∧
      (∀ t o s, k'.allowance t o s ≤ k.allowance t o s) ∧
      (∀ t o s, t ≠ token ∨ o ≠ src → k'.allowance t o s = k.allowance t o s) := by
  simp only [transferFrom, bind_eq_ok, transfer_eq_ok] at h
  obtain ⟨m, hm, _, _, hb, rfl⟩ := h
  obtain ⟨ha, hbal, hsup, hle, heq⟩ := spendAllowance_ok hm
  refine ⟨ha, by rw [hbal] at hb; exact hb, ?_, hsup, hle, heq⟩
  funext t a
  simp [move, hbal]

theorem mint_ok {k k' : Tokens} {token account : Address} {amount : Nat}
    (h : (k.mint token account amount : Result ε Tokens) = .ok k') :
    account ≠ 0 ∧ k'.totalSupply token = k.totalSupply token + amount ∧
      k'.balanceOf = (k.credit token account amount).balanceOf ∧ k'.allowance = k.allowance := by
  simp only [mint, bind_eq_ok, require_eq_ok, checkedAdd_eq_ok, pure_eq_ok] at h
  obtain ⟨_, ha, _, ⟨_, rfl⟩, rfl⟩ := h
  exact ⟨ha, by simp, rfl, rfl⟩

theorem mint_of {k : Tokens} {token account : Address} {amount : Nat} (ha : account ≠ 0)
    (hs : k.totalSupply token + amount ≤ maxUint256) :
    (k.mint token account amount : Result ε Tokens) =
      .ok ((k.setTotalSupply token (k.totalSupply token + amount)).credit token account amount) := by
  rw [mint, require_of ha, ok_bind, checkedAdd_of hs]
  rfl

theorem burn_ok {k k' : Tokens} {token account : Address} {amount : Nat}
    (h : (k.burn token account amount : Result ε Tokens) = .ok k') :
    amount ≤ k.balanceOf token account ∧
      k'.totalSupply token = k.totalSupply token - amount ∧
      k'.balanceOf = (k.debit token account amount).balanceOf ∧ k'.allowance = k.allowance := by
  simp only [burn, bind_eq_ok, require_eq_ok, pure_eq_ok] at h
  obtain ⟨_, _, _, hb, rfl⟩ := h
  exact ⟨hb, by simp, rfl, rfl⟩

/-- What an exact pull or send did: nothing but the move of `amount`, between two
different accounts unless the amount is zero. -/
structure Moved (k k' : Tokens) (token src dst : Address) (amount : Nat) : Prop where
  funded : amount ≤ k.balanceOf token src
  apart : src ≠ dst ∨ amount = 0
  balances : k'.balanceOf = (k.move token src dst amount).balanceOf
  supply : k'.totalSupply = k.totalSupply
  allowance_le : ∀ t o s, k'.allowance t o s ≤ k.allowance t o s
  allowance_other : ∀ t o s, t ≠ token ∨ o ≠ src → k'.allowance t o s = k.allowance t o s

theorem moved_of_received {k : Tokens} {token src dst : Address} {amount : Nat}
    (hb : amount ≤ k.balanceOf token src)
    (hr : (k.move token src dst amount).balanceOf token dst - k.balanceOf token dst = amount) :
    src ≠ dst ∨ amount = 0 := by
  by_cases h : src = dst
  · subst h
    rw [balanceOf_move_self hb] at hr
    exact Or.inr (by omega)
  · exact Or.inl h

theorem pullExact_ok {k k' : Tokens} {token spender src dst : Address} {amount : Nat}
    {mismatch : Revert ε} (h : k.pullExact token spender src dst amount mismatch = .ok k') :
    Moved k k' token src dst amount := by
  simp only [pullExact, bind_eq_ok, checkedSub_eq_ok, require_eq_ok, pure_eq_ok] at h
  obtain ⟨m, hm, _, ⟨_, rfl⟩, _, hr, rfl⟩ := h
  obtain ⟨_, hb, hbal, hsup, hle, heq⟩ := transferFrom_ok hm
  refine ⟨hb, moved_of_received hb ?_, hbal, hsup, hle, heq⟩
  rw [← hbal]
  exact hr

theorem sendExact_ok {k k' : Tokens} {token src dst : Address} {amount : Nat}
    {mismatch : Revert ε} (h : k.sendExact token src dst amount mismatch = .ok k') :
    Moved k k' token src dst amount := by
  simp only [sendExact, bind_eq_ok, transfer_eq_ok, checkedSub_eq_ok, require_eq_ok,
    pure_eq_ok] at h
  obtain ⟨m, ⟨_, _, hb, rfl⟩, _, ⟨_, rfl⟩, _, hr, rfl⟩ := h
  exact ⟨hb, moved_of_received hb hr, rfl, rfl, fun _ _ _ => Nat.le_refl _, fun _ _ _ _ => rfl⟩

theorem pullReceived_ok {k k' : Tokens} {token spender src dst : Address} {amount : Nat}
    {mismatch : Nat → Revert ε}
    (h : k.pullReceived token spender src dst amount mismatch = .ok k') :
    Moved k k' token src dst amount := by
  simp only [pullReceived, bind_eq_ok, require_eq_ok, pure_eq_ok] at h
  obtain ⟨m, hm, _, ⟨_, hr⟩, rfl⟩ := h
  obtain ⟨_, hb, hbal, hsup, hle, heq⟩ := transferFrom_ok hm
  refine ⟨hb, moved_of_received hb ?_, hbal, hsup, hle, heq⟩
  rw [← hbal]
  exact hr

theorem sendReceived_ok {k k' : Tokens} {token src dst : Address} {amount : Nat}
    {mismatch : Nat → Revert ε} (h : k.sendReceived token src dst amount mismatch = .ok k') :
    Moved k k' token src dst amount := by
  simp only [sendReceived, bind_eq_ok, transfer_eq_ok, require_eq_ok, pure_eq_ok] at h
  obtain ⟨m, ⟨_, _, hb, rfl⟩, _, ⟨_, hr⟩, rfl⟩ := h
  exact ⟨hb, moved_of_received hb hr, rfl, rfl, fun _ _ _ => Nat.le_refl _, fun _ _ _ _ => rfl⟩

theorem sendExactBoth_ok {k k' : Tokens} {token src dst : Address} {amount : Nat}
    {mismatch : Revert ε} (h : k.sendExactBoth token src dst amount mismatch = .ok k') :
    Moved k k' token src dst amount := by
  simp only [sendExactBoth, bind_eq_ok, transfer_eq_ok, checkedSub_eq_ok, require_eq_ok,
    pure_eq_ok] at h
  obtain ⟨m, ⟨_, _, hb, rfl⟩, _, ⟨_, rfl⟩, _, hr, _, ⟨_, rfl⟩, _, _, rfl⟩ := h
  exact ⟨hb, moved_of_received hb hr, rfl, rfl, fun _ _ _ => Nat.le_refl _, fun _ _ _ _ => rfl⟩

namespace Moved

variable {k k' : Tokens} {token src dst : Address} {amount : Nat}

/-- Moving nothing. -/
theorem zero (k : Tokens) : Moved k k token src dst 0 := by
  refine ⟨Nat.zero_le _, Or.inr rfl, ?_, rfl, fun _ _ _ => Nat.le_refl _, fun _ _ _ _ => rfl⟩
  funext t a
  simp [move]

theorem balance_token (h : Moved k k' token src dst amount) {t : Address} (ht : t ≠ token)
    (a : Address) : k'.balanceOf t a = k.balanceOf t a := by
  rw [h.balances, balanceOf_move_token ht]

theorem balance_src (h : Moved k k' token src dst amount) :
    k'.balanceOf token src = k.balanceOf token src - amount := by
  rw [h.balances]
  rcases h.apart with hne | rfl
  · exact balanceOf_move_src hne
  · simp [move]

theorem balance_dst (h : Moved k k' token src dst amount) :
    k'.balanceOf token dst = k.balanceOf token dst + amount := by
  rw [h.balances]
  rcases h.apart with hne | rfl
  · exact balanceOf_move_dst hne
  · simp [move]

theorem balance_le (h : Moved k k' token src dst amount) {a : Address} (hs : a ≠ src)
    (t : Address) : k.balanceOf t a ≤ k'.balanceOf t a := by
  rw [h.balances]
  exact le_balanceOf_move hs t

end Moved

/-- `account` has approved nobody for `token`. -/
def QuietAt (k : Tokens) (token account : Address) : Prop :=
  ∀ spender, k.allowance token account spender = 0

/-- No account of `own` has approved anybody for any token. -/
def Quiet (k : Tokens) (own : List Address) : Prop :=
  ∀ token, ∀ account ∈ own, k.QuietAt token account

theorem Moved.quietAt {k k' : Tokens} {token src dst t a : Address} {amount : Nat}
    (h : Moved k k' token src dst amount) (hq : k.QuietAt t a) : k'.QuietAt t a := by
  intro s
  have hle := h.allowance_le t a s
  have hz := hq s
  omega

theorem Moved.quiet {k k' : Tokens} {token src dst : Address} {amount : Nat} {own : List Address}
    (h : Moved k k' token src dst amount) (hq : k.Quiet own) : k'.Quiet own :=
  fun t a ha => h.quietAt (hq t a ha)

end Tokens

namespace Tokens

variable {ε : Type}

/-! ## Operations whose checks hold -/

theorem approve_of {k : Tokens} {token owner spender : Address} {amount : Nat} (ho : owner ≠ 0)
    (hs : spender ≠ 0) :
    (k.approve token owner spender amount : Result ε Tokens) =
      .ok (k.setAllowance token owner spender amount) := by
  rw [approve, require_of ho, ok_bind, require_of hs]
  rfl

theorem spendAllowance_of {k : Tokens} {token owner spender : Address} {amount : Nat}
    (ho : owner ≠ 0) (hs : spender ≠ 0) (ha : amount ≤ k.allowance token owner spender) :
    ∃ k', (k.spendAllowance token owner spender amount : Result ε Tokens) = .ok k' := by
  unfold spendAllowance
  dsimp only
  split
  · rw [require_of ha, ok_bind, approve_of ho hs]
    exact ⟨_, rfl⟩
  · exact ⟨k, rfl⟩

theorem pullExact_of {k : Tokens} {token spender src dst : Address} {amount : Nat}
    (mismatch : Revert ε) (hspender : spender ≠ 0) (hsrc : src ≠ 0) (hdst : dst ≠ 0)
    (hne : src ≠ dst) (ha : amount ≤ k.allowance token src spender)
    (hb : amount ≤ k.balanceOf token src) :
    ∃ k', k.pullExact token spender src dst amount mismatch = .ok k' := by
  obtain ⟨k₁, h₁⟩ : ∃ k₁, (k.spendAllowance token src spender amount : Result ε Tokens) = .ok k₁ :=
    spendAllowance_of hsrc hspender ha
  have hbal : k₁.balanceOf = k.balanceOf := (spendAllowance_ok h₁).2.1
  have hb₁ : amount ≤ k₁.balanceOf token src := by rw [hbal]; exact hb
  have hgain : (k₁.move token src dst amount).balanceOf token dst =
      k.balanceOf token dst + amount := by
    rw [balanceOf_move_dst hne, hbal]
  simp only [pullExact, transferFrom, h₁, transfer, require_of hsrc, require_of hdst,
    require_of hb₁, ok_bind]
  rw [show (pure (k₁.move token src dst amount) : Result ε Tokens) =
    .ok (k₁.move token src dst amount) from rfl, ok_bind, hgain,
    checkedSub_of (Nat.le_add_right _ _), ok_bind, Nat.add_sub_cancel_left, require_of rfl, ok_bind]
  exact ⟨_, rfl⟩

theorem sendExact_of {k : Tokens} {token src dst : Address} {amount : Nat}
    (mismatch : Revert ε) (hsrc : src ≠ 0) (hdst : dst ≠ 0) (hne : src ≠ dst)
    (hb : amount ≤ k.balanceOf token src) :
    ∃ k', k.sendExact token src dst amount mismatch = .ok k' := by
  simp only [sendExact, transfer, require_of hsrc, require_of hdst, require_of hb, ok_bind]
  rw [show (pure (k.move token src dst amount) : Result ε Tokens) =
    .ok (k.move token src dst amount) from rfl, ok_bind, balanceOf_move_dst hne,
    checkedSub_of (Nat.le_add_right _ _), ok_bind, Nat.add_sub_cancel_left, require_of rfl, ok_bind]
  exact ⟨_, rfl⟩

theorem sendReceived_of {k : Tokens} {token src dst : Address} {amount : Nat}
    (mismatch : Nat → Revert ε) (hsrc : src ≠ 0) (hdst : dst ≠ 0) (hne : src ≠ dst)
    (hb : amount ≤ k.balanceOf token src) :
    ∃ k', k.sendReceived token src dst amount mismatch = .ok k' := by
  simp only [sendReceived, transfer, require_of hsrc, require_of hdst, require_of hb, ok_bind]
  rw [show (pure (k.move token src dst amount) : Result ε Tokens) =
    .ok (k.move token src dst amount) from rfl, ok_bind, balanceOf_move_dst hne,
    Nat.add_sub_cancel_left, require_of ⟨Nat.le_add_right _ _, rfl⟩, ok_bind]
  exact ⟨_, rfl⟩

theorem sendExactBoth_of {k : Tokens} {token src dst : Address} {amount : Nat}
    (mismatch : Revert ε) (hsrc : src ≠ 0) (hdst : dst ≠ 0) (hne : src ≠ dst)
    (hb : amount ≤ k.balanceOf token src) :
    ∃ k', k.sendExactBoth token src dst amount mismatch = .ok k' := by
  have hkept : k.balanceOf token src - amount ≤ k.balanceOf token src := Nat.sub_le _ _
  simp only [sendExactBoth, transfer, require_of hsrc, require_of hdst, require_of hb, ok_bind]
  rw [show (pure (k.move token src dst amount) : Result ε Tokens) =
    .ok (k.move token src dst amount) from rfl, ok_bind, balanceOf_move_dst hne,
    checkedSub_of (Nat.le_add_right _ _), ok_bind, Nat.add_sub_cancel_left, require_of rfl,
    ok_bind, balanceOf_move_src hne, checkedSub_of hkept, ok_bind, Nat.sub_sub_self hb,
    require_of rfl, ok_bind]
  exact ⟨_, rfl⟩

end Tokens

/-! ## Calls from outside -/

/-- A call of some account to a token contract. -/
inductive TokenCall where
  | transfer (token caller dst : Address) (amount : Nat)
  | approve (token caller spender : Address) (amount : Nat)
  | transferFrom (token caller src dst : Address) (amount : Nat)

def TokenCall.caller : TokenCall → Address
  | .transfer _ caller _ _ => caller
  | .approve _ caller _ _ => caller
  | .transferFrom _ caller _ _ _ => caller

def TokenCall.exec (k : Tokens) : TokenCall → Result Empty Tokens
  | .transfer token caller dst amount => k.transfer token caller dst amount
  | .approve token caller spender amount => k.approve token caller spender amount
  | .transferFrom token caller src dst amount => k.transferFrom token caller src dst amount

namespace Tokens

/-- One call by an account that is not in `own`.  The accounts in `own` are
contracts that call tokens only from their own code, which is modelled
separately.  A reverted call changes nothing. -/
def outsideCall (own : List Address) (k : Tokens) (c : TokenCall) : Tokens :=
  if c.caller ∈ own then k
  else match c.exec k with
    | .ok k' => k'
    | .error _ => k

def outside (own : List Address) (k : Tokens) (calls : List TokenCall) : Tokens :=
  calls.foldl (outsideCall own) k

variable {own : List Address}

/-- What calls from outside can do to an account in `own`: allowances it granted
can only be used up, supplies stay, and where it has approved nobody its balance
cannot fall. -/
structure OutsideStep (own : List Address) (k k' : Tokens) : Prop where
  allowance_le : ∀ t, ∀ a ∈ own, ∀ s, k'.allowance t a s ≤ k.allowance t a s
  supply : k'.totalSupply = k.totalSupply
  balance_le : ∀ t, ∀ a ∈ own, k.QuietAt t a → k.balanceOf t a ≤ k'.balanceOf t a

theorem OutsideStep.refl (k : Tokens) : OutsideStep own k k :=
  ⟨fun _ _ _ _ => Nat.le_refl _, rfl, fun _ _ _ _ => Nat.le_refl _⟩

theorem OutsideStep.quietAt {k k' : Tokens} (h : OutsideStep own k k') {t a : Address}
    (ha : a ∈ own) (hq : k.QuietAt t a) : k'.QuietAt t a := by
  intro s
  have hle := h.allowance_le t a ha s
  have hz := hq s
  omega

theorem OutsideStep.quiet {k k' : Tokens} (h : OutsideStep own k k') (hq : k.Quiet own) :
    k'.Quiet own :=
  fun t a ha => h.quietAt ha (hq t a ha)

theorem OutsideStep.trans {k k' k'' : Tokens} (h₁ : OutsideStep own k k')
    (h₂ : OutsideStep own k' k'') : OutsideStep own k k'' where
  allowance_le t a ha s := Nat.le_trans (h₂.allowance_le t a ha s) (h₁.allowance_le t a ha s)
  supply := h₂.supply.trans h₁.supply
  balance_le t a ha hq :=
    Nat.le_trans (h₁.balance_le t a ha hq) (h₂.balance_le t a ha (h₁.quietAt ha hq))

/-- A move out of an account that is not in `own` is a call from outside. -/
theorem Moved.outsideStep {k k' : Tokens} {token src dst : Address} {amount : Nat}
    (h : Moved k k' token src dst amount) (hs : src ∉ own) : OutsideStep own k k' where
  allowance_le t a _ s := h.allowance_le t a s
  supply := h.supply
  balance_le t _ ha _ := h.balance_le (fun e => hs (e ▸ ha)) t

theorem exec_outsideStep {k k' : Tokens} {c : TokenCall} (hc : c.caller ∉ own)
    (he : c.exec k = .ok k') : OutsideStep own k k' := by
  have hne : ∀ a ∈ own, a ≠ c.caller := fun a ha e => hc (e ▸ ha)
  cases c with
  | transfer token caller dst amount =>
      obtain ⟨_, _, _, rfl⟩ := transfer_eq_ok.mp he
      exact ⟨fun _ _ _ _ => Nat.le_refl _, rfl, fun t a ha _ => le_balanceOf_move (hne a ha) t⟩
  | approve token caller spender amount =>
      obtain ⟨_, _, rfl⟩ := approve_eq_ok.mp he
      refine ⟨fun t a ha s => ?_, rfl, fun _ _ _ _ => Nat.le_refl _⟩
      have h : a ≠ caller := hne a ha
      simp [h]
  | transferFrom token caller src dst amount =>
      obtain ⟨hallow, hb, hbal, hsup, hle, _⟩ := transferFrom_ok he
      refine ⟨fun t a _ s => hle t a s, hsup, fun t a ha hq => ?_⟩
      rw [hbal]
      by_cases hs : a = src
      · subst hs
        by_cases ht : t = token
        · -- the account never approved the caller, so only an empty pull goes through
          subst ht
          have hz := hq caller
          have hmax : 0 < maxUint256 := by decide
          have h0 : amount = 0 := by omega
          subst h0
          simp [move]
        · exact Nat.le_of_eq (balanceOf_move_token ht a).symm
      · exact le_balanceOf_move hs t

theorem outsideCall_step (k : Tokens) (c : TokenCall) :
    OutsideStep own k (outsideCall own k c) := by
  unfold outsideCall
  split
  · exact OutsideStep.refl k
  · next hc =>
    split
    · next k' he => exact exec_outsideStep hc he
    · exact OutsideStep.refl k

theorem outside_step (k : Tokens) (calls : List TokenCall) :
    OutsideStep own k (k.outside own calls) := by
  induction calls generalizing k with
  | nil => exact OutsideStep.refl k
  | cons c rest ih => exact (outsideCall_step k c).trans (ih (outsideCall own k c))

/-- What `account` holds of `token` is safe from this update: as long as it has
approved nobody it goes on so, and its balance does not fall. -/
def Spares (token account : Address) (k k' : Tokens) : Prop :=
  k.QuietAt token account →
    k'.QuietAt token account ∧ k.balanceOf token account ≤ k'.balanceOf token account

namespace Spares

variable {token account : Address} {k k' k'' : Tokens}

theorem refl (k : Tokens) : Spares token account k k := fun h => ⟨h, Nat.le_refl _⟩

theorem trans (h₁ : Spares token account k k') (h₂ : Spares token account k' k'') :
    Spares token account k k'' := by
  intro hq
  have hfirst := h₁ hq
  have hsecond := h₂ hfirst.1
  exact ⟨hsecond.1, Nat.le_trans hfirst.2 hsecond.2⟩

theorem of_outsideStep (h : OutsideStep own k k') (ha : account ∈ own) :
    Spares token account k k' :=
  fun hq => ⟨h.quietAt ha hq, h.balance_le token account ha hq⟩

theorem of_moved {t src dst : Address} {amount : Nat} (h : Moved k k' t src dst amount)
    (hs : account ≠ src) : Spares token account k k' := by
  have hout : src ∉ [account] := by simpa using hs.symm
  exact of_outsideStep (h.outsideStep hout) (by simp)

/-- An update of another token's ledger. -/
theorem of_other (hb : k'.balanceOf token account = k.balanceOf token account)
    (ha : k'.allowance token account = k.allowance token account) :
    Spares token account k k' := by
  intro hq
  refine ⟨fun s => ?_, Nat.le_of_eq hb.symm⟩
  rw [ha]
  exact hq s

/-- Calls by others, whichever accounts besides are barred from calling. -/
theorem of_outside (k : Tokens) {calls : List TokenCall}
    (h : account ∉ calls.map TokenCall.caller) :
    Spares token account k (k.outside own calls) := by
  induction calls generalizing k with
  | nil => exact refl k
  | cons c rest ih =>
      simp only [List.map_cons, List.mem_cons, not_or] at h
      have hfirst : Spares token account k (outsideCall own k c) := by
        unfold outsideCall
        split
        · exact refl k
        · split
          · next k' he =>
            have hc : c.caller ∉ [account] := by simpa using Ne.symm h.1
            exact of_outsideStep (exec_outsideStep hc he) (by simp)
          · exact refl k
      exact hfirst.trans (ih (outsideCall own k c) h.2)

end Spares

end Tokens

end Evm
