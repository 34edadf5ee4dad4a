/-
What the owner can take out.

The base vault is run with the code of a vault derived from it, which may trade the
tracked cash for positions and back at a gain or a loss.  Such code is any change of the
ledgers and of the books that leaves the vault with what it tracks.  In every state this
reaches, the owner's withdrawals go through exactly up to `withdrawableUsdc()`, and a
vault without positions can be closed.
-/
import AlphaForge.Machine.Run
import AlphaForge.Vault.Backing

namespace AlphaForge
namespace Vault

open Evm Machine

/-- What the code of a derived vault did in one call: the ledgers it left, the cash it
tracks, and the positions it set in turn. -/
structure Derived where
  tokens : Tokens
  trackedUsdcBalance : Nat
  positions : List (Address × Nat)

inductive Action where
  | deposit (m : Msg) (usdcAmount : Nat)
  | withdraw (m : Msg) (usdcAmount : Nat)
  | close (m : Msg)
  | rescueUntrackedToken (m : Msg) (token : Address)
  | rescueNative (m : Msg) (x : View)
  | receive (m : Msg)
  | derived (d : Derived)
  | outside (calls : List TokenCall)

section Calls

variable (c : Config)

/-- The books a derived vault writes. -/
def book (d : Derived) (s : State) : Result Error State := do
  whenActive s
  d.positions.foldlM (fun s p => setTrackedPosition c p.1 p.2 s)
    { s with tokens := d.tokens, trackedUsdcBalance := d.trackedUsdcBalance }

def step : Action → State → Result Error State
  | .deposit m usdcAmount, s => callFrom (own c) m (deposit c m usdcAmount s)
  | .withdraw m usdcAmount, s => callFrom (own c) m (withdraw c m usdcAmount s)
  | .close m, s => callFrom (own c) m (close c m s)
  | .rescueUntrackedToken m token, s =>
      callFrom (own c) m (Prod.fst <$> rescueUntrackedToken c m token s)
  | .rescueNative m x, s => callFrom (own c) m (Prod.fst <$> rescueNative c m x s)
  | .receive m, s => payFrom (own c) m (.ok (receive m s))
  | .derived d, s => book c d s
  | .outside calls, s => .ok { s with tokens := s.tokens.outside (own c) calls }

end Calls

variable {c : Config} {m : Msg} {s s' : State} {amount : Nat}

/-- What a derived vault keeps to: it tracks no more than it holds, takes nothing from
the escrow and leaves no approval behind. -/
structure Covered (c : Config) (k : Tokens) (s : State) : Prop where
  escrow : k.balanceOf c.pass c.locker.self ≤ s.tokens.balanceOf c.pass c.locker.self
  usdc : s.trackedUsdcBalance ≤ s.tokens.balanceOf c.afUsdc c.self
  eth : s.trackedPosition c.afEth ≤ s.tokens.balanceOf c.afEth c.self
  btc : s.trackedPosition c.afBtc ≤ s.tokens.balanceOf c.afBtc c.self
  quiet : s.tokens.Quiet (own c)

/-- The accounts the vault and its escrow pay between. -/
structure Accounts (c : Config) : Prop where
  self : c.self ≠ 0
  owner : c.owner ≠ 0
  receives : c.owner ∉ own c
  escrow : PassLocker.Pays c.locker c.self
  beneficiary : c.locker.owner = c.owner

theorem Accounts.apart (h : Accounts c) : c.self ≠ c.owner := fun e =>
  h.receives (by rw [← e]; simp [own])

/-! ## The books over runs -/

/-- The books are backed, and the escrow's counter is a word. -/
structure Sound (c : Config) (s : State) : Prop where
  backed : Backed c s
  sized : s.locker.lockedBalance ≤ maxUint256

theorem deposit_sized (h : deposit c m amount s = .ok s') :
    s'.locker.lockedBalance ≤ maxUint256 := by
  simp only [deposit, onlyOwner, whenActive, bind_eq_ok, nested_eq_ok, pure_eq_ok] at h
  obtain ⟨_, _, _, _, _, _, _, _, _, _, _, _, _, _, _, _, _, _, l, hl, rfl⟩ := h
  exact PassLocker.lock_sized hl

/-- What the books of a derived vault have in common with those before. -/
structure Booked (c : Config) (s s' : State) : Prop where
  locker : s'.locker = s.locker
  principal : s'.principalBasis = s.principalBasis
  closed : s'.closed = s.closed
  count : s'.openTrackedPositionCount + openPositions c s =
    s.openTrackedPositionCount + openPositions c s'

theorem setTrackedPosition_booked (hid : Identity c) {token : Address}
    (h : setTrackedPosition c token amount s = .ok s') :
    Booked c s s' ∧ s'.tokens = s.tokens ∧ s'.trackedUsdcBalance = s.trackedUsdcBalance := by
  obtain ⟨htoken, hpos, hcount, htok, hlock, hprin, htracked, hclosed⟩ := setTrackedPosition_ok h
  refine ⟨⟨hlock, hprin, hclosed, ?_⟩, htok, htracked⟩
  have hbtc : c.afBtc ≠ c.afEth := hid.ethBtc.symm
  unfold openPositions
  rcases htoken with rfl | rfl
  · rw [hpos, Function.update_self, Function.update_of_ne hbtc]
    omega
  · rw [hpos, Function.update_self, Function.update_of_ne hid.ethBtc]
    omega

theorem book_ok (hid : Identity c) {d : Derived} (h : book c d s = .ok s') :
    s.closed = false ∧ Booked c s s' := by
  simp only [book, whenActive, bind_eq_ok, require_eq_ok] at h
  obtain ⟨_, hactive, h⟩ := h
  refine ⟨hactive, ?_⟩
  refine foldlM_keeps (P := fun t => Booked c s t) (fun t p _ t' ht hset => ?_)
    (⟨rfl, rfl, rfl, rfl⟩ : Booked c s { s with
      tokens := d.tokens
      trackedUsdcBalance := d.trackedUsdcBalance }) h
  obtain ⟨hb, _⟩ := setTrackedPosition_booked hid hset
  have hbefore := ht.count
  have hafter := hb.count
  exact ⟨hb.locker.trans ht.locker, hb.principal.trans ht.principal, hb.closed.trans ht.closed,
    by omega⟩

/-- One accepted step keeps the books sound, if a derived vault does its part. -/
theorem step_sound (hid : Identity c) {a : Action}
    (hcovered : ∀ d, a = .derived d → Covered c s.tokens s') (hs : Sound c s)
    (h : step c a s = .ok s') : Sound c s' := by
  have hb := hs.backed
  have hsized := hs.sized
  cases a with
  | deposit m usdcAmount =>
      simp only [step, callFrom_eq_ok] at h
      exact ⟨(deposit_ok h.2.2).backed hid h.1 hb, deposit_sized h.2.2⟩
  | withdraw m usdcAmount =>
      simp only [step, callFrom_eq_ok] at h
      have hw := withdraw_ok h.2.2
      refine ⟨hw.backed hid hb, ?_⟩
      rw [hw.locked]
      exact Nat.le_trans (Nat.sub_le _ _) hsized
  | close m =>
      simp only [step, callFrom_eq_ok] at h
      have hc := close_ok h.2.2
      refine ⟨hc.backed hb, ?_⟩
      rw [hc.locked]
      exact Nat.zero_le _
  | rescueUntrackedToken m token =>
      simp only [step, callFrom_eq_ok, map_eq_ok] at h
      obtain ⟨_, _, ⟨r, amount⟩, hr, rfl⟩ := h
      have hrescued := rescueUntrackedToken_ok hr
      refine ⟨hrescued.backed hb, ?_⟩
      rw [hrescued.locked]
      exact hsized
  | rescueNative m x =>
      simp only [step, callFrom_eq_ok, rescueNative, bind_eq_ok, map_eq_ok, pure_eq_ok] at h
      obtain ⟨_, _, r, ⟨_, _, _, _, _, _, _, _, rfl⟩, rfl⟩ := h
      exact ⟨⟨hb.locked, hb.escrow, hb.usdc, hb.eth, hb.btc, hb.count, hb.quiet, hb.settled⟩,
        hsized⟩
  | receive m =>
      simp only [step, payFrom_eq_ok, Except.ok.injEq] at h
      obtain ⟨_, rfl⟩ := h
      exact ⟨⟨hb.locked, hb.escrow, hb.usdc, hb.eth, hb.btc, hb.count, hb.quiet, hb.settled⟩,
        hsized⟩
  | derived d =>
      obtain ⟨hactive, hbooked⟩ := book_ok hid h
      have hc := hcovered d rfl
      have hcount := hbooked.count
      have hbefore := hb.count
      refine ⟨⟨?_, ?_, hc.usdc, hc.eth, hc.btc, by omega, hc.quiet, fun hclosed => ?_⟩, ?_⟩
      · rw [hbooked.locker, hbooked.principal]
        exact hb.locked
      · rw [hbooked.locker]
        exact Nat.le_trans hb.escrow hc.escrow
      · rw [hbooked.closed, hactive] at hclosed
        cases hclosed
      · rw [hbooked.locker]
        exact hsized
  | outside calls =>
      simp only [step, Except.ok.injEq] at h
      subst h
      exact ⟨hb.outside (Tokens.outside_step s.tokens calls), hsized⟩

/-! ## Calls that go through -/

theorem usdcToPassRaw_of {usdcRaw : Nat} (h : usdcRaw * passScale ≤ maxUint256) :
    usdcToPassRaw usdcRaw = .ok (usdcRaw * passScale) := by
  have hraw : usdcRaw ≤ maxUint256 / passScale := (Nat.le_div_iff_mul_le (by decide)).mpr h
  rw [usdcToPassRaw, require_of hraw, ok_bind, checkedMul_of h]

theorem safeTransferExact_of (ha : Accounts c) {token : Address} {k : Tokens}
    (hheld : amount ≤ k.balanceOf token c.self) :
    ∃ k', safeTransferExact c token c.owner amount k = .ok k' := by
  rw [safeTransferExact, requireFunded, require_of hheld, ok_bind]
  exact Tokens.sendReceived_of _ ha.self ha.owner ha.apart hheld

/-- The part a withdrawal takes as profit, and the rest. -/
theorem profit_first (amount : Nat) (s : State) :
    (if amount < realizedProfit s then amount else realizedProfit s) ≤ amount ∧
      amount - (if amount < realizedProfit s then amount else realizedProfit s) =
        principalPart amount s := by
  unfold principalPart
  split <;> omega

theorem principalPart_le (hle : amount ≤ s.trackedUsdcBalance) :
    principalPart amount s ≤ s.principalBasis := by
  unfold principalPart realizedProfit
  split <;> omega

theorem withdraw_of (hid : Identity c) (ha : Accounts c) (hs : Sound c s)
    (hm : m.sender = c.owner) (hactive : s.closed = false) (hamount : amount ≠ 0)
    (hle : amount ≤ s.trackedUsdcBalance)
    (hflat : principalPart amount s = 0 ∨ s.openTrackedPositionCount = 0) :
    ∃ s', withdraw c m amount s = .ok s' := by
  have hb := hs.backed
  obtain ⟨hprofit, hpart⟩ := profit_first amount s
  have hcovered := principalPart_le hle
  have hlocked : principalPart amount s * passScale ≤ s.locker.lockedBalance := by
    rw [hb.locked]
    exact Nat.mul_le_mul_right _ hcovered
  obtain ⟨k, hk⟩ := safeTransferExact_of ha (Nat.le_trans hle hb.usdc)
  have hescrow : k.balanceOf c.locker.pass c.locker.self =
      s.tokens.balanceOf c.pass c.locker.self := by
    rw [hid.lockerPass]
    exact (safeTransferExact_ok hk).balance_token hid.passUsdc _
  have hheld : principalPart amount s * passScale ≤ k.balanceOf c.locker.pass c.locker.self := by
    rw [hescrow]
    exact Nat.le_trans hlocked hb.escrow
  unfold withdraw onlyOwner whenActive
  rw [require_of hm, ok_bind, require_of hactive, ok_bind, require_of hamount, ok_bind]
  dsimp only
  rw [require_of hle, ok_bind, checkedSub_of hprofit, ok_bind, hpart, require_of hflat, ok_bind,
    usdcToPassRaw_of (Nat.le_trans hlocked hs.sized), ok_bind, checkedSub_of hle, ok_bind,
    checkedSub_of hcovered, ok_bind, hk, ok_bind]
  by_cases hnone : principalPart amount s * passScale = 0
  · rw [if_neg (not_not.mpr hnone), ok_bind]
    exact ⟨_, rfl⟩
  · obtain ⟨r, hr⟩ := PassLocker.unlock_of ha.escrow hnone hlocked hheld
    rw [if_pos hnone, hr]
    exact ⟨_, rfl⟩

theorem close_of (hid : Identity c) (ha : Accounts c) (hs : Sound c s) (hm : m.sender = c.owner)
    (hactive : s.closed = false) (hcount : s.openTrackedPositionCount = 0) :
    ∃ s', close c m s = .ok s' := by
  have hb := hs.backed
  have hpositions : s.trackedPosition c.afEth = 0 ∧ s.trackedPosition c.afBtc = 0 := by
    have hopen := hb.count
    rw [hcount, openPositions] at hopen
    constructor
    · by_contra hne
      rw [if_neg hne] at hopen
      omega
    · by_contra hne
      rw [if_neg hne] at hopen
      omega
  have hset : ∀ token, (token = c.afEth ∨ token = c.afBtc) → s.trackedPosition token = 0 →
      setTrackedPosition c token 0 s = .ok s := by
    intro token htoken hnone
    rw [setTrackedPosition, whenActive, require_of hactive, ok_bind, require_of htoken, ok_bind]
    dsimp only
    rw [if_pos hnone]
    rfl
  obtain ⟨k, hk⟩ : ∃ k, (if s.trackedUsdcBalance ≠ 0 then
      safeTransferExact c c.afUsdc c.owner s.trackedUsdcBalance s.tokens else .ok s.tokens) =
        .ok k := by
    by_cases hnone : s.trackedUsdcBalance = 0
    · rw [if_neg (not_not.mpr hnone)]
      exact ⟨_, rfl⟩
    · rw [if_pos hnone]
      exact safeTransferExact_of ha hb.usdc
  have hheld : s.locker.lockedBalance ≤ k.balanceOf c.locker.pass c.locker.self := by
    rw [hid.lockerPass, (safeTransferExact_unless_zero hk).balance_token hid.passUsdc]
    exact hb.escrow
  unfold close onlyOwner
  rw [require_of hm, ok_bind, whenActive, require_of hactive, ok_bind]
  dsimp only
  rw [require_of hcount, ok_bind, hset _ (Or.inl rfl) hpositions.1, ok_bind,
    hset _ (Or.inr rfl) hpositions.2, ok_bind, hk, ok_bind]
  by_cases hnone : s.locker.lockedBalance = 0
  · rw [if_neg (not_not.mpr hnone), ok_bind]
    exact ⟨_, rfl⟩
  · obtain ⟨r, hr⟩ := PassLocker.releaseAll_of ha.escrow hnone hheld
    rw [if_pos hnone, hr]
    exact ⟨_, rfl⟩

/-- The owner's withdrawals go through exactly up to what is withdrawable. -/
theorem withdraw_iff (hid : Identity c) (ha : Accounts c) (hs : Sound c s)
    (hm : m.sender = c.owner) :
    (∃ s', withdraw c m amount s = .ok s') ↔ 0 < amount ∧ amount ≤ withdrawableUsdc s := by
  unfold withdrawableUsdc
  constructor
  · rintro ⟨s', h⟩
    have hw := withdraw_ok h
    have havailable := hw.available
    simp only [withdraw, bind_eq_ok, require_eq_ok] at h
    obtain ⟨_, _, _, _, _, hamount, _, _, principalAmount, hpart, _, hflat, _⟩ := h
    rw [hw.active.1]
    refine ⟨Nat.pos_of_ne_zero hamount, ?_⟩
    simp only [checkedSub_eq_ok] at hpart
    rw [(profit_first amount s).2] at hpart
    obtain ⟨_, rfl⟩ := hpart
    simp only [Bool.false_eq_true, if_false]
    split
    · next hopen =>
      have hnone := hflat.resolve_right hopen
      unfold principalPart at hnone
      omega
    · exact havailable
  · rintro ⟨hpos, hle⟩
    have hactive : s.closed = false := by
      by_contra hclosed
      rw [if_pos (by simpa using hclosed)] at hle
      omega
    rw [hactive] at hle
    simp only [Bool.false_eq_true, if_false] at hle
    have hprofit : realizedProfit s ≤ s.trackedUsdcBalance := by
      unfold realizedProfit
      split <;> omega
    refine withdraw_of hid ha hs hm hactive (Nat.pos_iff_ne_zero.mp hpos) ?_ ?_
    · split at hle <;> omega
    · split at hle
      · left
        unfold principalPart
        omega
      · next hnone => exact Or.inr (not_not.mp hnone)

/-! ## Every reachable state -/

/-- What an accepted withdrawal paid: profit first, and the escrow's PASS for exactly
the principal. -/
structure Paid (c : Config) (amount : Nat) (s s' : State) : Prop where
  covered : principalPart amount s ≤ s.principalBasis
  principal : s'.principalBasis = s.principalBasis - principalPart amount s
  tracked : s'.trackedUsdcBalance = s.trackedUsdcBalance - amount
  locked : s'.locker.lockedBalance = s.locker.lockedBalance - principalPart amount s * 10 ^ 12
  usdc : s'.tokens.balanceOf c.afUsdc c.owner = s.tokens.balanceOf c.afUsdc c.owner + amount
  pass : s'.tokens.balanceOf c.pass c.owner =
    s.tokens.balanceOf c.pass c.owner + principalPart amount s * 10 ^ 12

/-- Two transfers to the owner, of USDC and then of PASS. -/
theorem paid_balances (hid : Identity c) (ha : Accounts c) {k k' k'' : Tokens} {usdc pass : Nat}
    (h : k.Moved k' c.afUsdc c.self c.owner usdc)
    (h' : k'.Moved k'' c.locker.pass c.locker.self c.locker.owner pass) :
    k''.balanceOf c.afUsdc c.owner = k.balanceOf c.afUsdc c.owner + usdc ∧
      k''.balanceOf c.pass c.owner = k.balanceOf c.pass c.owner + pass := by
  rw [hid.lockerPass, ha.beneficiary] at h'
  constructor
  · rw [h'.balance_token hid.passUsdc.symm, h.balance_dst]
  · rw [h'.balance_dst, h.balance_token hid.passUsdc]

theorem Withdrawn.paid (hid : Identity c) (ha : Accounts c) (h : Withdrawn c m amount s s') :
    Paid c amount s s' := by
  obtain ⟨k, hk, hk'⟩ := h.moved
  obtain ⟨husdc, hpass⟩ := paid_balances hid ha hk hk'
  exact ⟨h.covered, h.principal, h.tracked, h.locked, husdc, hpass⟩

section Run

variable {x : View} {self lockerSelf owner strategyCreator : Address}
  {strategyId strategyRef : Bytes32} {pass afUsdc afEth afBtc : Address} {tokens : Tokens}
  {balance : Nat}

theorem constructor_accounts (hreceives : c.owner ∉ own c) (hlocker : c.locker.self ≠ 0)
    (h : constructor x self lockerSelf owner strategyCreator strategyId strategyRef pass afUsdc
      afEth afBtc tokens balance = .ok (c, s)) :
    Accounts c ∧ s.locker.lockedBalance = 0 := by
  simp only [constructor, PassLocker.constructor, bind_eq_ok, require_eq_ok, nested_eq_ok,
    pure_eq_ok, Prod.mk.injEq] at h
  obtain ⟨_, _, _, _, _, _, _, _, _, _, _, _, ⟨l, ls⟩, ⟨_, ⟨hself, howner, _⟩, rfl, rfl⟩, rfl, rfl⟩ :=
    h
  refine ⟨⟨hself, howner, hreceives, ⟨rfl, hlocker, howner, fun e => hreceives ?_⟩, rfl⟩, rfl⟩
  have hsame : lockerSelf = owner := e
  simp [own, hsame]

/-- Where a derived vault does its part, every reachable state has this: the owner's
`withdraw` goes through exactly for the positive amounts up to `withdrawableUsdc()`, it
pays profit first and unlocks `10 ^ 12` PASS for each unit of principal, which the basis
covers; and a vault that is active and has no position open is closed on the owner's
call, for all it tracks and all that is locked. -/
theorem exact_withdrawability
    (hnew : constructor x self lockerSelf owner strategyCreator strategyId strategyRef pass afUsdc
      afEth afBtc tokens balance = .ok (c, s))
    (hquiet : s.tokens.Quiet (own c)) (hreceives : c.owner ∉ own c) (hlocker : c.locker.self ≠ 0)
    (as : List Action)
    (hcovered : ∀ t ∈ history (step c) s as, ∀ d, t.action = .derived d →
      Covered c t.pre.tokens t.post)
    (m : Msg) (hm : m.sender = c.owner) (hvalue : m.value = 0) :
    (∀ amount, (∃ s', step c (.withdraw m amount) (exec (step c) s as) = .ok s') ↔
      0 < amount ∧ amount ≤ withdrawableUsdc (exec (step c) s as)) ∧
    (∀ amount s', step c (.withdraw m amount) (exec (step c) s as) = .ok s' →
      Paid c amount (exec (step c) s as) s') ∧
    ((exec (step c) s as).closed = false → (exec (step c) s as).openTrackedPositionCount = 0 →
      ∃ s', step c (.close m) (exec (step c) s as) = .ok s' ∧ s'.closed = true ∧
        s'.tokens.balanceOf c.afUsdc c.owner =
          (exec (step c) s as).tokens.balanceOf c.afUsdc c.owner +
            (exec (step c) s as).trackedUsdcBalance ∧
        s'.tokens.balanceOf c.pass c.owner =
          (exec (step c) s as).tokens.balanceOf c.pass c.owner +
            (exec (step c) s as).locker.lockedBalance) := by
  obtain ⟨hid, hbacked, _⟩ := constructor_ok hnew
  obtain ⟨ha, hzero⟩ := constructor_accounts hreceives hlocker hnew
  have hs : Sound c (exec (step c) s as) :=
    exec_kept (fun t ht hP => step_sound hid (hcovered t ht) hP (history_step ht))
      ⟨hbacked hquiet, by rw [hzero]; exact Nat.zero_le _⟩
  have hout : m.sender ∉ own c := by rw [hm]; exact hreceives
  refine ⟨fun amount => ?_, fun amount s' h => ?_, fun hactive hcount => ?_⟩
  · simp only [step, callFrom_eq_ok, hout, hvalue, not_false_eq_true, true_and]
    exact withdraw_iff hid ha hs hm
  · simp only [step, callFrom_eq_ok] at h
    exact (withdraw_ok h.2.2).paid hid ha
  · obtain ⟨s', h⟩ := close_of hid ha hs hm hactive hcount
    have hclosing := close_ok h
    obtain ⟨k, hk, hk'⟩ := hclosing.moved
    refine ⟨s', ?_, hclosing.closed, paid_balances hid ha hk hk'⟩
    simp only [step, callFrom_eq_ok, hout, hvalue, not_false_eq_true, true_and]
    exact h

end Run

def exampleView : View :=
  { hasCode := fun _ => false, router := fun _ => ⟨0, 0, 0⟩,
    decimals := fun a => if a = 6 then 6 else 18, strategyId := fun a => if a = 5 then some 1 else none,
    acceptsValue := fun _ => true }

/-- The owner at 3 has cash and PASS and has approved the vault at 1. -/
def exampleTokens : Tokens :=
  { balanceOf := fun token holder => if (token = 5 ∨ token = 6) ∧ holder = 3 then 10 ^ 24 else 0
    allowance := fun token owner spender =>
      if (token = 5 ∨ token = 6) ∧ owner = 3 ∧ spender = 1 then 10 ^ 24 else 0
    totalSupply := fun _ => 10 ^ 25 }

def exampleMsg : Msg := ⟨3, 0, 100, testnetChainId⟩

/-- A deposit of 1000, and a derived vault that has 1100 in cash and 5 of a stock after its
trades. -/
def exampleTrade : Derived :=
  { tokens :=
      { balanceOf := fun token holder =>
          if token = 6 ∧ holder = 1 then 1100
          else if token = 7 ∧ holder = 1 then 5
          else if token = 5 ∧ holder = 2 then 1000 * 10 ^ 12 else 0
        allowance := fun _ _ _ => 0
        totalSupply := fun _ => 10 ^ 25 }
    trackedUsdcBalance := 1100
    positions := [(7, 5)] }

def exampleConfig : Config :=
  { self := 1
    owner := 3
    strategyCreator := 4
    strategyId := 1
    strategyRef := 1
    pass := 5
    afUsdc := 6
    afEth := 7
    afBtc := 8
    locker := ⟨2, 1, 3, 5⟩ }

def exampleNew : State :=
  { tokens := exampleTokens
    locker := ⟨0, []⟩
    balance := 0
    principalBasis := 0
    trackedUsdcBalance := 0
    trackedPosition := fun _ => 0
    openTrackedPositionCount := 0
    closed := false
    log := [] }

def exampleRun : List Action := [.deposit exampleMsg 1000, .derived exampleTrade]

theorem exampleRun_covered {t : Transition State Action}
    (ht : t ∈ history (step exampleConfig) exampleNew exampleRun) (d : Derived)
    (hd : t.action = .derived d) : Covered exampleConfig t.pre.tokens t.post := by
  have hfirst : step exampleConfig (.deposit exampleMsg 1000) exampleNew =
      .ok (exec (step exampleConfig) exampleNew [.deposit exampleMsg 1000]) :=
    step_eq_apply (by decide)
  have hsecond : step exampleConfig (.derived exampleTrade)
      (exec (step exampleConfig) exampleNew [.deposit exampleMsg 1000]) =
        .ok (exec (step exampleConfig) exampleNew exampleRun) := step_eq_apply (by decide)
  simp only [exampleRun, history, hfirst, hsecond, List.mem_cons, List.not_mem_nil, or_false] at ht
  rcases ht with rfl | rfl
  · cases hd
  · exact ⟨by decide, by decide, by decide, by decide, fun _ _ _ _ => rfl⟩

/-- With a position open, the profit can be taken and nothing else. -/
theorem profit_withdrawable :
    constructor exampleView 1 2 3 4 1 1 5 6 7 8 exampleTokens 0 =
        .ok (exampleConfig, exampleNew) ∧
      (exec (step exampleConfig) exampleNew exampleRun).openTrackedPositionCount = 1 ∧
      ∀ amount, (∃ s', step exampleConfig (.withdraw exampleMsg amount)
        (exec (step exampleConfig) exampleNew exampleRun) = .ok s') ↔
          0 < amount ∧ amount ≤ 100 := by
  have h : constructor exampleView 1 2 3 4 1 1 5 6 7 8 exampleTokens 0 =
      .ok (exampleConfig, exampleNew) := rfl
  have hquiet : exampleNew.tokens.Quiet (own exampleConfig) := by
    intro token account hown spender
    simp only [own, List.mem_cons, List.not_mem_nil, or_false] at hown
    rcases hown with rfl | rfl <;> simp [exampleNew, exampleTokens, exampleConfig]
  have hprofit : withdrawableUsdc (exec (step exampleConfig) exampleNew exampleRun) = 100 := by
    decide
  refine ⟨h, rfl, fun amount => ?_⟩
  rw [← hprofit]
  exact (exact_withdrawability h hquiet (by decide) (by decide) exampleRun
    (fun _ => exampleRun_covered) exampleMsg rfl rfl).1 amount

end Vault
end AlphaForge
