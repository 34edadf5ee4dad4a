/-
Replay protection and daily budgets of the native reserve, over whole runs.

A quote's `(accountId, nonce)` is marked used by every route that consumes it and
is never unmarked, whatever happens to the signer or the limits.  The two daily
counters move only in `convertSell`, together and by the native currency that
call pays out.
-/
import Mathlib.Algebra.BigOperators.Finprod
import AlphaForge.Market.NativeReserve

namespace AlphaForge
namespace NativeReserve

open Evm Machine MarketTypes

variable {c : Config} {g : Signatures} {s s' : State}

/-- The account and the day a `convertSell` is booked under. -/
def Action.sale : Action → Option (Bytes32 × Nat)
  | .convertSell m _ quote _ _ => some (quote.accountId, day m)
  | _ => none

/-- Native currency that left the reserve in one accepted action. -/
def nativePaid (t : Transition State Action) : Nat := t.pre.balance - t.post.balance

/-- What `convertSell` paid out to account `a` on day `d`. -/
def paidTo (a : Bytes32) (d : Nat) (t : Transition State Action) : Nat :=
  if t.action.sale = some (a, d) then nativePaid t else 0

/-- What `convertSell` paid out on day `d`. -/
def paidOut (d : Nat) (t : Transition State Action) : Nat :=
  match t.action.sale with
  | some (_, d') => if d' = d then nativePaid t else 0
  | none => 0

/-- The effect of an accepted action on what the budgets and the replay guard
read. -/
structure Effect (a : Action) (s s' : State) : Prop where
  used : ∀ acct n, s'.usedNonce acct n = true ↔
    s.usedNonce acct n = true ∨ a.quoteKey = some (acct, n)
  unused : ∀ acct n, a.quoteKey = some (acct, n) → s.usedNonce acct n = false
  kept : a.sale = none →
    s'.accountDaySpent = s.accountDaySpent ∧ s'.globalDaySpent = s.globalDaySpent

/-- An action that consumes no quote leaves the guard and the budgets alone. -/
theorem Effect.frame {a : Action} (hk : a.quoteKey = none) (hu : s'.usedNonce = s.usedNonce)
    (ha : s'.accountDaySpent = s.accountDaySpent) (hg : s'.globalDaySpent = s.globalDaySpent) :
    Effect a s s' := by
  refine ⟨fun acct n => ?_, fun acct n h => ?_, fun _ => ⟨ha, hg⟩⟩
  · rw [hu, hk]
    simp
  · rw [hk] at h
    cases h

theorem consume_effect {m : Msg} {x : View} {quote : NativeQuote} {signature : List UInt8}
    {a : Action} {t : State} (hk : a.quoteKey = some (quote.accountId, quote.nonce))
    (h : consume g m x quote signature s = .ok t) (hu : s'.usedNonce = t.usedNonce)
    (hkept : a.sale = none →
      s'.accountDaySpent = s.accountDaySpent ∧ s'.globalDaySpent = s.globalDaySpent) :
    Effect a s s' := by
  obtain ⟨hn, _, rfl⟩ := consume_ok h
  refine ⟨fun acct n => ?_, fun acct n hkey => ?_, hkept⟩
  · rw [hu, hk]
    simp only [Option.some.injEq, Prod.mk.injEq]
    by_cases hsame : acct = quote.accountId ∧ n = quote.nonce
    · simp [hsame]
    · have hne : ¬(quote.accountId = acct ∧ quote.nonce = n) :=
        fun e => hsame ⟨e.1.symm, e.2.symm⟩
      simp [hsame, hne]
  · rw [hk] at hkey
    simp only [Option.some.injEq, Prod.mk.injEq] at hkey
    rw [← hkey.1, ← hkey.2]
    exact hn

theorem step_effect {a : Action} (h : step c g a s = .ok s') : Effect a s s' := by
  cases step_accepted h with
  | plain hkey hused haccount hglobal _ => exact Effect.frame hkey hused haccount hglobal
  | minted ht =>
      refine consume_effect rfl ht rfl (fun _ => ?_)
      obtain ⟨_, _, rfl⟩ := consume_ok ht
      exact ⟨rfl, rfl⟩
  | @bought m x quote signature output t k e ht _ =>
      have hkept : t.accountDaySpent = s.accountDaySpent ∧
          t.globalDaySpent = s.globalDaySpent := by
        obtain ⟨_, _, rfl⟩ := consume_ok ht
        exact ⟨rfl, rfl⟩
      have heff : Effect (.convertBuy m x quote signature)
          { s with balance := s.balance + m.value }
          { t with tokens := k, log := t.log ++ [e] } :=
        consume_effect rfl ht rfl (fun _ => hkept)
      exact ⟨heff.used, heff.unused, heff.kept⟩
  | sold ht hu _ _ =>
      obtain ⟨_, _, _, _, rfl⟩ := spendBudget_ok hu
      exact consume_effect rfl ht rfl (fun hnone => by cases hnone)

/-- A sale pays `nativePaid` out of the balance, within the three limits, books
that amount under its account and its day, and leaves the floor untouched. -/
theorem sale_ok {m : Msg} {x : View} {quote : NativeQuote} {signature : List UInt8}
    {actualUsdc paid : Nat}
    (h : step c g (.convertSell m x quote signature actualUsdc) s = .ok s')
    (hpaid : paid = s.balance - s'.balance) :
    paid ≤ s.limits.perTransaction ∧
      s.accountDaySpent quote.accountId (day m) + paid ≤ s.limits.perAccountDaily ∧
      s.globalDaySpent (day m) + paid ≤ s.limits.globalDaily ∧
      s.limits.minNativeReserve ≤ s'.balance ∧ s'.limits = s.limits ∧
      (∀ a d, s'.accountDaySpent a d =
        s.accountDaySpent a d + if a = quote.accountId ∧ d = day m then paid else 0) ∧
      (∀ d, s'.globalDaySpent d = s.globalDaySpent d + if d = day m then paid else 0) := by
  simp only [step, callFrom_eq_ok, map_eq_ok] at h
  obtain ⟨_, _, ⟨r, output⟩, hs, rfl⟩ := h
  obtain ⟨t, u, ht, hu, hle, k, e, _, rfl⟩ := convertSell_ok hs
  obtain ⟨_, _, rfl⟩ := consume_ok ht
  obtain ⟨htx, hacct, hglob, hfloor, rfl⟩ := spendBudget_ok hu
  have hout : paid = output := by
    simp only at hpaid hle hfloor
    omega
  subst hout
  refine ⟨htx, hacct, hglob, ?_, rfl, fun a d => ?_, fun d => ?_⟩
  · simp only at hfloor ⊢
    omega
  · by_cases hsame : a = quote.accountId ∧ d = day m
    · obtain ⟨rfl, rfl⟩ := hsame
      simp
    · simp [hsame]
  · by_cases hsame : d = day m
    · subst hsame
      simp
    · simp [hsame]

/-- `withdrawNative` leaves the floor, too. -/
theorem withdrawNative_floor {m : Msg} {x : View} {recipient : Address} {amount : Nat}
    (h : step c g (.withdrawNative m x recipient amount) s = .ok s') :
    s'.limits.minNativeReserve ≤ s'.balance := by
  simp only [step, callFrom_eq_ok, withdrawNative, bind_eq_ok, require_eq_ok, checkedAdd_eq_ok,
    pure_eq_ok] at h
  obtain ⟨_, _, _, _, _, _, _, ⟨_, rfl⟩, _, hb, t, ht, rfl⟩ := h
  obtain ⟨_, rfl⟩ := sendValue_ok ht
  simp only [State.emit]
  omega

theorem accountDaySpent_step {a : Action} (acct : Bytes32) (d : Nat)
    (h : step c g a s = .ok s') :
    s'.accountDaySpent acct d = s.accountDaySpent acct d + paidTo acct d ⟨s, a, s'⟩ := by
  cases hsale : a.sale with
  | none =>
      rw [((step_effect h).kept hsale).1]
      simp [paidTo, hsale]
  | some key =>
      cases a with
      | convertSell m x quote signature actualUsdc =>
          rw [(sale_ok h rfl).2.2.2.2.2.1 acct d]
          simp only [paidTo, nativePaid, Action.sale, Option.some.injEq, Prod.mk.injEq, eq_comm]
      | _ => cases hsale

theorem globalDaySpent_step {a : Action} (d : Nat) (h : step c g a s = .ok s') :
    s'.globalDaySpent d = s.globalDaySpent d + paidOut d ⟨s, a, s'⟩ := by
  cases hsale : a.sale with
  | none =>
      rw [((step_effect h).kept hsale).2]
      simp [paidOut, hsale]
  | some key =>
      cases a with
      | convertSell m x quote signature actualUsdc =>
          rw [(sale_ok h rfl).2.2.2.2.2.2 d]
          simp only [paidOut, nativePaid, Action.sale, eq_comm]
      | _ => cases hsale

/-- The day's total is the sum of the accounts' shares of it, of which only
finitely many are nonzero. -/
def Balanced (s : State) : Prop :=
  ∀ d, (Function.support fun a => s.accountDaySpent a d).Finite ∧
    s.globalDaySpent d = finsum fun a => s.accountDaySpent a d

theorem finsum_add_at {ι : Type} [DecidableEq ι] {f : ι → Nat}
    (hf : (Function.support f).Finite) (k : ι) (v : Nat) :
    (Function.support fun a => f a + if a = k then v else 0).Finite ∧
      (finsum fun a => f a + if a = k then v else 0) = finsum f + v := by
  have hone : (Function.support fun a => if a = k then v else 0).Finite := by
    refine (Set.finite_singleton k).subset (fun a ha => ?_)
    by_contra hne
    exact ha (if_neg hne)
  refine ⟨(hf.union hone).subset (Function.support_add f _), ?_⟩
  rw [finsum_add_distrib hf hone, finsum_eq_single _ k (fun a ha => if_neg ha), if_pos rfl]

theorem step_balanced {a : Action} (hs : Balanced s) (h : step c g a s = .ok s') :
    Balanced s' := by
  intro d
  obtain ⟨hfin, hsum⟩ := hs d
  cases hsale : a.sale with
  | none =>
      obtain ⟨ha, hg⟩ := (step_effect h).kept hsale
      rw [ha, hg]
      exact ⟨hfin, hsum⟩
  | some key =>
      cases a with
      | convertSell m x quote signature actualUsdc =>
          obtain ⟨_, _, _, _, _, hacct, hglob⟩ := sale_ok h rfl
          simp only [hacct, hglob]
          by_cases hd : d = day m
          · subst hd
            simp only [and_true, if_true]
            obtain ⟨hfin', hsum'⟩ := finsum_add_at hfin quote.accountId (s.balance - s'.balance)
            exact ⟨hfin', by rw [hsum', hsum]⟩
          · simpa [hd] using And.intro hfin hsum
      | _ => cases hsale

theorem constructor_ok {m : Msg} {x : View} {self owner usdc quoteSigner : Address}
    {feeBps : Nat} {limits : RiskLimits} {tokens : Tokens} {balance : Nat}
    (h : constructor m x self owner usdc quoteSigner feeBps limits tokens balance =
      .ok (c, s)) :
    c.usdc = usdc ∧ s.tokens = tokens ∧ s.usedNonce = (fun _ _ => false) ∧
      s.accountDaySpent = (fun _ _ => 0) ∧ s.globalDaySpent = (fun _ => 0) := by
  simp only [constructor, applyLimits, bind_eq_ok, pure_eq_ok, Prod.mk.injEq] at h
  obtain ⟨_, _, _, _, t, ⟨_, _, rfl⟩, rfl, rfl⟩ := h
  exact ⟨rfl, rfl, rfl, rfl, rfl⟩

/-- Over every run from deployment, whatever the order of quotes, sales, owner
calls and funding:
no quote key is accepted twice on any route;
each day's global counter is the sum of the accounts' counters and exactly what
`convertSell` paid out that day, and an account's counter is what it was paid;
each sale stays within the limits in force when it runs;
and a sale or a native withdrawal leaves at least the minimum reserve. -/
theorem reserve_replay_and_budgets {m : Msg} {x : View} {self owner usdc quoteSigner : Address}
    {feeBps : Nat} {limits : RiskLimits} {tokens : Tokens} {balance : Nat}
    (h : constructor m x self owner usdc quoteSigner feeBps limits tokens balance =
      .ok (c, s)) (g : Signatures) (as : List Action) :
    ((history (step c g) s as).filterMap fun t => t.action.quoteKey).Nodup ∧
    (∀ d, (Function.support fun a => (exec (step c g) s as).accountDaySpent a d).Finite ∧
      (exec (step c g) s as).globalDaySpent d =
        (finsum fun a => (exec (step c g) s as).accountDaySpent a d) ∧
      (exec (step c g) s as).globalDaySpent d =
        ((history (step c g) s as).map (paidOut d)).sum ∧
      ∀ a, (exec (step c g) s as).accountDaySpent a d =
        ((history (step c g) s as).map (paidTo a d)).sum) ∧
    (∀ t ∈ history (step c g) s as, ∀ a d, t.action.sale = some (a, d) →
      nativePaid t ≤ t.pre.limits.perTransaction ∧
      t.post.accountDaySpent a d ≤ t.pre.limits.perAccountDaily ∧
      t.post.globalDaySpent d ≤ t.pre.limits.globalDaily ∧
      t.post.limits = t.pre.limits ∧ t.post.limits.minNativeReserve ≤ t.post.balance) ∧
    (∀ t ∈ history (step c g) s as, ∀ m x recipient amount,
      t.action = .withdrawNative m x recipient amount →
      t.post.limits.minNativeReserve ≤ t.post.balance) := by
  obtain ⟨_, _, hnonce, hacct, hglob⟩ := constructor_ok h
  refine ⟨?_, fun d => ?_, ?_, ?_⟩
  · refine (history_keys_nodup Action.quoteKey
      (fun s k => s.usedNonce k.1 k.2 = true) ?_ ?_ s as).1
    · intro a t t' k hstep hu
      exact ((step_effect hstep).used k.1 k.2).mpr (Or.inl hu)
    · intro a t t' k hstep hk
      exact ⟨by rw [(step_effect hstep).unused k.1 k.2 hk]; exact Bool.false_ne_true,
        ((step_effect hstep).used k.1 k.2).mpr (Or.inr hk)⟩
  · have hbal : Balanced (exec (step c g) s as) := by
      refine exec_invariant (fun a t t' ht hstep => step_balanced ht hstep) ?_ as
      intro d
      rw [hacct, hglob]
      simp
    refine ⟨(hbal d).1, (hbal d).2, ?_, fun a => ?_⟩
    · have hsum := exec_sum (P := fun _ => True) (m := fun t : State => t.globalDaySpent d)
        (f := paidOut d) (s := s)
        (fun t (ht : t ∈ history (step c g) s as) _ =>
          ⟨trivial, globalDaySpent_step d (history_step ht)⟩) trivial
      rw [hsum.2, hglob]
      simp
    · have hsum := exec_sum (P := fun _ => True) (m := fun t : State => t.accountDaySpent a d)
        (f := paidTo a d) (s := s)
        (fun t (ht : t ∈ history (step c g) s as) _ =>
          ⟨trivial, accountDaySpent_step a d (history_step ht)⟩) trivial
      rw [hsum.2, hacct]
      simp
  · rintro ⟨pre, action, post⟩ ht a d hsale
    have hstep : step c g action pre = .ok post := history_step ht
    cases action with
    | convertSell m x quote signature actualUsdc =>
        simp only [Action.sale, Option.some.injEq, Prod.mk.injEq] at hsale
        obtain ⟨rfl, rfl⟩ := hsale
        obtain ⟨htx, ha, hg, hfloor, hlim, hacct', hglob'⟩ := sale_ok hstep rfl
        have hacct'' := hacct' quote.accountId (day m)
        have hglob'' := hglob' (day m)
        simp only [and_self, if_true] at hacct'' hglob''
        exact ⟨htx, by rw [hacct'']; exact ha, by rw [hglob'']; exact hg, hlim,
          by rw [hlim]; exact hfloor⟩
    | _ => cases hsale
  · rintro ⟨pre, action, post⟩ ht m x recipient amount rfl
    exact withdrawNative_floor (history_step ht)

def exampleView : View :=
  { hasCode := fun a => a = 3 ∨ a = 5, router := fun _ => ⟨1, 3, 6⟩, decimals := fun _ => 6,
    strategyId := fun _ => none, acceptsValue := fun a => a = 2 }

def exampleTokens : Tokens :=
  { balanceOf := fun _ _ => 0, allowance := fun _ _ _ => 0, totalSupply := fun _ => 0 }

/-- The owner authorizes a router, funds the reserve, pauses it and takes native
currency out again. -/
def exampleRun : List Action :=
  [.authorizeRouter ⟨2, 0, 100, testnetChainId⟩ exampleView 5,
    .fundNative ⟨2, 10, 101, testnetChainId⟩,
    .setPaused ⟨2, 0, 102, testnetChainId⟩ false true,
    .withdrawNative ⟨2, 0, 103, testnetChainId⟩ exampleView 2 7]

theorem reserve_budgets_after_withdrawal :
    ∃ c s, constructor ⟨2, 0, 99, testnetChainId⟩ exampleView 1 2 3 4 30 ⟨1, 2, 3, 3⟩
        exampleTokens 0 = .ok (c, s) ∧
      (history (step c ⟨fun _ => 0, fun _ _ _ _ => 0⟩) s exampleRun).length = 4 ∧
      (exec (step c ⟨fun _ => 0, fun _ _ _ _ => 0⟩) s exampleRun).globalDaySpent 0 =
        ((history (step c ⟨fun _ => 0, fun _ _ _ _ => 0⟩) s exampleRun).map (paidOut 0)).sum := by
  have h : constructor ⟨2, 0, 99, testnetChainId⟩ exampleView 1 2 3 4 30 ⟨1, 2, 3, 3⟩
      exampleTokens 0 = .ok (_, _) := rfl
  exact ⟨_, _, h, by decide, ((reserve_replay_and_budgets h _ exampleRun).2.1 0).2.2.1⟩

end NativeReserve
end AlphaForge
