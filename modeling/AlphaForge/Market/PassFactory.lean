/-
The factory that creates each PASS pool once, `AlphaForgePassFactory.sol`.
-/
import AlphaForge.Market.PassPool

namespace AlphaForge
namespace PassFactory

open Evm

structure Config where
  self : Address
  owner : Address
  usdc : Address
  /-- The address the factory's `n`-th contract creation gets. -/
  newPool : Nat → Address

/-- A pool as the call that created it left it: its immutables and its reserves.
Its LP shares are in the ledger at its address. -/
structure Market where
  config : PassPool.Config
  reservePass : Nat
  reserveUsdc : Nat
  initialized : Bool

inductive Event where
  | initializerConfigured (pass initializer : Address)
  | poolCreated (pass pool lpRecipient : Address) (shares : Nat)

structure State where
  initializer : Address → Address
  getPool : Address → Address
  created : Nat
  market : Address → Option Market
  log : List Event

section Calls

variable (c : Config)

def configureInitializer (m : Msg) (x : View) (pass launcher : Address) (k : Tokens) (s : State) :
    Result Empty State := do
  require (m.sender = c.owner ∧ s.initializer pass = 0 ∧ s.getPool pass = 0)
    (.reason "OWNER_ONCE")
  require (x.hasCode pass ∧ pass ≠ c.usdc ∧ launcher ≠ 0 ∧ x.decimals pass = 18 ∧
    k.totalSupply pass = 1000000 * 10 ^ 18) (.reason "PASS_IDENTITY")
  return { s with
    initializer := Function.update s.initializer pass launcher
    log := s.log ++ [.initializerConfigured pass launcher] }

/-- `_pull`. -/
def pull (m : Msg) (token pool : Address) (amount : Nat) (k : Tokens) : Result Empty Tokens :=
  k.pullExact token c.self m.sender pool amount (.reason "TRANSFER_MISMATCH")

/-- Create the pool, fund it from the caller and initialize it, all in one call. -/
def createPool (m : Msg) (x : View) (pass lpRecipient : Address) (k : Tokens) (s : State) :
    Result Empty (Tokens × State × Address × Nat) := do
  require (m.chainId = testnetChainId ∧ m.sender = s.initializer pass ∧ s.getPool pass = 0)
    (.reason "INITIALIZER_ONCE")
  require (lpRecipient ≠ 0 ∧ lpRecipient ≠ c.self) (.reason "LP_RECIPIENT")
  let pool := c.newPool s.created
  let inner : Msg := { m with sender := c.self, value := 0 }
  let config ← PassPool.constructor inner x.hasCode pool pass c.usdc lpRecipient
  let k ← pull c m pass pool (500000 * 10 ^ 18) (k.deploy pool)
  let k ← pull c m c.usdc pool (250000 * 10 ^ 6) k
  let (live, shares) ← PassPool.initialise config inner (500000 * 10 ^ 18) (250000 * 10 ^ 6)
    (PassPool.State.fresh k)
  require (shares ≠ 0 ∧ live.tokens.balanceOf pool lpRecipient = shares)
    (.reason "LP_INITIALIZATION")
  let market : Market := ⟨config, live.reservePass, live.reserveUsdc, live.initialized⟩
  let s := { s with
    getPool := Function.update s.getPool pass pool
    created := s.created + 1
    market := Function.update s.market pool (some market)
    log := s.log ++ [.poolCreated pass pool lpRecipient shares] }
  return (live.tokens, s, pool, shares)

end Calls

/-! ## What an accepted call did -/

section Accepted

variable {c : Config} {m : Msg} {x : View} {pass lpRecipient pool : Address} {shares : Nat}
  {k k' : Tokens} {s s' : State}

theorem configureInitializer_ok {launcher : Address}
    (h : configureInitializer c m x pass launcher k s = .ok s') :
    s.initializer pass = 0 ∧ s'.initializer = Function.update s.initializer pass launcher ∧
      s'.getPool = s.getPool := by
  simp only [configureInitializer, bind_eq_ok, require_eq_ok, pure_eq_ok] at h
  obtain ⟨_, ⟨_, hi, _⟩, _, _, rfl⟩ := h
  exact ⟨hi, rfl, rfl⟩

/-- The whole of a pool creation: two pulls from the caller into the empty new
pool, and the first shares minted there. -/
theorem createPool_ok (h : createPool c m x pass lpRecipient k s = .ok (k', s', pool, shares)) :
    m.sender = s.initializer pass ∧ s.getPool pass = 0 ∧ pool = c.newPool s.created ∧
      (∃ k₁ k₂, (k.deploy pool).Moved k₁ pass m.sender pool (500000 * 10 ^ 18) ∧
        k₁.Moved k₂ c.usdc m.sender pool (250000 * 10 ^ 6) ∧
        k₂.mint pool lpRecipient shares = (.ok k' : Result Empty Tokens)) ∧
      shares ≠ 0 ∧
      s'.initializer = s.initializer ∧ s'.getPool = Function.update s.getPool pass pool ∧
      s'.market pool = some ⟨⟨pool, c.self, pass, c.usdc, lpRecipient⟩,
        500000 * 10 ^ 18, 250000 * 10 ^ 6, true⟩ := by
  simp only [createPool, pull, PassPool.constructor, bind_eq_ok, require_eq_ok, pure_eq_ok,
    Prod.mk.injEq] at h
  obtain ⟨_, ⟨_, hinit, hpool⟩, _, _, config, ⟨_, _, _, _, rfl⟩, k₁, hk₁, k₂, hk₂, ⟨live, made⟩,
    hlive, _, ⟨hne, _⟩, rfl, rfl, rfl, rfl⟩ := h
  obtain ⟨_, _, _, _, _, _, _, hmint, hi, hp, hu⟩ := PassPool.initialise_ok hlive
  refine ⟨hinit, hpool, rfl, ⟨k₁, k₂, Tokens.pullExact_ok hk₁, Tokens.pullExact_ok hk₂, hmint⟩,
    hne, rfl, rfl, ?_⟩
  simp [hi, hp, hu]

/-- A pool creation touches no account but its caller, the new pool and, in the
new pool's own ledger, the receiver of the shares. -/
theorem createPool_spares {token account : Address} (hcaller : account ≠ m.sender)
    (htoken : token ≠ c.newPool s.created)
    (h : createPool c m x pass lpRecipient k s = .ok (k', s', pool, shares)) :
    Tokens.Spares token account k k' := by
  obtain ⟨_, _, rfl, ⟨k₁, k₂, hk₁, hk₂, hmint⟩, _⟩ := createPool_ok h
  obtain ⟨_, _, hbal, hallow⟩ := Tokens.mint_ok hmint
  have hdeploy : Tokens.Spares token account k (k.deploy (c.newPool s.created)) :=
    Tokens.Spares.of_other (by simp [Tokens.deploy, htoken]) (by simp [Tokens.deploy, htoken])
  have hlast : Tokens.Spares token account k₂ k' := by
    refine Tokens.Spares.of_other ?_ (by rw [hallow])
    rw [hbal]
    simp [htoken]
  exact ((hdeploy.trans (Tokens.Spares.of_moved hk₁ hcaller)).trans
    (Tokens.Spares.of_moved hk₂ hcaller)).trans hlast

/-- Every share of a new pool belongs to the receiver named in the call. -/
theorem createPool_shares (hpass : c.newPool s.created ≠ pass)
    (husdc : c.newPool s.created ≠ c.usdc)
    (h : createPool c m x pass lpRecipient k s = .ok (k', s', pool, shares)) :
    k'.totalSupply pool = shares ∧
      ∀ a, k'.balanceOf pool a = if a = lpRecipient then shares else 0 := by
  obtain ⟨_, _, rfl, ⟨k₁, k₂, hk₁, hk₂, hmint⟩, _⟩ := createPool_ok h
  obtain ⟨_, hsupply, hbal, _⟩ := Tokens.mint_ok hmint
  have hempty : ∀ a, k₂.balanceOf (c.newPool s.created) a = 0 := by
    intro a
    rw [hk₂.balance_token husdc, hk₁.balance_token hpass]
    simp [Tokens.deploy]
  refine ⟨?_, fun a => ?_⟩
  · rw [hsupply, hk₂.supply, hk₁.supply]
    simp [Tokens.deploy]
  · rw [hbal]
    by_cases ha : a = lpRecipient <;> simp [ha, hempty]

/-- The registered initializer, funded and having approved the factory, creates
its pool. -/
theorem createPool_succeeds (hchain : m.chainId = testnetChainId)
    (hsender : m.sender = s.initializer pass) (hpool : s.getPool pass = 0)
    (hlp : lpRecipient ≠ 0 ∧ lpRecipient ≠ c.self)
    (htokens : pass ≠ c.usdc ∧ x.hasCode pass = true ∧ x.hasCode c.usdc = true)
    (hself : c.self ≠ 0) (hsender0 : m.sender ≠ 0)
    (hnew : c.newPool s.created ≠ 0 ∧ c.newPool s.created ≠ m.sender ∧
      c.newPool s.created ≠ pass ∧ c.newPool s.created ≠ c.usdc)
    (hpass : 500000 * 10 ^ 18 ≤ k.allowance pass m.sender c.self ∧
      500000 * 10 ^ 18 ≤ k.balanceOf pass m.sender)
    (husdc : 250000 * 10 ^ 6 ≤ k.allowance c.usdc m.sender c.self ∧
      250000 * 10 ^ 6 ≤ k.balanceOf c.usdc m.sender) :
    ∃ r, createPool c m x pass lpRecipient k s = .ok r := by
  obtain ⟨hnew0, hnewSender, hnewPass, hnewUsdc⟩ := hnew
  obtain ⟨k₁, hk₁⟩ : ∃ k₁, pull c m pass (c.newPool s.created) (500000 * 10 ^ 18)
      (k.deploy (c.newPool s.created)) = .ok k₁ :=
    Tokens.pullExact_of _ hself hsender0 hnew0 hnewSender.symm
      (by simpa [Tokens.deploy, hnewPass.symm] using hpass.1)
      (by simpa [Tokens.deploy, hnewPass.symm] using hpass.2)
  have hm₁ := Tokens.pullExact_ok hk₁
  obtain ⟨k₂, hk₂⟩ : ∃ k₂, pull c m c.usdc (c.newPool s.created) (250000 * 10 ^ 6) k₁ = .ok k₂ := by
    refine Tokens.pullExact_of _ hself hsender0 hnew0 hnewSender.symm ?_ ?_
    · rw [hm₁.allowance_other _ _ _ (Or.inl htokens.1.symm)]
      simpa [Tokens.deploy, hnewUsdc.symm] using husdc.1
    · rw [hm₁.balance_token htokens.1.symm]
      simpa [Tokens.deploy, hnewUsdc.symm] using husdc.2
  have hm₂ := Tokens.pullExact_ok hk₂
  let config : PassPool.Config := ⟨c.newPool s.created, c.self, pass, c.usdc, lpRecipient⟩
  have hpassFunded : 500000 * 10 ^ 18 ≤ k₂.balanceOf pass (c.newPool s.created) := by
    rw [hm₂.balance_token htokens.1, hm₁.balance_dst]
    exact Nat.le_add_left _ _
  have husdcFunded : 250000 * 10 ^ 6 ≤ k₂.balanceOf c.usdc (c.newPool s.created) := by
    rw [hm₂.balance_dst]
    exact Nat.le_add_left _ _
  have hempty : k₂.totalSupply (c.newPool s.created) = 0 := by
    rw [hm₂.supply, hm₁.supply]
    simp [Tokens.deploy]
  obtain ⟨live, hlive⟩ := PassPool.initialise_succeeds (c := config)
    (m := { m with sender := c.self, value := 0 }) (s := PassPool.State.fresh k₂)
    rfl rfl hpassFunded husdcFunded hlp.1 hempty
  have hshares : Nat.sqrt (500000 * 10 ^ 18 * (250000 * 10 ^ 6)) ≠ 0 :=
    Nat.ne_of_gt (Nat.sqrt_pos.mpr (by decide))
  have hheld : live.tokens.balanceOf (c.newPool s.created) lpRecipient =
      Nat.sqrt (500000 * 10 ^ 18 * (250000 * 10 ^ 6)) := by
    obtain ⟨_, _, _, _, _, _, _, hmint, _⟩ := PassPool.initialise_ok hlive
    have hzero : k₂.balanceOf (c.newPool s.created) lpRecipient = 0 := by
      rw [hm₂.balance_token hnewUsdc, hm₁.balance_token hnewPass]
      simp [Tokens.deploy]
    rw [(Tokens.mint_ok hmint).2.2.1]
    simp [config, PassPool.State.fresh, hzero]
  have hconfig : PassPool.constructor { m with sender := c.self, value := 0 } x.hasCode
      (c.newPool s.created) pass c.usdc lpRecipient = .ok config := by
    have hidentity : pass ≠ c.usdc ∧ x.hasCode pass = true ∧ x.hasCode c.usdc = true ∧
        lpRecipient ≠ 0 := ⟨htokens.1, htokens.2.1, htokens.2.2, hlp.1⟩
    simp only [PassPool.constructor, require_of hchain, require_of hidentity, ok_bind]
    rfl
  have honce : m.chainId = testnetChainId ∧ m.sender = s.initializer pass ∧ s.getPool pass = 0 :=
    ⟨hchain, hsender, hpool⟩
  simp only [createPool, require_of honce, require_of hlp, hconfig,
    hk₁, hk₂, hlive, require_of (And.intro hshares hheld), ok_bind]
  exact ⟨_, rfl⟩

end Accepted

end PassFactory
end AlphaForge
