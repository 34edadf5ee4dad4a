/-
Capital between the idle bucket and the runtime.

Units are minted rounded down and burned rounded up against the same equity, so at
fixed prices neither direction takes worth from the units that stay.  Both divide by
the equity.  With units outstanding it is zero when no cash is at work and every
position is worth less than one raw unit, and from there nothing can be allocated.
-/
import AlphaForge.Amm.Share
import AlphaForge.Vault.TradingVault.Fill

namespace AlphaForge
namespace TradingVault

open Evm Machine

variable {c : Config} {m : Msg} {feeds feeds' : Feeds} {i : Fin 3} {s s' s₁ s₂ : State}
  {amount units : Nat}

/-! ## Equity -/

theorem positionValue_ok {value : Nat} (h : positionValue c m feeds i s = .ok value) :
    value = worth c feeds s i := by
  unfold positionValue at h
  dsimp only at h
  split at h
  · next hnone =>
    rw [worth, hnone, Nat.zero_mul, Nat.zero_div]
    exact (Except.ok.inj h).symm
  · simp only [price, bind_eq_ok, require_eq_ok, pure_eq_ok, mulDiv_eq_ok] at h
    obtain ⟨_, ⟨_, _, rfl⟩, _, _, rfl⟩ := h
    rfl

theorem runtimeEquity_ok {equity : Nat} (h : runtimeEquity c m feeds s = .ok equity) :
    equity = equityAt c feeds s ∧ equity ≤ maxUint256 := by
  simp only [runtimeEquity, bind_eq_ok, checkedAdd_eq_ok] at h
  obtain ⟨_, hzero, _, ⟨_, rfl⟩, _, hone, _, ⟨_, rfl⟩, _, htwo, hfits, rfl⟩ := h
  rw [positionValue_ok hzero, positionValue_ok hone, positionValue_ok htwo] at hfits ⊢
  exact ⟨rfl, hfits⟩

theorem runtimeEquity_eq_ok (hpriced : Priced c m feeds s) {equity : Nat} :
    runtimeEquity c m feeds s = .ok equity ↔
      equityAt c feeds s ≤ maxUint256 ∧ equity = equityAt c feeds s := by
  constructor
  · intro h
    obtain ⟨rfl, hfits⟩ := runtimeEquity_ok h
    exact ⟨hfits, rfl⟩
  · rintro ⟨hfits, rfl⟩
    exact runtimeEquity_of hpriced hfits

/-- The same prices, whenever they were seen. -/
def SamePrices (c : Config) (feeds feeds' : Feeds) : Prop :=
  ∀ i, (feeds' (c.feeds i)).price = (feeds (c.feeds i)).price

theorem SamePrices.equityAt (h : SamePrices c feeds feeds') (s : State) :
    equityAt c feeds' s = equityAt c feeds s := by
  simp only [TradingVault.equityAt, worth, h 0, h 1, h 2]

/-! ## The two moves -/

/-- An accepted `allocate`. -/
structure Allocated (c : Config) (m : Msg) (feeds : Feeds) (amount units : Nat) (s s' : State) :
    Prop where
  equity : runtimeEquity c m feeds s = .ok (equityAt c feeds s)
  positive : amount ≠ 0
  available : amount ≤ s.idleCash
  minted : s.runtimeUnits ≠ 0 → units * equityAt c feeds s ≤ amount * s.runtimeUnits
  idle : s'.idleCash = s.idleCash - amount
  cash : s'.runtimeCash = s.runtimeCash + amount
  supply : s'.runtimeUnits = s.runtimeUnits + units
  positions : s'.trackedPosition = s.trackedPosition

theorem allocate_ok (h : allocate c m feeds amount s = .ok s') :
    ∃ units, Allocated c m feeds amount units s s' := by
  simp only [allocate, onlyOwner, active, bind_eq_ok, require_eq_ok, checkedAdd_eq_ok,
    checkedSub_eq_ok, pure_eq_ok] at h
  obtain ⟨_, _, _, _, _, ⟨hpositive, havailable, _⟩, equity, hequity, units, hunits, _, _, _,
    ⟨_, rfl⟩, _, ⟨_, rfl⟩, _, ⟨_, rfl⟩, _, ⟨_, rfl⟩, rfl⟩ := h
  obtain ⟨rfl, _⟩ := runtimeEquity_ok hequity
  refine ⟨units, hequity, hpositive, havailable, fun hsome => ?_, rfl, rfl, rfl, rfl⟩
  rw [if_neg hsome, mulDiv_eq_ok] at hunits
  obtain ⟨_, _, rfl⟩ := hunits
  exact Nat.div_mul_le_self _ _

/-- An accepted `deallocate`. -/
structure Deallocated (c : Config) (m : Msg) (feeds : Feeds) (amount units : Nat) (s s' : State) :
    Prop where
  equity : runtimeEquity c m feeds s = .ok (equityAt c feeds s)
  positive : amount ≠ 0
  available : amount ≤ s.runtimeCash
  burned : amount * s.runtimeUnits ≤ units * equityAt c feeds s
  least : units * equityAt c feeds s < amount * s.runtimeUnits + equityAt c feeds s
  covered : units ≤ s.runtimeUnits
  idle : s'.idleCash = s.idleCash + amount
  cash : s'.runtimeCash = s.runtimeCash - amount
  supply : s'.runtimeUnits = s.runtimeUnits - units
  positions : s'.trackedPosition = s.trackedPosition

theorem deallocate_ok (h : deallocate c m feeds amount s = .ok s') :
    ∃ units, Deallocated c m feeds amount units s s' := by
  simp only [deallocate, onlyOwner, active, bind_eq_ok, require_eq_ok, checkedAdd_eq_ok,
    checkedSub_eq_ok, pure_eq_ok] at h
  obtain ⟨_, _, _, _, _, ⟨hpositive, havailable⟩, equity, hequity, units, hunits, _, _, _,
    ⟨_, rfl⟩, _, ⟨_, rfl⟩, _, ⟨hle, rfl⟩, _, ⟨_, rfl⟩, rfl⟩ := h
  obtain ⟨rfl, _⟩ := runtimeEquity_ok hequity
  obtain ⟨_, _, hburned, hleast⟩ := mulDivCeil_eq_ok hunits
  exact ⟨units, hequity, hpositive, havailable, hburned, hleast, hle, rfl, rfl, rfl, rfl⟩

theorem Allocated.equityAt_eq (h : Allocated c m feeds amount units s s') :
    equityAt c feeds s' = equityAt c feeds s + amount := by
  simp only [equityAt, worth, h.cash, h.positions]
  omega

theorem Deallocated.equityAt_eq (h : Deallocated c m feeds amount units s s') :
    equityAt c feeds s' + amount = equityAt c feeds s := by
  have havailable := h.available
  simp only [equityAt, worth, h.cash, h.positions]
  omega

/-! ## No dilution -/

/-- A unit of `s'` is worth at least a unit of `s`. -/
def Undiluted (c : Config) (feeds : Feeds) (s s' : State) : Prop :=
  equityAt c feeds s * s'.runtimeUnits ≤ equityAt c feeds s' * s.runtimeUnits

theorem Undiluted.trans (hpos : 0 < s₁.runtimeUnits) (h₁ : Undiluted c feeds s s₁)
    (h₂ : Undiluted c feeds s₁ s₂) : Undiluted c feeds s s₂ := by
  unfold Undiluted at *
  refine Nat.le_of_mul_le_mul_right ?_ hpos
  calc equityAt c feeds s * s₂.runtimeUnits * s₁.runtimeUnits
      = equityAt c feeds s * s₁.runtimeUnits * s₂.runtimeUnits := by ring
    _ ≤ equityAt c feeds s₁ * s.runtimeUnits * s₂.runtimeUnits := Nat.mul_le_mul_right _ h₁
    _ = equityAt c feeds s₁ * s₂.runtimeUnits * s.runtimeUnits := by ring
    _ ≤ equityAt c feeds s₂ * s₁.runtimeUnits * s.runtimeUnits := Nat.mul_le_mul_right _ h₂
    _ = equityAt c feeds s₂ * s.runtimeUnits * s₁.runtimeUnits := by ring

theorem Allocated.undiluted (h : Allocated c m feeds amount units s s')
    (hunits : 0 < s.runtimeUnits) : Undiluted c feeds s s' := by
  unfold Undiluted
  rw [h.equityAt_eq, h.supply]
  exact Amm.deposit_scale (h.minted (Nat.pos_iff_ne_zero.mp hunits))

theorem Deallocated.undiluted (h : Deallocated c m feeds amount units s s') :
    Undiluted c feeds s s' := by
  have hequity := h.equityAt_eq
  have hleft : equityAt c feeds s' = equityAt c feeds s - amount := by omega
  unfold Undiluted
  rw [hleft, h.supply]
  exact Amm.withdraw_scale h.covered (by omega) h.burned

/-- Deallocations in a row. -/
def deallocations (c : Config) (ds : List (Msg × Feeds × Nat)) (s : State) : Result Error State :=
  ds.foldlM (fun t d => deallocate c d.1 d.2.1 d.2.2 t) s

theorem deallocations_ok {ds : List (Msg × Feeds × Nat)}
    (hprices : ∀ d ∈ ds, SamePrices c feeds d.2.1) (h : deallocations c ds s = .ok s')
    (hleft : 0 < s'.runtimeUnits) :
    s'.runtimeUnits ≤ s.runtimeUnits ∧ Undiluted c feeds s s' ∧
      s'.idleCash + equityAt c feeds s' = s.idleCash + equityAt c feeds s := by
  induction ds generalizing s with
  | nil =>
      rw [deallocations, List.foldlM_nil, pure_eq_ok] at h
      subst h
      exact ⟨Nat.le_refl _, Nat.le_refl _, rfl⟩
  | cons d rest ih =>
      rw [deallocations, List.foldlM_cons, bind_eq_ok] at h
      obtain ⟨t, ht, hrest⟩ := h
      obtain ⟨hle, hundiluted, hkept⟩ := ih (fun e he => hprices e (List.mem_cons_of_mem d he)) hrest
      obtain ⟨units, hd⟩ := deallocate_ok ht
      have hsame := hprices d List.mem_cons_self
      have hstep : Undiluted c feeds s t := by
        have hat := hd.undiluted
        unfold Undiluted at hat ⊢
        rw [hsame.equityAt, hsame.equityAt] at hat
        exact hat
      have hequity := hd.equityAt_eq
      rw [hsame.equityAt, hsame.equityAt] at hequity
      have hidle := hd.idle
      have hsupply := hd.supply
      refine ⟨by omega, hstep.trans (by omega) hundiluted, by omega⟩

/-- With units outstanding and prices that stand, neither an allocation nor a
deallocation that leaves units lowers the equity of a unit, and what is allocated and
deallocated again, in any number of steps that burn at most the units it minted, brings
no more to the idle bucket than it took. -/
theorem capital_never_diluted (c : Config) (feeds : Feeds) (s : State)
    (hunits : 0 < s.runtimeUnits) :
    (∀ m amount s', allocate c m feeds amount s = .ok s' →
      ∃ e, runtimeEquity c m feeds s = .ok e ∧
        ∀ m' feeds' e', SamePrices c feeds feeds' → runtimeEquity c m' feeds' s' = .ok e' →
          e * s'.runtimeUnits ≤ e' * s.runtimeUnits) ∧
    (∀ m amount s', deallocate c m feeds amount s = .ok s' → 0 < s'.runtimeUnits →
      ∃ e, runtimeEquity c m feeds s = .ok e ∧
        ∀ m' feeds' e', SamePrices c feeds feeds' → runtimeEquity c m' feeds' s' = .ok e' →
          e * s'.runtimeUnits ≤ e' * s.runtimeUnits) ∧
    ∀ m amount s₁ ds s₂, allocate c m feeds amount s = .ok s₁ →
      (∀ d ∈ ds, SamePrices c feeds d.2.1) → deallocations c ds s₁ = .ok s₂ →
      s₁.runtimeUnits - s₂.runtimeUnits ≤ s₁.runtimeUnits - s.runtimeUnits →
      s₂.idleCash ≤ s.idleCash := by
  have hlater : ∀ s', Undiluted c feeds s s' → ∀ m' feeds' e', SamePrices c feeds feeds' →
      runtimeEquity c m' feeds' s' = .ok e' →
      equityAt c feeds s * s'.runtimeUnits ≤ e' * s.runtimeUnits := by
    intro s' h m' feeds' e' hsame he'
    obtain ⟨rfl, _⟩ := runtimeEquity_ok he'
    rw [hsame.equityAt]
    exact h
  refine ⟨fun m amount s' h => ?_, fun m amount s' h _ => ?_,
    fun m amount s₁ ds s₂ h hprices hds hburned => ?_⟩
  · obtain ⟨units, ha⟩ := allocate_ok h
    exact ⟨_, ha.equity, hlater s' (ha.undiluted hunits)⟩
  · obtain ⟨units, hd⟩ := deallocate_ok h
    exact ⟨_, hd.equity, hlater s' hd.undiluted⟩
  · obtain ⟨units, ha⟩ := allocate_ok h
    have hsupply := ha.supply
    have hleft : s.runtimeUnits ≤ s₂.runtimeUnits := by omega
    obtain ⟨_, hdown, hkept⟩ := deallocations_ok hprices hds (by omega)
    have hequity := ha.equityAt_eq
    have hidle := ha.idle
    have havailable := ha.available
    -- the equity of as many units is back, so no more than the rest can be idle
    have hback : equityAt c feeds s ≤ equityAt c feeds s₂ := by
      have htrip := (ha.undiluted hunits).trans (by omega) hdown
      unfold Undiluted at htrip
      exact Nat.le_of_mul_le_mul_right
        (Nat.le_trans (Nat.mul_le_mul_left _ hleft) htrip) hunits
    omega

def exampleConfig : Config :=
  { self := 1
    owner := 3
    strategyCreator := 4
    strategyId := 1
    strategyRef := 1
    pass := 5
    afUsdc := 6
    router := 10
    locker := ⟨2, 1, 3, 5⟩
    maxPriceAge := 60
    stocks := ![7, 8, 9]
    feeds := ![17, 18, 19] }

/-- Seven units against ten at work, and as much idle as the owner likes. -/
def exampleState : State :=
  { tokens := exampleTokens
    locker := ⟨110 * 10 ^ 12, []⟩
    balance := 0
    grant := ⟨0, 0, 0, 0, 0, 0⟩
    grantVersion := 0
    stateVersion := 0
    principalBasis := 110
    idleCash := 100
    runtimeCash := 10
    runtimeUnits := 7
    totalBuyUsdc := 0
    trackedPosition := fun _ => 0
    openTrackedPositionCount := 0
    closed := false
    liquidating := false
    liquidationUntil := 0
    lowerUnitNav := 0
    upperUnitNav := 0
    lowerPrice := fun _ => 0
    upperPrice := fun _ => 0
    log := [] }

/-- Five are allocated for three units, and four come back for those. -/
theorem capital_round_trip :
    ∃ s₁ s₂, allocate exampleConfig (exampleMsg 3 110) exampleFeeds 5 exampleState = .ok s₁ ∧
      deallocations exampleConfig [(exampleMsg 3 120, exampleFeeds, 4)] s₁ = .ok s₂ ∧
      s₂.runtimeUnits = 7 ∧ s₂.idleCash ≤ exampleState.idleCash :=
  ⟨_, _, rfl, rfl, rfl,
    (capital_never_diluted exampleConfig exampleFeeds exampleState (by decide)).2.2
      (exampleMsg 3 110) 5 _ [(exampleMsg 3 120, exampleFeeds, 4)] _ rfl
      (fun d hd => by rw [List.mem_singleton.mp hd]; exact fun _ => rfl) rfl (by decide)⟩

end TradingVault
end AlphaForge
