/-
The owner's way out of the strategy vault.

The strategy vault is a derived vault in the sense of `Vault.Action.derived`: each call
of it is, on the base vault, a call of the base vault or a trade that leaves the vault
with what it tracks.  So what is left to an owner with a position is to sell it, and both
contracts refuse a sale that is worth nothing after rounding.
-/
import AlphaForge.Vault.StrategyVault.Fill
import AlphaForge.Vault.Withdrawable

namespace AlphaForge
namespace StrategyVault

open Evm Machine
open Vault (Error)

variable {c : Config} {m : Msg} {s s' : State}

/-! ## The base vault under the strategy vault -/

/-- A trade, as the base vault sees it. -/
theorem execute_booked {buy : Bool} {input minOutput deadline expectedVersion output : Nat}
    (h : execute c m buy input minOutput deadline expectedVersion s = .ok (s', output)) :
    ∃ d, Vault.book c.base d s.base = .ok s'.base := by
  simp only [execute, Vault.whenActive, bind_eq_ok, require_eq_ok, checkedAdd_eq_ok, pure_eq_ok,
    Prod.mk.injEq] at h
  obtain ⟨_, hactive, _, _, ⟨k, made⟩, _, t, hbook, _, ⟨_, rfl⟩, rfl, rfl⟩ := h
  have hsets : ∀ tracked position,
      Vault.setTrackedPosition c.base c.targetStock position
        { s.base with
          tokens := k
          trackedUsdcBalance := tracked } = .ok t.base →
      Vault.book c.base ⟨k, tracked, [(c.targetStock, position)]⟩ s.base = .ok t.base := by
    intro tracked position hset
    rw [Vault.book, Vault.whenActive, require_of hactive, ok_bind, List.foldlM_cons]
    dsimp only
    rw [hset, ok_bind]
    rfl
  cases buy with
  | true =>
      simp only [if_true, bookBuy, bind_eq_ok, checkedSub_eq_ok, checkedAdd_eq_ok,
        pure_eq_ok] at hbook
      obtain ⟨_, ⟨_, rfl⟩, _, ⟨_, rfl⟩, _, ⟨_, rfl⟩, _, ⟨_, rfl⟩, base, hbase, rfl⟩ := hbook
      exact ⟨_, hsets _ _ hbase⟩
  | false =>
      simp only [Bool.false_eq_true, if_false, bookSell, bind_eq_ok, checkedSub_eq_ok,
        checkedAdd_eq_ok, checkedInt_eq_ok, pure_eq_ok] at hbook
      obtain ⟨_, _, _, _, _, _, _, _, _, ⟨_, rfl⟩, _, ⟨_, rfl⟩, base, hbase, rfl⟩ := hbook
      exact ⟨_, hsets _ _ hbase⟩

theorem Executed.covered {buy : Bool} {input minOutput deadline expectedVersion output : Nat}
    (hid : Identity c) (h : Executed c m buy input minOutput deadline expectedVersion output s s')
    (hb : Vault.Backed c.base s.base) : Vault.Covered c.base s.base.tokens s'.base := by
  have hpass : c.base.pass ≠ inToken c buy ∧ c.base.pass ≠ outToken c buy := by
    have hstock : c.base.pass ≠ c.targetStock := by rw [hid.target]; exact hid.base.passEth
    cases buy with
    | true => exact ⟨hid.base.passUsdc, hstock⟩
    | false => exact ⟨hstock, hid.base.passUsdc⟩
  have hafter := h.backed hid hb
  exact ⟨(h.swapped.others _ hpass.1 hpass.2 _).ge, hafter.usdc, hafter.eth, hafter.btc,
    hafter.quiet⟩

/-- Each accepted step leaves the base vault alone, or is one step of it. -/
theorem step_on_base (hid : Identity c) {a : Action} (hb : Vault.Backed c.base s.base)
    (h : step c a s = .ok s') :
    s'.base = s.base ∨ ∃ b, Vault.step c.base b s.base = .ok s'.base ∧
      ∀ d, b = .derived d → Vault.Covered c.base s.base.tokens s'.base := by
  cases a with
  | deposit m usdcAmount =>
      simp only [step, onBase, callFrom_eq_ok, bind_eq_ok, pure_eq_ok] at h
      obtain ⟨hout, hvalue, base, hbase, rfl⟩ := h
      exact Or.inr ⟨.deposit m usdcAmount, callFrom_eq_ok.mpr ⟨hout, hvalue, hbase⟩,
        fun d hd => by cases hd⟩
  | withdraw m usdcAmount =>
      simp only [step, onBase, callFrom_eq_ok, bind_eq_ok, pure_eq_ok] at h
      obtain ⟨hout, hvalue, base, hbase, rfl⟩ := h
      exact Or.inr ⟨.withdraw m usdcAmount, callFrom_eq_ok.mpr ⟨hout, hvalue, hbase⟩,
        fun d hd => by cases hd⟩
  | close m =>
      simp only [step, onBase, callFrom_eq_ok, bind_eq_ok, pure_eq_ok] at h
      obtain ⟨hout, hvalue, base, hbase, rfl⟩ := h
      exact Or.inr ⟨.close m, callFrom_eq_ok.mpr ⟨hout, hvalue, hbase⟩, fun d hd => by cases hd⟩
  | rescueUntrackedToken m token =>
      simp only [step, onBase, callFrom_eq_ok, bind_eq_ok, pure_eq_ok] at h
      obtain ⟨hout, hvalue, base, hbase, rfl⟩ := h
      exact Or.inr ⟨.rescueUntrackedToken m token, callFrom_eq_ok.mpr ⟨hout, hvalue, hbase⟩,
        fun d hd => by cases hd⟩
  | rescueNative m x =>
      simp only [step, onBase, callFrom_eq_ok, bind_eq_ok, pure_eq_ok] at h
      obtain ⟨hout, hvalue, base, hbase, rfl⟩ := h
      exact Or.inr ⟨.rescueNative m x, callFrom_eq_ok.mpr ⟨hout, hvalue, hbase⟩,
        fun d hd => by cases hd⟩
  | receive m =>
      simp only [step, onBase, payFrom_eq_ok, ok_bind, pure_eq_ok] at h
      obtain ⟨hout, rfl⟩ := h
      exact Or.inr ⟨.receive m, payFrom_eq_ok.mpr ⟨hout, rfl⟩, fun d hd => by cases hd⟩
  | configureExecutor m next =>
      simp only [step, callFrom_eq_ok, configureExecutor, bind_eq_ok, pure_eq_ok] at h
      obtain ⟨_, _, _, _, _, _, _, _, _, _, rfl⟩ := h
      exact Or.inl rfl
  | revokeExecutor m =>
      simp only [step, callFrom_eq_ok, revokeExecutor, bind_eq_ok, pure_eq_ok] at h
      obtain ⟨_, _, _, _, _, _, rfl⟩ := h
      exact Or.inl rfl
  | execute m buy input minOutput deadline expectedVersion =>
      simp only [step, callFrom_eq_ok, map_eq_ok] at h
      obtain ⟨_, _, ⟨r, output⟩, hexec, rfl⟩ := h
      obtain ⟨d, hd⟩ := execute_booked hexec
      exact Or.inr ⟨.derived d, hd, fun _ _ => (execute_ok hid.venue hexec).covered hid hb⟩
  | updateFeed m price at_ source =>
      simp only [step, callFrom_eq_ok, bind_eq_ok, pure_eq_ok] at h
      obtain ⟨_, _, feed, _, rfl⟩ := h
      exact Or.inl rfl
  | updateSession m opens closes at_ source =>
      simp only [step, callFrom_eq_ok, bind_eq_ok, pure_eq_ok] at h
      obtain ⟨_, _, feed, _, rfl⟩ := h
      exact Or.inl rfl
  | setPaused m next =>
      simp only [step, callFrom_eq_ok, bind_eq_ok, pure_eq_ok] at h
      obtain ⟨_, _, paused, _, rfl⟩ := h
      exact Or.inl rfl
  | outside calls =>
      simp only [step, Except.ok.injEq] at h
      subst h
      exact Or.inr ⟨.outside calls, rfl, fun d hd => by cases hd⟩

/-- Every run of a deployed strategy vault is, on the base vault, a run with derived trades
that keep to their part. -/
theorem runs_refine_base {m : Msg} {x : View} {self lockerSelf owner creator pass usdc targetStock
    otherStock : Address} {stockReserve : StockReserve.Config}
    {referenceFeed : ReferenceFeed.Config} {strategyRef : Bytes32} {maxPriceAge : Nat}
    {tokens : Tokens} {balance : Nat} {paused : Bool} {feed : ReferenceFeed.State}
    (hnew : constructor m x self lockerSelf owner creator pass usdc targetStock otherStock
      stockReserve referenceFeed strategyRef maxPriceAge tokens balance paused feed = .ok (c, s))
    (hquiet : s.base.tokens.Quiet (own c)) (as : List Action) :
    ∃ bs, exec (Vault.step c.base) s.base bs = (exec (step c) s as).base ∧
      ∀ t ∈ history (Vault.step c.base) s.base bs, ∀ d, t.action = .derived d →
        Vault.Covered c.base t.pre.tokens t.post := by
  obtain ⟨hid, hstart, _⟩ := constructor_ok hnew
  exact exec_simulated (P := fun s : State => Vault.Backed c.base s.base)
    (Q := fun t : Transition Vault.State Vault.Action => ∀ d, t.action = .derived d →
      Vault.Covered c.base t.pre.tokens t.post)
    (fun a _ _ hb h => ⟨step_backed hid a hb h, step_on_base hid hb h⟩) (hstart hquiet) as

/-- A deposit, a trade of the executor, a donation and a trade of the owner. -/
theorem runs_refine_base_trades :
    ∃ c s, constructor (exampleMsg 3 99) exampleView 1 2 3 4 5 6 7 8 ⟨9, 13, 6, 7, 10, 60⟩ ⟨10, 11⟩ 1
        60 exampleTokens 0 false exampleFeed = .ok (c, s) ∧
      ∃ bs, exec (Vault.step c.base) s.base bs = (exec (step c) s exampleRun).base ∧
        ∀ t ∈ history (Vault.step c.base) s.base bs, ∀ d, t.action = .derived d →
          Vault.Covered c.base t.pre.tokens t.post := by
  have h : constructor (exampleMsg 3 99) exampleView 1 2 3 4 5 6 7 8 ⟨9, 13, 6, 7, 10, 60⟩ ⟨10, 11⟩ 1
      60 exampleTokens 0 false exampleFeed = .ok (_, _) := rfl
  refine ⟨_, _, h, runs_refine_base h ?_ exampleRun⟩
  intro token account hown spender
  simp only [own, List.mem_cons, List.not_mem_nil, or_false] at hown
  rcases hown with rfl | rfl <;> simp [exampleTokens]

theorem step_sound (hid : Identity c) {a : Action} (hs : Vault.Sound c.base s.base)
    (h : step c a s = .ok s') : Vault.Sound c.base s'.base := by
  rcases step_on_base hid hs.backed h with hsame | ⟨b, hb, hcovered⟩
  · rw [hsame]
    exact hs
  · exact Vault.step_sound hid.base hcovered hs hb

/-! ## One position -/

/-- The slot of the other stock is never filled. -/
theorem step_other (hid : Identity c) {a : Action}
    (hs : s.base.trackedPosition c.base.afBtc = 0) (h : step c a s = .ok s') :
    s'.base.trackedPosition c.base.afBtc = 0 := by
  cases step_accepted hid.venue h with
  | deposited _ hdep => exact (congrFun hdep.same.positions _).trans hs
  | withdrawn _ hwith => exact (congrFun hwith.same.positions _).trans hs
  | closing _ hclose => exact (congrFun hclose.same.positions _).trans hs
  | rescued hrescue => exact (congrFun hrescue.same.positions _).trans hs
  | configured _ _ => exact hs
  | revoked _ => exact hs
  | executed hexec =>
      rw [hexec.booked.positions, Function.update_of_ne]
      · exact hs
      · rw [hid.target]
        exact hid.base.ethBtc.symm
  | outside _ => exact hs
  | native _ => exact hs
  | venue _ => exact hs

/-! ## Selling everything -/

/-- What the whole position is sold for. -/
def saleValue (c : Config) (s : State) : Nat :=
  s.base.trackedPosition c.targetStock * s.feed.quote / 10 ^ 18

/-- The trading result of that sale. -/
def saleGain (c : Config) (s : State) : Int :=
  toInt256 (saleValue c s) - toInt256 s.positionCostUsdc

/-- The books have room for the sale in the types of their figures. -/
structure Room (c : Config) (s : State) : Prop where
  cash : s.base.trackedUsdcBalance + saleValue c s ≤ maxUint256
  gain : -2 ^ 255 ≤ saleGain c s ∧ saleGain c s < 2 ^ 255
  pnl : -2 ^ 255 ≤ s.realizedTradingPnl + saleGain c s ∧
    s.realizedTradingPnl + saleGain c s < 2 ^ 255
  version : s.executionVersion + 1 ≤ maxUint256

/-- An active vault with a position, a call of its owner in an open session at a price
both contracts take, and a reserve that can pay. -/
structure Sellable (c : Config) (m : Msg) (deadline : Nat) (s : State) : Prop where
  active : s.base.closed = false
  owner : m.sender = c.base.owner
  chain : m.chainId = testnetChainId
  inTime : m.timestamp ≤ deadline
  held : s.base.trackedPosition c.targetStock ≠ 0
  session : s.paused = false ∧ ReferenceFeed.executionAllowed m s.feed = true
  fresh : ReferenceFeed.Fresh m c.maxPriceAge s.feed
  reserveFresh : ReferenceFeed.Fresh m c.stockReserve.maxPriceAge s.feed
  reserve : saleValue c s ≤ s.base.tokens.balanceOf c.base.afUsdc c.stockReserve.self

/-- The sale of the whole position, with the version it expects. -/
def sellAll (c : Config) (m : Msg) (minOutput deadline : Nat) (s : State) :
    Result Error (State × Nat) :=
  execute c m false (s.base.trackedPosition c.targetStock) minOutput deadline s.executionVersion s

variable {minOutput deadline output : Nat}

theorem swap_value {input : Nat} {k : Tokens}
    (h : swap c m false input minOutput deadline s = .ok (k, output)) :
    output ≠ 0 ∧ output = input * s.feed.quote / 10 ^ 18 := by
  simp only [swap, StockReserve.swap, ReferenceFeed.fresh, Bool.false_eq_true, if_false, bind_eq_ok,
    require_eq_ok, mulDiv_eq_ok, pure_eq_ok, Prod.mk.injEq] at h
  obtain ⟨_, _, ⟨_, _⟩, ⟨_, _, _, _, _, ⟨_, _, rfl⟩, _, ⟨_, _, rfl⟩, _, ⟨hpositive, _⟩, _, _, _, _, _,
    _, rfl, rfl⟩, _, _, _, _, _, _, _, _, rfl, rfl⟩ := h
  exact ⟨hpositive, rfl⟩

theorem sellAll_ok (h : sellAll c m minOutput deadline s = .ok (s', output)) :
    output = saleValue c s ∧ 0 < saleValue c s ∧ Room c s := by
  simp only [sellAll, execute, bind_eq_ok, Bool.false_eq_true, if_false, checkedAdd_eq_ok,
    pure_eq_ok, Prod.mk.injEq] at h
  obtain ⟨_, _, _, _, ⟨k, made⟩, hswap, t, hbook, _, ⟨hversion, rfl⟩, _, rfl⟩ := h
  obtain ⟨hpositive, hvalue⟩ := swap_value hswap
  have hkept := (bookSell_ok hbook).2.2.2
  simp only [bookSell, if_true, bind_eq_ok, checkedSub_eq_ok, checkedAdd_eq_ok, checkedInt_eq_ok,
    Except.ok.injEq] at hbook
  obtain ⟨_, rfl, _, _, _, ⟨hgain, rfl⟩, _, ⟨hpnl, rfl⟩, _, ⟨hcash, rfl⟩, _⟩ := hbook
  rw [hkept] at hversion
  subst hvalue
  exact ⟨rfl, Nat.pos_of_ne_zero hpositive, hcash, hgain, hpnl, hversion⟩

theorem validateExecution_sale (h : Sellable c m deadline s) (hpositive : 0 < saleValue c s)
    (hword : saleValue c s ≤ maxUint256) :
    validateExecution c m false (s.base.trackedPosition c.targetStock) (saleValue c s) deadline
      s.executionVersion s = .ok () := by
  have hdirect : (decide (m.sender = c.base.owner)) = true := decide_eq_true h.owner
  have hvalue : (mulDiv (s.base.trackedPosition c.targetStock) s.feed.quote (10 ^ 18) :
      Result Error Nat) = .ok (saleValue c s) := mulDiv_of (by decide) hword
  have hle : saleValue c s * (10000 - 500) / 10000 ≤ saleValue c s := by omega
  have hfloor : (mulDiv (saleValue c s) (10000 - 500) 10000 : Result Error Nat) =
      .ok (saleValue c s * (10000 - 500) / 10000) :=
    mulDiv_of (by decide) (Nat.le_trans hle hword)
  unfold validateExecution stockPrice
  rw [require_of ⟨h.chain, h.held, h.inTime, rfl⟩, ok_bind]
  dsimp only
  rw [hdirect, require_of (Or.inl rfl), ok_bind, ReferenceFeed.fresh_of h.fresh, ok_bind]
  simp only [Bool.false_eq_true, if_false, if_true, ok_bind, hvalue,
    checkedSub_of (show 500 ≤ 10000 by decide), hfloor,
    require_of (And.intro (Nat.pos_iff_ne_zero.mp hpositive) hle), executorLimit,
    require_of (Nat.le_refl (s.base.trackedPosition c.targetStock))]

theorem bookSell_sale (hid : Identity c) (hactive : s.base.closed = false) (hroom : Room c s)
    (hcount : s.base.openTrackedPositionCount ≤ 2)
    (hopen : s.base.trackedPosition c.base.afEth ≠ 0 → 1 ≤ s.base.openTrackedPositionCount) :
    ∃ t, bookSell c (s.base.trackedPosition c.targetStock) (saleValue c s) s = .ok t := by
  obtain ⟨base, hbase⟩ : ∃ base, Vault.setTrackedPosition c.base c.targetStock
      (s.base.trackedPosition c.targetStock - s.base.trackedPosition c.targetStock)
      { s.base with trackedUsdcBalance := s.base.trackedUsdcBalance + saleValue c s } =
        .ok base :=
    Vault.setTrackedPosition_of hactive (Or.inl hid.target)
      (by rw [Nat.sub_self]; exact Nat.zero_le _)
      (Nat.le_trans (Nat.add_le_add_right hcount 1) (by decide)) (by rw [hid.target]; exact hopen)
  have hgain : (checkedInt (toInt256 (saleValue c s) - toInt256 s.positionCostUsdc) :
      Result Error Int) = .ok (saleGain c s) := checkedInt_eq_ok.mpr ⟨hroom.gain, rfl⟩
  have hpnl : (checkedInt (s.realizedTradingPnl + saleGain c s) : Result Error Int) =
      .ok (s.realizedTradingPnl + saleGain c s) := checkedInt_eq_ok.mpr ⟨hroom.pnl, rfl⟩
  unfold bookSell
  dsimp only
  rw [if_pos rfl, ok_bind, checkedSub_of (Nat.le_refl _), ok_bind, hgain, ok_bind, hpnl, ok_bind,
    checkedAdd_of hroom.cash, ok_bind, checkedSub_of (Nat.le_refl _), ok_bind, hbase]
  exact ⟨_, rfl⟩

theorem sellAll_of (hid : Identity c) (haccounts : Accounts c)
    (hbacked : Vault.Backed c.base s.base) (h : Sellable c m deadline s)
    (hpositive : 0 < saleValue c s) (hroom : Room c s) :
    ∃ s', sellAll c m (saleValue c s) deadline s = .ok (s', saleValue c s) := by
  have hword : saleValue c s ≤ maxUint256 := Nat.le_trans (Nat.le_add_left _ _) hroom.cash
  have hfunded : s.base.trackedPosition c.targetStock ≤
      s.base.tokens.balanceOf (inToken c false) c.base.self := by
    have heth := hbacked.eth
    rw [← hid.target] at heth
    exact heth
  obtain ⟨k, hswap⟩ : ∃ k, swap c m false (s.base.trackedPosition c.targetStock) (saleValue c s)
      deadline s = .ok (k, saleValue c s) :=
    swap_through hid haccounts ⟨h.chain, h.held, h.inTime⟩ h.session h.reserveFresh
      (mulDiv_of (by decide) hword) ⟨Nat.pos_iff_ne_zero.mp hpositive, Nat.le_refl _⟩ h.reserve
      hfunded
  have hroom' : Room c { s with base := { s.base with tokens := k } } :=
    ⟨hroom.cash, hroom.gain, hroom.pnl, hroom.version⟩
  obtain ⟨t, ht⟩ := bookSell_sale (s := { s with base := { s.base with tokens := k } }) hid h.active
    hroom' hbacked.count_le hbacked.one_le_count
  have hversion : t.executionVersion = s.executionVersion := (bookSell_ok ht).2.2.2
  have hbook : bookSell c (s.base.trackedPosition c.targetStock) (saleValue c s)
      { s with base := { s.base with tokens := k } } = .ok t := ht
  have hfits : t.executionVersion + 1 ≤ maxUint256 := by
    rw [hversion]
    exact hroom.version
  unfold sellAll execute Vault.whenActive
  rw [require_of h.active, ok_bind, validateExecution_sale h hpositive hword, ok_bind, hswap,
    ok_bind]
  dsimp only
  rw [if_neg (by decide), hbook, ok_bind, checkedAdd_of hfits, ok_bind]
  exact ⟨_, rfl⟩

/-- After the sale nothing is open, and the books hold what it brought. -/
theorem sellAll_flat (hid : Identity c) (hbacked : Vault.Backed c.base s.base)
    (hother : s.base.trackedPosition c.base.afBtc = 0)
    (h : sellAll c m minOutput deadline s = .ok (s', output)) :
    s'.base.closed = false ∧ s'.base.openTrackedPositionCount = 0 ∧
      s'.base.trackedUsdcBalance = s.base.trackedUsdcBalance + saleValue c s ∧
      s'.base.locker = s.base.locker ∧ s'.base.principalBasis = s.base.principalBasis := by
  have hexec := execute_ok hid.venue h
  have hsold := hexec.trade
  rw [if_neg (by decide)] at hsold
  have hposition := hsold.position
  have hkept : s'.base.trackedPosition c.base.afBtc = s.base.trackedPosition c.base.afBtc := by
    rw [hexec.booked.positions, Function.update_of_ne]
    rw [hid.target]
    exact hid.base.ethBtc.symm
  have hcount := (hexec.backed hid hbacked).count
  rw [Vault.openPositions, ← hid.target, if_pos (by omega), hkept, if_pos hother] at hcount
  have htracked := hsold.tracked
  rw [(sellAll_ok h).1] at htracked
  exact ⟨hexec.booked.closed.trans hexec.active, hcount, htracked, hexec.booked.locker,
    hexec.booked.principal⟩

section Run

variable {mc : Msg} {x : View} {self lockerSelf owner creator pass usdc targetStock
  otherStock : Address} {stockReserve : StockReserve.Config} {referenceFeed : ReferenceFeed.Config}
  {strategyRef : Bytes32} {maxPriceAge : Nat} {tokens : Tokens} {balance : Nat} {paused : Bool}
  {feed : ReferenceFeed.State}

theorem constructor_base (hreceives : c.base.owner ∉ own c) (hlocker : c.base.locker.self ≠ 0)
    (h : constructor mc x self lockerSelf owner creator pass usdc targetStock otherStock stockReserve
      referenceFeed strategyRef maxPriceAge tokens balance paused feed = .ok (c, s)) :
    Vault.Accounts c.base ∧ s.base.locker.lockedBalance = 0 ∧
      s.base.trackedPosition c.base.afBtc = 0 := by
  unfold constructor at h
  split at h
  · cases h
  · simp only [bind_eq_ok, pure_eq_ok, Prod.mk.injEq] at h
    obtain ⟨⟨base, baseState⟩, hbase, _, _, _, _, rfl, rfl⟩ := h
    obtain ⟨haccounts, hlocked⟩ := Vault.constructor_accounts hreceives hlocker hbase
    refine ⟨haccounts, hlocked, ?_⟩
    simp only [Vault.constructor, bind_eq_ok, pure_eq_ok, Prod.mk.injEq] at hbase
    obtain ⟨_, _, _, _, _, _, _, _, _, _, _, _, _, _, _, rfl⟩ := hbase
    rfl

/-- In every reachable state in which the owner can trade and the reserve can pay, some
minimum lets the whole position be sold exactly when it is worth at least one raw unit of
USDC and the books have room for the sale.  After any such sale no position is open, and
`close` returns all the tracked USDC and all the locked PASS. -/
theorem owner_exit
    (hnew : constructor mc x self lockerSelf owner creator pass usdc targetStock otherStock
      stockReserve referenceFeed strategyRef maxPriceAge tokens balance paused feed = .ok (c, s))
    (hzero : x.hasCode 0 = false) (hself : x.hasCode self = false)
    (hquiet : s.base.tokens.Quiet (own c)) (hreceives : c.base.owner ∉ own c)
    (hlocker : c.base.locker.self ≠ 0) (as : List Action) (m : Msg) (deadline : Nat)
    (hsell : Sellable c m deadline (exec (step c) s as)) :
    ((∃ minOutput s' output,
        sellAll c m minOutput deadline (exec (step c) s as) = .ok (s', output)) ↔
      0 < saleValue c (exec (step c) s as) ∧ Room c (exec (step c) s as)) ∧
    ∀ minOutput s' output, sellAll c m minOutput deadline (exec (step c) s as) = .ok (s', output) →
      s'.base.openTrackedPositionCount = 0 ∧
      s'.base.trackedUsdcBalance = (exec (step c) s as).base.trackedUsdcBalance +
        saleValue c (exec (step c) s as) ∧
      ∃ base, Vault.close c.base m s'.base = .ok base ∧
        base.tokens.balanceOf c.base.afUsdc c.base.owner =
          s'.base.tokens.balanceOf c.base.afUsdc c.base.owner + s'.base.trackedUsdcBalance ∧
        base.tokens.balanceOf c.base.pass c.base.owner =
          s'.base.tokens.balanceOf c.base.pass c.base.owner + s'.base.locker.lockedBalance := by
  obtain ⟨hid, hbacked, _⟩ := constructor_ok hnew
  have haccounts := constructor_accounts hzero hself hnew
  obtain ⟨hbase, hlocked, hother⟩ := constructor_base hreceives hlocker hnew
  have hreach : Vault.Sound c.base (exec (step c) s as).base ∧
      (exec (step c) s as).base.trackedPosition c.base.afBtc = 0 :=
    exec_invariant (P := fun t => Vault.Sound c.base t.base ∧
        t.base.trackedPosition c.base.afBtc = 0)
      (fun _ _ _ hP h => ⟨step_sound hid hP.1 h, step_other hid hP.2 h⟩)
      ⟨⟨hbacked hquiet, by rw [hlocked]; exact Nat.zero_le _⟩, hother⟩ as
  obtain ⟨hsound, hnone⟩ := hreach
  refine ⟨⟨?_, fun h => ?_⟩, fun minOutput s' output h => ?_⟩
  · rintro ⟨minOutput, s', output, h⟩
    exact (sellAll_ok h).2
  · obtain ⟨s', hs'⟩ := sellAll_of hid haccounts hsound.backed hsell h.1 h.2
    exact ⟨_, s', _, hs'⟩
  · obtain ⟨hactive, hcount, htracked, hlock, _⟩ := sellAll_flat hid hsound.backed hnone h
    have hafter : Vault.Sound c.base s'.base :=
      ⟨(execute_ok hid.venue h).backed hid hsound.backed, by rw [hlock]; exact hsound.sized⟩
    obtain ⟨base, hclose⟩ := Vault.close_of hid.base hbase hafter hsell.owner hactive hcount
    obtain ⟨k, hk, hk'⟩ := (Vault.close_ok hclose).moved
    exact ⟨hcount, htracked, base, hclose, Vault.paid_balances hid.base hbase hk hk'⟩

end Run

theorem exampleSellable {c : Config} {s : State} (hactive : s.base.closed = false)
    (howner : c.base.owner = 3) (hheld : s.base.trackedPosition c.targetStock ≠ 0)
    (hrunning : s.paused = false) (hfeed : s.feed = exampleFeed) (hage : c.maxPriceAge = 60)
    (hreserve : c.stockReserve.maxPriceAge = 60)
    (hpays : saleValue c s ≤ s.base.tokens.balanceOf c.base.afUsdc c.stockReserve.self) :
    Sellable c (exampleMsg 3 110) 120 s := by
  have hfresh : ReferenceFeed.Fresh (exampleMsg 3 110) 60 s.feed := by
    rw [hfeed]
    exact ⟨by decide, by decide, by decide, by decide⟩
  refine ⟨hactive, howner.symm, rfl, by decide, hheld, ⟨hrunning, by rw [hfeed]; decide⟩, ?_, ?_,
    hpays⟩
  · rw [hage]
    exact hfresh
  · rw [hreserve]
    exact hfresh

/-- The owner at 3 leaves after the trades of `exampleRun`. -/
theorem owner_exit_after_trades :
    ∃ c s, constructor (exampleMsg 3 99) exampleView 1 2 3 4 5 6 7 8 ⟨9, 13, 6, 7, 10, 60⟩ ⟨10, 11⟩ 1
        60 exampleTokens 0 false exampleFeed = .ok (c, s) ∧
      ∃ minOutput s' output, sellAll c (exampleMsg 3 110) minOutput 120
        (exec (step c) s exampleRun) = .ok (s', output) := by
  have h : constructor (exampleMsg 3 99) exampleView 1 2 3 4 5 6 7 8 ⟨9, 13, 6, 7, 10, 60⟩ ⟨10, 11⟩ 1
      60 exampleTokens 0 false exampleFeed = .ok (_, _) := rfl
  refine ⟨_, _, h, (owner_exit h (by decide) (by decide) ?_ (by decide) (by decide) exampleRun _ _
    (exampleSellable (by decide) rfl (by decide) (by decide) rfl rfl rfl (by decide))).1.mpr
      ⟨by decide, ⟨by decide, by decide, by decide, by decide⟩⟩⟩
  intro token account hown spender
  simp only [own, List.mem_cons, List.not_mem_nil, or_false] at hown
  rcases hown with rfl | rfl <;> simp [exampleTokens]

/-- A buy for 400, and a sell of all but the smallest part of it. -/
def residueRun : List Action :=
  [.deposit (exampleMsg 3 100) 1000,
    .execute (exampleMsg 3 102) true 400 (2 * 10 ^ 14) 120 0,
    .execute (exampleMsg 3 103) false (2 * 10 ^ 14 - 1) 399 120 1]

/-- What is left is worth nothing after rounding, and no minimum lets it be sold. -/
theorem residue_unsellable :
    ∃ c s, constructor (exampleMsg 3 99) exampleView 1 2 3 4 5 6 7 8 ⟨9, 13, 6, 7, 10, 60⟩ ⟨10, 11⟩ 1
        60 exampleTokens 0 false exampleFeed = .ok (c, s) ∧
      (history (step c) s residueRun).length = 3 ∧
      (exec (step c) s residueRun).base.trackedPosition c.targetStock = 1 ∧
      Sellable c (exampleMsg 3 110) 120 (exec (step c) s residueRun) ∧
      ∀ minOutput s' output, sellAll c (exampleMsg 3 110) minOutput 120
        (exec (step c) s residueRun) ≠ .ok (s', output) := by
  have h : constructor (exampleMsg 3 99) exampleView 1 2 3 4 5 6 7 8 ⟨9, 13, 6, 7, 10, 60⟩ ⟨10, 11⟩ 1
      60 exampleTokens 0 false exampleFeed = .ok (_, _) := rfl
  refine ⟨_, _, h, by decide, by decide,
    exampleSellable (by decide) rfl (by decide) (by decide) rfl rfl rfl (by decide),
    fun minOutput s' output hsold => ?_⟩
  exact absurd (sellAll_ok hsold).2.1 (by decide)

end StrategyVault
end AlphaForge
