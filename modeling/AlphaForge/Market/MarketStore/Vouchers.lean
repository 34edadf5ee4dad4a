/-
Claim vouchers over every run of the store, and what the contract pays for them.

A voucher is issued to an account and a wallet that have none, is renewed while it
has no transaction, and is otherwise only tracked.  Rows are never removed, so the
table at the end of a run still tells every voucher that was ever issued.
-/
import AlphaForge.Market.ClaimReserve
import AlphaForge.Market.MarketStore
import Mathlib.Data.List.Nodup

namespace AlphaForge
namespace MarketStore

open Evm Market
open Commit (await atomic final Triple)

/-! ## Calls -/

inductive Action where
  | trustedAccount (identity : TrustedEmailIdentity) (now : Int) (accountId : String)
  | bindingChallenge (accountId : String) (wallet : Address) (now : Int) (nonce : BitVec 192)
  | bindWallet (accountId : String) (nonce : BitVec 192) (signature : BitVec 520) (now : Int)
  | walletTestChallenge (wallet : Address) (now : Int) (nonce : BitVec 192)
  | openWalletTestSession (nonce : BitVec 192) (signature : BitVec 520) (now : Int)
      (seed : SessionSeed)
  | reserveClaim (accountId : String) (owner : Address) (now deadline : Int)
      (chainSuccessfulClaims : Nat) (nonce : Bytes32)
  | saveQuote (quoteId : String) (row : QuoteRow)
  | submit (accountId quoteId : String) (transactionHash : Bytes32) (operationId : String)
  | updateOperation (operation : TrackedOperation)
  | observeClaim (claim : IndexedMarketClaim)
  | rollbackClaims (fromBlock : Nat)

/-- A transaction whose result is not looked at. -/
def transact {α : Type} (f : Store → Except String (α × Store)) : Program Unit :=
  atomic (fun s => (fun r => ((), r.2)) <$> f s)

def Action.program (c : Config) : Action → Program Unit
  | .trustedAccount identity now accountId =>
      transact (MarketStore.trustedAccount c identity now accountId)
  | .bindingChallenge accountId wallet now nonce =>
      transact (MarketStore.bindingChallenge accountId wallet now nonce)
  | .bindWallet accountId nonce signature now => do
      let _ ← MarketStore.bindWallet c accountId nonce signature now
  | .walletTestChallenge wallet now nonce => transact (MarketStore.walletTestChallenge wallet now nonce)
  | .openWalletTestSession nonce signature now seed => do
      let _ ← MarketStore.openWalletTestSession c nonce signature now seed
  | .reserveClaim accountId owner now deadline chainSuccessfulClaims nonce =>
      transact (MarketStore.reserveClaim accountId owner now deadline chainSuccessfulClaims nonce)
  | .saveQuote quoteId row => atomic (fun s => ((), ·) <$> MarketStore.saveQuote quoteId row s)
  | .submit accountId quoteId transactionHash operationId =>
      transact (MarketStore.submit accountId quoteId transactionHash operationId)
  | .updateOperation operation => modify (MarketStore.updateOperation operation)
  | .observeClaim claim => atomic (fun s => ((), ·) <$> MarketStore.observeClaim c.chainId claim s)
  | .rollbackClaims fromBlock => modify (MarketStore.rollbackClaims fromBlock)

/-- A call that throws keeps what it committed, and never stops the run. -/
def step (c : Config) (a : Action) (s : Store) : Except String Store := .ok (final (a.program c s))

/-- The voucher that a call issues or hands out again. -/
def Action.voucher (a : Action) (s : Store) : Option VoucherRow :=
  match a with
  | .reserveClaim accountId owner now deadline chainSuccessfulClaims nonce =>
      (MarketStore.reserveClaim accountId owner now deadline chainSuccessfulClaims nonce s).toOption.map
        (·.1)
  | _ => none

/-- The vouchers of a run. -/
def vouchersOf (c : Config) (s : Store) (actions : List Action) : List VoucherRow :=
  (Machine.history (step c) s actions).filterMap (fun t => t.action.voucher t.pre)

/-! ## What a call does to the vouchers -/

/-- Following a transaction leaves a voucher alone, or gives it a transaction and a
status of one. -/
def Tracks (f : String → VoucherRow → VoucherRow) : Prop :=
  ∀ id row, f id row = row ∨
    ((f id row).transactionHash ≠ none ∧ (f id row).status ≠ .issued ∧
      (f id row).accountKey = row.accountKey ∧ (f id row).wallet = row.wallet ∧
      (f id row).nonce = row.nonce ∧ (f id row).issuedAt = row.issuedAt ∧
      (f id row).deadline = row.deadline)

inductive VoucherStep (s s' : Store) : Prop where
  | frame (h : s'.vouchers = s.vouchers)
  | issued (accountId : String) (row : VoucherRow) (hnew : s.vouchers.get? accountId = none)
      (hstatus : row.status = .issued) (hunused : row.transactionHash = none)
      (hwallet : ∀ e ∈ s.vouchers, e.2.wallet ≠ row.wallet)
      (hkey : ∀ e ∈ s.vouchers, e.2.accountKey ≠ row.accountKey)
      (h : s'.vouchers = s.vouchers.set accountId row)
  | renewed (accountId : String) (old : VoucherRow) (issuedAt deadline : Int)
      (hold : s.vouchers.get? accountId = some old) (hunused : old.transactionHash = none)
      (h : s'.vouchers = s.vouchers.set accountId { old with issuedAt, deadline, status := .issued })
  | tracked (f : String → VoucherRow → VoucherRow) (hf : Tracks f)
      (h : s'.vouchers = s.vouchers.mapValues f)

/-! ## The calls about accounts -/

/-- Vouchers and claims are what they were. -/
def SameClaims (s s' : Store) : Prop := s'.vouchers = s.vouchers ∧ s'.claims = s.claims

theorem SameClaims.trans {s s₁ s₂ : Store} (h : SameClaims s s₁) (h' : SameClaims s₁ s₂) :
    SameClaims s s₂ :=
  ⟨h'.1.trans h.1, h'.2.trans h.2⟩

theorem putAccount_same {id : String} {row : AccountRow} {s s' : Store}
    (h : putAccount id row s = .ok s') : SameClaims s s' := by
  simp only [putAccount, bind_eq_ok, pure_eq_ok] at h
  obtain ⟨_, _, rfl⟩ := h
  exact ⟨rfl, rfl⟩

theorem insertAccount_same {id : String} {row : AccountRow} {s s' : Store}
    (h : insertAccount id row s = .ok s') : SameClaims s s' := by
  simp only [insertAccount, bind_eq_ok] at h
  obtain ⟨_, _, hput⟩ := h
  exact putAccount_same hput

theorem trustedAccount_same {c : Config} {identity : TrustedEmailIdentity} {now : Int}
    {accountId id : String} {s s' : Store}
    (h : trustedAccount c identity now accountId s = .ok (id, s')) : SameClaims s s' := by
  simp only [trustedAccount, bind_eq_ok] at h
  obtain ⟨_, _, _, _, email, _, h⟩ := h
  split at h
  · simp only [bind_eq_ok, pure_eq_ok, Prod.mk.injEq] at h
    obtain ⟨_, _, _, rfl⟩ := h
    exact ⟨rfl, rfl⟩
  · simp only [bind_eq_ok, pure_eq_ok, Prod.mk.injEq] at h
    obtain ⟨_, _, s₁, hinsert, _, rfl⟩ := h
    exact insertAccount_same hinsert

theorem bindingChallenge_same {accountId : String} {wallet : Address} {now : Int}
    {nonce : BitVec 192} {message : Message} {s s' : Store}
    (h : bindingChallenge accountId wallet now nonce s = .ok (message, s')) :
    SameClaims s s' := by
  simp only [bindingChallenge, bind_eq_ok, pure_eq_ok, Prod.mk.injEq] at h
  obtain ⟨_, _, _, _, _, _, _, _, _, _, _, _, _, rfl⟩ := h
  exact ⟨rfl, rfl⟩

theorem walletTestChallenge_same {wallet : Address} {now : Int} {nonce : BitVec 192}
    {message : Message} {s s' : Store}
    (h : walletTestChallenge wallet now nonce s = .ok (message, s')) : SameClaims s s' := by
  simp only [walletTestChallenge, bind_eq_ok, pure_eq_ok, Prod.mk.injEq] at h
  obtain ⟨_, _, _, _, _, _, _, _, _, rfl⟩ := h
  exact ⟨rfl, rfl⟩

theorem consumeChallenge_same {accountId : String} {nonce : BitVec 192} {now : Int}
    {row : ChallengeRow} {s s' : Store}
    (h : consumeChallenge accountId nonce now s = .ok (row, s')) : SameClaims s s' := by
  unfold consumeChallenge at h
  split at h
  · cases h
  · simp only [bind_eq_ok, pure_eq_ok, Prod.mk.injEq] at h
    obtain ⟨_, _, _, rfl⟩ := h
    exact ⟨rfl, rfl⟩

theorem consumeTestChallenge_same {nonce : BitVec 192} {now : Int} {row : TestChallengeRow}
    {s s' : Store} (h : consumeTestChallenge nonce now s = .ok (row, s')) : SameClaims s s' := by
  unfold consumeTestChallenge at h
  split at h
  · cases h
  · simp only [bind_eq_ok, pure_eq_ok, Prod.mk.injEq] at h
    obtain ⟨_, _, _, rfl⟩ := h
    exact ⟨rfl, rfl⟩

theorem linkWallet_same {accountId id : String} {signer : Address} {s s' : Store}
    (h : linkWallet accountId signer s = .ok (id, s')) : SameClaims s s' := by
  unfold linkWallet at h
  split at h
  · split at h
    · simp only [bind_eq_ok, pure_eq_ok, Prod.mk.injEq] at h
      obtain ⟨_, _, s₁, hput, _, rfl⟩ := h
      have hsame := putAccount_same hput
      exact ⟨hsame.1, hsame.2⟩
    · cases h
  · simp only [bind_eq_ok, pure_eq_ok, Prod.mk.injEq] at h
    obtain ⟨_, _, s₁, hput, _, rfl⟩ := h
    exact putAccount_same hput

theorem openSession_same {c : Config} {signer : Address} {now : Int} {seed : SessionSeed}
    {id : String} {s s' : Store} (h : openSession c signer now seed s = .ok (id, s')) :
    SameClaims s s' := by
  simp only [openSession, bind_eq_ok, pure_eq_ok, Prod.mk.injEq] at h
  obtain ⟨⟨accountId, s₁⟩, haccount, _, _, _, _, _, _, _, _, _, rfl⟩ := h
  suffices hsame : SameClaims s s₁ from ⟨hsame.1, hsame.2⟩
  unfold sessionAccount at haccount
  split at haccount
  · cases haccount
    exact ⟨rfl, rfl⟩
  · simp only [bind_eq_ok, pure_eq_ok, Prod.mk.injEq] at haccount
    obtain ⟨_, hinsert, _, rfl⟩ := haccount
    exact insertAccount_same hinsert

theorem atomic_same {α : Type} {f : Store → Except String (α × Store)} {s₀ : Store}
    (h : ∀ s a s', f s = .ok (a, s') → SameClaims s s') :
    Triple (SameClaims s₀) (atomic f) (fun _ => SameClaims s₀) (SameClaims s₀) :=
  Triple.atomic (fun s a s' hs hf => hs.trans (h s a s' hf)) (fun _ hs => hs)

theorem await_same {α : Type} {x : Except String α} {s₀ : Store} :
    Triple (SameClaims s₀) (await x) (fun _ => SameClaims s₀) (SameClaims s₀) :=
  Triple.await (fun _ _ _ hs => hs) (fun _ hs => hs)

theorem bindWallet_same (c : Config) (accountId : String) (nonce : BitVec 192)
    (signature : BitVec 520) (now : Int) (s : Store) :
    Triple (SameClaims s) (bindWallet c accountId nonce signature now) (fun _ => SameClaims s)
      (SameClaims s) := by
  refine await_same.bind fun _ => ?_
  refine (atomic_same fun _ _ _ h => consumeChallenge_same h).bind fun row => ?_
  refine await_same.bind fun _ => ?_
  exact atomic_same fun _ _ _ h => linkWallet_same h

theorem openWalletTestSession_same (c : Config) (nonce : BitVec 192)
    (signature : BitVec 520) (now : Int) (seed : SessionSeed) (s : Store) :
    Triple (SameClaims s) (openWalletTestSession c nonce signature now seed) (fun _ => SameClaims s)
      (SameClaims s) := by
  refine await_same.bind fun _ => ?_
  refine (atomic_same fun _ _ _ h => consumeTestChallenge_same h).bind fun row => ?_
  refine await_same.bind fun _ => ?_
  exact atomic_same fun _ _ _ h => openSession_same h

/-! ## The calls about claims -/

/-- A unique column holds no second row with the value. -/
theorem unique_eq_true {κ ν β : Type} [DecidableEq κ] [DecidableEq β] {column : ν → Option β}
    {table : OrderedMap κ ν} {key : κ} {row : ν} (h : unique column table key row = true)
    (hrow : column row ≠ none) : ∀ e ∈ table, e.1 ≠ key → column e.2 ≠ column row := by
  intro e he hne
  simp only [unique, Bool.or_eq_true, decide_eq_true_eq, List.all_eq_true] at h
  rcases h with hnone | hall
  · exact absurd hnone hrow
  · rcases hall e he with heq | hother
    · exact absurd heq hne
    · exact hother

theorem claimAllowed_eq_ok {s : Store} {accountId : String} {wallet : Address} {claims : Nat}
    (h : claimAllowed s accountId wallet claims = .ok ()) :
    (canonicalClaims s).length = claims ∧ (∀ e ∈ canonicalClaims s, registered s e = true) ∧
      ∀ e ∈ s.vouchers, e.1 ≠ accountId → e.2.wallet ≠ wallet := by
  simp only [claimAllowed, bind_eq_ok, ensure_eq_ok, List.all_eq_true] at h
  obtain ⟨_, hcount, _, hregistered, _, _, h⟩ := h
  refine ⟨hcount, hregistered, fun e he hne hwallet => ?_⟩
  split at h
  · cases h
  · next hnone =>
      have := List.find?_eq_none.mp hnone e he
      simp [hwallet, hne] at this

/-- A voucher is handed out again, renewed, or issued to an account and a wallet that
have none.  A new deadline is given only below the limit. -/
inductive Reserved (s s' : Store) (accountId : String) (now deadline : Int) (row : VoucherRow) :
    Prop where
  | again (hget : s.vouchers.get? accountId = some row) (hunused : row.transactionHash = none)
      (hlive : now < row.deadline) (h : s' = s)
  | renewed (old : VoucherRow) (hget : s.vouchers.get? accountId = some old)
      (hunused : old.transactionHash = none) (hexpired : old.deadline ≤ now)
      (hlimit : (canonicalClaims s).length + unresolved s now < 100)
      (hrow : row = { old with issuedAt := now, deadline, status := .issued })
      (h : s' = { s with vouchers := s.vouchers.set accountId row })
  | issued (hnew : s.vouchers.get? accountId = none) (hstatus : row.status = .issued)
      (hunused : row.transactionHash = none) (hissued : row.issuedAt = now)
      (hwallet : ∀ e ∈ s.vouchers, e.2.wallet ≠ row.wallet)
      (hkey : ∀ e ∈ s.vouchers, e.2.accountKey ≠ row.accountKey)
      (hlimit : (canonicalClaims s).length + unresolved s now < 100)
      (h : s' = { s with vouchers := s.vouchers.set accountId row })

theorem renewVoucher_reserved {accountId : String} {wallet : Address} {now deadline : Int}
    {existing row : VoucherRow} {s s' : Store}
    (hget : s.vouchers.get? accountId = some existing)
    (h : renewVoucher accountId wallet now deadline (canonicalClaims s).length existing s =
      .ok (row, s')) :
    Reserved s s' accountId now deadline row := by
  simp only [renewVoucher, bind_eq_ok, ensure_eq_ok] at h
  obtain ⟨_, hwallet, _, hstatus, _, hunused, h⟩ := h
  split at h
  · next hexpired =>
      simp only [bind_eq_ok, ensure_eq_ok, pure_eq_ok, Prod.mk.injEq] at h
      obtain ⟨_, hlimit, rfl, rfl⟩ := h
      exact .renewed existing hget hunused.1 hexpired hlimit rfl rfl
  · next hlive =>
      simp only [pure_eq_ok, Prod.mk.injEq] at h
      obtain ⟨rfl, rfl⟩ := h
      exact .again hget hunused.1 (Int.not_le.mp hlive) rfl

theorem issueVoucher_reserved {accountId : String} {accountKey : Bytes32} {wallet : Address}
    {now deadline : Int} {nonce : Bytes32} {row : VoucherRow} {s s' : Store}
    (hget : s.vouchers.get? accountId = none)
    (hwallet : ∀ e ∈ s.vouchers, e.1 ≠ accountId → e.2.wallet ≠ wallet)
    (h : issueVoucher accountId accountKey wallet now deadline (canonicalClaims s).length nonce s =
      .ok (row, s')) :
    Reserved s s' accountId now deadline row := by
  have hother : ∀ e ∈ s.vouchers, e.1 ≠ accountId := fun e he heq => by
    have hmem : e.1 ∈ s.vouchers.keys := List.mem_map_of_mem he
    rw [heq] at hmem
    exact (OrderedMap.get?_eq_none_iff.mp hget) hmem
  simp only [issueVoucher, putVoucher, bind_eq_ok, ensure_eq_ok, pure_eq_ok, Prod.mk.injEq,
    Bool.and_eq_true] at h
  obtain ⟨_, _, _, hlimit, _, ⟨_, ⟨⟨hkey, _⟩, _⟩, rfl⟩, rfl, rfl⟩ := h
  refine .issued hget rfl rfl rfl (fun e he => hwallet e he (hother e he)) (fun e he heq => ?_)
    hlimit rfl
  exact unique_eq_true hkey (by simp) e he (hother e he) (by rw [heq])

theorem reserveClaim_reserved {accountId : String} {owner : Address} {now deadline : Int}
    {claims : Nat} {nonce : Bytes32} {row : VoucherRow} {s s' : Store}
    (h : reserveClaim accountId owner now deadline claims nonce s = .ok (row, s')) :
    (∀ e ∈ canonicalClaims s, registered s e = true) ∧ now < deadline ∧
      Reserved s s' accountId now deadline row := by
  simp only [reserveClaim, bind_eq_ok, ensure_eq_ok] at h
  obtain ⟨_, _, _, _, _, hpolicy, account', haccount, _, hallowed, h⟩ := h
  obtain ⟨rfl, hregistered, hwallet⟩ := claimAllowed_eq_ok hallowed
  refine ⟨hregistered, hpolicy.1, ?_⟩
  split at h
  · next existing hget => exact renewVoucher_reserved hget h
  · next hget => exact issueVoucher_reserved hget hwallet h

theorem Reserved.voucherStep {s s' : Store} {accountId : String} {now deadline : Int}
    {row : VoucherRow} (h : Reserved s s' accountId now deadline row) : VoucherStep s s' := by
  cases h with
  | again hget hunused hlive h => exact .frame (by rw [h])
  | renewed old hget hunused hexpired hlimit hrow h =>
      refine .renewed accountId old now deadline hget hunused ?_
      rw [h, hrow]
  | issued hnew hstatus hunused hissued hwallet hkey hlimit h =>
      exact .issued accountId row hnew hstatus hunused hwallet hkey (by rw [h])

theorem Reserved.claims {s s' : Store} {accountId : String} {now deadline : Int} {row : VoucherRow}
    (h : Reserved s s' accountId now deadline row) : s'.claims = s.claims := by
  cases h with
  | again hget hunused hlive h => rw [h]
  | renewed old hget hunused hexpired hlimit hrow h => rw [h]
  | issued hnew hstatus hunused hissued hwallet hkey hlimit h => rw [h]

theorem saveQuote_same {quoteId : String} {row : QuoteRow} {s s' : Store}
    (h : saveQuote quoteId row s = .ok s') : SameClaims s s' := by
  simp only [saveQuote, bind_eq_ok, pure_eq_ok] at h
  obtain ⟨_, _, _, _, rfl⟩ := h
  exact ⟨rfl, rfl⟩

theorem submit_vouchers {accountId quoteId operationId : String} {transactionHash : Bytes32}
    {operation : TrackedOperation} {s s' : Store}
    (h : submit accountId quoteId transactionHash operationId s = .ok (operation, s')) :
    s'.claims = s.claims ∧ (s'.vouchers = s.vouchers ∨
      (∃ quote, s.quotes.get? quoteId = some quote ∧ quote.operation = .claim) ∧
        s'.vouchers = s.vouchers.mapValues (fun id row =>
          if id = accountId ∧ row.transactionHash = none then
            { row with status := .submitted, transactionHash := some transactionHash }
          else row)) := by
  unfold submit at h
  split at h
  · cases h
  · next quote hquote =>
      simp only [bind_eq_ok, ensure_eq_ok] at h
      obtain ⟨_, _, _, _, h⟩ := h
      split at h
      · simp only [bind_eq_ok, ensure_eq_ok, pure_eq_ok, Prod.mk.injEq] at h
        obtain ⟨_, _, _, rfl⟩ := h
        exact ⟨rfl, .inl rfl⟩
      · simp only [bind_eq_ok, ensure_eq_ok, pure_eq_ok, Prod.mk.injEq] at h
        obtain ⟨_, _, _, _, s₁, hvouchers, _, rfl⟩ := h
        split at hvouchers
        · next hclaim =>
            rw [updateVouchers_eq_ok hvouchers]
            simp only [decide_eq_true_eq]
            exact ⟨trivial, .inr ⟨⟨quote, hquote, hclaim⟩, trivial⟩⟩
        · cases hvouchers
          exact ⟨rfl, .inl rfl⟩

/-- What a row update that depends on a condition tracks. -/
theorem tracks_ite {p : String → VoucherRow → Prop} [∀ id row, Decidable (p id row)]
    {f : VoucherRow → VoucherRow}
    (hf : ∀ id row, p id row → (f row).transactionHash ≠ none ∧ (f row).status ≠ .issued ∧
      (f row).accountKey = row.accountKey ∧ (f row).wallet = row.wallet ∧
      (f row).nonce = row.nonce ∧ (f row).issuedAt = row.issuedAt ∧
      (f row).deadline = row.deadline) :
    Tracks (fun id row => if p id row then f row else row) := by
  intro id row
  by_cases hp : p id row
  · simp only [if_pos hp]
    exact .inr (hf id row hp)
  · simp only [if_neg hp]
    exact .inl trivial

theorem voucherStatus_ne_issued (state : OperationState) : state.voucherStatus ≠ .issued := by
  cases state <;> decide

theorem submitted_tracks (accountId : String) (transactionHash : Bytes32) :
    Tracks (fun id row => if id = accountId ∧ row.transactionHash = none then
      { row with status := .submitted, transactionHash := some transactionHash } else row) :=
  tracks_ite (p := fun id row => id = accountId ∧ row.transactionHash = none)
    (f := fun row => { row with status := .submitted, transactionHash := some transactionHash })
    fun _ _ _ => ⟨by simp, by simp, rfl, rfl, rfl, rfl, rfl⟩

theorem observed_tracks (claim : IndexedMarketClaim) (transactionHash : Bytes32) :
    Tracks (fun _ row => if row.accountKey = claim.accountKey then
      { row with
        status := if 3 ≤ claim.location.confirmations then .completed else .included
        transactionHash := some transactionHash } else row) :=
  tracks_ite (p := fun _ row => row.accountKey = claim.accountKey)
    (f := fun row => { row with
      status := if 3 ≤ claim.location.confirmations then .completed else .included
      transactionHash := some transactionHash })
    fun _ _ _ => ⟨by simp, by dsimp only; split <;> simp, rfl, rfl, rfl, rfl, rfl⟩

theorem updated_tracks (operation : TrackedOperation) :
    Tracks (fun _ row => if row.transactionHash = some operation.transactionHash then
      { row with status := operation.state.voucherStatus } else row) :=
  tracks_ite (p := fun _ row => row.transactionHash = some operation.transactionHash)
    (f := fun row => { row with status := operation.state.voucherStatus })
    fun _ _ hp => ⟨by simp [hp], voucherStatus_ne_issued _, rfl, rfl, rfl, rfl, rfl⟩

theorem reorged_tracks (fromBlock : Nat) (claims : OrderedMap EventKey ClaimRow) :
    Tracks (fun _ row => if claims.any (fun e => displacedClaim fromBlock e.2 ∧
        row.transactionHash = some e.1.transactionHash) = true then
      { row with status := .reorged } else row) :=
  tracks_ite (p := fun _ row => claims.any (fun e => displacedClaim fromBlock e.2 ∧
      row.transactionHash = some e.1.transactionHash) = true)
    (f := fun row => { row with status := .reorged })
    fun _ row hp => by
      simp only [List.any_eq_true, decide_eq_true_eq] at hp
      obtain ⟨e, _, _, htransaction⟩ := hp
      exact ⟨by simp [htransaction], by simp, rfl, rfl, rfl, rfl, rfl⟩

/-! ## Every call -/

theorem transact_final {α : Type} {f : Store → Except String (α × Store)} (s : Store) :
    final (transact f s) = s ∨ ∃ a, f s = .ok (a, final (transact f s)) := by
  cases h : f s with
  | ok r =>
      right
      refine ⟨r.1, ?_⟩
      simp only [transact, atomic, h]
      rfl
  | error e =>
      left
      simp only [transact, atomic, h]
      rfl

theorem atomic_final {f : Store → Except String Store} (s : Store) :
    final (atomic (fun s => ((), ·) <$> f s) s) = s ∨
      f s = .ok (final (atomic (fun s => ((), ·) <$> f s) s)) := by
  cases h : f s with
  | ok s' =>
      right
      simp only [atomic, h]
      rfl
  | error e =>
      left
      simp only [atomic, h]
      rfl

/-- What a call can do to vouchers and claims. -/
inductive Effect (c : Config) (s s' : Store) : Action → Prop where
  | same {a : Action} (h : SameClaims s s') : Effect c s s' a
  | reserved {accountId : String} {owner : Address} {now deadline : Int} {claims : Nat}
      {nonce : Bytes32} {row : VoucherRow}
      (h : reserveClaim accountId owner now deadline claims nonce s = .ok (row, s')) :
      Effect c s s' (.reserveClaim accountId owner now deadline claims nonce)
  | submitted {accountId quoteId operationId : String} {transactionHash : Bytes32} {quote : QuoteRow}
      (hquote : s.quotes.get? quoteId = some quote) (hclaim : quote.operation = .claim)
      (hclaims : s'.claims = s.claims)
      (h : s'.vouchers = s.vouchers.mapValues (fun id row =>
        if id = accountId ∧ row.transactionHash = none then
          { row with status := .submitted, transactionHash := some transactionHash } else row)) :
      Effect c s s' (.submit accountId quoteId transactionHash operationId)
  | updated {operation : TrackedOperation} (hclaims : s'.claims = s.claims)
      (h : s'.vouchers = s.vouchers.mapValues (fun _ row =>
        if row.transactionHash = some operation.transactionHash then
          { row with status := operation.state.voucherStatus } else row)) :
      Effect c s s' (.updateOperation operation)
  | observed {claim : IndexedMarketClaim} (h : observeClaim c.chainId claim s = .ok s') :
      Effect c s s' (.observeClaim claim)
  | rolledBack {fromBlock : Nat} (h : s' = rollbackClaims fromBlock s) :
      Effect c s s' (.rollbackClaims fromBlock)

theorem SameClaims.refl (s : Store) : SameClaims s s := ⟨rfl, rfl⟩

theorem transact_effect {c : Config} {a : Action} {α : Type} {f : Store → Except String (α × Store)}
    {s : Store} (h : ∀ r s', f s = .ok (r, s') → Effect c s s' a) :
    Effect c s (final (transact f s)) a := by
  rcases transact_final (f := f) s with hsame | ⟨r, hok⟩
  · rw [hsame]
    exact .same (SameClaims.refl s)
  · exact h r _ hok

theorem atomic_effect {c : Config} {a : Action} {f : Store → Except String Store} {s : Store}
    (h : ∀ s', f s = .ok s' → Effect c s s' a) :
    Effect c s (final (atomic (fun s => ((), ·) <$> f s) s)) a := by
  rcases atomic_final (f := f) s with hsame | hok
  · rw [hsame]
    exact .same (SameClaims.refl s)
  · exact h _ hok

theorem same_effect {c : Config} {a : Action} {α : Type} {p : Program α} {s : Store}
    (h : Triple (SameClaims s) p (fun _ => SameClaims s) (SameClaims s)) :
    Effect c s (final ((do let _ ← p) s)) a :=
  .same (Triple.final (h.bind fun _ => Triple.pure fun _ hs => hs) (SameClaims.refl s))

theorem step_effect {c : Config} {a : Action} {s s' : Store} (h : step c a s = .ok s') :
    Effect c s s' a := by
  cases h
  cases a with
  | trustedAccount identity now accountId =>
      exact transact_effect fun _ _ h => .same (trustedAccount_same h)
  | bindingChallenge accountId wallet now nonce =>
      exact transact_effect fun _ _ h => .same (bindingChallenge_same h)
  | bindWallet accountId nonce signature now =>
      exact same_effect (bindWallet_same c accountId nonce signature now s)
  | walletTestChallenge wallet now nonce =>
      exact transact_effect fun _ _ h => .same (walletTestChallenge_same h)
  | openWalletTestSession nonce signature now seed =>
      exact same_effect (openWalletTestSession_same c nonce signature now seed s)
  | reserveClaim accountId owner now deadline chainSuccessfulClaims nonce =>
      exact transact_effect fun _ _ h => .reserved h
  | saveQuote quoteId row => exact atomic_effect fun _ h => .same (saveQuote_same h)
  | submit accountId quoteId transactionHash operationId =>
      refine transact_effect fun _ s' h => ?_
      obtain ⟨hclaims, hsame | ⟨⟨quote, hquote, hclaim⟩, hvouchers⟩⟩ := submit_vouchers h
      · exact .same ⟨hsame, hclaims⟩
      · exact .submitted hquote hclaim hclaims hvouchers
  | updateOperation operation => exact .updated rfl rfl
  | observeClaim claim => exact atomic_effect fun _ h => .observed h
  | rollbackClaims fromBlock => exact .rolledBack rfl

theorem Effect.voucherStep {c : Config} {a : Action} {s s' : Store} (h : Effect c s s' a) :
    VoucherStep s s' := by
  cases h with
  | same h => exact .frame h.1
  | reserved h => exact (reserveClaim_reserved h).2.2.voucherStep
  | submitted hquote hclaim hclaims h => exact .tracked _ (submitted_tracks _ _) h
  | updated hclaims h => exact .tracked _ (updated_tracks _) h
  | observed h =>
      obtain ⟨key, claims, _, _, _, rfl⟩ := observeClaim_eq_ok h
      exact .tracked _ (observed_tracks _ key.transactionHash) rfl
  | rolledBack h => exact .tracked _ (reorged_tracks _ s.claims) (by rw [h]; rfl)

theorem step_voucherStep {c : Config} {a : Action} {s s' : Store} (h : step c a s = .ok s') :
    VoucherStep s s' :=
  (step_effect h).voucherStep

/-! ## Every run -/

/-- One voucher to an account and to a wallet, which has a transaction unless it is
only issued. -/
structure Registry (s : Store) : Prop where
  keys : s.vouchers.keys.Nodup
  accountKey : ∀ id id' row row', s.vouchers.get? id = some row → s.vouchers.get? id' = some row' →
    row.accountKey = row'.accountKey → id = id'
  wallet : ∀ id id' row row', s.vouchers.get? id = some row → s.vouchers.get? id' = some row' →
    row.wallet = row'.wallet → id = id'
  unused : ∀ id row, s.vouchers.get? id = some row →
    (row.transactionHash = none ↔ row.status = .issued)

/-- A voucher stays the same voucher, and keeps that it has a transaction. -/
structure Kept (row row' : VoucherRow) : Prop where
  accountKey : row'.accountKey = row.accountKey
  wallet : row'.wallet = row.wallet
  nonce : row'.nonce = row.nonce
  used : row.transactionHash ≠ none → row'.transactionHash ≠ none

theorem Kept.refl (row : VoucherRow) : Kept row row := ⟨rfl, rfl, rfl, id⟩

theorem Kept.trans {row row' row'' : VoucherRow} (h : Kept row row') (h' : Kept row' row'') :
    Kept row row'' :=
  ⟨h'.accountKey.trans h.accountKey, h'.wallet.trans h.wallet, h'.nonce.trans h.nonce,
    fun hused => h'.used (h.used hused)⟩

theorem Tracks.kept {f : String → VoucherRow → VoucherRow} (hf : Tracks f) (id : String)
    (row : VoucherRow) : Kept row (f id row) := by
  rcases hf id row with hsame | ⟨hused, _, hkey, hwallet, hnonce, _⟩
  · rw [hsame]
    exact Kept.refl row
  · exact ⟨hkey, hwallet, hnonce, fun _ => hused⟩

theorem VoucherStep.kept {s s' : Store} (h : VoucherStep s s') {id : String} {row : VoucherRow}
    (hrow : s.vouchers.get? id = some row) :
    ∃ row', s'.vouchers.get? id = some row' ∧ Kept row row' := by
  cases h with
  | frame h =>
      rw [h]
      exact ⟨row, hrow, Kept.refl row⟩
  | issued accountId new hnew hstatus hunused hwallet hkey h =>
      refine ⟨row, ?_, Kept.refl row⟩
      have hne : id ≠ accountId := fun heq => by
        rw [heq, hnew] at hrow
        cases hrow
      rw [h, OrderedMap.get?_set_of_ne hne, hrow]
  | renewed accountId old issuedAt deadline hold hunused h =>
      rw [h, OrderedMap.get?_set]
      by_cases heq : id = accountId
      · rw [heq, hold, Option.some.injEq] at hrow
        refine ⟨_, if_pos heq, ?_⟩
        rw [hrow]
        exact ⟨rfl, rfl, rfl, fun hused => hused⟩
      · exact ⟨row, by rw [if_neg heq, hrow], Kept.refl row⟩
  | tracked f hf h =>
      refine ⟨f id row, ?_, hf.kept id row⟩
      rw [h, OrderedMap.get?_mapValues, hrow]
      rfl

theorem Registry.of_kept {s s' : Store} (h : Registry s) (hkeys : s'.vouchers.keys.Nodup)
    (hrows : ∀ id row', s'.vouchers.get? id = some row' → ∃ row, s.vouchers.get? id = some row ∧
      Kept row row' ∧ (row'.transactionHash = none ↔ row'.status = .issued)) : Registry s' where
  keys := hkeys
  accountKey := by
    intro id id' row row' hrow hrow' heq
    obtain ⟨old, hold, hkept, _⟩ := hrows id row hrow
    obtain ⟨old', hold', hkept', _⟩ := hrows id' row' hrow'
    refine h.accountKey id id' old old' hold hold' ?_
    rw [← hkept.accountKey, ← hkept'.accountKey, heq]
  wallet := by
    intro id id' row row' hrow hrow' heq
    obtain ⟨old, hold, hkept, _⟩ := hrows id row hrow
    obtain ⟨old', hold', hkept', _⟩ := hrows id' row' hrow'
    refine h.wallet id id' old old' hold hold' ?_
    rw [← hkept.wallet, ← hkept'.wallet, heq]
  unused := by
    intro id row hrow
    obtain ⟨_, _, _, hunused⟩ := hrows id row hrow
    exact hunused

/-- A value that no row has, put in a new row, is still in one row only. -/
theorem get?_set_injective {β : Type} {column : VoucherRow → β} {m : OrderedMap String VoucherRow}
    {accountId : String} {row : VoucherRow} (hfresh : ∀ e ∈ m, column e.2 ≠ column row)
    (h : ∀ id id' r r', m.get? id = some r → m.get? id' = some r' → column r = column r' → id = id') :
    ∀ id id' r r', (m.set accountId row).get? id = some r → (m.set accountId row).get? id' = some r' →
      column r = column r' → id = id' := by
  intro id id' r r' hr hr' heq
  rw [OrderedMap.get?_set] at hr hr'
  split at hr <;> split at hr'
  · next hid hid' => rw [hid, hid']
  · next hid hid' =>
      cases hr
      exact absurd heq.symm (hfresh _ (OrderedMap.mem_of_get? hr'))
  · next hid hid' =>
      cases hr'
      exact absurd heq (hfresh _ (OrderedMap.mem_of_get? hr))
  · exact h id id' r r' hr hr' heq

theorem Registry.step {s s' : Store} (h : Registry s) (hstep : VoucherStep s s') : Registry s' := by
  cases hstep with
  | frame hsame =>
      refine h.of_kept (by rw [hsame]; exact h.keys) fun id row hrow => ?_
      rw [hsame] at hrow
      exact ⟨row, hrow, Kept.refl row, h.unused id row hrow⟩
  | issued accountId new hnew hstatus hunused hwallet hkey hset =>
      refine ⟨?_, ?_, ?_, ?_⟩
      · rw [hset]
        exact OrderedMap.nodup_keys_set h.keys
      · rw [hset]
        exact get?_set_injective hkey h.accountKey
      · rw [hset]
        exact get?_set_injective hwallet h.wallet
      · intro id row hrow
        rw [hset, OrderedMap.get?_set] at hrow
        split at hrow
        · cases hrow
          exact ⟨fun _ => hstatus, fun _ => hunused⟩
        · exact h.unused id row hrow
  | renewed accountId old issuedAt deadline hold hunused hset =>
      refine h.of_kept (by rw [hset]; exact OrderedMap.nodup_keys_set h.keys) fun id row hrow => ?_
      rw [hset, OrderedMap.get?_set] at hrow
      split at hrow
      · next heq =>
          cases hrow
          refine ⟨old, heq ▸ hold, ⟨rfl, rfl, rfl, fun hused => hused⟩, ?_⟩
          exact ⟨fun _ => rfl, fun _ => hunused⟩
      · exact ⟨row, hrow, Kept.refl row, h.unused id row hrow⟩
  | tracked f hf hmap =>
      refine h.of_kept (by rw [hmap, OrderedMap.keys_mapValues]; exact h.keys) fun id row hrow => ?_
      rw [hmap, OrderedMap.get?_mapValues, Option.map_eq_some_iff] at hrow
      obtain ⟨old, hold, rfl⟩ := hrow
      refine ⟨old, hold, hf.kept id old, ?_⟩
      rcases hf id old with hsame | ⟨hused, hstatus, _⟩
      · rw [hsame]
        exact h.unused id old hold
      · exact ⟨fun hnone => absurd hnone hused, fun hissued => absurd hissued hstatus⟩

theorem registry_empty : Registry Store.empty where
  keys := List.nodup_nil
  accountKey := by
    intro id id' row row' hrow
    cases hrow
  wallet := by
    intro id id' row row' hrow
    cases hrow
  unused := by
    intro id row hrow
    cases hrow

theorem exec_registry (c : Config) {s : Store} (h : Registry s) (actions : List Action) :
    Registry (Machine.exec (step c) s actions) :=
  Machine.exec_invariant (fun _ _ _ h hstep => h.step (step_voucherStep hstep)) h actions

theorem exec_kept_voucher (c : Config) {s : Store} {id : String} {row : VoucherRow}
    (hrow : s.vouchers.get? id = some row) (actions : List Action) :
    ∃ row', (Machine.exec (step c) s actions).vouchers.get? id = some row' ∧ Kept row row' := by
  refine Machine.exec_invariant
    (P := fun s' : Store => ∃ row', s'.vouchers.get? id = some row' ∧ Kept row row')
    (fun a s₁ s₂ h hstep => ?_) ⟨row, hrow, Kept.refl row⟩ actions
  obtain ⟨row₁, hrow₁, hkept⟩ := h
  obtain ⟨row₂, hrow₂, hkept'⟩ := (step_voucherStep hstep).kept hrow₁
  exact ⟨row₂, hrow₂, hkept.trans hkept'⟩

theorem Reserved.voucher {s s' : Store} {accountId : String} {now deadline : Int} {row : VoucherRow}
    (h : Reserved s s' accountId now deadline row) :
    s'.vouchers.get? accountId = some row ∧ row.transactionHash = none := by
  cases h with
  | again hget hunused hlive h =>
      rw [h]
      exact ⟨hget, hunused⟩
  | renewed old hget hunused hexpired hlimit hrow h =>
      rw [h, OrderedMap.get?_set_self]
      refine ⟨rfl, ?_⟩
      rw [hrow]
      exact hunused
  | issued hnew hstatus hunused hissued hwallet hkey hlimit h =>
      rw [h, OrderedMap.get?_set_self]
      exact ⟨rfl, hunused⟩

/-- Every voucher that was handed out is in the table at the end of the run. -/
theorem vouchersOf_kept {c : Config} {s : Store} {actions : List Action} {row : VoucherRow}
    (h : row ∈ vouchersOf c s actions) :
    ∃ id row', (Machine.exec (step c) s actions).vouchers.get? id = some row' ∧ Kept row row' := by
  obtain ⟨t, ht, hvoucher⟩ := List.mem_filterMap.mp h
  have hpost := Machine.history_step ht
  obtain ⟨pre, a, post⟩ := t
  cases a with
  | reserveClaim accountId owner now deadline chainSuccessfulClaims nonce =>
      simp only [Action.voucher, Option.map_eq_some_iff] at hvoucher
      obtain ⟨⟨row₁, s₁⟩, hreserve, rfl⟩ := hvoucher
      have hok := toOption_eq_some.mp hreserve
      have hs₁ : s₁ = post := by
        have hfinal := Except.ok.inj hpost
        simp only [Action.program, transact, atomic, hok] at hfinal
        exact hfinal
      obtain ⟨hget, _⟩ := (reserveClaim_reserved hok).2.2.voucher
      refine ⟨accountId, Machine.exec_since
        (P := fun s' : Store => ∃ row', s'.vouchers.get? accountId = some row' ∧ Kept row₁ row')
        (fun a s₁ s₂ h hstep => ?_) ht ⟨row₁, hs₁ ▸ hget, Kept.refl row₁⟩⟩
      obtain ⟨row₁, hrow₁, hkept⟩ := h
      obtain ⟨row₂, hrow₂, hkept'⟩ := (step_voucherStep hstep).kept hrow₁
      exact ⟨row₂, hrow₂, hkept.trans hkept'⟩
  | _ => cases hvoucher

/-- A voucher with a transaction is not handed out again, to anyone. -/
theorem Registry.not_reissued {s s' : Store} (h : Registry s) {id accountId : String}
    {now deadline : Int} {row voucher : VoucherRow} (hrow : s.vouchers.get? id = some row)
    (hused : row.transactionHash ≠ none) (hreserved : Reserved s s' accountId now deadline voucher) :
    voucher.accountKey ≠ row.accountKey ∧ voucher.wallet ≠ row.wallet := by
  obtain ⟨row', hrow', hkept⟩ := hreserved.voucherStep.kept hrow
  obtain ⟨hget, hunused⟩ := hreserved.voucher
  have hregistry := h.step hreserved.voucherStep
  have hne : accountId ≠ id := fun heq => by
    rw [heq, hrow', Option.some.injEq] at hget
    rw [← hget] at hunused
    exact hkept.used hused hunused
  refine ⟨fun heq => hne ?_, fun heq => hne ?_⟩
  · exact hregistry.accountKey _ _ _ _ hget hrow' (heq.trans hkept.accountKey.symm)
  · exact hregistry.wallet _ _ _ _ hget hrow' (heq.trans hkept.wallet.symm)

/-- A column that tells the rows apart does not repeat. -/
theorem nodup_column {β : Type} {column : VoucherRow → β} {m : OrderedMap String VoucherRow}
    (hkeys : m.keys.Nodup)
    (h : ∀ id id' r r', m.get? id = some r → m.get? id' = some r' → column r = column r' → id = id') :
    (m.map (fun e => column e.2)).Nodup := by
  refine List.Nodup.map_on (fun e he e' he' heq => ?_) (List.Nodup.of_map Prod.fst hkeys)
  have hget := (OrderedMap.mem_iff_get? hkeys).mp he
  have hget' := (OrderedMap.mem_iff_get? hkeys).mp he'
  have hid := h _ _ _ _ hget hget' heq
  rw [hid, hget', Option.some.injEq] at hget
  exact Prod.ext hid hget.symm

/-- The voucher that the service signs, in the epoch of the contract's signer. -/
def signed (row : VoucherRow) (epoch : Nat) : ClaimReserve.ClaimVoucher :=
  { accountId := row.accountKey, wallet := row.wallet, nonce := row.nonce.toNat,
    issuedAt := row.issuedAt.toNat, deadline := row.deadline.toNat, epoch }

/-- Vouchers of the store with one wallet are of one account. -/
theorem signed_account {c : Config} {actions : List Action} {row row' : VoucherRow}
    (h : row ∈ vouchersOf c Store.empty actions) (h' : row' ∈ vouchersOf c Store.empty actions)
    (hwallet : row.wallet = row'.wallet) : row.accountKey = row'.accountKey := by
  obtain ⟨id, last, hlast, hkept⟩ := vouchersOf_kept h
  obtain ⟨id', last', hlast', hkept'⟩ := vouchersOf_kept h'
  have hid : id = id' := by
    refine (exec_registry c registry_empty actions).wallet id id' last last' hlast hlast' ?_
    rw [hkept.wallet, hkept'.wallet, hwallet]
  rw [hid, hlast', Option.some.injEq] at hlast
  rw [← hkept.accountKey, ← hkept'.accountKey, hlast]

/-- An account and a wallet have at most one voucher, which stays theirs and is not
handed out again once it has a transaction, and the contract pays it once. -/
theorem one_payout_in_every_run (c : Config) (actions : List Action) :
    ((Machine.exec (step c) Store.empty actions).vouchers.keys.Nodup ∧
      ((Machine.exec (step c) Store.empty actions).vouchers.map (fun e => e.2.accountKey)).Nodup ∧
      ((Machine.exec (step c) Store.empty actions).vouchers.map (fun e => e.2.wallet)).Nodup) ∧
    (∀ id row later,
      (Machine.exec (step c) Store.empty actions).vouchers.get? id = some row →
      (∃ row', (Machine.exec (step c) Store.empty (actions ++ later)).vouchers.get? id = some row' ∧
        row'.accountKey = row.accountKey ∧ row'.wallet = row.wallet ∧ row'.nonce = row.nonce) ∧
      (row.transactionHash ≠ none ∨ row.status = .completed →
        ∀ accountId owner now deadline claims nonce voucher s',
          reserveClaim accountId owner now deadline claims nonce
            (Machine.exec (step c) Store.empty (actions ++ later)) = .ok (voucher, s') →
          voucher.accountKey ≠ row.accountKey ∧ voucher.wallet ≠ row.wallet)) ∧
    ∀ (chain : ClaimReserve.Config) (start : ClaimReserve.State) (calls : List ClaimReserve.Action),
      (∀ voucher ∈ ClaimReserve.payouts chain start calls,
        ∃ row ∈ vouchersOf c Store.empty actions, ∃ epoch, voucher = signed row epoch) →
      ((ClaimReserve.payouts chain start calls).map (·.accountId)).Nodup ∧
        ((ClaimReserve.payouts chain start calls).map (·.wallet)).Nodup := by
  have hregistry := exec_registry c registry_empty actions
  refine ⟨⟨hregistry.keys, nodup_column hregistry.keys hregistry.accountKey,
    nodup_column hregistry.keys hregistry.wallet⟩, ?_, ?_⟩
  · intro id row later hrow
    rw [Machine.exec_append]
    obtain ⟨row', hrow', hkept⟩ := exec_kept_voucher c hrow later
    refine ⟨⟨row', hrow', hkept.accountKey, hkept.wallet, hkept.nonce⟩, ?_⟩
    intro hused accountId owner now deadline claims nonce voucher s' hreserve
    have hhash : row.transactionHash ≠ none := by
      rcases hused with hhash | hcompleted
      · exact hhash
      · intro hnone
        rw [(hregistry.unused id row hrow).mp hnone] at hcompleted
        cases hcompleted
    have hnot := (exec_registry c hregistry later).not_reissued hrow' (hkept.used hhash)
      (reserveClaim_reserved hreserve).2.2
    rw [hkept.accountKey, hkept.wallet] at hnot
    exact hnot
  · intro chain start calls hissued
    have haccounts := ClaimReserve.payouts_accounts_nodup chain start calls
    refine ⟨haccounts, List.pairwise_map.mpr ?_⟩
    refine (List.pairwise_map.mp haccounts).imp_of_mem fun {v w} hv hw hne hwallet => hne ?_
    obtain ⟨row, hrow, epoch, rfl⟩ := hissued v hv
    obtain ⟨row', hrow', epoch', rfl⟩ := hissued w hw
    exact signed_account hrow hrow' hwallet

end MarketStore
end AlphaForge
