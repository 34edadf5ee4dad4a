/-
The limit of one hundred claims.

A voucher takes up a claim from the moment it has a transaction, or as long as its
deadline is ahead.  The vouchers that do are at most one hundred as of the last
issue, if each reservation sees the claims of all included vouchers and no voucher
gets its first transaction after another was issued in its place.
-/
import AlphaForge.Market.MarketStore.Vouchers

namespace AlphaForge
namespace MarketStore

open Evm Market
open Commit (atomic final)

/-! ## What counts -/

/-- Whether a canonical claim of the voucher's account was observed. -/
def claimed (s : Store) (row : VoucherRow) : Bool :=
  (canonicalClaims s).any (fun e => e.2.accountKey = row.accountKey)

/-- A voucher without a canonical claim that could still be paid, or has been. -/
def payable (s : Store) (now : Int) (row : VoucherRow) : Bool :=
  claimed s row = false ∧ ((row.status = .issued ∧ now < row.deadline) ∨
    (row.transactionHash ≠ none ∧ row.status ≠ .reverted))

def pending (s : Store) (now : Int) : Nat :=
  s.vouchers.countP (fun e => payable s now e.2)

/-- A voucher that takes up a claim at a time. -/
def taken (now : Int) (row : VoucherRow) : Bool :=
  row.transactionHash ≠ none ∨ now < row.deadline

def takenCount (s : Store) (now : Int) : Nat :=
  s.vouchers.countP (fun e => taken now e.2)

/-! ## When the counts agree -/

/-- No voucher was issued after the deadline of this one, or it has its transaction
already. -/
def inTime (s : Store) (row : VoucherRow) : Bool :=
  row.transactionHash ≠ none ∨ s.vouchers.all (fun e => e.2.issuedAt < row.deadline)

/-- Every included voucher has its claim among the canonical ones. -/
def observedAll (s : Store) : Bool :=
  s.vouchers.all (fun e => (e.2.status ≠ .included ∧ e.2.status ≠ .completed) ∨ claimed s e.2 = true)

/-- The call would give the account's voucher a new deadline. -/
def issues (s : Store) (accountId : String) (now : Int) : Bool :=
  (s.vouchers.get? accountId).all (fun row => row.deadline ≤ now)

/-- The clock does not go back behind an issue, a new deadline is given only when the
claims of all included vouchers were observed, and a first transaction comes in
time. -/
def Action.counted (s : Store) : Action → Bool
  | .reserveClaim accountId _ now _ _ _ =>
      s.vouchers.all (fun e => e.2.issuedAt ≤ now) && (!issues s accountId now || observedAll s)
  | .submit accountId quoteId _ _ =>
      !((s.quotes.get? quoteId).any (fun quote => quote.operation = .claim)) ||
        (s.vouchers.get? accountId).all (inTime s)
  | .observeClaim claim =>
      s.vouchers.all (fun e => e.2.accountKey ≠ claim.accountKey || inTime s e.2)
  | _ => true

/-! ## Claims of one account -/

/-- At most one canonical claim to an account. -/
structure OneClaim (claims : OrderedMap EventKey ClaimRow) : Prop where
  keys : claims.keys.Nodup
  account : ∀ key key' row row', claims.get? key = some row → claims.get? key' = some row' →
    row.canonical = true → row'.canonical = true → row.accountKey = row'.accountKey → key = key'

theorem OneClaim.put {claims claims' : OrderedMap EventKey ClaimRow} (h : OneClaim claims)
    {key : EventKey} {blockNumber : Nat} {accountKey : Bytes32} {wallet : Address}
    (hput : putClaim key blockNumber accountKey wallet claims = .ok claims') : OneClaim claims' := by
  obtain ⟨new, rfl, hcanonical, _, _, hunique⟩ := putClaim_eq_ok hput
  have hother : ∀ key' row', claims.get? key' = some row' → row'.canonical = true →
      row'.accountKey = new.accountKey → key' = key := by
    intro key' row' hget hrow haccount
    rcases hunique _ (OrderedMap.mem_of_get? hget) with hkey | hne | hfalse
    · exact hkey
    · exact absurd haccount hne
    · rw [hrow] at hfalse
      cases hfalse
  refine ⟨OrderedMap.nodup_keys_set h.keys, ?_⟩
  intro k k' row row' hrow hrow' hc hc' haccount
  rw [OrderedMap.get?_set] at hrow hrow'
  split at hrow <;> split at hrow'
  · next hk hk' => rw [hk, hk']
  · next hk hk' =>
      cases hrow
      rw [hk, hother k' row' hrow' hc' haccount.symm]
  · next hk hk' =>
      cases hrow'
      rw [hk', hother k row hrow hc haccount]
  · exact h.account k k' row row' hrow hrow' hc hc' haccount

theorem OneClaim.rollback {claims : OrderedMap EventKey ClaimRow} (h : OneClaim claims)
    (fromBlock : Nat) :
    OneClaim (claims.mapValues (fun _ row =>
      if fromBlock ≤ row.blockNumber then { row with canonical := false } else row)) := by
  refine ⟨by rw [OrderedMap.keys_mapValues]; exact h.keys, ?_⟩
  intro key key' row row' hrow hrow' hc hc' haccount
  have hclear := fun k r => OrderedMap.get?_clear (k := k) (v := r) ClaimRow.canonical
    (fun v : ClaimRow => (rfl : { v with canonical := false }.canonical = false))
    (fun _ row => fromBlock ≤ row.blockNumber) claims
  obtain ⟨hget, _, _⟩ := (hclear key row).mp ⟨hrow, hc⟩
  obtain ⟨hget', _, _⟩ := (hclear key' row').mp ⟨hrow', hc'⟩
  exact h.account key key' row row' hget hget' hc hc' haccount

theorem Effect.oneClaim {c : Config} {a : Action} {s s' : Store} (h : Effect c s s' a)
    (hone : OneClaim s.claims) : OneClaim s'.claims := by
  cases h with
  | same h => rw [h.2]; exact hone
  | reserved h => rw [(reserveClaim_reserved h).2.2.claims]; exact hone
  | submitted hquote hclaim hclaims h => rw [hclaims]; exact hone
  | updated hclaims h => rw [hclaims]; exact hone
  | observed h =>
      obtain ⟨key, claims, _, _, hput, rfl⟩ := observeClaim_eq_ok h
      exact hone.put hput
  | rolledBack h =>
      rw [h]
      exact hone.rollback _

theorem OneClaim.nodup {s : Store} (h : OneClaim s.claims) :
    ((canonicalClaims s).map (fun e => e.2.accountKey)).Nodup := by
  refine List.Nodup.map_on (fun e he e' he' heq => ?_)
    (List.Nodup.filter _ (List.Nodup.of_map Prod.fst h.keys))
  obtain ⟨hmem, hc⟩ := List.mem_filter.mp he
  obtain ⟨hmem', hc'⟩ := List.mem_filter.mp he'
  have hget := (OrderedMap.mem_iff_get? h.keys).mp hmem
  have hget' := (OrderedMap.mem_iff_get? h.keys).mp hmem'
  have hkey := h.account _ _ _ _ hget hget' hc hc' heq
  rw [hkey, hget', Option.some.injEq] at hget
  exact Prod.ext hkey hget.symm

/-! ## Claims and vouchers that take them up -/

/-- Canonical claims are of different accounts, so rows with the accounts of all of
them are as many. -/
theorem OneClaim.length_le {s : Store} (h : OneClaim s.claims) {p : String × VoucherRow → Bool}
    (hrows : ∀ e ∈ canonicalClaims s, ∃ v ∈ s.vouchers, p v = true ∧
      v.2.accountKey = e.2.accountKey) :
    (canonicalClaims s).length ≤ s.vouchers.countP p := by
  have hsubset : (canonicalClaims s).map (fun e => e.2.accountKey) ⊆
      (s.vouchers.filter p).map (fun v => v.2.accountKey) := by
    intro accountKey hmem
    obtain ⟨e, he, rfl⟩ := List.mem_map.mp hmem
    obtain ⟨v, hv, hp, haccount⟩ := hrows e he
    exact List.mem_map.mpr ⟨v, List.mem_filter.mpr ⟨hv, hp⟩, haccount⟩
  have hle := (List.subperm_of_subset h.nodup hsubset).length_le
  rw [List.length_map, List.length_map] at hle
  rw [List.countP_eq_length_filter]
  exact hle

/-- Vouchers are of different accounts, so the claims of some of them are as many. -/
theorem Registry.countP_le {s : Store} (h : Registry s) {p : String × VoucherRow → Bool}
    (hrows : ∀ v ∈ s.vouchers, p v = true → claimed s v.2 = true) :
    s.vouchers.countP p ≤ (canonicalClaims s).length := by
  have hsubset : (s.vouchers.filter p).map (fun v => v.2.accountKey) ⊆
      (canonicalClaims s).map (fun e => e.2.accountKey) := by
    intro accountKey hmem
    obtain ⟨v, hv, rfl⟩ := List.mem_map.mp hmem
    obtain ⟨hv, hp⟩ := List.mem_filter.mp hv
    have hclaimed := hrows v hv hp
    simp only [claimed, List.any_eq_true, decide_eq_true_eq] at hclaimed
    obtain ⟨e, he, haccount⟩ := hclaimed
    exact List.mem_map.mpr ⟨e, he, haccount⟩
  have hnodup : ((s.vouchers.filter p).map (fun v => v.2.accountKey)).Nodup :=
    (nodup_column h.keys h.accountKey).sublist (List.filter_sublist.map _)
  have hle := (List.subperm_of_subset hnodup hsubset).length_le
  rw [List.length_map, List.length_map] at hle
  rw [List.countP_eq_length_filter]
  exact hle

theorem payable_taken {s : Store} {now : Int} {row : VoucherRow} (h : payable s now row = true) :
    taken now row = true ∧ claimed s row = false := by
  simp only [payable, decide_eq_true_eq] at h
  simp only [taken, decide_eq_true_eq]
  rcases h with ⟨hclaimed, ⟨_, hlive⟩ | ⟨hhash, _⟩⟩
  · exact ⟨.inr hlive, hclaimed⟩
  · exact ⟨.inl hhash, hclaimed⟩

/-- Canonical claims and pending vouchers take up different vouchers. -/
theorem OneClaim.pending_le {s : Store} (h : OneClaim s.claims) (now : Int)
    (hpaid : ∀ e ∈ canonicalClaims s, ∃ v ∈ s.vouchers, v.2.accountKey = e.2.accountKey ∧
      v.2.transactionHash ≠ none) :
    (canonicalClaims s).length + pending s now ≤ takenCount s now := by
  have hclaims : (canonicalClaims s).length ≤
      s.vouchers.countP (fun v => taken now v.2 && claimed s v.2) := by
    refine h.length_le fun e he => ?_
    obtain ⟨v, hv, haccount, hhash⟩ := hpaid e he
    refine ⟨v, hv, ?_, haccount⟩
    simp only [taken, claimed, Bool.and_eq_true, decide_eq_true_eq, List.any_eq_true]
    exact ⟨.inl hhash, e, he, haccount.symm⟩
  have hpending : pending s now ≤ s.vouchers.countP (fun v => taken now v.2 && !claimed s v.2) := by
    refine List.countP_mono_left fun v _ hpayable => ?_
    obtain ⟨htaken, hclaimed⟩ := payable_taken hpayable
    rw [htaken, hclaimed]
    rfl
  have hsplit : takenCount s now = s.vouchers.countP (fun v => taken now v.2 && claimed s v.2) +
      s.vouchers.countP (fun v => taken now v.2 && !claimed s v.2) := by
    rw [takenCount, List.countP_eq_countP_filter_add _ _ (fun v => claimed s v.2),
      List.countP_filter, List.countP_filter]
  omega

/-- What the store counts covers the vouchers that take up a claim, when the claims of
all included ones were observed. -/
theorem Registry.taken_le {s : Store} (h : Registry s) (hall : observedAll s = true) (now : Int) :
    takenCount s now ≤ (canonicalClaims s).length + unresolved s now := by
  have hincluded : s.vouchers.countP
      (fun v => decide (v.2.status = .included ∨ v.2.status = .completed)) ≤
      (canonicalClaims s).length := by
    refine h.countP_le fun v hv hstatus => ?_
    simp only [observedAll, List.all_eq_true, decide_eq_true_eq] at hall hstatus
    rcases hall v hv with hnot | hclaimed
    · rcases hstatus with hstatus | hstatus
      · exact absurd hstatus hnot.1
      · exact absurd hstatus hnot.2
    · exact hclaimed
  have hother : s.vouchers.countP (fun v => taken now v.2 && !unresolvedVoucher now v.2) ≤
      s.vouchers.countP (fun v => decide (v.2.status = .included ∨ v.2.status = .completed)) := by
    refine List.countP_mono_left fun v hv htaken => ?_
    have hunused := h.unused v.1 v.2 ((OrderedMap.mem_iff_get? h.keys).mp hv)
    simp only [taken, unresolvedVoucher, Bool.and_eq_true, Bool.not_eq_true', decide_eq_true_eq,
      decide_eq_false_iff_not, not_or, not_and, List.mem_cons, List.not_mem_nil, or_false] at htaken
    obtain ⟨htaken, hlive, hlisted⟩ := htaken
    rw [decide_eq_true_eq]
    cases hstatus : v.2.status with
    | issued =>
        rw [hunused.mpr hstatus] at htaken
        exact absurd (htaken.resolve_left (by simp)) (hlive hstatus)
    | included => exact .inl rfl
    | completed => exact .inr rfl
    | submitted => simp [hstatus] at hlisted
    | reorged => simp [hstatus] at hlisted
    | reverted => simp [hstatus] at hlisted
    | expired => simp [hstatus] at hlisted
  have hunresolved : s.vouchers.countP (fun v => taken now v.2 && unresolvedVoucher now v.2) ≤
      unresolved s now := by
    refine List.countP_mono_left fun v _ htaken => ?_
    exact (Bool.and_eq_true_iff.mp htaken).2
  have hsplit : takenCount s now =
      s.vouchers.countP (fun v => taken now v.2 && unresolvedVoucher now v.2) +
        s.vouchers.countP (fun v => taken now v.2 && !unresolvedVoucher now v.2) := by
    rw [takenCount, List.countP_eq_countP_filter_add _ _ (fun v => unresolvedVoucher now v.2),
      List.countP_filter, List.countP_filter]
  omega

/-! ## Every run -/

/-- At the time of the last issue, at most a hundred vouchers take up a claim. -/
def Within (s : Store) : Prop :=
  ∃ last, (∀ e ∈ s.vouchers, e.2.issuedAt ≤ last) ∧
    (∀ e ∈ s.vouchers, ∃ e' ∈ s.vouchers, e'.2.issuedAt = last) ∧ takenCount s last ≤ 100

theorem taken_mono {now later : Int} (h : now ≤ later) {row : VoucherRow}
    (htaken : taken later row = true) : taken now row = true := by
  simp only [taken, decide_eq_true_eq] at htaken ⊢
  rcases htaken with hhash | hlive
  · exact .inl hhash
  · exact .inr (by omega)

theorem takenCount_antitone (s : Store) {now later : Int} (h : now ≤ later) :
    takenCount s later ≤ takenCount s now :=
  List.countP_mono_left fun _ _ htaken => taken_mono h htaken

theorem Within.frame {s s' : Store} (h : Within s) (hsame : s'.vouchers = s.vouchers) :
    Within s' := by
  unfold Within takenCount at h ⊢
  rw [hsame]
  exact h

/-- Tracking takes up no further claim, if a first transaction comes in time. -/
theorem Within.tracked {s s' : Store} (h : Within s) {f : String → VoucherRow → VoucherRow}
    (hf : Tracks f) (htime : ∀ e ∈ s.vouchers, f e.1 e.2 = e.2 ∨ inTime s e.2 = true)
    (hmap : s'.vouchers = s.vouchers.mapValues f) : Within s' := by
  obtain ⟨last, hle, hlast, hcount⟩ := h
  have hissued : ∀ id row, (f id row).issuedAt = row.issuedAt := by
    intro id row
    rcases hf id row with hsame | ⟨_, _, _, _, _, hissued, _⟩
    · rw [hsame]
    · exact hissued
  refine ⟨last, ?_, ?_, ?_⟩
  · intro e he
    rw [hmap] at he
    obtain ⟨v, hv, rfl⟩ := List.mem_map.mp he
    rw [hissued]
    exact hle v hv
  · intro e he
    rw [hmap] at he ⊢
    obtain ⟨v, hv, rfl⟩ := List.mem_map.mp he
    obtain ⟨w, hw, heq⟩ := hlast v hv
    exact ⟨(w.1, f w.1 w.2), List.mem_map_of_mem hw, (hissued w.1 w.2).trans heq⟩
  · refine Nat.le_trans ?_ hcount
    rw [takenCount, hmap, OrderedMap.mapValues, List.countP_map]
    refine List.countP_mono_left fun v hv htaken => ?_
    rcases htime v hv with hsame | htime
    · rw [Function.comp_apply, hsame] at htaken
      exact htaken
    · simp only [inTime, decide_eq_true_eq, List.all_eq_true] at htime
      simp only [taken, decide_eq_true_eq]
      refine htime.imp_right fun hall => ?_
      obtain ⟨w, hw, heq⟩ := hlast v hv
      have := hall w hw
      omega

/-- A reservation below the limit takes up one claim more at most. -/
theorem Reserved.within {s s' : Store} {accountId : String} {now deadline : Int} {row : VoucherRow}
    (h : Reserved s s' accountId now deadline row) (hregistry : Registry s) (hwithin : Within s)
    (hclock : ∀ e ∈ s.vouchers, e.2.issuedAt ≤ now)
    (hall : issues s accountId now = true → observedAll s = true) :
    Within s' ∧ takenCount s' now ≤ 100 := by
  have hset : s'.vouchers = s.vouchers.set accountId row → row.issuedAt = now →
      (canonicalClaims s).length + unresolved s now < 100 → issues s accountId now = true →
      Within s' ∧ takenCount s' now ≤ 100 := by
    intro hset hissued hlimit hissues
    have hcount : takenCount s' now ≤ 100 := by
      have hle := OrderedMap.countP_set_le (fun e => taken now e.2) accountId row s.vouchers
      have htaken := hregistry.taken_le (hall hissues) now
      rw [takenCount, hset]
      unfold takenCount at htaken
      omega
    refine ⟨⟨now, fun e he => ?_, fun _ _ => ?_, hcount⟩, hcount⟩
    · rw [hset] at he
      rcases OrderedMap.mem_of_mem_set he with rfl | hold
      · exact Int.le_of_eq hissued
      · exact hclock e hold
    · rw [hset]
      exact ⟨(accountId, row), OrderedMap.mem_of_get? (OrderedMap.get?_set_self _ _ _), hissued⟩
  cases h with
  | again hget hunused hlive h =>
      rw [h]
      refine ⟨hwithin, ?_⟩
      obtain ⟨last, _, hlast, hcount⟩ := hwithin
      obtain ⟨e, he, heq⟩ := hlast _ (OrderedMap.mem_of_get? hget)
      exact (takenCount_antitone s (heq ▸ hclock e he)).trans hcount
  | renewed old hget hunused hexpired hlimit hrow h =>
      refine hset (by rw [h]) (by rw [hrow]) hlimit ?_
      simp [issues, hget, hexpired]
  | issued hnew hstatus hunused hissued hwallet hkey hlimit h =>
      refine hset (by rw [h]) hissued hlimit ?_
      simp [issues, hnew]

/-- What every run keeps. -/
structure Bounded (s : Store) : Prop where
  registry : Registry s
  oneClaim : OneClaim s.claims
  within : Within s

theorem bounded_empty : Bounded Store.empty where
  registry := registry_empty
  oneClaim := by
    refine ⟨List.nodup_nil, ?_⟩
    intro key key' row row' hrow
    cases hrow
  within := by
    refine ⟨0, ?_, ?_, Nat.zero_le _⟩
    · intro e he
      cases he
    · intro e he
      cases he

theorem Within.effect {c : Config} {a : Action} {s s' : Store} (h : Within s)
    (hregistry : Registry s) (heffect : Effect c s s' a) (hcounted : a.counted s = true) :
    Within s' := by
  cases heffect with
  | same hsame => exact h.frame hsame.1
  | reserved hreserve =>
      simp only [Action.counted, Bool.and_eq_true, Bool.or_eq_true, Bool.not_eq_true',
        List.all_eq_true, decide_eq_true_eq] at hcounted
      obtain ⟨hclock, hall⟩ := hcounted
      refine ((reserveClaim_reserved hreserve).2.2.within hregistry h hclock fun hissues => ?_).1
      rw [hissues] at hall
      exact hall.resolve_left (by simp)
  | @submitted accountId quoteId operationId transactionHash quote hquote hclaim hclaims hmap =>
      refine h.tracked (submitted_tracks accountId transactionHash) (fun e he => ?_) hmap
      simp only [Action.counted, hquote, hclaim, Option.any_some, decide_true, Bool.not_true,
        Bool.false_or] at hcounted
      by_cases hrow : e.1 = accountId ∧ e.2.transactionHash = none
      · have hget := (OrderedMap.mem_iff_get? hregistry.keys).mp he
        rw [← hrow.1, hget, Option.all_some] at hcounted
        exact .inr hcounted
      · exact .inl (if_neg hrow)
  | @updated operation hclaims hmap =>
      refine h.tracked (updated_tracks operation) (fun e he => ?_) hmap
      by_cases hhash : e.2.transactionHash = some operation.transactionHash
      · exact .inr (by simp [inTime, hhash])
      · exact .inl (if_neg hhash)
  | @observed claim hobserve =>
      obtain ⟨key, claims, _, _, _, rfl⟩ := observeClaim_eq_ok hobserve
      refine h.tracked (observed_tracks claim key.transactionHash) (fun e he => ?_) rfl
      simp only [Action.counted, List.all_eq_true, Bool.or_eq_true, decide_eq_true_eq] at hcounted
      by_cases haccount : e.2.accountKey = claim.accountKey
      · exact .inr ((hcounted e he).resolve_left (fun hne => hne haccount))
      · exact .inl (if_neg haccount)
  | @rolledBack fromBlock hrollback =>
      refine h.tracked (reorged_tracks fromBlock s.claims) (fun e he => ?_) (by rw [hrollback]; rfl)
      by_cases hany : s.claims.any (fun claim => displacedClaim fromBlock claim.2 ∧
          e.2.transactionHash = some claim.1.transactionHash) = true
      · have hhash := hany
        simp only [List.any_eq_true, decide_eq_true_eq] at hhash
        obtain ⟨claim, _, _, hhash⟩ := hhash
        exact .inr (by simp [inTime, hhash])
      · exact .inl (if_neg hany)

theorem Bounded.step {c : Config} {a : Action} {s s' : Store} (h : Bounded s)
    (hstep : MarketStore.step c a s = .ok s') (hcounted : a.counted s = true) : Bounded s' where
  registry := h.registry.step (step_voucherStep hstep)
  oneClaim := (step_effect hstep).oneClaim h.oneClaim
  within := h.within.effect h.registry (step_effect hstep) hcounted

theorem registered_voucher {s : Store} {e : EventKey × ClaimRow} (h : registered s e = true) :
    ∃ v ∈ s.vouchers, v.2.accountKey = e.2.accountKey ∧ v.2.transactionHash ≠ none := by
  simp only [registered, List.any_eq_true, decide_eq_true_eq] at h
  obtain ⟨v, hv, haccount, _, hhash, _⟩ := h
  exact ⟨v, hv, haccount, by simp [hhash]⟩

/-- Right after a reservation, claims and pending vouchers are at most a hundred. -/
theorem Bounded.reserved {s s' : Store} (h : Bounded s) {accountId : String} {owner : Address}
    {now deadline : Int} {claims : Nat} {nonce : Bytes32} {row : VoucherRow}
    (hreserve : reserveClaim accountId owner now deadline claims nonce s = .ok (row, s'))
    (hcounted : (Action.reserveClaim accountId owner now deadline claims nonce).counted s = true) :
    (canonicalClaims s').length + pending s' now ≤ 100 := by
  simp only [Action.counted, Bool.and_eq_true, Bool.or_eq_true, Bool.not_eq_true',
    List.all_eq_true, decide_eq_true_eq] at hcounted
  obtain ⟨hclock, hall⟩ := hcounted
  obtain ⟨hregistered, _, hreserved⟩ := reserveClaim_reserved hreserve
  have hcount := (hreserved.within h.registry h.within hclock fun hissues => by
    rw [hissues] at hall
    exact hall.resolve_left (by simp)).2
  have hsame : canonicalClaims s' = canonicalClaims s := by
    rw [canonicalClaims, canonicalClaims, hreserved.claims]
  have hone : OneClaim s'.claims := by
    rw [hreserved.claims]
    exact h.oneClaim
  refine Nat.le_trans (hone.pending_le now fun e he => ?_) hcount
  rw [hsame] at he
  obtain ⟨v, hv, haccount, hhash⟩ := registered_voucher (hregistered e he)
  obtain ⟨row', hrow', hkept⟩ := hreserved.voucherStep.kept
    ((OrderedMap.mem_iff_get? h.registry.keys).mp hv)
  exact ⟨(v.1, row'), OrderedMap.mem_of_get? hrow', hkept.accountKey.trans haccount,
    hkept.used hhash⟩

/-- In a run whose calls are all counted, no reservation takes the claims and the
vouchers that may be paid over the limit. -/
theorem claims_within_limit (c : Config) (actions : List Action)
    (hcounted : ∀ t ∈ Machine.history (step c) Store.empty actions,
      t.action.counted t.pre = true) :
    ∀ t ∈ Machine.history (step c) Store.empty actions,
      ∀ accountId owner now deadline claims nonce row,
        t.action = .reserveClaim accountId owner now deadline claims nonce →
        reserveClaim accountId owner now deadline claims nonce t.pre = .ok (row, t.post) →
        (canonicalClaims t.post).length + pending t.post now ≤ 100 := by
  intro t ht accountId owner now deadline claims nonce row haction hreserve
  have hpre := Machine.history_pre
    (fun t ht h => Bounded.step h (Machine.history_step ht) (hcounted t ht)) bounded_empty t ht
  have hcall := hcounted t ht
  rw [haction] at hcall
  exact hpre.reserved hreserve hcall

/-! ## Receipts before claims

Wallet after wallet opens an account and has its claim included, and the index has
seen none of the claims.  The store counts none of the vouchers. -/

section Example

def name (i : Nat) : String := String.ofList (List.replicate i 'a')

def number {w : Nat} (i : Nat) : BitVec w := BitVec.ofNat w (i + 1)

def exampleConfig : Config where
  chainId := 46630
  id := fun text => BitVec.ofNat 256 text.length
  verifyMessage := fun message _ => some message.wallet
  normalizeEmail := fun email => .ok email

def exampleKey (i : Nat) : Bytes32 :=
  exampleConfig.id ("AlphaForge wallet test account:" ++ name i)

def exampleAccount (i : Nat) : AccountRow :=
  { accountKey := exampleKey i, identity := .walletTest, wallet := some (number i), createdAt := 0 }

def exampleMessage (i : Nat) : Message :=
  { accountId := none, wallet := number i, nonce := number i, issuedAt := 0, expiresAt := 300 }

def exampleChallenge (i : Nat) (consumed : Bool) : TestChallengeRow :=
  { wallet := number i, message := exampleMessage i, issuedAt := 0, expiresAt := 300, consumed }

def exampleSession (i : Nat) : SessionRow :=
  { accountId := name i, wallet := number i, csrfToken := "", createdAt := 0, expiresAt := 3600 }

def exampleVoucher (i : Nat) (status : VoucherStatus) (transactionHash : Option Bytes32) :
    VoucherRow :=
  { accountKey := exampleKey i, wallet := number i, nonce := number i, issuedAt := 0, deadline := 60,
    status, transactionHash }

def exampleQuote (i : Nat) : QuoteRow :=
  { accountId := name i, owner := number i, operation := .claim }

def exampleOperation (i : Nat) (state : OperationState) : TrackedOperation :=
  { id := name i, quoteId := name i, owner := number i, transactionHash := number i, state,
    confirmations := 0, location := none, error := none }

def exampleOperationRow (i : Nat) (state : OperationState) : OperationRow :=
  { quoteId := name i, owner := number i, transactionHash := number i,
    payload := exampleOperation i state }

def opens (i : Nat) : List Action :=
  [.walletTestChallenge (number i) 0 (number i),
    .openWalletTestSession (number i) 0 0 ⟨name i, number i, ""⟩]

def includes (i : Nat) : List Action :=
  [.reserveClaim (name i) (number i) 0 60 0 (number i), .saveQuote (name i) (exampleQuote i),
    .submit (name i) (name i) (number i) (name i), .updateOperation (exampleOperation i .included)]

def rounds (n : Nat) : List Action := (List.range n).flatMap (fun i => opens i ++ includes i)

/-- A table with one row for each of the first wallets. -/
def table {κ ν : Type} (n : Nat) (row : Nat → κ × ν) : OrderedMap κ ν := (List.range n).map row

def filled (n : Nat) : Store :=
  { accounts := table n (fun i => (name i, exampleAccount i)), challenges := [],
    vouchers := table n (fun i => (name i, exampleVoucher i .included (some (number i)))),
    quotes := table n (fun i => (name i, exampleQuote i)),
    operations := table n (fun i => (name i, exampleOperationRow i .included)), claims := [],
    testIdentities := table n (fun i => (number i, name i)),
    testChallenges := table n (fun i => (number i, exampleChallenge i true)),
    sessions := table n (fun i => (number i, exampleSession i)) }

/-- The store when the next wallet has its account. -/
def opened (n : Nat) : Store :=
  { filled n with
    accounts := table (n + 1) (fun i => (name i, exampleAccount i)),
    testIdentities := table (n + 1) (fun i => (number i, name i)),
    testChallenges := table (n + 1) (fun i => (number i, exampleChallenge i true)),
    sessions := table (n + 1) (fun i => (number i, exampleSession i)) }

theorem name_inj {i j : Nat} (h : name i = name j) : i = j := by
  have hlength := congrArg String.length h
  simpa [name] using hlength

theorem name_ne {i n : Nat} (h : i < n) : name i ≠ name n := fun heq => by
  have := name_inj heq
  omega

theorem toNat_number {w i : Nat} (hw : 8 ≤ w) (hi : i < 200) : (number i : BitVec w).toNat = i + 1 := by
  have hpow : 2 ^ 8 ≤ 2 ^ w := Nat.pow_le_pow_right (by omega) hw
  rw [number, BitVec.toNat_ofNat, Nat.mod_eq_of_lt (by omega)]

theorem number_ne {w i n : Nat} (hw : 8 ≤ w) (hn : n < 200) (h : i < n) :
    (number i : BitVec w) ≠ number n := by
  intro heq
  have h' := congrArg BitVec.toNat heq
  rw [toNat_number hw (by omega), toNat_number hw hn] at h'
  omega

theorem number_ne_zero {w i : Nat} (hw : 8 ≤ w) (hi : i < 200) : (number i : BitVec w) ≠ 0 := by
  intro heq
  have h' := congrArg BitVec.toNat heq
  rw [toNat_number hw hi] at h'
  simp at h'

theorem exampleKey_ne {i n : Nat} (hn : n < 200) (h : i < n) : exampleKey i ≠ exampleKey n := by
  have hlength : ∀ j, ("AlphaForge wallet test account:" ++ name j).length = 31 + j := by
    intro j
    have hname : (name j).length = j := by simp [name]
    rw [String.length_append, hname]
    rfl
  intro heq
  have h' := congrArg BitVec.toNat heq
  simp only [exampleKey, exampleConfig, hlength, BitVec.toNat_ofNat] at h'
  omega

section Table

variable {κ ν : Type} {n : Nat} {row : Nat → κ × ν}

theorem mem_table {e : κ × ν} : e ∈ table n row ↔ ∃ i < n, row i = e := by
  simp [table]

theorem table_succ : table (n + 1) row = table n row ++ [row n] := by
  rw [table, List.range_succ, List.map_append]
  rfl

theorem set_table [DecidableEq κ] {k : κ} {v : ν} (h : ∀ i < n, (row i).1 ≠ k) :
    (table n row).set k v = table n row ++ [(k, v)] := by
  refine OrderedMap.set_eq_append (OrderedMap.get?_eq_none_iff.mpr fun hmem => ?_)
  obtain ⟨e, he, rfl⟩ := List.mem_map.mp hmem
  obtain ⟨i, hi, rfl⟩ := mem_table.mp he
  exact h i hi rfl

theorem get?_table [DecidableEq κ] {k : κ} (h : ∀ i < n, (row i).1 ≠ k) :
    (table n row).get? k = none := by
  refine OrderedMap.get?_eq_none_iff.mpr fun hmem => ?_
  obtain ⟨e, he, rfl⟩ := List.mem_map.mp hmem
  obtain ⟨i, hi, rfl⟩ := mem_table.mp he
  exact h i hi rfl

theorem get?_table_append [DecidableEq κ] {k : κ} {v : ν} (h : ∀ i < n, (row i).1 ≠ k) :
    OrderedMap.get? k (table n row ++ [(k, v)]) = some v := by
  rw [← set_table h, OrderedMap.get?_set_self]

theorem find?_table {p : κ × ν → Bool} (h : ∀ i < n, p (row i) = false) :
    (table n row).find? p = none := by
  refine List.find?_eq_none.mpr fun e he => ?_
  obtain ⟨i, hi, rfl⟩ := mem_table.mp he
  rw [h i hi]
  exact Bool.false_ne_true

theorem filter_table {p : κ × ν → Bool} (h : ∀ i < n, p (row i) = true) :
    (table n row).filter p = table n row := by
  refine List.filter_eq_self.mpr fun e he => ?_
  obtain ⟨i, hi, rfl⟩ := mem_table.mp he
  exact h i hi

theorem unique_table [DecidableEq κ] {β : Type} [DecidableEq β] {column : ν → Option β} {k : κ} {v : ν}
    (h : ∀ i < n, column (row i).2 ≠ column v) : unique column (table n row) k v = true := by
  simp only [unique, Bool.or_eq_true, List.all_eq_true, decide_eq_true_eq]
  refine .inr fun e he => .inr ?_
  obtain ⟨i, hi, rfl⟩ := mem_table.mp he
  exact h i hi

/-- An update of the last row only. -/
theorem mapValues_table {f : κ → ν → ν} {k : κ} {v w : ν}
    (h : ∀ i < n, f (row i).1 (row i).2 = (row i).2) (hlast : f k v = w) :
    OrderedMap.mapValues f (table n row ++ [(k, v)]) = table n row ++ [(k, w)] := by
  rw [OrderedMap.mapValues, List.map_append, List.map_singleton, hlast]
  refine congrArg (· ++ [(k, w)]) ((List.map_congr_left fun e he => ?_).trans (List.map_id _))
  obtain ⟨i, hi, rfl⟩ := mem_table.mp he
  exact Prod.ext rfl (h i hi)

end Table

def challenged (n : Nat) : Store :=
  { filled n with
    testChallenges := table n (fun i => (number i, exampleChallenge i true)) ++
      [(number n, exampleChallenge n false)] }

theorem address_number {n : Nat} (hn : n < 150) : address (number n) = .ok (number n) :=
  address_eq_ok.mpr ⟨number_ne_zero (by omega) (by omega), rfl⟩

theorem challenge_filled {n : Nat} (hn : n < 150) :
    walletTestChallenge (number n) 0 (number n) (filled n) = .ok (exampleMessage n, challenged n) := by
  have hne : ∀ i < n, (number i : BitVec 192) ≠ number n := fun i hi =>
    number_ne (by omega) (by omega) hi
  have hkept : (filled n).testChallenges.filter
      (fun e => e.2.wallet ≠ number n ∧ (0 : Int) < e.2.expiresAt) = (filled n).testChallenges := by
    refine filter_table fun i hi => decide_eq_true ⟨number_ne (by omega) (by omega) hi, ?_⟩
    show (0 : Int) < 300
    decide
  have hlength : (filled n).testChallenges.length < 1000 := by
    simp only [filled, table, List.length_map, List.length_range]
    omega
  simp only [walletTestChallenge, seconds, address_number hn, ok_bind, bind_eq_ok, ensure_eq_ok,
    pure_eq_ok, hkept]
  refine ⟨(), by decide, (), hlength, (), get?_table hne, ?_⟩
  refine congrArg (fun m => (exampleMessage n, { filled n with testChallenges := m })) ?_
  exact set_table hne

theorem account_set {n : Nat} :
    (table n (fun i => (name i, exampleAccount i))).set (name n) (exampleAccount n) =
      table (n + 1) (fun i => (name i, exampleAccount i)) := by
  rw [set_table fun i hi => name_ne hi, table_succ]

/-- The store when the wallet's challenge is used. -/
def signedIn (n : Nat) : Store :=
  { filled n with testChallenges := table (n + 1) (fun i => (number i, exampleChallenge i true)) }

theorem consume_challenged {n : Nat} (hn : n < 150) :
    consumeTestChallenge (number n) 0 (challenged n) = .ok (exampleChallenge n false, signedIn n) := by
  have hne : ∀ i < n, (number i : BitVec 192) ≠ number n := fun i hi =>
    number_ne (by omega) (by omega) hi
  have hget : (challenged n).testChallenges.get? (number n) = some (exampleChallenge n false) :=
    get?_table_append hne
  have hset : (challenged n).testChallenges.set (number n)
      { exampleChallenge n false with consumed := true } =
      table (n + 1) (fun i => (number i, exampleChallenge i true)) := by
    show OrderedMap.set (number n) (exampleChallenge n true) (table n _ ++ [_]) = _
    rw [← set_table hne, OrderedMap.set_set, set_table hne, table_succ]
  simp only [consumeTestChallenge, hget, hset, bind_eq_ok, ensure_eq_ok, pure_eq_ok]
  refine ⟨(), ⟨rfl, ?_, ?_⟩, rfl⟩
  · show (0 : Int) ≤ 0
    decide
  · show (0 : Int) < 300
    decide

theorem session_signedIn {n : Nat} (hn : n < 150) :
    sessionAccount exampleConfig (number n) 0 (name n) (signedIn n) =
      .ok (name n,
        { signedIn n with accounts := table (n + 1) (fun i => (name i, exampleAccount i)) }) := by
  have hne : ∀ i < n, (number i : Address) ≠ number n := fun i hi =>
    number_ne (by omega) (by omega) hi
  have hwallet : ∀ i < n, (some (number i) : Option Address) ≠ some (number n) := fun i hi heq =>
    hne i hi (Option.some.inj heq)
  have hnone : walletAccount (signedIn n) (number n) = none := by
    have hidentity : (signedIn n).testIdentities.get? (number n) = none := get?_table hne
    have haccount : (signedIn n).accounts.find? (fun e => e.2.wallet = some (number n)) = none :=
      find?_table fun i hi => decide_eq_false (hwallet i hi)
    have hvoucher : (signedIn n).vouchers.find? (fun e => e.2.wallet = number n) = none :=
      find?_table fun i hi => decide_eq_false (hne i hi)
    rw [walletAccount, hidentity, haccount, hvoucher]
    rfl
  have hkey : unique (fun r => some r.accountKey) (signedIn n).accounts (name n)
      (exampleAccount n) = true :=
    unique_table fun i hi heq => exampleKey_ne (by omega) hi (Option.some.inj heq)
  have hbound : unique (fun r => r.wallet) (signedIn n).accounts (name n) (exampleAccount n) = true :=
    unique_table hwallet
  have hinsert : insertAccount (name n) (exampleAccount n) (signedIn n) =
      .ok { signedIn n with accounts := table (n + 1) (fun i => (name i, exampleAccount i)) } := by
    simp only [insertAccount, putAccount, bind_eq_ok, ensure_eq_ok, pure_eq_ok, hkey, hbound]
    refine ⟨(), get?_table fun i hi => name_ne hi, (), rfl, ?_⟩
    exact congrArg (fun m => { signedIn n with accounts := m }) account_set
  simp only [sessionAccount, hnone, bind_eq_ok, pure_eq_ok]
  exact ⟨_, hinsert, rfl⟩

theorem open_signedIn {n : Nat} (hn : n < 150) :
    openSession exampleConfig (number n) 0 ⟨name n, number n, ""⟩ (signedIn n) =
      .ok (name n, opened n) := by
  have hidentities : ∀ i < n, (number i : Address) ≠ number n := fun i hi =>
    number_ne (by omega) (by omega) hi
  have hsessions : ∀ i < n, (number i : Bytes32) ≠ number n := fun i hi =>
    number_ne (by omega) (by omega) hi
  have haccount : OrderedMap.get? (name n) (table (n + 1) (fun i => (name i, exampleAccount i))) =
      some (exampleAccount n) := by
    rw [← account_set, OrderedMap.get?_set_self]
  have hkept : (signedIn n).sessions.filter
      (fun e => e.2.accountId ≠ name n ∧ (0 : Int) < e.2.expiresAt) = (signedIn n).sessions := by
    refine filter_table fun i hi => decide_eq_true ⟨name_ne hi, ?_⟩
    show (0 : Int) < 3600
    decide
  have hlength : (signedIn n).sessions.length < 10000 := by
    simp only [signedIn, filled, table, List.length_map, List.length_range]
    omega
  have hidentity : (signedIn n).testIdentities.get? (number n) = none := get?_table hidentities
  simp only [openSession, session_signedIn hn, ok_bind, account, haccount, hkept, hidentity,
    bind_eq_ok, ensure_eq_ok, pure_eq_ok]
  refine ⟨(), rfl, (), hlength, (), get?_table hsessions, ?_⟩
  have hset : (signedIn n).testIdentities.set (number n) (name n) = (opened n).testIdentities := by
    show OrderedMap.set (number n) (name n) (table n _) = table (n + 1) _
    rw [set_table hidentities, table_succ]
  have hset' : (signedIn n).sessions.set (number n) (exampleSession n) = (opened n).sessions := by
    show OrderedMap.set (number n) (exampleSession n) (table n _) = table (n + 1) _
    rw [set_table hsessions, table_succ]
  exact congrArg (Prod.mk (name n)) (congrArg₂ (fun identities sessions =>
    { opened n with testIdentities := identities, sessions := sessions }) hset hset')

theorem opens_filled {n : Nat} (hn : n < 150) :
    Machine.exec (step exampleConfig) (filled n) (opens n) = opened n := by
  have hchallenge : final ((Action.walletTestChallenge (number n) 0 (number n)).program exampleConfig
      (filled n)) = challenged n := by
    simp only [Action.program, transact, atomic, challenge_filled hn]
    rfl
  have hsigner : checkSigner exampleConfig (exampleChallenge n false).message 0
      (exampleChallenge n false).wallet = .ok () :=
    ensure_of ⟨rfl, number_ne_zero (by omega) (by omega)⟩ _
  have hsession : openWalletTestSession exampleConfig (number n) 0 0 ⟨name n, number n, ""⟩
      (challenged n) = .ok (name n) (opened n) := by
    have hseconds : seconds 0 = .ok () := ensure_of (by decide) _
    rw [openWalletTestSession, Commit.run_bind (Commit.run_await hseconds _),
      Commit.run_bind (Commit.run_atomic (consume_challenged hn)),
      Commit.run_bind (Commit.run_await hsigner _)]
    exact Commit.run_atomic (open_signedIn hn)
  show final ((Action.openWalletTestSession (number n) 0 0 ⟨name n, number n, ""⟩).program
    exampleConfig (final ((Action.walletTestChallenge (number n) 0 (number n)).program exampleConfig
      (filled n)))) = opened n
  rw [hchallenge, Action.program, Commit.run_bind hsession]
  rfl

/-- The store when the wallet's voucher is issued. -/
def reserved (n : Nat) : Store :=
  { opened n with
    vouchers := (filled n).vouchers ++ [(name n, exampleVoucher n .issued none)] }

theorem requireWallet_opened {n : Nat} (hn : n < 150) {s : Store}
    (h : s.accounts = (opened n).accounts) :
    requireWallet s (name n) (number n) = .ok (exampleAccount n) := by
  have haccount : s.accounts.get? (name n) = some (exampleAccount n) := by
    rw [h]
    show OrderedMap.get? (name n) (table (n + 1) _) = _
    rw [← account_set, OrderedMap.get?_set_self]
  simp only [requireWallet, account, haccount, address_number hn, ok_bind, bind_eq_ok, ensure_eq_ok,
    pure_eq_ok]
  exact ⟨(), rfl, trivial⟩

theorem reserve_opened {n : Nat} (hn : n < 150) :
    reserveClaim (name n) (number n) 0 60 0 (number n) (opened n) =
      .ok (exampleVoucher n .issued none, reserved n) := by
  have hget : (opened n).vouchers.get? (name n) = none := get?_table fun i hi => name_ne hi
  have hnumber : ∀ i < n, (number i : Bytes32) ≠ number n := fun i hi =>
    number_ne (by omega) (by omega) hi
  have hallowed : claimAllowed (opened n) (name n) (number n) 0 = .ok () := by
    have hfind : (opened n).vouchers.find? (fun e => e.2.wallet = number n ∧ e.1 ≠ name n) = none :=
      find?_table fun i hi => decide_eq_false fun h =>
        number_ne (by omega) (by omega) hi h.1
    simp only [claimAllowed, hfind, bind_eq_ok, ensure_eq_ok]
    exact ⟨(), rfl, (), rfl, (), rfl, trivial⟩
  have hunresolved : unresolved (opened n) 0 = 0 := by
    refine List.countP_eq_zero.mpr fun e he => ?_
    obtain ⟨i, _, rfl⟩ := mem_table.mp he
    simp [unresolvedVoucher, exampleVoucher]
  have hkey : unique (fun r => some r.accountKey) (opened n).vouchers (name n)
      (exampleVoucher n .issued none) = true :=
    unique_table fun i hi heq => exampleKey_ne (by omega) hi (Option.some.inj heq)
  have hnonce : unique (fun r => some r.nonce) (opened n).vouchers (name n)
      (exampleVoucher n .issued none) = true :=
    unique_table fun i hi heq => hnumber i hi (Option.some.inj heq)
  have hput : putVoucher (name n) (exampleVoucher n .issued none) (opened n) = .ok (reserved n) := by
    simp only [putVoucher, hkey, hnonce, bind_eq_ok, ensure_eq_ok, pure_eq_ok]
    refine ⟨(), rfl, ?_⟩
    refine congrArg (fun m => { opened n with vouchers := m }) ?_
    exact set_table (n := n) (k := name n) fun i hi => name_ne hi
  simp only [reserveClaim, requireWallet_opened hn rfl, hallowed, hget, issueVoucher, hunresolved,
    ok_bind, bind_eq_ok, ensure_eq_ok, seconds, pure_eq_ok]
  exact ⟨(), by decide, (), by decide, (), by decide, (), rfl, (), by decide, _, hput, rfl⟩

def quoted (n : Nat) : Store :=
  { reserved n with quotes := table (n + 1) (fun i => (name i, exampleQuote i)) }

theorem quote_reserved {n : Nat} (hn : n < 150) :
    saveQuote (name n) (exampleQuote n) (reserved n) = .ok (quoted n) := by
  have hwallet : requireWallet (reserved n) (name n) (number n) = .ok (exampleAccount n) :=
    requireWallet_opened hn rfl
  simp only [saveQuote, exampleQuote, hwallet, ok_bind, bind_eq_ok, ensure_eq_ok, pure_eq_ok]
  refine ⟨(), get?_table fun i hi => name_ne hi, ?_⟩
  refine congrArg (fun m => { reserved n with quotes := m }) ?_
  show OrderedMap.set (name n) (exampleQuote n) (table n _) = _
  rw [set_table fun i hi => name_ne hi, table_succ]

def submitted (n : Nat) : Store :=
  { quoted n with
    vouchers := (filled n).vouchers ++ [(name n, exampleVoucher n .submitted (some (number n)))]
    operations := (filled n).operations ++ [(name n, exampleOperationRow n .submitted)] }

theorem submit_quoted {n : Nat} (hn : n < 150) :
    submit (name n) (name n) (number n) (name n) (quoted n) =
      .ok (exampleOperation n .submitted, submitted n) := by
  have hquote : (quoted n).quotes.get? (name n) = some (exampleQuote n) := by
    show OrderedMap.get? (name n) (table (n + 1) _) = _
    rw [table_succ]
    exact get?_table_append fun i hi => name_ne hi
  have hwallet : requireWallet (quoted n) (name n) (exampleQuote n).owner = .ok (exampleAccount n) :=
    requireWallet_opened hn rfl
  have hfind : (quoted n).operations.find? (fun e => e.2.quoteId = name n) = none :=
    find?_table fun i hi => decide_eq_false (name_ne hi)
  have hhash : (quoted n).operations.all (fun e => e.2.transactionHash ≠ number n) = true := by
    refine List.all_eq_true.mpr fun e he => ?_
    obtain ⟨i, hi, rfl⟩ := mem_table.mp he
    exact decide_eq_true (number_ne (by omega) (by omega) hi)
  have hoperation : (quoted n).operations.get? (name n) = none := get?_table fun i hi => name_ne hi
  have hmap : (quoted n).vouchers.mapValues (fun id row =>
      if decide (id = name n ∧ row.transactionHash = none) = true then
        { row with status := .submitted, transactionHash := some (number n) } else row) =
      (submitted n).vouchers := by
    refine mapValues_table (fun i hi => if_neg ?_) (if_pos ?_)
    · simp [exampleVoucher]
    · simp [exampleVoucher]
  have hunique : (submitted n).vouchers.all (fun e =>
      unique (fun r => r.transactionHash) (submitted n).vouchers e.1 e.2) = true := by
    have hrow : ∀ e ∈ (submitted n).vouchers, ∃ i ≤ n, e.1 = name i ∧
        e.2.transactionHash = some (number i) := by
      intro e he
      rcases List.mem_append.mp he with hold | hnew
      · obtain ⟨i, hi, rfl⟩ := mem_table.mp hold
        exact ⟨i, by omega, rfl, rfl⟩
      · rw [List.mem_singleton.mp hnew]
        exact ⟨n, by omega, rfl, rfl⟩
    simp only [unique, List.all_eq_true, Bool.or_eq_true, decide_eq_true_eq]
    refine fun e he => .inr fun e' he' => ?_
    obtain ⟨i, hi, hid, hhash⟩ := hrow e he
    obtain ⟨j, hj, hid', hhash'⟩ := hrow e' he'
    by_cases hij : j = i
    · exact .inl (by rw [hid, hid', hij])
    · refine .inr fun heq => hij ?_
      rw [hhash, hhash', Option.some.injEq] at heq
      have h' := congrArg BitVec.toNat heq
      rw [toNat_number (by omega) (by omega), toNat_number (by omega) (by omega)] at h'
      omega
  have hset : (quoted n).operations.set (name n) (exampleOperationRow n .submitted) =
      (submitted n).operations := set_table (n := n) (k := name n) fun i hi => name_ne hi
  have hupdate : updateVouchers (fun id row => id = name n ∧ row.transactionHash = none)
      (fun row => { row with status := .submitted, transactionHash := some (number n) })
      { quoted n with operations := (submitted n).operations } = .ok (submitted n) := by
    simp only [updateVouchers, bind_eq_ok, ensure_eq_ok, pure_eq_ok, hmap]
    exact ⟨(), hunique, rfl⟩
  simp only [submit, hquote, hwallet, hfind, ok_bind, bind_eq_ok, ensure_eq_ok, pure_eq_ok]
  refine ⟨(), rfl, (), hhash, (), hoperation, submitted n, ?_, rfl⟩
  rw [← hset] at hupdate
  exact (if_pos rfl).trans hupdate

theorem update_submitted (n : Nat) (hn : n < 150) :
    updateOperation (exampleOperation n .included) (submitted n) = filled (n + 1) := by
  have hvouchers : (submitted n).vouchers.mapValues (fun _ row =>
      if row.transactionHash = some (exampleOperation n .included).transactionHash then
        { row with status := .included } else row) = (filled (n + 1)).vouchers := by
    show _ = table (n + 1) _
    rw [table_succ]
    refine mapValues_table (fun i hi => if_neg fun heq => ?_) (if_pos rfl)
    exact number_ne (by omega) (by omega) hi (Option.some.inj heq)
  have hoperations : (submitted n).operations.mapValues (fun id row =>
      if id = (exampleOperation n .included).id ∧
        row.transactionHash = (exampleOperation n .included).transactionHash then
        { row with payload := exampleOperation n .included } else row) =
      (filled (n + 1)).operations := by
    show _ = table (n + 1) _
    rw [table_succ]
    refine mapValues_table (fun i hi => if_neg fun heq => ?_) (if_pos ⟨rfl, rfl⟩)
    exact name_ne hi heq.1
  exact congrArg₂ (fun vouchers operations =>
    { filled (n + 1) with vouchers := vouchers, operations := operations }) hvouchers hoperations

theorem includes_opened {n : Nat} (hn : n < 150) :
    Machine.exec (step exampleConfig) (opened n) (includes n) = filled (n + 1) := by
  have hreserve : final ((Action.reserveClaim (name n) (number n) 0 60 0 (number n)).program
      exampleConfig (opened n)) = reserved n := by
    simp only [Action.program, transact, atomic, reserve_opened hn]
    rfl
  have hquote : final ((Action.saveQuote (name n) (exampleQuote n)).program exampleConfig
      (reserved n)) = quoted n := by
    simp only [Action.program, atomic, quote_reserved hn]
    rfl
  have hsubmit : final ((Action.submit (name n) (name n) (number n) (name n)).program exampleConfig
      (quoted n)) = submitted n := by
    simp only [Action.program, transact, atomic, submit_quoted hn]
    rfl
  show final ((Action.updateOperation (exampleOperation n .included)).program exampleConfig
    (final ((Action.submit (name n) (name n) (number n) (name n)).program exampleConfig
      (final ((Action.saveQuote (name n) (exampleQuote n)).program exampleConfig
        (final ((Action.reserveClaim (name n) (number n) 0 60 0 (number n)).program exampleConfig
          (opened n)))))))) = filled (n + 1)
  rw [hreserve, hquote, hsubmit]
  exact update_submitted n hn

theorem rounds_filled (n : Nat) (hn : n < 150) :
    Machine.exec (step exampleConfig) Store.empty (rounds n) = filled n := by
  induction n with
  | zero => rfl
  | succ n ih =>
      rw [rounds, List.range_succ, List.flatMap_append, Machine.exec_append]
      rw [rounds] at ih
      rw [ih (by omega), List.flatMap_singleton, Machine.exec_append, opens_filled (by omega),
        includes_opened (by omega)]

/-- A hundred included claims that were not observed, and one more voucher. -/
theorem voucher_beyond_limit :
    ∃ s', reserveClaim (name 100) (number 100) 0 60 0 (number 100)
        (Machine.exec (step exampleConfig) Store.empty (rounds 100 ++ opens 100)) =
          .ok (exampleVoucher 100 .issued none, s') ∧
      (canonicalClaims s').length + pending s' 0 = 101 := by
  refine ⟨reserved 100, ?_, ?_⟩
  · rw [Machine.exec_append, rounds_filled 100 (by omega), opens_filled (by omega)]
    exact reserve_opened (by omega)
  · have hall : pending (reserved 100) 0 = (reserved 100).vouchers.length := by
      refine List.countP_eq_length.mpr fun e he => ?_
      rcases List.mem_append.mp he with hold | hnew
      · obtain ⟨i, hi, rfl⟩ := mem_table.mp hold
        simp [payable, claimed, canonicalClaims, reserved, opened, filled, exampleVoucher]
      · rw [List.mem_singleton.mp hnew]
        simp [payable, claimed, canonicalClaims, reserved, opened, filled, exampleVoucher]
    rw [hall]
    simp [canonicalClaims, reserved, opened, filled, table]

/-- One wallet's claim, up to its receipt. -/
theorem first_voucher_within_limit :
    reserveClaim (name 0) (number 0) 0 60 0 (number 0) (opened 0) =
        .ok (exampleVoucher 0 .issued none, reserved 0) ∧
      (canonicalClaims (reserved 0)).length + pending (reserved 0) 0 ≤ 100 := by
  have hcounted : (Machine.history (step exampleConfig) Store.empty (opens 0 ++ includes 0)).all
      (fun t => t.action.counted t.pre) = true := by decide
  have hpre : Machine.exec (step exampleConfig) Store.empty (opens 0) = opened 0 :=
    opens_filled (n := 0) (by omega)
  have hreserve := reserve_opened (by omega : 0 < 150)
  have hstep : step exampleConfig (.reserveClaim (name 0) (number 0) 0 60 0 (number 0))
      (Machine.exec (step exampleConfig) Store.empty (opens 0)) = .ok (reserved 0) := by
    rw [hpre]
    simp only [step, Action.program, transact, atomic, hreserve]
    rfl
  have hmem : ⟨_, _, reserved 0⟩ ∈ Machine.history (step exampleConfig) Store.empty
      (opens 0 ++ includes 0) := Machine.mem_history hstep
  rw [hpre] at hmem
  exact ⟨hreserve, claims_within_limit exampleConfig (opens 0 ++ includes 0)
    (List.all_eq_true.mp hcounted) _ hmem _ _ _ _ _ _ _ rfl hreserve⟩

end Example

end MarketStore
end AlphaForge
