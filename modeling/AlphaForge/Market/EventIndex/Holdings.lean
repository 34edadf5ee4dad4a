/-
What the folds of the event index find.

A holder has what it received less what it sent, and a candle has the prices and the
volume of the swaps of its bucket.  Both lists are cut to a length, and what is cut off
comes after what is kept.
-/
import AlphaForge.Market.EventIndex.History
import Mathlib.Order.Bounds.Basic

namespace AlphaForge
namespace EventIndex

open Evm Market

/-! ## Lists cut to a length -/

section Cut

variable {α : Type} {r : α → α → Prop} {l : List α} {e : α}

theorem mem_take_or (h : l.Pairwise r) (he : e ∈ l) (n : Nat) :
    e ∈ l.take n ∨ ((l.take n).length = n ∧ ∀ o ∈ l.take n, r o e) := by
  rw [← List.take_append_drop n l] at h he
  rcases List.mem_append.mp he with he | he
  · exact Or.inl he
  · refine Or.inr ⟨?_, fun o ho => (List.pairwise_append.mp h).2.2 o ho e he⟩
    have hlength := List.length_pos_of_mem he
    rw [List.length_drop] at hlength
    rw [List.length_take]
    omega

/-- The last elements of a list, and those before them. -/
theorem mem_last_or (h : l.Pairwise r) (he : e ∈ l) (n : Nat) :
    e ∈ l.drop (l.length - n) ∨
      ((l.drop (l.length - n)).length = n ∧ ∀ o ∈ l.drop (l.length - n), r e o) := by
  rw [← List.take_append_drop (l.length - n) l] at h he
  rcases List.mem_append.mp he with he | he
  · refine Or.inr ⟨?_, fun o ho => (List.pairwise_append.mp h).2.2 e he o ho⟩
    have hlength := List.length_pos_of_mem he
    rw [List.length_take] at hlength
    rw [List.length_drop]
    omega
  · exact Or.inl he

end Cut

/-! ## Events as they were decoded -/

/-- The canonical rows hold the fields that `decode` makes of a log. -/
def Index.Decoded (s : Index) : Prop :=
  ∀ e ∈ s.events, e.2.canonical = true → ∃ args : List Nat,
    args.length = e.2.name.inputs.length ∧ (∀ word ∈ args, word < 2 ^ 256) ∧
      e.2.payload.fields = (ParsedLog.mk e.2.name args).fields

variable {m : Manifest} {s : Index} {strategy : StrategyId}

theorem mem_select {p : EventRow → Bool} {event : IndexedMarketEvent} (h : event ∈ s.select p) :
    ∃ e ∈ s.events, p e.2 = true ∧ e.2.canonical = true ∧ e.2.payload = event := by
  obtain ⟨e, he, rfl⟩ := List.mem_map.mp h
  obtain ⟨hin, hp⟩ := List.mem_filter.mp ((List.mem_insertionSort before).mp he)
  rw [Bool.and_eq_true] at hp
  exact ⟨e, hin, hp.1, hp.2, rfl⟩

theorem transferOf_decoded {args : List Nat} {event : IndexedMarketEvent}
    (hlength : args.length = EventName.transfer.inputs.length) (hwords : ∀ word ∈ args, word < 2 ^ 256)
    (hfields : event.fields = (ParsedLog.mk .transfer args).fields) :
    ∃ t, transferOf event = .ok t := by
  match args, hlength with
  | [a, b, c], _ =>
      have hvalue : c < 2 ^ 256 := hwords c (by simp)
      have hget : event.fields.get? "value" = some (.number c) := by
        rw [hfields]
        rfl
      have hfrom : event.fields.get? "from" = some (.address (BitVec.ofNat 160 a)) := by
        rw [hfields]
        rfl
      have hto : event.fields.get? "to" = some (.address (BitVec.ofNat 160 b)) := by
        rw [hfields]
        rfl
      refine ⟨⟨BitVec.ofNat 160 a, BitVec.ofNat 160 b, c⟩, ?_⟩
      simp only [transferOf, numberField, addressField, hget, hfrom, hto, ensure_of hvalue, ok_bind]
      rfl

theorem transfers_isOk (h : s.Decoded) (hpass : (m.entry strategy).pass ≠ 0) :
    ∃ ts, transfers m s strategy = .ok ts := by
  rw [transfers, address_eq_ok.mpr ⟨hpass, rfl⟩, ok_bind]
  refine mapM_isOk.mpr fun event hevent => ?_
  obtain ⟨e, hin, hrow, hcanonical, rfl⟩ := mem_select hevent
  obtain ⟨args, hlength, hwords, hfields⟩ := h e hin hcanonical
  have hname : e.2.name = .transfer := (of_decide_eq_true hrow).2
  rw [hname] at hlength hfields
  exact transferOf_decoded hlength hwords hfields

theorem swapOf_decoded {args : List Nat} {event : IndexedMarketEvent}
    (hlength : args.length = EventName.swap.inputs.length) (hwords : ∀ word ∈ args, word < 2 ^ 256)
    (hfields : event.fields = (ParsedLog.mk .swap args).fields) :
    ∃ swap, swapOf event = .ok swap := by
  match args, hlength with
  | [payer, recipient, buy, amountIn, amountOut, fee], _ =>
      have hin : numberField event.fields "amountIn" = .ok amountIn := by
        have hget : event.fields.get? "amountIn" = some (.number amountIn) := by
          rw [hfields]
          rfl
        have hword : amountIn < 2 ^ 256 := hwords amountIn (by simp)
        simp only [numberField, hget, ensure_of hword, ok_bind]
        rfl
      have hout : numberField event.fields "amountOut" = .ok amountOut := by
        have hget : event.fields.get? "amountOut" = some (.number amountOut) := by
          rw [hfields]
          rfl
        have hword : amountOut < 2 ^ 256 := hwords amountOut (by simp)
        simp only [numberField, hget, ensure_of hword, ok_bind]
        rfl
      unfold swapOf
      by_cases hbuy : event.fields.get? "buy" = some (.bool true)
      · simp only [hbuy, decide_true, if_true, hin, hout, ok_bind]
        exact ⟨_, rfl⟩
      · simp only [hbuy, decide_false, Bool.false_eq_true, if_false, hin, hout, ok_bind]
        exact ⟨_, rfl⟩

theorem swaps_isOk (h : s.Decoded) : ∃ all, swaps s strategy = .ok all := by
  obtain ⟨all, hall⟩ : ∃ all, (s.select fun row =>
      row.strategy = some strategy ∧ row.name = .swap).mapM swapOf = .ok all := by
    refine mapM_isOk.mpr fun event hevent => ?_
    obtain ⟨e, hin, hrow, hcanonical, rfl⟩ := mem_select hevent
    obtain ⟨args, hlength, hwords, hfields⟩ := h e hin hcanonical
    have hname : e.2.name = .swap := (of_decide_eq_true hrow).2
    rw [hname] at hlength hfields
    exact swapOf_decoded hlength hwords hfields
  refine ⟨all.filter (fun swap => swap.pass ≠ 0), ?_⟩
  rw [swaps, hall, ok_bind]
  rfl

/-! ## Balances -/

def sent (ts : List Transfer) (a : Address) : Nat :=
  ((ts.filter (fun t => t.from_ = a)).map Transfer.value).sum

def received (ts : List Transfer) (a : Address) : Nat :=
  ((ts.filter (fun t => t.to_ = a)).map Transfer.value).sum

def balance (ts : List Transfer) (a : Address) : Int := received ts a - sent ts a

theorem balance_cons (t : Transfer) (ts : List Transfer) (a : Address) :
    balance (t :: ts) a = (if t.to_ = a then (t.value : Int) else 0) -
      (if t.from_ = a then (t.value : Int) else 0) + balance ts a := by
  by_cases hto : t.to_ = a <;> by_cases hfrom : t.from_ = a <;>
    simp only [balance, received, sent, List.filter_cons, decide_eq_true_eq, hto, hfrom, if_true,
      if_false, List.map_cons, List.sum_cons] <;> omega

/-- Postings to one account add up. -/
theorem foldl_addBalance (postings : List (Address × Int)) (old : Option Int) :
    (postings.foldl (fun old e => some (addBalance old e)) old).getD 0 =
      old.getD 0 + (postings.map Prod.snd).sum := by
  induction postings generalizing old with
  | nil => simp
  | cons e rest ih =>
      rw [List.foldl_cons, ih, List.map_cons, List.sum_cons, Option.getD_some, addBalance]
      omega

theorem postings_balance (ts : List Transfer) {a : Address} (ha : a ≠ 0) :
    (((ts.flatMap Transfer.postings).filter (fun e => e.1 = a)).map Prod.snd).sum =
      balance ts a := by
  induction ts with
  | nil => rfl
  | cons t rest ih =>
      rw [List.flatMap_cons, List.filter_append, List.map_append, List.sum_append, ih, balance_cons]
      congr 1
      have hto : t.to_ = a → t.to_ ≠ 0 := fun h => h ▸ ha
      have hfrom : t.from_ = a → t.from_ ≠ 0 := fun h => h ▸ ha
      unfold Transfer.postings
      by_cases h₁ : t.from_ = a <;> by_cases h₂ : t.to_ = a <;> by_cases h₃ : t.from_ = 0 <;>
        by_cases h₄ : t.to_ = 0 <;> simp_all

/-- What the fold has of an account is its balance, and the zero address has nothing. -/
theorem mem_balancesOf {ts : List Transfer} {e : Address × Int} (h : e ∈ balancesOf ts) :
    e.1 ≠ 0 ∧ e.2 = balance ts e.1 := by
  have hne : e.1 ≠ 0 := by
    obtain ⟨posting, hposting, hkey⟩ := OrderedMap.mem_keys_grouped.mp (List.mem_map_of_mem h)
    obtain ⟨t, _, ht⟩ := List.mem_flatMap.mp hposting
    rw [← hkey]
    unfold Transfer.postings at ht
    rcases List.mem_append.mp ht with ht | ht
    · split at ht
      · next hfrom => rwa [List.mem_singleton.mp ht]
      · cases ht
    · split at ht
      · next hto => rwa [List.mem_singleton.mp ht]
      · cases ht
  refine ⟨hne, ?_⟩
  have hget := (OrderedMap.mem_iff_get? OrderedMap.nodup_keys_grouped).mp h
  have hsum := foldl_addBalance ((ts.flatMap Transfer.postings).filter (fun p => p.1 = e.1)) none
  rw [← OrderedMap.get?_grouped, hget, postings_balance ts hne] at hsum
  simpa using hsum

/-- An account that the fold does not have has no balance. -/
theorem balance_of_not_mem {ts : List Transfer} {a : Address} (ha : a ≠ 0)
    (h : (a, balance ts a) ∉ balancesOf ts) : balance ts a = 0 := by
  have hsum := foldl_addBalance ((ts.flatMap Transfer.postings).filter (fun p => p.1 = a)) none
  rw [← OrderedMap.get?_grouped, postings_balance ts ha] at hsum
  cases hget : (balancesOf ts).get? a with
  | none =>
      rw [balancesOf] at hget
      rw [hget] at hsum
      simpa using hsum.symm
  | some b =>
      have hmem := OrderedMap.mem_of_get? hget
      obtain ⟨_, hb⟩ := mem_balancesOf hmem
      exact absurd (hb ▸ hmem) h

def minted (ts : List Transfer) : Nat := ((ts.filter (fun t => t.from_ = 0)).map Transfer.value).sum

def burned (ts : List Transfer) : Nat := ((ts.filter (fun t => t.to_ = 0)).map Transfer.value).sum

/-- The balances of all accounts add up to what was minted and not burned. -/
theorem sum_balance {owners : List Address} (hnodup : owners.Nodup) (hzero : 0 ∉ owners)
    {ts : List Transfer} (hall : ∀ t ∈ ts, (t.from_ ≠ 0 → t.from_ ∈ owners) ∧
      (t.to_ ≠ 0 → t.to_ ∈ owners)) :
    (owners.map (balance ts)).sum = (minted ts : Int) - burned ts := by
  have hone : ∀ (a : Address) (v : Int), (owners.map fun b => if a = b then v else 0).sum =
      if a ∈ owners then v else 0 := by
    intro a v
    clear hall hzero
    induction owners with
    | nil => rfl
    | cons b rest ih =>
        obtain ⟨hb, hrest⟩ := List.nodup_cons.mp hnodup
        rw [List.map_cons, List.sum_cons, ih hrest]
        by_cases hab : a = b
        · subst hab
          rw [if_pos rfl, if_neg hb, if_pos List.mem_cons_self]
          omega
        · rw [if_neg hab]
          simp only [List.mem_cons, hab, false_or]
          omega
  induction ts with
  | nil =>
      have hnone : balance [] = fun _ => 0 := rfl
      rw [hnone]
      simp [minted, burned]
  | cons t rest ih =>
      obtain ⟨hfrom, hto⟩ := hall t List.mem_cons_self
      have hrest := ih fun u hu => hall u (List.mem_cons_of_mem t hu)
      have hsplit : (owners.map (balance (t :: rest))).sum =
          (owners.map fun b => if t.to_ = b then (t.value : Int) else 0).sum -
            (owners.map fun b => if t.from_ = b then (t.value : Int) else 0).sum +
            (owners.map (balance rest)).sum := by
        clear hall hnodup hzero hone hrest hfrom hto ih
        induction owners with
        | nil => rfl
        | cons b more ihb =>
            simp only [List.map_cons, List.sum_cons, ihb, balance_cons]
            omega
      rw [hsplit, hrest, hone, hone]
      by_cases hf : t.from_ = 0 <;> by_cases ht : t.to_ = 0 <;>
        simp_all [minted, burned] <;> omega

/-- The largest balances, in order. -/
structure TopHolders (ts : List Transfer) (limit : Int) (r : List (Address × Int)) : Prop where
  length : (r.length : Int) ≤ limit
  sorted : r.Pairwise fun a b => b.2 ≤ a.2
  once : (r.map Prod.fst).Nodup
  balances : ∀ e ∈ r, e.1 ≠ 0 ∧ 0 < e.2 ∧ e.2 = balance ts e.1
  largest : ∀ a, a ≠ 0 → 0 < balance ts a →
    (a, balance ts a) ∈ r ∨ ((r.length : Int) = limit ∧ ∀ e ∈ r, balance ts a ≤ e.2)

theorem holders_spec {ts : List Transfer} (hts : transfers m s strategy = .ok ts) {limit : Int}
    (hlimit : 1 ≤ limit ∧ limit ≤ 500) :
    ((∃ a, a ≠ 0 ∧ received ts a < sent ts a) ∧
        holders m s strategy limit = .error "HOLDER_PROJECTION_INCOMPLETE") ∨
      ((∀ a, a ≠ 0 → sent ts a ≤ received ts a) ∧
        ∃ r, holders m s strategy limit = .ok r ∧ TopHolders ts limit r) := by
  rw [holders, ensure_of hlimit, ok_bind, hts, ok_bind]
  by_cases hall : (balancesOf ts).all (fun e => 0 ≤ e.2) = true
  · have hbalance : ∀ a, a ≠ 0 → 0 ≤ balance ts a := by
      intro a ha
      by_cases hmem : (a, balance ts a) ∈ balancesOf ts
      · exact of_decide_eq_true (List.all_eq_true.mp hall _ hmem)
      · exact Int.le_of_eq (balance_of_not_mem ha hmem).symm
    refine Or.inr ⟨fun a ha => ?_, (((balancesOf ts).filter fun e => 0 < e.2).insertionSort
      fun a b => b.2 ≤ a.2).take limit.toNat, ?_, ?_⟩
    · have hnonneg := hbalance a ha
      unfold balance at hnonneg
      omega
    · simp only [ensure_of hall, ok_bind]
      rfl
    · have htotal : Std.Total fun a b : Address × Int => b.2 ≤ a.2 :=
        ⟨fun a b => Int.le_total b.2 a.2⟩
      have htrans : IsTrans (Address × Int) fun a b => b.2 ≤ a.2 :=
        ⟨fun a b c hab hbc => Int.le_trans hbc hab⟩
      have hsorted := List.pairwise_insertionSort (fun a b : Address × Int => b.2 ≤ a.2)
        ((balancesOf ts).filter fun e => 0 < e.2)
      have hperm := List.perm_insertionSort (fun a b : Address × Int => b.2 ≤ a.2)
        ((balancesOf ts).filter fun e => 0 < e.2)
      refine ⟨?_, hsorted.sublist (List.take_sublist _ _), ?_, fun e he => ?_, fun a ha hpos => ?_⟩
      · rw [List.length_take]
        omega
      · have hnodup : (((balancesOf ts).filter fun e => 0 < e.2).map Prod.fst).Nodup :=
          OrderedMap.nodup_keys_filter OrderedMap.nodup_keys_grouped _
        exact ((hperm.map Prod.fst).nodup_iff.mpr hnodup).sublist
          ((List.take_sublist _ _).map Prod.fst)
      · obtain ⟨hin, hpos⟩ := List.mem_filter.mp (hperm.mem_iff.mp (List.mem_of_mem_take he))
        obtain ⟨hne, heq⟩ := mem_balancesOf hin
        exact ⟨hne, of_decide_eq_true hpos, heq⟩
      · have hmem : (a, balance ts a) ∈ balancesOf ts := by
          by_contra hnot
          rw [balance_of_not_mem ha hnot] at hpos
          exact absurd hpos (Int.lt_irrefl 0)
        have hin := hperm.mem_iff.mpr (List.mem_filter.mpr ⟨hmem, decide_eq_true hpos⟩)
        refine (mem_take_or hsorted hin limit.toNat).imp_right fun hfull => ⟨?_, hfull.2⟩
        rw [hfull.1]
        omega
  · refine Or.inl ⟨?_, ?_⟩
    · have hnegative : ∃ e ∈ balancesOf ts, e.2 < 0 := by
        by_contra hnone
        refine hall (List.all_eq_true.mpr fun e he => decide_eq_true ?_)
        by_contra hlt
        exact hnone ⟨e, he, Int.not_le.mp hlt⟩
      obtain ⟨e, he, hlt⟩ := hnegative
      obtain ⟨hne, heq⟩ := mem_balancesOf he
      refine ⟨e.1, hne, ?_⟩
      rw [heq, balance] at hlt
      omega
    · have herror : ensure ((balancesOf ts).all (fun e => 0 ≤ e.2) = true)
          "HOLDER_PROJECTION_INCOMPLETE" = .error "HOLDER_PROJECTION_INCOMPLETE" := if_neg hall
      simp only [herror]
      rfl

/-! ## Candles -/

section Extremes

variable {α : Type} {f : α → Nat} {done : List α} {a : α}

theorem mem_values_snoc {p : Nat} :
    (∃ o ∈ done ++ [a], p = f o) ↔ (∃ o ∈ done, p = f o) ∨ p = f a := by
  simp only [List.mem_append, List.mem_singleton]
  constructor
  · rintro ⟨o, ho | rfl, rfl⟩
    · exact Or.inl ⟨o, ho, rfl⟩
    · exact Or.inr rfl
  · rintro (⟨o, ho, rfl⟩ | rfl)
    · exact ⟨o, Or.inl ho, rfl⟩
    · exact ⟨a, Or.inr rfl, rfl⟩

theorem greatest_snoc {high : Nat} (h : IsGreatest {p | ∃ o ∈ done, p = f o} high) :
    IsGreatest {p | ∃ o ∈ done ++ [a], p = f o} (if high < f a then f a else high) := by
  refine ⟨mem_values_snoc.mpr ?_, fun p hp => ?_⟩
  · split
    · exact Or.inr rfl
    · exact Or.inl h.1
  · rcases mem_values_snoc.mp hp with hold | rfl
    · have hle : p ≤ high := h.2 hold
      split <;> omega
    · split <;> omega

theorem least_snoc {low : Nat} (h : IsLeast {p | ∃ o ∈ done, p = f o} low) :
    IsLeast {p | ∃ o ∈ done ++ [a], p = f o} (if f a < low then f a else low) := by
  refine ⟨mem_values_snoc.mpr ?_, fun p hp => ?_⟩
  · split
    · exact Or.inr rfl
    · exact Or.inl h.1
  · rcases mem_values_snoc.mp hp with hold | rfl
    · have hle : low ≤ p := h.2 hold
      split <;> omega
    · split <;> omega

/-- The candle of swaps that follow each other, at the prices of `price`. -/
structure CandleAt (price usdc : α → Nat) (done : List α) (c : Candle) : Prop where
  first : ∃ o, done.head? = some o ∧ c.open_ = price o
  last : ∃ o, done.getLast? = some o ∧ c.close = price o
  high : IsGreatest {p | ∃ o ∈ done, p = price o} c.high
  low : IsLeast {p | ∃ o ∈ done, p = price o} c.low
  volume : c.volume = (done.map usdc).sum

theorem CandleAt.start (price usdc : α → Nat) (timestamp : Nat) (o : α) :
    CandleAt price usdc [o] (.start timestamp (price o) (usdc o)) := by
  have hset : {p | ∃ o' ∈ [o], p = price o'} = {price o} := by
    ext p
    simp
  refine ⟨⟨o, rfl, rfl⟩, ⟨o, rfl, rfl⟩, ?_, ?_, ?_⟩
  · rw [hset]
    exact isGreatest_singleton
  · rw [hset]
    exact isLeast_singleton
  · simp only [Candle.start, List.map_cons, List.map_nil, List.sum_cons, List.sum_nil, Nat.add_zero]

theorem CandleAt.add {price usdc : α → Nat} {c : Candle} (h : CandleAt price usdc done c) (o : α) :
    CandleAt price usdc (done ++ [o]) (c.add (price o) (usdc o)) := by
  obtain ⟨first, hfirst, hopen⟩ := h.first
  refine ⟨⟨first, ?_, hopen⟩, ⟨o, List.getLast?_concat, rfl⟩, greatest_snoc h.high,
    least_snoc h.low, ?_⟩
  · rw [List.head?_append, hfirst, Option.some_or]
  · simp only [Candle.add, h.volume, List.map_append, List.sum_append, List.map_cons, List.map_nil,
      List.sum_cons, List.sum_nil, Nat.add_zero]

/-- A bucket folds to the candle of its elements. -/
theorem foldl_next (timestamp price usdc : α → Nat) (first : α) (rest : List α) :
    ∃ c, (first :: rest).foldl
        (fun old o => some (Candle.next old (timestamp o) (price o) (usdc o))) none = some c ∧
      c.timestamp = timestamp first ∧ CandleAt price usdc (first :: rest) c := by
  have hrun : ∀ (rest done : List α) (c : Candle), c.timestamp = timestamp first →
      CandleAt price usdc done c →
      ∃ c', rest.foldl (fun old o => some (Candle.next old (timestamp o) (price o) (usdc o)))
          (some c) = some c' ∧
        c'.timestamp = timestamp first ∧ CandleAt price usdc (done ++ rest) c' := by
    intro rest
    induction rest with
    | nil => exact fun done c ht hc => ⟨c, rfl, ht, by rwa [List.append_nil]⟩
    | cons o rest ih =>
        intro done c ht hc
        obtain ⟨c', hfold, ht', hc'⟩ := ih (done ++ [o]) (c.add (price o) (usdc o)) ht (hc.add o)
        refine ⟨c', hfold, ht', ?_⟩
        rwa [List.append_assoc] at hc'
  exact hrun rest [first] (.start (timestamp first) (price first) (usdc first)) rfl
    (.start price usdc (timestamp first) first)

end Extremes

/-- The candle of swaps that follow each other. -/
def CandleOf (swaps : List SwapRecord) (c : Candle) : Prop :=
  CandleAt SwapRecord.price SwapRecord.usdc swaps c

/-- The swaps of a bucket. -/
def inBucket (bucketSeconds timestamp : Nat) (all : List SwapRecord) : List SwapRecord :=
  all.filter fun swap => bucketOf bucketSeconds swap = timestamp

/-- The latest candles, in order. -/
structure LatestCandles (bucketSeconds : Nat) (all : List SwapRecord) (limit : Int)
    (r : List Candle) : Prop where
  length : (r.length : Int) ≤ limit
  sorted : r.Pairwise fun a b => a.timestamp < b.timestamp
  candles : ∀ c ∈ r, CandleOf (inBucket bucketSeconds c.timestamp all) c
  latest : ∀ swap ∈ all, (∃ c ∈ r, c.timestamp = bucketOf bucketSeconds swap) ∨
    ((r.length : Int) = limit ∧ ∀ c ∈ r, bucketOf bucketSeconds swap < c.timestamp)

theorem get?_buckets {bucketSeconds timestamp : Nat} {all : List SwapRecord} {first : SwapRecord}
    {rest : List SwapRecord} (hbucket : inBucket bucketSeconds timestamp all = first :: rest) :
    ∃ c, (OrderedMap.grouped (bucketOf bucketSeconds) (addSwap bucketSeconds) all).get? timestamp =
        some c ∧ c.timestamp = timestamp ∧ CandleOf (inBucket bucketSeconds timestamp all) c := by
  have hfirst : bucketOf bucketSeconds first = timestamp := by
    have hmem : first ∈ inBucket bucketSeconds timestamp all := hbucket ▸ List.mem_cons_self
    exact of_decide_eq_true (List.mem_filter.mp hmem).2
  obtain ⟨c, hfold, htime, hcandle⟩ :=
    foldl_next (bucketOf bucketSeconds) SwapRecord.price SwapRecord.usdc first rest
  refine ⟨c, ?_, htime.trans hfirst, hbucket ▸ hcandle⟩
  rw [OrderedMap.get?_grouped]
  show (inBucket bucketSeconds timestamp all).foldl _ none = _
  rw [hbucket]
  exact hfold

theorem mem_buckets {bucketSeconds : Nat} {all : List SwapRecord} {e : Nat × Candle}
    (h : e ∈ OrderedMap.grouped (bucketOf bucketSeconds) (addSwap bucketSeconds) all) :
    e.2.timestamp = e.1 ∧ CandleOf (inBucket bucketSeconds e.1 all) e.2 := by
  obtain ⟨swap, hswap, hkey⟩ := OrderedMap.mem_keys_grouped.mp (List.mem_map_of_mem h)
  have hmem : swap ∈ inBucket bucketSeconds e.1 all :=
    List.mem_filter.mpr ⟨hswap, decide_eq_true hkey⟩
  obtain ⟨first, rest, hbucket⟩ := List.exists_cons_of_ne_nil (List.ne_nil_of_mem hmem)
  obtain ⟨c, hget, htime, hcandle⟩ := get?_buckets hbucket
  have hsame := (OrderedMap.mem_iff_get? OrderedMap.nodup_keys_grouped).mp h
  obtain rfl := Option.some.inj (hsame.symm.trans hget)
  exact ⟨htime, hcandle⟩

theorem candles_spec {all : List SwapRecord} (hall : swaps s strategy = .ok all)
    {bucketSeconds : Nat} {limit : Int}
    (hrange : bucketSeconds ∈ [60, 300, 900, 3600, 86400] ∧ 1 ≤ limit ∧ limit ≤ 500) :
    ∃ r, candles s strategy bucketSeconds limit = .ok r ∧
      LatestCandles bucketSeconds all limit r := by
  let buckets := OrderedMap.grouped (bucketOf bucketSeconds) (addSwap bucketSeconds) all
  let sorted := (buckets.map Prod.snd).insertionSort fun a b => a.timestamp ≤ b.timestamp
  have hmem : ∀ c, c ∈ sorted ↔ ∃ e ∈ buckets, e.2 = c := by
    intro c
    rw [List.mem_insertionSort]
    exact List.mem_map
  have hstrict : sorted.Pairwise fun a b => a.timestamp < b.timestamp := by
    have htotal : Std.Total fun a b : Candle => a.timestamp ≤ b.timestamp :=
      ⟨fun a b => Nat.le_total a.timestamp b.timestamp⟩
    have htrans : IsTrans Candle fun a b => a.timestamp ≤ b.timestamp :=
      ⟨fun a b c hab hbc => Nat.le_trans hab hbc⟩
    have hle := List.pairwise_insertionSort (fun a b : Candle => a.timestamp ≤ b.timestamp)
      (buckets.map Prod.snd)
    have hperm := List.perm_insertionSort (fun a b : Candle => a.timestamp ≤ b.timestamp)
      (buckets.map Prod.snd)
    have htimes : ((buckets.map Prod.snd).map Candle.timestamp).Nodup := by
      have hkeys : (buckets.map Prod.snd).map Candle.timestamp = buckets.keys := by
        rw [List.map_map]
        exact List.map_congr_left fun e he => (mem_buckets he).1
      rw [hkeys]
      exact OrderedMap.nodup_keys_grouped
    have hnodup : (sorted.map Candle.timestamp).Nodup :=
      (hperm.map Candle.timestamp).nodup_iff.mpr htimes
    refine (hle.and (List.pairwise_map.mp hnodup)).imp fun {a b} h => ?_
    exact Nat.lt_of_le_of_ne h.1 h.2
  refine ⟨sorted.drop (sorted.length - limit.toNat), ?_, ?_, ?_, fun c hc => ?_, fun swap hswap => ?_⟩
  · rw [candles, ensure_of hrange, ok_bind, hall, ok_bind]
    rfl
  · rw [List.length_drop]
    omega
  · exact hstrict.sublist (List.drop_sublist _ _)
  · obtain ⟨e, he, rfl⟩ := (hmem c).mp (List.mem_of_mem_drop hc)
    obtain ⟨htime, hcandle⟩ := mem_buckets he
    rw [htime]
    exact hcandle
  · have hin : swap ∈ inBucket bucketSeconds (bucketOf bucketSeconds swap) all :=
      List.mem_filter.mpr ⟨hswap, decide_eq_true rfl⟩
    obtain ⟨first, rest, hbucket⟩ := List.exists_cons_of_ne_nil (List.ne_nil_of_mem hin)
    obtain ⟨c, hget, htime, _⟩ := get?_buckets hbucket
    have hc : c ∈ sorted := (hmem c).mpr ⟨(_, c), OrderedMap.mem_of_get? hget, rfl⟩
    rcases mem_last_or hstrict hc limit.toNat with hkept | ⟨hlength, hlater⟩
    · exact Or.inl ⟨c, hkept, htime⟩
    · refine Or.inr ⟨by rw [hlength]; omega, fun o ho => ?_⟩
      rw [← htime]
      exact hlater o ho

/-- The folds of the event index over any canonical events: holders and candles are those
of the whole history. -/
theorem history_folds (h : s.Decoded) (hpass : (m.entry strategy).pass ≠ 0) :
    (∃ ts, transfers m s strategy = .ok ts ∧
      (∀ limit : Int, 1 ≤ limit ∧ limit ≤ 500 →
        ((∃ e, holders m s strategy limit = .error e) ↔ ∃ a, a ≠ 0 ∧ received ts a < sent ts a) ∧
        ((¬ ∃ a, a ≠ 0 ∧ received ts a < sent ts a) →
          ∃ r, holders m s strategy limit = .ok r ∧ TopHolders ts limit r)) ∧
      ∀ owners : List Address, owners.Nodup → 0 ∉ owners →
        (∀ t ∈ ts, (t.from_ ≠ 0 → t.from_ ∈ owners) ∧ (t.to_ ≠ 0 → t.to_ ∈ owners)) →
        (owners.map (balance ts)).sum = (minted ts : Int) - burned ts) ∧
    ∃ all, swaps s strategy = .ok all ∧ ∀ (bucketSeconds : Nat) (limit : Int),
      bucketSeconds ∈ [60, 300, 900, 3600, 86400] ∧ 1 ≤ limit ∧ limit ≤ 500 →
      ∃ r, candles s strategy bucketSeconds limit = .ok r ∧
        LatestCandles bucketSeconds all limit r := by
  obtain ⟨ts, hts⟩ := transfers_isOk h hpass
  obtain ⟨all, hall⟩ : ∃ all, swaps s strategy = .ok all := swaps_isOk h
  refine ⟨⟨ts, hts, fun limit hlimit => ?_, fun owners hnodup hzero hcovers =>
    sum_balance hnodup hzero hcovers⟩, all, hall, fun _ _ hrange => candles_spec hall hrange⟩
  rcases holders_spec hts hlimit with ⟨hshort, herror⟩ | ⟨hcovered, r, hr, htop⟩
  · exact ⟨⟨fun _ => hshort, fun _ => ⟨_, herror⟩⟩, fun hnone => absurd hshort hnone⟩
  · have hnone : ¬ ∃ a, a ≠ 0 ∧ received ts a < sent ts a := fun ⟨a, ha, hlt⟩ =>
      Nat.not_le.mpr hlt (hcovered a ha)
    refine ⟨⟨fun ⟨e, he⟩ => ?_, fun hshort => absurd hshort hnone⟩, fun _ => ⟨r, hr, htop⟩⟩
    rw [hr] at he
    cases he

/-! Five are minted to one address, which passes two on and then buys for one. -/

def sampleManifest : Manifest where
  chainId := 46630
  deploymentBlock := 0
  claim := 10
  poolFactory := 11
  vaultFactory := none
  tsla := ⟨1, none, none⟩
  amzn := ⟨2, none, none⟩
  runtimeCodeHashes := []

def sampleRow (blockNumber logIndex : Nat) (name : EventName) (args : List Nat) :
    EventKey × EventRow :=
  (⟨0, logIndex, 0⟩,
    { blockNumber, emitter := 1, name, strategy := some .tsla, canonical := true
      payload := {
        name, emitter := 1, strategyId := some .tsla, fields := (ParsedLog.mk name args).fields
        timestamp := 60 * blockNumber + 5
        location := {
          chainId := 46630, blockNumber, blockHash := 0, transactionHash := some 0
          logIndex := some logIndex, version := 0, confirmations := 1 } } })

def sampleHistory : Index where
  blocks := []
  cursorRow := none
  watch := []
  events := [sampleRow 3 2 .swap [7, 7, 1, 4, 2, 0], sampleRow 1 0 .transfer [0, 7, 5],
    sampleRow 2 1 .transfer [7, 8, 2]]

theorem sampleHistory_decoded : sampleHistory.Decoded := by
  intro e he _
  simp only [sampleHistory, List.mem_cons, List.not_mem_nil, or_false] at he
  rcases he with rfl | rfl | rfl
  · exact ⟨[7, 7, 1, 4, 2, 0], rfl, by decide, rfl⟩
  · exact ⟨[0, 7, 5], rfl, by decide, rfl⟩
  · exact ⟨[7, 8, 2], rfl, by decide, rfl⟩

theorem sample_history_folds :
    holders sampleManifest sampleHistory .tsla 100 = .ok [(7, 3), (8, 2)] ∧
      candles sampleHistory .tsla 60 100 =
        .ok [⟨180, 2 * 10 ^ 18, 2 * 10 ^ 18, 2 * 10 ^ 18, 2 * 10 ^ 18, 4⟩] ∧
      (∃ ts, transfers sampleManifest sampleHistory .tsla = .ok ts ∧
        ((∃ e, holders sampleManifest sampleHistory .tsla 100 = .error e) ↔
          ∃ a, a ≠ 0 ∧ received ts a < sent ts a)) ∧
      ∃ all, swaps sampleHistory .tsla = .ok all ∧
        ∃ r, candles sampleHistory .tsla 60 100 = .ok r ∧ LatestCandles 60 all 100 r :=
  have hpass : (sampleManifest.entry .tsla).pass ≠ 0 := by decide
  have ⟨⟨ts, hts, hholders, _⟩, all, hall, hcandles⟩ :=
    history_folds sampleHistory_decoded hpass
  ⟨by decide, by decide, ⟨ts, hts, (hholders 100 (by decide)).1⟩, all, hall,
    hcandles 60 100 (by decide)⟩

end EventIndex
end AlphaForge
