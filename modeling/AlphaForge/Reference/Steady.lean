/-
When a batch moves the engine.

A batch that is valid can still be one the engine stops at, since it is compared with
what was sampled before it.  The only ways are a quote older than the latest of its
stock, a second quote of the same time that says something else, a clock before the
epoch and a price below the precision of a quote.  The other checks of the engine
never fire, because of what its state keeps from one batch to the next.
-/
import AlphaForge.Reference.Minutes
import AlphaForge.Reference.Observed

namespace AlphaForge
namespace Reference

open Evm

/-- The observation goes on from the latest sample of its stock. -/
def Follows (state : MinuteState) (o : ReferenceObservation) : Prop :=
  0 ≤ o.generatedAt ∧ ∀ old, state.latest o.identity = some old →
    old.at_ ≤ o.generatedAt ∧
      (o.generatedAt = old.at_ → o.tokenBidUsd18 = old.bid ∧ o.tokenAskUsd18 = old.ask)

/-- The batch pauses the engine or says nothing, or all its quotes can be taken. -/
def Steady (jsonParse : String → Option Json) (before : ReferenceEngineState)
    (batch : ReferenceBatch) : Prop :=
  before.paused = true ∨ latches jsonParse before.terms batch = true ∨ batch.status ≠ .accepted ∨
    ∀ os, batch.observations = some os →
      ofTerms before.terms os = false ∨ ∀ o ∈ os, Follows before.minutes o ∧ middle o ≠ 0

/-! ## Samples -/

/-- What the minutes keep: samples on the terms of their stocks, one entry a minute and
none later than the latest samples, with bids that are prices. -/
structure Kept (terms : List ReferenceTerms) (state : MinuteState) : Prop where
  identities : state.identities = terms.map ReferenceTerms.identity
  distinct : (terms.map ReferenceTerms.identity).Nodup
  latest : ∀ t ∈ terms, ∀ s, state.latest t.identity = some s →
    s.assetId = t.assetId ∧ s.multiplier = t.multiplier
  once : state.pending.keys.Nodup
  minute : ∀ k ∈ state.pending.keys, k = minuteOf k ∧
    ∃ t ∈ terms, ∃ s, state.latest t.identity = some s ∧ k ≤ s.at_
  bids : ∀ k samples, state.pending.get? k = some samples →
    ∀ id s, samples id = some s → isPrice s.bid = true

def onTerms (t : ReferenceTerms) (o : ReferenceObservation) : Prop :=
  o.identity = t.identity ∧ o.assetId = t.assetId ∧ o.multiplier = t.multiplier

theorem eq_of_identity {terms : List ReferenceTerms}
    (h : (terms.map ReferenceTerms.identity).Nodup) {t u : ReferenceTerms} (ht : t ∈ terms)
    (hu : u ∈ terms) (heq : t.identity = u.identity) : t = u :=
  List.inj_on_of_nodup_map h ht hu heq

theorem keepSample_kept {terms : List ReferenceTerms} {state : MinuteState}
    {o : ReferenceObservation} {t : ReferenceTerms} (hk : Kept terms state) (ht : t ∈ terms)
    (hterms : onTerms t o) (hs : Sampled o)
    (hlater : ∀ old, state.latest o.identity = some old → old.at_ ≤ o.generatedAt) :
    Kept terms (keepSample state o.identity (sampleOf o)) := by
  obtain ⟨hid, hasset, hmultiplier⟩ := hterms
  have hle := (minuteOf_le o.generatedAt).1
  exact {
    identities := hk.identities
    distinct := hk.distinct
    latest := by
      intro u hu s hlatest
      simp only [keepSample, Function.update_apply] at hlatest
      split at hlatest
      · rename_i hsame
        cases hlatest
        rw [eq_of_identity hk.distinct hu ht (hsame.trans hid)]
        exact ⟨hasset, hmultiplier⟩
      · exact hk.latest u hu s hlatest
    once := OrderedMap.nodup_keys_set hk.once
    minute := by
      intro k hkey
      rcases OrderedMap.mem_keys_set.mp hkey with rfl | hold
      · refine ⟨(minuteOf_minuteOf _).symm, t, ht, sampleOf o, ?_, hle⟩
        simp only [keepSample, Function.update_apply, hid, if_true]
      · obtain ⟨hminute, u, hu, s, hlatest, hbefore⟩ := hk.minute k hold
        refine ⟨hminute, u, hu, ?_⟩
        simp only [keepSample, Function.update_apply]
        split
        · rename_i hsame
          rw [hsame] at hlatest
          exact ⟨sampleOf o, rfl, hbefore.trans (hlater s hlatest)⟩
        · exact ⟨s, hlatest, hbefore⟩
    bids := by
      intro k samples hget id s hsample
      simp only [keepSample] at hget
      by_cases hkey : k = minuteOf (sampleOf o).at_
      · rw [hkey, OrderedMap.get?_set_self, Option.some.injEq] at hget
        rw [← hget, Function.update_apply] at hsample
        split at hsample
        · cases hsample
          exact hs.bid
        · cases hold : state.pending.get? (minuteOf (sampleOf o).at_) with
          | none =>
              rw [hold, Option.getD_none] at hsample
              cases hsample
          | some old =>
              rw [hold, Option.getD_some] at hsample
              exact hk.bids _ old hold id s hsample
      · rw [OrderedMap.get?_set_of_ne hkey] at hget
        exact hk.bids k samples hget id s hsample }

/-- A sample that was taken. -/
structure Taken (terms : List ReferenceTerms) (state : MinuteState) (o : ReferenceObservation)
    (state' : MinuteState) : Prop where
  kept : Kept terms state'
  own : ∃ s, state'.latest o.identity = some s ∧ s.at_ = o.generatedAt
  others : ∀ id, id ≠ o.identity → state'.latest id = state.latest id

theorem keepSample_taken {terms : List ReferenceTerms} {state : MinuteState}
    {o : ReferenceObservation} {t : ReferenceTerms} (hk : Kept terms state) (ht : t ∈ terms)
    (hterms : onTerms t o) (hs : Sampled o)
    (hlater : ∀ old, state.latest o.identity = some old → old.at_ ≤ o.generatedAt) :
    Taken terms state o (keepSample state o.identity (sampleOf o)) where
  kept := keepSample_kept hk ht hterms hs hlater
  own := ⟨sampleOf o, by simp [keepSample], rfl⟩
  others := by
    intro id hid
    simp only [keepSample, Function.update_apply, if_neg hid]

theorem takeSample_spec {terms : List ReferenceTerms} {state state' : MinuteState}
    {o : ReferenceObservation} {t : ReferenceTerms} (hk : Kept terms state) (ht : t ∈ terms)
    (hterms : onTerms t o) (hs : Sampled o) (h : takeSample state o = .ok state') :
    Follows state o ∧ Taken terms state o state' := by
  unfold takeSample at h
  simp only [bind_eq_ok, ensure_eq_ok] at h
  obtain ⟨-, ⟨-, hclock, -⟩, -, -, h⟩ := h
  split at h
  · rename_i hnone
    rw [pure_eq_ok] at h
    subst h
    have hlater : ∀ old, state.latest o.identity = some old → old.at_ ≤ o.generatedAt := by
      intro old hold
      rw [hnone] at hold
      cases hold
    refine ⟨⟨hclock, fun old hold => ?_⟩, keepSample_taken hk ht hterms hs hlater⟩
    rw [hnone] at hold
    cases hold
  · rename_i old hold
    simp only [bind_eq_ok, ensure_eq_ok] at h
    obtain ⟨-, hle, -, -, h⟩ := h
    have hlater : ∀ o', state.latest o.identity = some o' → o'.at_ ≤ o.generatedAt := by
      intro o' ho'
      rw [hold, Option.some.injEq] at ho'
      rw [← ho']
      exact hle
    split at h
    · rename_i hat
      simp only [bind_eq_ok, ensure_eq_ok, pure_eq_ok] at h
      obtain ⟨-, hsame, rfl⟩ := h
      refine ⟨⟨hclock, fun o' ho' => ?_⟩, hk, ⟨old, hold, hat.symm⟩, fun _ _ => rfl⟩
      refine ⟨hlater o' ho', fun _ => ?_⟩
      rw [hold, Option.some.injEq] at ho'
      rw [← ho']
      exact hsame
    · rename_i hat
      rw [pure_eq_ok] at h
      subst h
      refine ⟨⟨hclock, fun o' ho' => ⟨hlater o' ho', fun heq => ?_⟩⟩,
        keepSample_taken hk ht hterms hs hlater⟩
      rw [hold, Option.some.injEq] at ho'
      exact absurd (heq.trans (by rw [ho'])) hat

theorem takeSample_follows {terms : List ReferenceTerms} {state : MinuteState}
    {o : ReferenceObservation} {t : ReferenceTerms} (hk : Kept terms state) (ht : t ∈ terms)
    (hterms : onTerms t o) (hs : Sampled o) (hf : Follows state o) :
    ∃ state', takeSample state o = .ok state' := by
  unfold takeSample
  rw [ensure_of ⟨hs.safe, hf.1, hs.clock⟩, ok_bind, ensure_of ⟨hs.bid, hs.ask, hs.ordered⟩, ok_bind]
  split
  · exact ⟨_, rfl⟩
  · rename_i old hold
    obtain ⟨hle, hsame⟩ := hf.2 old hold
    obtain ⟨hid, hasset, hmultiplier⟩ := hterms
    rw [hid] at hold
    obtain ⟨ha, hm⟩ := hk.latest t ht old hold
    rw [ensure_of hle, ok_bind, ensure_of ⟨ha.trans hasset.symm, hm.trans hmultiplier.symm⟩, ok_bind]
    split
    · rename_i hat
      rw [ensure_of (hsame hat), ok_bind]
      exact ⟨_, rfl⟩
    · exact ⟨_, rfl⟩

/-! ### All stocks -/

/-- An observation that follows still does after another stock was sampled. -/
theorem follows_of_latest {state state' : MinuteState} {o : ReferenceObservation}
    (h : state'.latest o.identity = state.latest o.identity) : Follows state' o ↔ Follows state o := by
  unfold Follows
  rw [h]

structure AllTaken (terms : List ReferenceTerms) (state : MinuteState)
    (os : List ReferenceObservation) (state' : MinuteState) : Prop where
  kept : Kept terms state'
  own : ∀ o ∈ os, ∃ s, state'.latest o.identity = some s ∧ s.at_ = o.generatedAt
  others : ∀ id, id ∉ os.map ReferenceObservation.identity → state'.latest id = state.latest id

theorem takeSamples_spec {terms : List ReferenceTerms} {os : List ReferenceObservation}
    (hs : ∀ o ∈ os, Sampled o) (hterms : ∀ o ∈ os, ∃ t ∈ terms, onTerms t o)
    (hdistinct : (os.map ReferenceObservation.identity).Nodup) {state state' : MinuteState}
    (hk : Kept terms state) (h : os.foldlM takeSample state = .ok state') :
    (∀ o ∈ os, Follows state o) ∧ AllTaken terms state os state' := by
  induction os generalizing state with
  | nil =>
      rw [List.foldlM_nil, pure_eq_ok] at h
      subst h
      exact ⟨fun o ho => absurd ho List.not_mem_nil, hk, fun o ho => absurd ho List.not_mem_nil,
        fun _ _ => rfl⟩
  | cons o rest ih =>
      rw [List.foldlM_cons, bind_eq_ok] at h
      obtain ⟨middle, hfirst, hrest⟩ := h
      obtain ⟨t, ht, hot⟩ := hterms o List.mem_cons_self
      obtain ⟨hfollows, htaken⟩ := takeSample_spec hk ht hot (hs o List.mem_cons_self) hfirst
      rw [List.map_cons, List.nodup_cons] at hdistinct
      obtain ⟨hnew, hdistinct⟩ := hdistinct
      obtain ⟨hall, hrestTaken⟩ := ih (fun p hp => hs p (List.mem_cons_of_mem o hp))
        (fun p hp => hterms p (List.mem_cons_of_mem o hp)) hdistinct htaken.kept hrest
      have hne : ∀ p ∈ rest, p.identity ≠ o.identity := fun p hp heq =>
        hnew (heq ▸ List.mem_map_of_mem hp)
      refine ⟨List.forall_mem_cons.mpr ⟨hfollows, fun p hp => ?_⟩, hrestTaken.kept,
        List.forall_mem_cons.mpr ⟨?_, hrestTaken.own⟩, fun id hid => ?_⟩
      · exact (follows_of_latest (htaken.others p.identity (hne p hp))).mp (hall p hp)
      · rw [hrestTaken.others o.identity hnew]
        exact htaken.own
      · rw [List.map_cons, List.mem_cons, not_or] at hid
        rw [hrestTaken.others id hid.2, htaken.others id hid.1]

theorem takeSamples_follows {terms : List ReferenceTerms} {os : List ReferenceObservation}
    (hs : ∀ o ∈ os, Sampled o) (hterms : ∀ o ∈ os, ∃ t ∈ terms, onTerms t o)
    (hdistinct : (os.map ReferenceObservation.identity).Nodup) {state : MinuteState}
    (hk : Kept terms state) (hf : ∀ o ∈ os, Follows state o) :
    ∃ state', os.foldlM takeSample state = .ok state' := by
  induction os generalizing state with
  | nil => exact ⟨state, rfl⟩
  | cons o rest ih =>
      obtain ⟨t, ht, hot⟩ := hterms o List.mem_cons_self
      obtain ⟨hfirst, hrest⟩ := List.forall_mem_cons.mp hf
      obtain ⟨middle, hmiddle⟩ := takeSample_follows hk ht hot (hs o List.mem_cons_self) hfirst
      obtain ⟨-, htaken⟩ := takeSample_spec hk ht hot (hs o List.mem_cons_self) hmiddle
      rw [List.map_cons, List.nodup_cons] at hdistinct
      have hne : ∀ p ∈ rest, p.identity ≠ o.identity := fun p hp heq =>
        hdistinct.1 (heq ▸ List.mem_map_of_mem hp)
      rw [List.foldlM_cons, hmiddle, ok_bind]
      refine ih (fun p hp => hs p (List.mem_cons_of_mem o hp))
        (fun p hp => hterms p (List.mem_cons_of_mem o hp)) hdistinct.2 htaken.kept fun p hp => ?_
      exact (follows_of_latest (htaken.others p.identity (hne p hp))).mpr (hrest p hp)

theorem ofTerms_eq {terms : List ReferenceTerms} {os : List ReferenceObservation}
    (hlength : os.length = terms.length) (h : ofTerms terms os = true) :
    os.map ReferenceObservation.identity = terms.map ReferenceTerms.identity ∧
      ∀ o ∈ os, ∃ t ∈ terms, onTerms t o := by
  induction os generalizing terms with
  | nil =>
      cases terms with
      | nil => exact ⟨rfl, fun o ho => absurd ho List.not_mem_nil⟩
      | cons t ts => cases hlength
  | cons o rest ih =>
      cases terms with
      | nil => cases hlength
      | cons t ts =>
          simp only [ofTerms, List.zip_cons_cons, List.all_cons, Bool.and_eq_true,
            decide_eq_true_eq] at h
          obtain ⟨⟨⟨hid, hasset⟩, hmultiplier⟩, hrest⟩ := h
          obtain ⟨hmap, hall⟩ := ih (Nat.succ.inj hlength) hrest
          refine ⟨by rw [List.map_cons, List.map_cons, hmap, hid], ?_⟩
          refine List.forall_mem_cons.mpr ⟨⟨t, List.mem_cons_self, hid, hasset, hmultiplier⟩, ?_⟩
          intro p hp
          obtain ⟨u, hu, hup⟩ := hall p hp
          exact ⟨u, List.mem_cons_of_mem t hu, hup⟩

/-! ## Minutes -/

/-- The minutes after a watermark that none of the samples is far from. -/
theorem pending_length_le {terms : List ReferenceTerms} {state : MinuteState} {w : Int}
    (hk : Kept terms state)
    (hnear : ∀ t ∈ terms, ∀ s, state.latest t.identity = some s → s.at_ ≤ w + 10000) :
    (state.pending.filter (fun e => minuteOf w ≤ e.1)).length ≤ 2 := by
  have hsub : ((state.pending.filter (fun e => minuteOf w ≤ e.1)).map Prod.fst).Sublist
      state.pending.keys := List.filter_sublist.map Prod.fst
  have hrange : (state.pending.filter (fun e => minuteOf w ≤ e.1)).map Prod.fst ⊆
      [minuteOf w, minuteOf w + minuteMs] := by
    intro k hkey
    obtain ⟨e, he, rfl⟩ := List.mem_map.mp hkey
    obtain ⟨hmem, hle⟩ := List.mem_filter.mp he
    obtain ⟨hminute, t, ht, s, hs, hbefore⟩ := hk.minute e.1 (List.mem_map_of_mem hmem)
    have hat := hnear t ht s hs
    rw [decide_eq_true_eq] at hle
    simp only [List.mem_cons, List.not_mem_nil, or_false]
    unfold minuteOf minuteMs at *
    omega
  have hle := (List.subperm_of_subset (hk.once.sublist hsub) hrange).length_le
  rw [List.length_map] at hle
  exact hle

/-! ### Closing -/

/-- A close has a price for every stock. -/
def Priced (identities : List String) : MinuteEvent → Prop
  | .gap _ _ => True
  | .close _ prices => ∀ id ∈ identities, ∃ p, prices id = some p ∧ isPrice p = true

theorem gap_priced {identities : List String} {events : List MinuteEvent} (from_ until_ : Int)
    (h : ∀ e ∈ events, Priced identities e) : ∀ e ∈ gap events from_ until_, Priced identities e := by
  have hone : ∀ (es : List MinuteEvent) (f u : Int), (∀ e ∈ es, Priced identities e) →
      ∀ e ∈ es ++ [.gap f u], Priced identities e := by
    intro es f u hes e he
    rcases List.mem_append.mp he with hin | hlast
    · exact hes e hin
    · rw [List.mem_singleton.mp hlast]
      trivial
  unfold gap
  split
  · exact h
  · split
    · split
      · exact hone _ _ _ fun e he => h e (List.dropLast_subset _ he)
      · exact hone _ _ _ h
    · exact hone _ _ _ h

theorem closeMinute_priced {terms : List ReferenceTerms} {state : MinuteState}
    (hk : Kept terms state) (maxCloseAgeMs : Int) {c : Closing} (start : Int)
    (h : ∀ e ∈ c.events, Priced state.identities e) :
    ∀ e ∈ (closeMinute state maxCloseAgeMs c start).events, Priced state.identities e := by
  have hgap := gap_priced c.nextMinute start h
  unfold closeMinute
  simp only
  split
  · rename_i hcloses
    intro e he
    rcases List.mem_append.mp he with hin | hlast
    · exact hgap e hin
    · rw [List.mem_singleton.mp hlast]
      intro id hid
      have hsample := List.all_eq_true.mp hcloses id hid
      split at hsample
      · cases hsample
      · rename_i s hs
        refine ⟨s.bid, (if_pos hid).trans (by rw [hs]; rfl), ?_⟩
        cases hget : state.pending.get? start with
        | none =>
            rw [hget, Option.getD_none] at hs
            cases hs
        | some samples =>
            rw [hget, Option.getD_some] at hs
            exact hk.bids start samples hget id s hs
  · exact gap_priced _ _ hgap

theorem closeMinutes_spec {terms : List ReferenceTerms} {state : MinuteState}
    (hk : Kept terms state) (maxCloseAgeMs boundary : Int) :
    Kept terms (closeMinutes state maxCloseAgeMs boundary).1 ∧
      ∀ e ∈ (closeMinutes state maxCloseAgeMs boundary).2, Priced state.identities e := by
  have hsub : (OrderedMap.keys (state.pending.filter (fun e => boundary ≤ e.1))).Sublist
      state.pending.keys := List.filter_sublist.map Prod.fst
  constructor
  · exact {
      identities := hk.identities
      distinct := hk.distinct
      latest := hk.latest
      once := hk.once.sublist hsub
      minute := fun k hkey => hk.minute k (hsub.subset hkey)
      bids := by
        intro k samples hget
        have hin := (OrderedMap.mem_iff_get? (hk.once.sublist hsub)).mpr hget
        exact hk.bids k samples ((OrderedMap.mem_iff_get? hk.once).mp (List.mem_filter.mp hin).1) }
  · have hfold : ∀ (starts : List Int) (c : Closing), (∀ e ∈ c.events, Priced state.identities e) →
        ∀ e ∈ (starts.foldl (closeMinute state maxCloseAgeMs) c).events, Priced state.identities e := by
      intro starts
      induction starts with
      | nil => exact fun c hc => hc
      | cons start rest ih => exact fun c hc => ih _ (closeMinute_priced hk maxCloseAgeMs start hc)
    exact gap_priced _ _ (hfold _ _ fun e he => absurd he List.not_mem_nil)

/-! ## Averages -/

/-- Past its period an accumulator has a value. -/
def Warm (period : Nat) (a : Accumulator) : Prop := a.count < period ∨ a.value.isSome = true

def Ready (ema : EmaState) : Prop := Warm 15 ema.fast ∧ Warm 30 ema.slow

theorem accumulate_warm {period : Nat} {a : Accumulator} (h : Warm period a) (scaled : Nat) :
    ∃ b, accumulate period a scaled = .ok b ∧ Warm period b := by
  unfold accumulate
  split
  · rename_i hcount
    split
    · exact ⟨_, rfl, Or.inr rfl⟩
    · rename_i hlast
      exact ⟨_, rfl, Or.inl (by simp only; omega)⟩
  · rename_i hcount
    obtain ⟨v, hv⟩ := Option.isSome_iff_exists.mp (h.resolve_left hcount)
    rw [hv]
    exact ⟨_, rfl, Or.inr rfl⟩

theorem advanceEma_ready {ema : EmaState} (h : Ready ema) {price : String}
    (hprice : isPrice price = true) : ∃ ema', advanceEma ema price = .ok ema' ∧ Ready ema' := by
  obtain ⟨fast, hfast, hfastWarm⟩ := accumulate_warm h.1 (Text.ofDecimal price * 1000000)
  obtain ⟨slow, hslow, hslowWarm⟩ := accumulate_warm h.2 (Text.ofDecimal price * 1000000)
  refine ⟨⟨fast, slow⟩, ?_, hfastWarm, hslowWarm⟩
  unfold advanceEma
  rw [ensure_of hprice, ok_bind]
  simp only [hfast, hslow, ok_bind]
  rfl

/-- One close moves the averages and nothing else that the next batch is checked by. -/
structure Moved (before after : ReferenceEngineState) : Prop where
  terms : after.terms = before.terms
  paused : after.paused = before.paused
  minutes : after.minutes = before.minutes
  ready : ∀ id, Ready (after.ema id)

theorem closeTerms_ready {terms ts : List ReferenceTerms} {at_ : Int}
    {prices : String → Option String} {ema : String → EmaState}
    (he : Priced (terms.map ReferenceTerms.identity) (.close at_ prices)) (hsub : ts ⊆ terms)
    (h : ∀ id, Ready (ema id)) :
    ∃ ema', ts.foldlM (closePrice prices) ema = .ok ema' ∧ ∀ id, Ready (ema' id) := by
  induction ts generalizing ema with
  | nil => exact ⟨ema, rfl, h⟩
  | cons t rest ih =>
      obtain ⟨ht, hrest⟩ := List.cons_subset.mp hsub
      obtain ⟨price, hprice, hvalid⟩ := he t.identity (List.mem_map_of_mem ht)
      obtain ⟨next, hnext, hnextReady⟩ := advanceEma_ready (h t.identity) hvalid
      have hready : ∀ id, Ready (Function.update ema t.identity next id) := by
        intro id
        rw [Function.update_apply]
        split
        · exact hnextReady
        · exact h id
      have hclose : closePrice prices ema t = .ok (Function.update ema t.identity next) := by
        rw [closePrice, hprice]
        exact bind_eq_ok.mpr ⟨next, hnext, rfl⟩
      obtain ⟨ema', hema', hready'⟩ := ih hrest hready
      refine ⟨ema', ?_, hready'⟩
      rw [List.foldlM_cons, hclose, ok_bind, hema']

theorem closePrices_moved {state : ReferenceEngineState} (h : ∀ id, Ready (state.ema id))
    {e : MinuteEvent} (he : Priced (state.terms.map ReferenceTerms.identity) e) :
    ∃ after, closePrices state e = .ok after ∧ Moved state after := by
  cases e with
  | gap f u => exact ⟨state, rfl, rfl, rfl, rfl, h⟩
  | close at_ prices =>
      obtain ⟨ema, hema, hready⟩ := closeTerms_ready he (fun _ ht => ht) h
      exact ⟨_, bind_eq_ok.mpr ⟨ema, hema, rfl⟩, rfl, rfl, rfl, hready⟩

theorem closeEvents_moved {events : List MinuteEvent} {s : ReferenceEngineState}
    (h : ∀ id, Ready (s.ema id))
    (he : ∀ e ∈ events, Priced (s.terms.map ReferenceTerms.identity) e) :
    ∃ after, events.foldlM closePrices s = .ok after ∧ Moved s after := by
  induction events generalizing s with
  | nil => exact ⟨s, rfl, rfl, rfl, rfl, h⟩
  | cons e rest ih =>
      obtain ⟨hfirst, hrest⟩ := List.forall_mem_cons.mp he
      obtain ⟨next, hnext, hmoved⟩ := closePrices_moved h hfirst
      rw [← hmoved.terms] at hrest
      obtain ⟨after, hafter, hthen⟩ := ih hmoved.ready hrest
      refine ⟨after, ?_, hthen.terms.trans hmoved.terms, hthen.paused.trans hmoved.paused,
        hthen.minutes.trans hmoved.minutes, hthen.ready⟩
      rw [List.foldlM_cons, hnext, ok_bind, hafter]

/-! ## A batch -/

/-- Observations of every stock, on its terms, and near each other in time. -/
structure Round (terms : List ReferenceTerms) (os : List ReferenceObservation) : Prop where
  sampled : ∀ o ∈ os, Sampled o
  identities : os.map ReferenceObservation.identity = terms.map ReferenceTerms.identity
  terms : ∀ o ∈ os, ∃ t ∈ terms, onTerms t o
  near : ∀ o ∈ os, ∀ p ∈ os, o.generatedAt - p.generatedAt ≤ 10000

/-- After all samples of a round the latest of a stock is of the round. -/
theorem round_latest {terms : List ReferenceTerms} {state state' : MinuteState}
    {os : List ReferenceObservation} (hr : Round terms os) (ht : AllTaken terms state os state') :
    ∀ id ∈ state'.identities, ∃ s, state'.latest id = some s ∧ ∃ o ∈ os, s.at_ = o.generatedAt := by
  intro id hid
  rw [ht.kept.identities, ← hr.identities] at hid
  obtain ⟨o, ho, rfl⟩ := List.mem_map.mp hid
  obtain ⟨s, hs, hat⟩ := ht.own o ho
  exact ⟨s, hs, o, ho, hat⟩

theorem advanceMinutes_identities {before : MinuteState} {os : List ReferenceObservation}
    {r : MinuteState × List MinuteEvent} (h : advanceMinutes before os 30000 = .ok r) :
    os.map ReferenceObservation.identity = before.identities := by
  unfold advanceMinutes at h
  simp only [bind_eq_ok, ensure_eq_ok] at h
  exact h.choose_spec.2.choose_spec.1

theorem advanceMinutes_spec {terms : List ReferenceTerms} {before after : MinuteState}
    {os : List ReferenceObservation} {events : List MinuteEvent} (hk : Kept terms before)
    (hr : Round terms os) (h : advanceMinutes before os 30000 = .ok (after, events)) :
    (∀ o ∈ os, Follows before o) ∧ Kept terms after ∧
      (∀ e ∈ events, Priced (terms.map ReferenceTerms.identity) e) ∧
      ∀ o ∈ os, ∃ s, after.latest o.identity = some s ∧ s.at_ = o.generatedAt := by
  unfold advanceMinutes at h
  simp only [bind_eq_ok, ensure_eq_ok, pure_eq_ok] at h
  obtain ⟨-, -, -, -, state, hstate, w, -, -, -, heq⟩ := h
  obtain ⟨hfollows, htaken⟩ := takeSamples_spec hr.sampled hr.terms (hr.identities ▸ hk.distinct) hk hstate
  obtain ⟨hkept, hpriced⟩ := closeMinutes_spec htaken.kept 30000 (minuteOf w)
  obtain ⟨rfl, rfl⟩ := Prod.mk.inj heq
  rw [htaken.kept.identities] at hpriced
  exact ⟨hfollows, hkept, hpriced, htaken.own⟩

theorem advanceMinutes_follows {terms : List ReferenceTerms} {before : MinuteState}
    {os : List ReferenceObservation} (hne : terms ≠ []) (hk : Kept terms before)
    (hr : Round terms os) (hf : ∀ o ∈ os, Follows before o) :
    ∃ after events, advanceMinutes before os 30000 = .ok (after, events) := by
  have hdistinct := hr.identities ▸ hk.distinct
  obtain ⟨state, hstate⟩ := takeSamples_follows hr.sampled hr.terms hdistinct hk hf
  obtain ⟨-, htaken⟩ := takeSamples_spec hr.sampled hr.terms hdistinct hk hstate
  have hlatest := round_latest hr htaken
  have hids : state.identities ≠ [] := by
    rw [htaken.kept.identities]
    exact fun hnil => hne (List.map_eq_nil_iff.mp hnil)
  obtain ⟨w, hw, id, hid, s, hs, hat⟩ := watermark_eq hids fun id hid =>
    let ⟨s, hs, _⟩ := hlatest id hid
    ⟨s, hs⟩
  obtain ⟨s', hs', o, ho, hoat⟩ := hlatest id hid
  -- the watermark is the clock of one observation, and the others are near it
  have hnear : ∀ t ∈ terms, ∀ s, state.latest t.identity = some s → s.at_ ≤ w + 10000 := by
    intro t ht u hu
    obtain ⟨u', hu', p, hp, hpat⟩ := hlatest t.identity (by
      rw [htaken.kept.identities]
      exact List.mem_map_of_mem ht)
    have hclose := hr.near p hp o ho
    rw [hu, Option.some.injEq] at hu'
    rw [hs, Option.some.injEq] at hs'
    subst hu' hs'
    omega
  have hpending := pending_length_le htaken.kept hnear
  refine ⟨(closeMinutes state 30000 (minuteOf w)).1, (closeMinutes state 30000 (minuteOf w)).2, ?_⟩
  unfold advanceMinutes
  rw [ensure_of (by decide), ok_bind, ensure_of (hr.identities.trans hk.identities.symm), ok_bind,
    hstate, ok_bind, hw, ok_bind]
  simp only
  rw [ensure_of (show (closeMinutes state 30000 (minuteOf w)).1.pending.length ≤ 3 from by
    have h2 : (closeMinutes state 30000 (minuteOf w)).1.pending.length ≤ 2 := hpending
    omega), ok_bind]
  rfl

/-- What the engine keeps from one batch to the next. -/
structure Coherent (e : ReferenceEngineState) : Prop where
  stocks : e.terms.length = 3
  kept : Kept e.terms e.minutes
  ready : ∀ id, Ready (e.ema id)

theorem createReferenceEngine_coherent {terms : List ReferenceTerms} {e : ReferenceEngineState}
    (h : createReferenceEngine terms = .ok e) : Coherent e ∧ e.terms = terms := by
  unfold createReferenceEngine createMinutes at h
  simp only [bind_eq_ok, ensure_eq_ok, pure_eq_ok] at h
  obtain ⟨-, ⟨-, hdistinct, -⟩, minutes, ⟨-, ⟨hlength, -⟩, rfl⟩, rfl⟩ := h
  rw [List.length_map] at hlength
  refine ⟨⟨hlength, ⟨rfl, hdistinct, ?_, List.nodup_nil, ?_, ?_⟩, fun _ => ⟨?_, ?_⟩⟩, rfl⟩
  · intro t _ s hs
    cases hs
  · intro k hk
    cases hk
  · intro k samples hget
    cases hget
  · exact Or.inl (Nat.succ_pos 14)
  · exact Or.inl (Nat.succ_pos 29)

theorem quotes_isOk {digest : String} {os : List ReferenceObservation} :
    (∃ quotes, os.mapM (quoteOf digest) = .ok quotes) ↔ ∀ o ∈ os, middle o ≠ 0 := by
  rw [mapM_isOk]
  refine forall₂_congr fun o _ => ?_
  unfold quoteOf
  simp only [bind_eq_ok, ensure_eq_ok]
  constructor
  · intro h
    exact h.choose_spec.choose_spec.1
  · intro h
    exact ⟨_, (), h, rfl⟩

section Engine

variable {jsonParse : String → Option Json} {sha256 : String → String}
  {batchDigest : ReferenceBatch → String}

/-- The policy the engine asks for. -/
def enginePolicy (p : BatchPolicy) : Prop :=
  p.maxAgeMs = 30000 ∧ p.maxQuoteSkewMs = 10000 ∧ p.maxCaptureSpanMs ≤ 30000

theorem observed_round {before : ReferenceEngineState} {policy : BatchPolicy}
    {os : List ReferenceObservation} (hlength : os.length = before.terms.length)
    (hpolicy : policy.maxQuoteSkewMs = 10000) (ho : Observed policy os)
    (hterms : ofTerms before.terms os = true) : Round before.terms os := by
  obtain ⟨hids, hon⟩ := ofTerms_eq hlength hterms
  exact ⟨ho.sampled, hids, hon, fun o ho' p hp => hpolicy ▸ ho.skew o ho' p hp⟩

/-- The quotes of a batch were taken. -/
structure Advances (before : ReferenceEngineState) (os : List ReferenceObservation)
    (after : ReferenceEngineState) : Prop where
  onTerms : ofTerms before.terms os = true
  steady : ∀ o ∈ os, Follows before.minutes o ∧ middle o ≠ 0
  terms : after.terms = before.terms
  paused : after.paused = before.paused
  latest : ∀ o ∈ os, ∃ s, after.minutes.latest o.identity = some s ∧ s.at_ = o.generatedAt
  coherent : Coherent after

/-- What a batch that moved the engine did: it stopped it or said nothing, it showed
other terms, or its quotes were taken. -/
theorem advance_cases {before : ReferenceEngineState} {batch : ReferenceBatch} {a : Advanced}
    (hc : Coherent before)
    (h : advanceReferenceEngine jsonParse sha256 batchDigest before batch = .ok a) :
    ((before.paused = true ∨ latches jsonParse before.terms batch = true ∨
        batch.status ≠ .accepted) ∧ ∃ paused, a.state = { before with paused }) ∨
      ∃ os, batch.observations = some os ∧
        ((ofTerms before.terms os = false ∧ a.state = { before with paused := true }) ∨
          Advances before os a.state) := by
  unfold advanceReferenceEngine at h
  simp only [bind_eq_ok, ensure_eq_ok] at h
  obtain ⟨-, -, -, ⟨-, hskew, -⟩, h⟩ := h
  split at h
  · rename_i hstop
    rw [pure_eq_ok] at h
    rw [Bool.or_eq_true, or_assoc] at hstop
    exact Or.inl ⟨hstop, _, (congrArg Advanced.state h).symm⟩
  · simp only [bind_eq_ok] at h
    obtain ⟨os, hos, h⟩ := h
    obtain ⟨hobserved, hsame⟩ := replayReferenceBatch_observed hos
    refine Or.inr ⟨os, hsame, ?_⟩
    split at h
    · rename_i hterms
      rw [pure_eq_ok] at h
      exact Or.inl ⟨hterms, (congrArg Advanced.state h).symm⟩
    · rename_i hterms
      rw [Bool.not_eq_false] at hterms
      simp only [bind_eq_ok, pure_eq_ok] at h
      obtain ⟨⟨minutes, events⟩, hminutes, state, hstate, quotes, hquotes, rfl⟩ := h
      have hlength : os.length = before.terms.length := by
        have hids := (advanceMinutes_identities hminutes).trans hc.kept.identities
        have hlen := congrArg List.length hids
        rw [List.length_map, List.length_map] at hlen
        exact hlen
      have hround := observed_round hlength hskew hobserved hterms
      obtain ⟨hfollows, hkept, hpriced, hlatest⟩ := advanceMinutes_spec hc.kept hround hminutes
      obtain ⟨after, hafter, hmoved⟩ :=
        closeEvents_moved (s := { before with minutes }) hc.ready hpriced
      have hmiddle := quotes_isOk.mp ⟨quotes, hquotes⟩
      rw [hafter, Except.ok.injEq] at hstate
      subst hstate
      refine Or.inr ⟨hterms, fun o ho => ⟨hfollows o ho, hmiddle o ho⟩, hmoved.terms, hmoved.paused, ?_,
        ⟨?_, ?_, hmoved.ready⟩⟩
      · rw [hmoved.minutes]
        exact hlatest
      · rw [hmoved.terms]
        exact hc.stocks
      · rw [hmoved.terms, hmoved.minutes]
        exact hkept

/-- A batch that moved the engine left it coherent, and was steady. -/
theorem advance_coherent {before : ReferenceEngineState} {batch : ReferenceBatch} {a : Advanced}
    (hc : Coherent before)
    (h : advanceReferenceEngine jsonParse sha256 batchDigest before batch = .ok a) :
    Coherent a.state ∧ Steady jsonParse before batch := by
  rcases advance_cases hc h with ⟨hstop, paused, hstate⟩ | ⟨os, hos, hrest⟩
  · rw [hstate]
    refine ⟨⟨hc.stocks, hc.kept, hc.ready⟩, ?_⟩
    rcases hstop with hpaused | hlatches | hrejected
    · exact Or.inl hpaused
    · exact Or.inr (Or.inl hlatches)
    · exact Or.inr (Or.inr (Or.inl hrejected))
  · have honly : ∀ os', batch.observations = some os' → os' = os := fun os' hos' =>
      Option.some.inj (hos'.symm.trans hos)
    rcases hrest with ⟨hterms, hstate⟩ | hadvances
    · rw [hstate]
      refine ⟨⟨hc.stocks, hc.kept, hc.ready⟩, Or.inr (Or.inr (Or.inr fun os' hos' => Or.inl ?_))⟩
      rw [honly os' hos']
      exact hterms
    · refine ⟨hadvances.coherent, Or.inr (Or.inr (Or.inr fun os' hos' => Or.inr ?_))⟩
      rw [honly os' hos']
      exact hadvances.steady

variable (batchDigest) in
/-- A steady batch of the service moves the engine. -/
theorem advance_steady {before : ReferenceEngineState} {batch : ReferenceBatch}
    {valid : Option (List ReferenceObservation)} (hc : Coherent before)
    (hvalid : validateReferenceBatch jsonParse sha256 batch = .ok valid)
    (hpolicy : enginePolicy batch.policy) (hcount : batch.policy.selections.length = 3)
    (hs : Steady jsonParse before batch) :
    ∃ a, advanceReferenceEngine jsonParse sha256 batchDigest before batch = .ok a := by
  obtain ⟨hage, hskew, hspan⟩ := hpolicy
  unfold advanceReferenceEngine
  rw [hvalid, ok_bind, ensure_of ⟨hage, hskew, hspan⟩, ok_bind]
  simp only
  split
  · exact ⟨_, rfl⟩
  · rename_i hgo
    rw [not_or, not_not, Bool.not_eq_true, Bool.or_eq_false_iff] at hgo
    obtain ⟨⟨hpaused, hlatches⟩, hstatus⟩ := hgo
    unfold validateReferenceBatch at hvalid
    rw [hstatus] at hvalid
    simp only [bind_eq_ok] at hvalid
    obtain ⟨os, hos, -⟩ := hvalid
    obtain ⟨hobserved, hsame⟩ := replayReferenceBatch_observed hos
    rw [hos, ok_bind]
    split
    · exact ⟨_, rfl⟩
    · rename_i hterms
      have hall : ∀ o ∈ os, Follows before.minutes o ∧ middle o ≠ 0 := by
        rcases hs with h | h | h | h
        · rw [hpaused] at h
          cases h
        · rw [hlatches] at h
          cases h
        · exact absurd hstatus h
        · exact (h os hsame).resolve_left hterms
      have hlength : os.length = before.terms.length := by
        rw [hobserved.count, hcount, hc.stocks]
      have hround := observed_round hlength hskew hobserved (by simpa using hterms)
      have hne : before.terms ≠ [] := by
        intro hnil
        have hthree := hc.stocks
        rw [hnil] at hthree
        cases hthree
      obtain ⟨minutes, events, hminutes⟩ :=
        advanceMinutes_follows hne hc.kept hround fun o ho => (hall o ho).1
      obtain ⟨-, -, hpriced, -⟩ := advanceMinutes_spec hc.kept hround hminutes
      obtain ⟨after, hafter, -⟩ :=
        closeEvents_moved (s := { before with minutes }) hc.ready hpriced
      obtain ⟨quotes, hquotes⟩ := quotes_isOk.mpr fun o ho => (hall o ho).2
      rw [hminutes, ok_bind]
      simp only
      rw [hafter, ok_bind, hquotes, ok_bind]
      exact ⟨_, rfl⟩

end Engine

end Reference
end AlphaForge
