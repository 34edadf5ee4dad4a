/-
Minutes that close, over any number of batches.

A minute is closed when the slowest stock has passed it.  No sample is older than what
is closed already, since a stock's clock does not go back and the slowest one has not
passed its own minute; and the minutes that wait are never far from it.  So what a batch
closes goes on where the last one stopped.
-/
import AlphaForge.Data.Tiling
import AlphaForge.Machine.Run
import AlphaForge.Reference.Engine
import Mathlib.Order.Bounds.Defs

namespace AlphaForge
namespace Reference

open Evm Machine

theorem minuteOf_le (t : Int) : minuteOf t ≤ t ∧ t < minuteOf t + minuteMs := by
  unfold minuteOf minuteMs
  omega

theorem minuteOf_minuteOf (t : Int) : minuteOf (minuteOf t) = minuteOf t := by
  unfold minuteOf minuteMs
  omega

/-! ## Samples -/

/-- A sample is as old as the latest of its stock and the same, or it is kept. -/
theorem takeSample_cases {state state' : MinuteState} {o : ReferenceObservation}
    (h : takeSample state o = .ok state') :
    (∀ old, state.latest o.identity = some old → old.at_ ≤ o.generatedAt) ∧
      ((state.latest o.identity = some (sampleOf o) ∧ state' = state) ∨
        state' = keepSample state o.identity (sampleOf o)) := by
  simp only [takeSample, bind_eq_ok, ensure_eq_ok] at h
  obtain ⟨_, _, _, _, h⟩ := h
  split at h
  · next hnone =>
    obtain rfl := pure_eq_ok.mp h
    refine ⟨fun old hold => ?_, Or.inr rfl⟩
    rw [hnone] at hold
    cases hold
  · next old hold =>
    simp only [bind_eq_ok, ensure_eq_ok] at h
    obtain ⟨_, hle, _, ⟨hasset, hmultiplier⟩, h⟩ := h
    refine ⟨fun other hother => ?_, ?_⟩
    · rw [hold] at hother
      obtain rfl := Option.some.inj hother
      exact hle
    · split at h
      · next hat =>
        simp only [bind_eq_ok, ensure_eq_ok, pure_eq_ok] at h
        obtain ⟨_, ⟨hbid, hask⟩, rfl⟩ := h
        refine Or.inl ⟨?_, rfl⟩
        rw [hold, sampleOf, hat, hbid, hask, ← hasset, ← hmultiplier]
      · obtain rfl := pure_eq_ok.mp h
        exact Or.inr rfl

/-- A sample that is the latest already changes nothing. -/
theorem takeSample_again {state state₀ state₁ : MinuteState} {o : ReferenceObservation}
    (hvalid : takeSample state₀ o = .ok state₁)
    (hlatest : state.latest o.identity = some (sampleOf o)) : takeSample state o = .ok state := by
  simp only [takeSample, bind_eq_ok, ensure_eq_ok] at hvalid
  obtain ⟨_, hclock, _, hprice, _⟩ := hvalid
  rw [takeSample, ensure_of hclock, ok_bind, ensure_of hprice, ok_bind, hlatest]
  have hle : (sampleOf o).at_ ≤ o.generatedAt := Int.le_refl _
  have hat : o.generatedAt = (sampleOf o).at_ := rfl
  have hterms : (sampleOf o).assetId = o.assetId ∧ (sampleOf o).multiplier = o.multiplier :=
    ⟨rfl, rfl⟩
  have hquote : o.tokenBidUsd18 = (sampleOf o).bid ∧ o.tokenAskUsd18 = (sampleOf o).ask :=
    ⟨rfl, rfl⟩
  show (do
    ensure ((sampleOf o).at_ ≤ o.generatedAt) "REFERENCE_QUOTE_REGRESSION"
    ensure ((sampleOf o).assetId = o.assetId ∧ (sampleOf o).multiplier = o.multiplier)
      "REFERENCE_TERMS_CHANGED"
    if o.generatedAt = (sampleOf o).at_ then do
      ensure (o.tokenBidUsd18 = (sampleOf o).bid ∧ o.tokenAskUsd18 = (sampleOf o).ask)
        "REFERENCE_QUOTE_CONFLICT"
      return state
    else return keepSample state o.identity (sampleOf o)) = .ok state
  rw [ensure_of hle, ok_bind, ensure_of hterms, ok_bind, if_pos hat, ensure_of hquote]
  rfl

/-- What the minutes hold of the observations so far.  The latest sample of a stock
waits in its minute, and no minute waits that the latest samples have not reached. -/
structure Holds (observed : List ReferenceObservation) (state : MinuteState) : Prop where
  latest : ∀ id s, state.latest id = some s → ∃ samples,
    state.pending.get? (minuteOf s.at_) = some samples ∧ samples id = some s
  samples : ∀ k samples id s, state.pending.get? k = some samples → samples id = some s →
    minuteOf s.at_ = k ∧ ∃ o ∈ observed, o.identity = id ∧ s = sampleOf o
  minutes : ∀ k ∈ state.pending.keys, ∃ id ∈ state.identities, ∃ s, state.latest id = some s ∧
    k ≤ s.at_ ∧ ∃ o ∈ observed, k = minuteOf o.generatedAt
  once : state.pending.keys.Nodup

/-- Samples that were taken. -/
structure Takes (state : MinuteState) (os : List ReferenceObservation) (state' : MinuteState) :
    Prop where
  identities : state'.identities = state.identities
  nextMinute : state'.nextMinute = state.nextMinute
  own : ∀ o ∈ os, state'.latest o.identity = some (sampleOf o)
  others : ∀ id, id ∉ os.map ReferenceObservation.identity → state'.latest id = state.latest id
  later : ∀ o ∈ os, ∀ old, state.latest o.identity = some old → old.at_ ≤ o.generatedAt
  keys : ∀ k, k ∈ state'.pending.keys ↔ k ∈ state.pending.keys ∨
    ∃ o ∈ os, k = minuteOf o.generatedAt

theorem keepSample_holds {observed : List ReferenceObservation} {state : MinuteState}
    {o : ReferenceObservation} (h : Holds observed state) (hid : o.identity ∈ state.identities)
    (hlater : ∀ old, state.latest o.identity = some old → old.at_ ≤ o.generatedAt) :
    Holds (observed ++ [o]) (keepSample state o.identity (sampleOf o)) := by
  have hself : o ∈ observed ++ [o] := List.mem_append_right _ List.mem_cons_self
  have hmem : ∀ p ∈ observed, p ∈ observed ++ [o] := fun p hp => List.mem_append_left _ hp
  refine ⟨fun id s hs => ?_, fun k samples id s hget hs => ?_, fun k hk => ?_,
    OrderedMap.nodup_keys_set h.once⟩
  · simp only [keepSample, Function.update_apply] at hs ⊢
    split at hs
    · next hsame =>
      obtain rfl := Option.some.inj hs
      refine ⟨_, OrderedMap.get?_set_self _ _ _, ?_⟩
      rw [Function.update_apply, if_pos hsame]
    · next hother =>
      obtain ⟨samples, hget, hsample⟩ := h.latest id s hs
      by_cases hkey : minuteOf s.at_ = minuteOf (sampleOf o).at_
      · rw [hkey, OrderedMap.get?_set_self]
        refine ⟨_, rfl, ?_⟩
        rw [Function.update_apply, if_neg hother, ← hkey, hget]
        exact hsample
      · rw [OrderedMap.get?_set_of_ne hkey]
        exact ⟨samples, hget, hsample⟩
  · have hold : ∀ old, state.pending.get? k = some old → old id = some s →
        minuteOf s.at_ = k ∧ ∃ p ∈ observed ++ [o], p.identity = id ∧ s = sampleOf p := by
      intro old hget hs
      obtain ⟨hminute, p, hp, hpid⟩ := h.samples k old id s hget hs
      exact ⟨hminute, p, hmem p hp, hpid⟩
    simp only [keepSample] at hget
    by_cases hkey : k = minuteOf (sampleOf o).at_
    · rw [hkey, OrderedMap.get?_set_self, Option.some.injEq] at hget
      rw [← hget, Function.update_apply] at hs
      split at hs
      · next hsame =>
        obtain rfl := Option.some.inj hs
        exact ⟨hkey.symm, o, hself, hsame.symm, rfl⟩
      · cases hbefore : state.pending.get? (minuteOf (sampleOf o).at_) with
        | none =>
            rw [hbefore, Option.getD_none] at hs
            cases hs
        | some old =>
            rw [hbefore, Option.getD_some] at hs
            exact hold old (hkey ▸ hbefore) hs
    · rw [OrderedMap.get?_set_of_ne hkey] at hget
      exact hold samples hget hs
  · rcases OrderedMap.mem_keys_set.mp hk with rfl | hk
    · refine ⟨o.identity, hid, sampleOf o, ?_, ?_, o, hself, rfl⟩
      · simp only [keepSample, Function.update_self]
      · show minuteOf o.generatedAt ≤ o.generatedAt
        unfold minuteOf minuteMs
        omega
    · obtain ⟨id, hin, s, hs, hle, p, hp, hkey⟩ := h.minutes k hk
      simp only [keepSample, Function.update_apply]
      by_cases hsame : id = o.identity
      · subst hsame
        refine ⟨o.identity, hin, sampleOf o, if_pos rfl, ?_, p, hmem p hp, hkey⟩
        exact Int.le_trans hle (hlater s hs)
      · exact ⟨id, hin, s, (if_neg hsame).trans hs, hle, p, hmem p hp, hkey⟩

theorem takeSample_holds {observed : List ReferenceObservation} {state state' : MinuteState}
    {o : ReferenceObservation} (h : Holds observed state) (hid : o.identity ∈ state.identities)
    (htake : takeSample state o = .ok state') :
    Holds (observed ++ [o]) state' ∧ Takes state [o] state' := by
  obtain ⟨hlater, hkept⟩ := takeSample_cases htake
  have hlaters : ∀ p ∈ [o], ∀ old, state.latest p.identity = some old → old.at_ ≤ p.generatedAt :=
    fun p hp => List.mem_singleton.mp hp ▸ hlater
  rcases hkept with ⟨hlatest, rfl⟩ | rfl
  · obtain ⟨samples, hget, _⟩ := h.latest o.identity (sampleOf o) hlatest
    have hkey : minuteOf o.generatedAt ∈ state'.pending.keys :=
      List.mem_map_of_mem (OrderedMap.mem_of_get? hget)
    refine ⟨⟨h.latest, fun k samples id s hget hs => ?_, fun k hk => ?_, h.once⟩,
      rfl, rfl, fun p hp => ?_, fun _ _ => rfl, hlaters, fun k => ⟨Or.inl, ?_⟩⟩
    · obtain ⟨hminute, p, hp, hpid⟩ := h.samples k samples id s hget hs
      exact ⟨hminute, p, List.mem_append_left _ hp, hpid⟩
    · obtain ⟨id, hin, s, hs, hle, p, hp, hpkey⟩ := h.minutes k hk
      exact ⟨id, hin, s, hs, hle, p, List.mem_append_left _ hp, hpkey⟩
    · rw [List.mem_singleton.mp hp]
      exact hlatest
    · rintro (hk | ⟨p, hp, rfl⟩)
      · exact hk
      · rw [List.mem_singleton.mp hp]
        exact hkey
  · refine ⟨keepSample_holds h hid hlater, rfl, rfl, fun p hp => ?_, fun id hne => ?_, hlaters,
      fun k => ?_⟩
    · rw [List.mem_singleton.mp hp]
      simp only [keepSample, Function.update_self]
    · rw [List.map_singleton, List.mem_singleton] at hne
      simp only [keepSample, Function.update_apply, if_neg hne]
    · show k ∈ (OrderedMap.set _ _ _).keys ↔ _
      rw [OrderedMap.mem_keys_set, or_comm]
      refine or_congr Iff.rfl ⟨fun hk => ⟨o, List.mem_cons_self, hk⟩, ?_⟩
      rintro ⟨p, hp, hk⟩
      rw [List.mem_singleton.mp hp] at hk
      exact hk

theorem takeSamples_holds {observed os : List ReferenceObservation} {state state' : MinuteState}
    (h : Holds observed state) (hids : ∀ o ∈ os, o.identity ∈ state.identities)
    (hdistinct : (os.map ReferenceObservation.identity).Nodup)
    (htake : os.foldlM takeSample state = .ok state') :
    Holds (observed ++ os) state' ∧ Takes state os state' := by
  induction os generalizing observed state with
  | nil =>
      obtain rfl := pure_eq_ok.mp htake
      refine ⟨by rwa [List.append_nil], rfl, rfl, fun o ho => ?_, fun _ _ => rfl, fun o ho => ?_,
        fun k => ⟨Or.inl, ?_⟩⟩
      · cases ho
      · cases ho
      · rintro (hk | ⟨o, ho, _⟩)
        · exact hk
        · cases ho
  | cons o rest ih =>
      rw [List.foldlM_cons, bind_eq_ok] at htake
      obtain ⟨middle, hfirst, hrest⟩ := htake
      rw [List.map_cons, List.nodup_cons] at hdistinct
      obtain ⟨hnew, hdistinct⟩ := hdistinct
      obtain ⟨hholds, htaken⟩ := takeSample_holds h (hids o List.mem_cons_self) hfirst
      have hidsRest : ∀ p ∈ rest, p.identity ∈ middle.identities := fun p hp => by
        rw [htaken.identities]
        exact hids p (List.mem_cons_of_mem _ hp)
      obtain ⟨hholds', htaken'⟩ := ih hholds hidsRest hdistinct hrest
      refine ⟨by rwa [List.append_assoc] at hholds', htaken'.identities.trans htaken.identities,
        htaken'.nextMinute.trans htaken.nextMinute, fun p hp => ?_, fun id hne => ?_,
        fun p hp => ?_, fun k => ?_⟩
      · rcases List.mem_cons.mp hp with rfl | hp
        · rw [htaken'.others p.identity hnew]
          exact htaken.own p List.mem_cons_self
        · exact htaken'.own p hp
      · rw [List.map_cons, List.mem_cons, not_or] at hne
        rw [htaken'.others id hne.2]
        refine htaken.others id ?_
        rw [List.map_singleton, List.mem_singleton]
        exact hne.1
      · rcases List.mem_cons.mp hp with rfl | hp
        · exact htaken.later p List.mem_cons_self
        · -- another stock's sample is as it was
          have hother : p.identity ∉ [o].map ReferenceObservation.identity := by
            rw [List.map_singleton, List.mem_singleton]
            exact fun heq => hnew (heq ▸ List.mem_map_of_mem hp)
          rw [← htaken.others p.identity hother]
          exact htaken'.later p hp
      · rw [htaken'.keys, htaken.keys]
        simp only [List.mem_cons, List.not_mem_nil, or_false, exists_eq_left, or_assoc,
          exists_eq_or_imp]

/-! ## The slowest clock -/

theorem foldl_min_mem (t : Int) (rest : List Int) : rest.foldl min t ∈ t :: rest := by
  induction rest generalizing t with
  | nil => exact List.mem_cons_self
  | cons u rest ih =>
      rw [List.foldl_cons]
      rcases List.mem_cons.mp (ih (min t u)) with heq | hin
      · rw [heq]
        rcases min_choice t u with h | h <;> rw [h]
        · exact List.mem_cons_self
        · exact List.mem_cons_of_mem t List.mem_cons_self
      · exact List.mem_cons_of_mem t (List.mem_cons_of_mem u hin)

/-- The watermark is the time of one of the latest samples. -/
theorem watermark_eq {state : MinuteState} (hne : state.identities ≠ [])
    (h : ∀ id ∈ state.identities, ∃ s, state.latest id = some s) :
    ∃ w, watermark state = .ok w ∧
      ∃ id ∈ state.identities, ∃ s, state.latest id = some s ∧ w = s.at_ := by
  have hat : ∀ {id s}, state.latest id = some s → latestAt state id = .ok s.at_ := by
    intro id s hs
    rw [latestAt, hs]
  obtain ⟨times, htimes⟩ : ∃ times, state.identities.mapM (latestAt state) = .ok times := by
    refine mapM_isOk.mpr fun id hid => ?_
    obtain ⟨s, hs⟩ := h id hid
    exact ⟨s.at_, hat hs⟩
  have hlength := mapM_length htimes
  cases times with
  | nil => exact absurd (List.length_eq_zero_iff.mp hlength.symm) hne
  | cons t rest =>
      refine ⟨rest.foldl min t, ?_, ?_⟩
      · exact bind_eq_ok.mpr ⟨t :: rest, htimes, rfl⟩
      · obtain ⟨id, hid, htime⟩ := mapM_mem htimes (foldl_min_mem t rest)
        obtain ⟨s, hs⟩ := h id hid
        rw [hat hs] at htime
        exact ⟨id, hid, s, hs, (Except.ok.inj htime).symm⟩

/-! ## Closing -/

/-- The time that an event is about. -/
def span : MinuteEvent → Int × Int
  | .close t _ => (t - minuteMs, t)
  | .gap f u => (f, u)

/-- A close has a sample of every stock in its minute, none older than the limit. -/
def ClosedBy (observed : List ReferenceObservation) (identities : List String) (maxAge : Int) :
    MinuteEvent → Prop
  | .gap _ _ => True
  | .close t prices => ∀ id ∈ identities, ∃ o ∈ observed, o.identity = id ∧
      minuteOf o.generatedAt = t - minuteMs ∧ t - o.generatedAt ≤ maxAge ∧
      prices id = some o.tokenBidUsd18

theorem mem_gap {events : List MinuteEvent} {f u : Int} {e : MinuteEvent}
    (h : e ∈ gap events f u) : e ∈ events ∨ ∃ f' u', e = .gap f' u' := by
  unfold gap at h
  split at h
  · exact Or.inl h
  · have hone : ∀ (es : List MinuteEvent) (f' : Int), e ∈ es ++ [MinuteEvent.gap f' u] →
        e ∈ es ∨ ∃ f' u', e = MinuteEvent.gap f' u' := by
      intro es f' he
      rcases List.mem_append.mp he with he | he
      · exact Or.inl he
      · exact Or.inr ⟨f', u, List.mem_singleton.mp he⟩
    split at h
    · split at h
      · exact (hone _ _ h).imp (fun hin => List.dropLast_subset _ hin) id
      · exact hone _ _ h
    · exact hone _ _ h

/-- A gap goes on where the events stop, in a gap that is there or in a new one. -/
theorem gap_tiles {events : List MinuteEvent} {a f u : Int}
    (h : Tiles (events.map span) a f) (hle : f ≤ u) : Tiles ((gap events f u).map span) a u := by
  unfold gap
  split
  · next hdone =>
    rwa [Int.le_antisymm hdone hle]
  · next hopen =>
    have hnew : Tiles ((events ++ [MinuteEvent.gap f u]).map span) a u := by
      rw [List.map_append]
      exact h.append (Tiles.single (Int.not_le.mp hopen))
    split
    · next f' u' hlast =>
      split
      · next hu =>
        subst hu
        obtain ⟨es, rfl⟩ := List.getLast?_eq_some_iff.mp hlast
        rw [List.dropLast_concat, List.map_append]
        rw [List.map_append] at h
        exact Tiles.extend h hle
      · exact hnew
    · exact hnew

section Closing

variable {observed : List ReferenceObservation} {state : MinuteState} {maxAge a : Int} {c : Closing}

theorem closeMinute_tiles {start : Int} (h : Tiles (c.events.map span) a c.nextMinute)
    (hle : c.nextMinute ≤ start) :
    Tiles ((closeMinute state maxAge c start).events.map span) a
      (closeMinute state maxAge c start).nextMinute := by
  have hgap := gap_tiles h hle
  have hlt : start < start + minuteMs := by
    unfold minuteMs
    omega
  simp only [closeMinute]
  split
  · rw [List.map_append]
    refine hgap.append ?_
    show Tiles [(start + minuteMs - minuteMs, start + minuteMs)] start (start + minuteMs)
    rw [Int.add_sub_cancel]
    exact Tiles.single hlt
  · exact gap_tiles hgap (Int.le_of_lt hlt)

theorem closeMinute_closed (hholds : Holds observed state) {start : Int}
    (h : ∀ e ∈ c.events, ClosedBy observed state.identities maxAge e) :
    ∀ e ∈ (closeMinute state maxAge c start).events,
      ClosedBy observed state.identities maxAge e := by
  have hgap : ∀ events : List MinuteEvent,
      (∀ e ∈ events, ClosedBy observed state.identities maxAge e) → ∀ f u, ∀ e ∈ gap events f u,
      ClosedBy observed state.identities maxAge e := by
    intro events hevents f u e he
    rcases mem_gap he with he | ⟨f', u', rfl⟩
    · exact hevents e he
    · trivial
  simp only [closeMinute]
  split
  · next hcloses =>
    intro e he
    rcases List.mem_append.mp he with he | he
    · exact hgap _ h _ _ e he
    · rw [List.mem_singleton.mp he]
      intro id hid
      have hsample := List.all_eq_true.mp hcloses id hid
      split at hsample
      · cases hsample
      · next s hs =>
        cases hget : state.pending.get? start with
        | none =>
            rw [hget, Option.getD_none] at hs
            cases hs
        | some samples =>
            have hsame := hs
            rw [hget, Option.getD_some] at hsame
            obtain ⟨hminute, o, ho, hoid, rfl⟩ := hholds.samples start samples id s hget hsame
            refine ⟨o, ho, hoid, ?_, of_decide_eq_true hsample, ?_⟩
            · rw [Int.add_sub_cancel]
              exact hminute
            · show (if id ∈ state.identities then _ else none) = _
              rw [if_pos hid, Option.getD_some, hsame]
              rfl
  · exact hgap _ (hgap _ h _ _) _ _

/-- Minutes that follow each other, each closed or made a gap of. -/
theorem closeFold_tiles {starts : List Int} {boundary : Int}
    (hafter : ∀ start ∈ starts, c.nextMinute ≤ start)
    (hapart : starts.Pairwise fun x y => x + minuteMs ≤ y)
    (hbefore : ∀ start ∈ starts, start + minuteMs ≤ boundary) (hle : c.nextMinute ≤ boundary)
    (h : Tiles (c.events.map span) a c.nextMinute) :
    Tiles ((starts.foldl (closeMinute state maxAge) c).events.map span) a
        (starts.foldl (closeMinute state maxAge) c).nextMinute ∧
      (starts.foldl (closeMinute state maxAge) c).nextMinute ≤ boundary := by
  induction starts generalizing c with
  | nil => exact ⟨h, hle⟩
  | cons start rest ih =>
      obtain ⟨hfirst, hrest⟩ := List.pairwise_cons.mp hapart
      exact ih hfirst hrest (fun s hs => hbefore s (List.mem_cons_of_mem _ hs))
        (hbefore start List.mem_cons_self)
        (closeMinute_tiles h (hafter start List.mem_cons_self))

theorem closeFold_closed (hholds : Holds observed state) (starts : List Int)
    (h : ∀ e ∈ c.events, ClosedBy observed state.identities maxAge e) :
    ∀ e ∈ (starts.foldl (closeMinute state maxAge) c).events,
      ClosedBy observed state.identities maxAge e := by
  induction starts generalizing c with
  | nil => exact h
  | cons start rest ih => exact ih (closeMinute_closed hholds h)

end Closing

theorem least_spec {l : List Int} (hne : l ≠ []) :
    ∃ m ∈ l, least l = some m ∧ ∀ k ∈ l, m ≤ k := by
  cases l with
  | nil => exact absurd rfl hne
  | cons t rest =>
      refine ⟨rest.foldl min t, foldl_min_mem t rest, rfl, ?_⟩
      have hle : ∀ (rest : List Int) (t : Int),
          rest.foldl min t ≤ t ∧ ∀ k ∈ rest, rest.foldl min t ≤ k := by
        intro rest
        induction rest with
        | nil => exact fun t => ⟨Int.le_refl t, fun k hk => absurd hk List.not_mem_nil⟩
        | cons u rest ih =>
            intro t
            obtain ⟨hhead, htail⟩ := ih (min t u)
            refine ⟨Int.le_trans hhead (Int.min_le_left t u), List.forall_mem_cons.mpr ⟨?_, htail⟩⟩
            exact Int.le_trans hhead (Int.min_le_right t u)
      exact List.forall_mem_cons.mpr (hle rest t)

/-- The minute that closing goes on from. -/
def base (state : MinuteState) : Int :=
  state.nextMinute.getD ((least state.pending.keys).getD 0)

theorem minuteOf_apart {x y : Int} (hx : x = minuteOf x) (hy : y = minuteOf y) (hlt : x < y) :
    x + minuteMs ≤ y := by
  unfold minuteOf minuteMs at *
  omega

/-- Everything from the minute that comes next to the boundary is closed or a gap. -/
theorem closeMinutes_tiles {observed : List ReferenceObservation} {state : MinuteState}
    {boundary : Int} (hholds : Holds observed state) (maxAge : Int)
    (hboundary : boundary = minuteOf boundary) (hle : base state ≤ boundary)
    (hafter : ∀ k ∈ state.pending.keys, base state ≤ k) :
    Tiles ((closeMinutes state maxAge boundary).2.map span) (base state) boundary ∧
      (closeMinutes state maxAge boundary).1.nextMinute = some boundary ∧
      ∀ e ∈ (closeMinutes state maxAge boundary).2,
        ClosedBy observed state.identities maxAge e := by
  have hminute : ∀ k ∈ state.pending.keys, k = minuteOf k := by
    intro k hk
    obtain ⟨_, _, _, _, _, o, _, rfl⟩ := hholds.minutes k hk
    exact (minuteOf_minuteOf _).symm
  have hstart : ∀ k ∈ (state.pending.keys.filter (· < boundary)).insertionSort (· ≤ ·),
      k ∈ state.pending.keys ∧ k < boundary := by
    intro k hk
    obtain ⟨hin, hlt⟩ := List.mem_filter.mp ((List.mem_insertionSort (· ≤ ·)).mp hk)
    exact ⟨hin, of_decide_eq_true hlt⟩
  have hapart : ((state.pending.keys.filter (· < boundary)).insertionSort (· ≤ ·)).Pairwise
      fun x y => x + minuteMs ≤ y := by
    have hsorted := List.pairwise_insertionSort (· ≤ ·) (state.pending.keys.filter (· < boundary))
    have hnodup : ((state.pending.keys.filter (· < boundary)).insertionSort (· ≤ ·)).Nodup :=
      (List.perm_insertionSort (· ≤ ·) _).nodup_iff.mpr (hholds.once.filter _)
    refine (hsorted.and hnodup).imp_of_mem fun hx hy h => ?_
    exact minuteOf_apart (hminute _ (hstart _ hx).1) (hminute _ (hstart _ hy).1)
      (lt_of_le_of_ne h.1 h.2)
  let starts := (state.pending.keys.filter (· < boundary)).insertionSort (· ≤ ·)
  let closing := starts.foldl (closeMinute state maxAge) ⟨[], base state⟩
  have hfold : Tiles (closing.events.map span) (base state) closing.nextMinute ∧
      closing.nextMinute ≤ boundary :=
    closeFold_tiles (fun k hk => hafter k (hstart k hk).1) hapart
      (fun k hk => minuteOf_apart (hminute k (hstart k hk).1) hboundary (hstart k hk).2) hle
      (Tiles.nil _)
  have hclosed : ∀ e ∈ closing.events, ClosedBy observed state.identities maxAge e :=
    closeFold_closed hholds starts fun e he => absurd he List.not_mem_nil
  obtain ⟨htiles, hnext⟩ := hfold
  refine ⟨gap_tiles htiles hnext, congrArg some (max_eq_right hnext), fun e he => ?_⟩
  rcases mem_gap he with he | ⟨f, u, rfl⟩
  · exact hclosed e he
  · trivial

end Reference
end AlphaForge
