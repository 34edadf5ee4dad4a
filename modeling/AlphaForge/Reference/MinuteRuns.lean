/-
Minutes tile time.

A run gives `advanceMinutes` one batch after another and collects what they emit.  The
minute that comes next is the one of the slowest clock, so that what a batch closes
begins where the last batch stopped, and a batch that comes again has nothing to close.
-/
import AlphaForge.Reference.Minutes

namespace AlphaForge
namespace Reference

open Evm Machine

/-- An event, with the limit of the batch that emitted it and the observations by then. -/
structure Emission where
  observed : List ReferenceObservation
  maxCloseAgeMs : Int
  event : MinuteEvent

/-- One call of `advanceMinutes`. -/
structure MinuteCall where
  observations : List ReferenceObservation
  maxCloseAgeMs : Int

structure MinuteRun where
  state : MinuteState
  accepted : List MinuteCall
  emitted : List Emission

namespace MinuteRun

def observed (run : MinuteRun) : List ReferenceObservation :=
  run.accepted.flatMap MinuteCall.observations

/-- The intervals emitted so far. -/
def spans (run : MinuteRun) : List (Int × Int) :=
  run.emitted.map fun e => span e.event

/-- The ends of the minutes closed so far. -/
def closeTimes (run : MinuteRun) : List Int :=
  run.emitted.filterMap fun e => match e.event with
    | .close t _ => some t
    | .gap _ _ => none

def start (state : MinuteState) : MinuteRun := ⟨state, [], []⟩

def call (c : MinuteCall) (run : MinuteRun) : Except String MinuteRun := do
  let (state, events) ← advanceMinutes run.state c.observations c.maxCloseAgeMs
  return {
    state
    accepted := run.accepted ++ [c]
    emitted := run.emitted ++
      events.map (Emission.mk (run.observed ++ c.observations) c.maxCloseAgeMs) }

end MinuteRun

/-! ## One batch -/

/-- No latest sample is before the watermark. -/
theorem watermark_le {state : MinuteState} {w : Int} (h : watermark state = .ok w) {id : String}
    (hid : id ∈ state.identities) : ∃ s, state.latest id = some s ∧ w ≤ s.at_ := by
  obtain ⟨times, htimes, hw⟩ := bind_eq_ok.mp h
  obtain ⟨t, hmem, ht⟩ := mem_of_mapM htimes hid
  obtain ⟨m, _, hleast, hall⟩ := least_spec (List.ne_nil_of_mem hmem)
  rw [hleast, Option.getD_some] at hw
  obtain rfl := pure_eq_ok.mp hw
  cases hs : state.latest id with
  | none =>
      rw [latestAt, hs] at ht
      cases ht
  | some s =>
      rw [latestAt, hs] at ht
      obtain rfl := Except.ok.inj ht
      exact ⟨s, rfl, hall _ hmem⟩

/-- Where the closed minutes stop: with the minute of the slowest clock. -/
structure Stopped (state : MinuteState) (next : Int) : Prop where
  clock : ∃ w, watermark state = .ok w ∧ next = minuteOf w
  waiting : ∀ k ∈ state.pending.keys, next ≤ k

/-- What holds between two batches. -/
structure Between (ids : List String) (observed : List ReferenceObservation) (state : MinuteState) :
    Prop where
  identities : state.identities = ids
  holds : Holds observed state
  observedIds : ∀ o ∈ observed, o.identity ∈ ids
  fresh : state.nextMinute = none → observed = []
  stopped : ∀ next, state.nextMinute = some next → Stopped state next

/-- Nothing that was held is lost with the minutes before the slowest clock. -/
theorem closeMinutes_holds {observed : List ReferenceObservation} {state : MinuteState} {w : Int}
    (h : Holds observed state) (hw : watermark state = .ok w) (maxAge : Int)
    (hin : ∀ id s, state.latest id = some s → id ∈ state.identities) :
    Holds observed (closeMinutes state maxAge (minuteOf w)).1 := by
  have hget : ∀ k samples,
      OrderedMap.get? k (state.pending.filter (fun e => minuteOf w ≤ e.1)) = some samples ↔
        state.pending.get? k = some samples ∧ minuteOf w ≤ k := by
    intro k samples
    rw [← OrderedMap.mem_iff_get? (OrderedMap.nodup_keys_filter h.once _),
      ← OrderedMap.mem_iff_get? h.once, List.mem_filter, decide_eq_true_eq]
  refine ⟨fun id s hs => ?_, fun k samples id s hsamples hs => ?_, fun k hk => ?_,
    OrderedMap.nodup_keys_filter h.once _⟩
  · obtain ⟨samples, hsamples, hsample⟩ := h.latest id s hs
    obtain ⟨other, hother, hle⟩ := watermark_le hw (hin id s hs)
    obtain rfl := Option.some.inj (hother.symm.trans hs)
    refine ⟨samples, (hget _ _).mpr ⟨hsamples, ?_⟩, hsample⟩
    unfold minuteOf minuteMs
    omega
  · exact h.samples k samples id s ((hget k samples).mp hsamples).1 hs
  · obtain ⟨e, he, rfl⟩ := List.mem_map.mp hk
    exact h.minutes e.1 (List.mem_map_of_mem (List.mem_filter.mp he).1)

/-- An accepted batch. -/
structure Advance (ids : List String) (observed os : List ReferenceObservation)
    (before state : MinuteState) (maxAge : Int) (events : List MinuteEvent) : Prop where
  policy : 0 < maxAge ∧ maxAge ≤ minuteMs
  batch : os.map ReferenceObservation.identity = ids
  between : Between ids (observed ++ os) state
  closed : ∀ e ∈ events, ClosedBy (observed ++ os) ids maxAge e
  tiles : ∃ from_ next, state.nextMinute = some next ∧ Tiles (events.map span) from_ next ∧
    (∀ b, before.nextMinute = some b → from_ = b) ∧
    (before.nextMinute = none → IsLeast {t | ∃ o ∈ os, t = minuteOf o.generatedAt} from_)
  own : ∀ o ∈ os, state.latest o.identity = some (sampleOf o)
  later : ∀ o ∈ os, ∀ old, before.latest o.identity = some old → old.at_ ≤ o.generatedAt
  valid : ∀ o ∈ os, ∃ s s', takeSample s o = .ok s'
  few : state.pending.length ≤ 3

/-- The samples of a batch, and where closing goes on from. -/
theorem base_spec {ids : List String} {observed os : List ReferenceObservation}
    {before state : MinuteState} (hbetween : Between ids observed before)
    (hbatch : os.map ReferenceObservation.identity = ids) (hne : ids ≠ [])
    (htaken : Takes before os state) :
    (∀ k ∈ state.pending.keys, base state ≤ k) ∧
      (∀ b, before.nextMinute = some b → base state = b) ∧
      (before.nextMinute = none →
        IsLeast {t | ∃ o ∈ os, t = minuteOf o.generatedAt} (base state)) := by
  rw [base, htaken.nextMinute]
  cases hnext : before.nextMinute with
  | none =>
      have hnothing := hbetween.fresh hnext
      have hkeys : ∀ k, k ∈ state.pending.keys ↔ ∃ o ∈ os, k = minuteOf o.generatedAt := by
        intro k
        rw [htaken.keys k, or_iff_right]
        intro hk
        obtain ⟨_, _, _, _, _, o, ho, _⟩ := hbetween.holds.minutes k hk
        rw [hnothing] at ho
        cases ho
      have hsome : state.pending.keys ≠ [] := by
        obtain ⟨o, ho⟩ := List.exists_mem_of_ne_nil os fun h => hne (by rw [← hbatch, h]; rfl)
        exact List.ne_nil_of_mem ((hkeys _).mpr ⟨o, ho, rfl⟩)
      obtain ⟨m, hm, hleast, hall⟩ := least_spec hsome
      rw [Option.getD_none, hleast, Option.getD_some]
      refine ⟨hall, fun b hb => ?_, fun _ => ⟨(hkeys m).mp hm, fun t ht => hall t ((hkeys t).mpr ht)⟩⟩
      cases hb
  | some next =>
      rw [Option.getD_some]
      have hbefore := hbetween.stopped next hnext
      refine ⟨fun k hk => ?_, fun b hb => Option.some.inj hb, fun h => ?_⟩
      · rcases (htaken.keys k).mp hk with hold | ⟨o, ho, rfl⟩
        · exact hbefore.waiting k hold
        · obtain ⟨w, hw, rfl⟩ := hbefore.clock
          have hin : o.identity ∈ before.identities := by
            rw [hbetween.identities, ← hbatch]
            exact List.mem_map_of_mem ho
          obtain ⟨old, hold, hle⟩ := watermark_le hw hin
          have hlater := htaken.later o ho old hold
          unfold minuteOf minuteMs
          omega
      · cases h

theorem takeSamples_valid {os : List ReferenceObservation} {state state' : MinuteState}
    (h : os.foldlM takeSample state = .ok state') {o : ReferenceObservation} (ho : o ∈ os) :
    ∃ s s', takeSample s o = .ok s' := by
  induction os generalizing state with
  | nil => cases ho
  | cons p rest ih =>
      rw [List.foldlM_cons, bind_eq_ok] at h
      obtain ⟨middle, hfirst, hrest⟩ := h
      rcases List.mem_cons.mp ho with rfl | ho
      · exact ⟨state, middle, hfirst⟩
      · exact ih hrest ho

theorem advance_spec {ids : List String} {observed os : List ReferenceObservation}
    {before state : MinuteState} {maxAge : Int} {events : List MinuteEvent}
    (hbetween : Between ids observed before) (hne : ids ≠ []) (hdistinct : ids.Nodup)
    (h : advanceMinutes before os maxAge = .ok (state, events)) :
    Advance ids observed os before state maxAge events := by
  simp only [advanceMinutes, bind_eq_ok, ensure_eq_ok, pure_eq_ok, Prod.mk.injEq] at h
  obtain ⟨_, hpolicy, _, hbatch, taken, htake, w, hw, _, hfew, rfl, rfl⟩ := h
  rw [hbetween.identities] at hbatch
  have hids : ∀ o ∈ os, o.identity ∈ before.identities := fun o ho => by
    rw [hbetween.identities, ← hbatch]
    exact List.mem_map_of_mem ho
  obtain ⟨hholds, htaken⟩ := takeSamples_holds hbetween.holds hids (hbatch ▸ hdistinct) htake
  have hidentities : taken.identities = ids := htaken.identities.trans hbetween.identities
  have hobserved : ∀ o ∈ observed ++ os, o.identity ∈ ids := by
    intro o ho
    rcases List.mem_append.mp ho with ho | ho
    · exact hbetween.observedIds o ho
    · exact hbetween.identities ▸ hids o ho
  obtain ⟨hafter, hfrom, hfirst⟩ := base_spec hbetween hbatch hne htaken
  obtain ⟨id, hid, s, hs, hws⟩ : ∃ id ∈ taken.identities, ∃ s, taken.latest id = some s ∧
      w = s.at_ := by
    have hlatest : ∀ id ∈ taken.identities, ∃ s, taken.latest id = some s := by
      intro id hid
      obtain ⟨s, hs, _⟩ := watermark_le hw hid
      exact ⟨s, hs⟩
    obtain ⟨w', hw', hslowest⟩ := watermark_eq (hidentities ▸ hne) hlatest
    obtain rfl := Except.ok.inj (hw'.symm.trans hw)
    exact hslowest
  have hboundary : minuteOf w ∈ taken.pending.keys := by
    obtain ⟨samples, hget, _⟩ := hholds.latest id s hs
    rw [hws]
    exact List.mem_map_of_mem (OrderedMap.mem_of_get? hget)
  obtain ⟨htiles, hnext, hclosed⟩ := closeMinutes_tiles hholds maxAge
    (minuteOf_minuteOf w).symm (hafter _ hboundary) hafter
  have hin : ∀ id s, taken.latest id = some s → id ∈ taken.identities := by
    intro id s hs
    obtain ⟨samples, hget, hsample⟩ := hholds.latest id s hs
    obtain ⟨_, o, ho, rfl, _⟩ := hholds.samples _ samples id s hget hsample
    rw [hidentities]
    exact hobserved o ho
  refine {
    policy := hpolicy
    batch := hbatch
    between := {
      identities := hidentities
      holds := closeMinutes_holds hholds hw maxAge hin
      observedIds := hobserved
      fresh := fun h => ?_
      stopped := fun next h => ?_ }
    closed := hidentities ▸ hclosed
    tiles := ⟨base taken, minuteOf w, hnext, htiles, hfrom, hfirst⟩
    own := htaken.own
    later := htaken.later
    valid := ?_
    few := hfew }
  · rw [hnext] at h
    cases h
  · obtain rfl := Option.some.inj (hnext.symm.trans h)
    refine ⟨⟨w, hw, rfl⟩, fun k hk => ?_⟩
    obtain ⟨e, he, rfl⟩ := List.mem_map.mp hk
    exact of_decide_eq_true (List.mem_filter.mp he).2
  · exact fun o ho => takeSamples_valid htake ho

/-! ## A batch that comes again -/

/-- A batch whose samples are the latest has nothing to close. -/
theorem advance_again {ids : List String} {observed os : List ReferenceObservation}
    {before state : MinuteState} {maxAge : Int} {events : List MinuteEvent}
    (h : Advance ids observed os before state maxAge events) :
    advanceMinutes state os maxAge = .ok (state, []) := by
  obtain ⟨_, next, hnext, _⟩ := h.tiles
  obtain ⟨⟨w, hw, rfl⟩, hwaiting⟩ := h.between.stopped next hnext
  have hbatch : os.map ReferenceObservation.identity = state.identities :=
    h.batch.trans h.between.identities.symm
  have htake : os.foldlM takeSample state = .ok state := by
    have hall : ∀ rest : List ReferenceObservation, rest ⊆ os →
        rest.foldlM takeSample state = .ok state := by
      intro rest
      induction rest with
      | nil => exact fun _ => rfl
      | cons o rest ih =>
          intro hsub
          obtain ⟨s, s', hvalid⟩ := h.valid o (hsub List.mem_cons_self)
          rw [List.foldlM_cons, takeSample_again hvalid (h.own o (hsub List.mem_cons_self)), ok_bind]
          exact ih fun p hp => hsub (List.mem_cons_of_mem _ hp)
    exact hall os fun _ ho => ho
  have hstarts : state.pending.keys.filter (· < minuteOf w) = [] := by
    refine List.filter_eq_nil_iff.mpr fun k hk => ?_
    rw [decide_eq_true_eq]
    exact Int.not_lt.mpr (hwaiting k hk)
  have hkept : state.pending.filter (fun e => minuteOf w ≤ e.1) = state.pending := by
    refine List.filter_eq_self.mpr fun e he => ?_
    exact decide_eq_true (hwaiting e.1 (List.mem_map_of_mem he))
  have hclose : closeMinutes state maxAge (minuteOf w) = (state, []) := by
    simp only [closeMinutes, hstarts, hkept, hnext, Option.getD_some, List.insertionSort_nil,
      List.foldl_nil, max_self, gap, if_pos (Int.le_refl (minuteOf w))]
    rw [← hnext]
  rw [advanceMinutes, ensure_of h.policy, ok_bind, ensure_of hbatch, ok_bind, htake, ok_bind, hw,
    ok_bind]
  simp only [hclose, ensure_of h.few]
  rfl

/-! ## The limit on waiting minutes -/

/-- A batch whose clocks are close leaves two minutes at most. -/
theorem pending_few {observed os : List ReferenceObservation} {state : MinuteState} {w : Int}
    (h : Holds observed state) (hw : watermark state = .ok w) (maxAge : Int)
    (hbatch : os.map ReferenceObservation.identity = state.identities)
    (hown : ∀ o ∈ os, state.latest o.identity = some (sampleOf o))
    (hnear : ∀ o ∈ os, ∀ p ∈ os, o.generatedAt - p.generatedAt < minuteMs) :
    (closeMinutes state maxAge (minuteOf w)).1.pending.length ≤ 3 := by
  have hrange : (state.pending.filter (fun e => minuteOf w ≤ e.1)).map Prod.fst ⊆
      [minuteOf w, minuteOf w + minuteMs] := by
    intro k hk
    obtain ⟨e, he, rfl⟩ := List.mem_map.mp hk
    obtain ⟨hmem, hle⟩ := List.mem_filter.mp he
    rw [decide_eq_true_eq] at hle
    obtain ⟨id, hid, s, hs, hks, o, _, hminute⟩ := h.minutes e.1 (List.mem_map_of_mem hmem)
    -- the sample of the slowest stock and that of the key are both of this batch
    have hat : ∀ id ∈ state.identities, ∀ s, state.latest id = some s →
        ∃ o ∈ os, s.at_ = o.generatedAt := by
      intro id hid s hs
      rw [← hbatch] at hid
      obtain ⟨o, ho, rfl⟩ := List.mem_map.mp hid
      obtain rfl := Option.some.inj (hs.symm.trans (hown o ho))
      exact ⟨o, ho, rfl⟩
    obtain ⟨w', hw', slowest, hslowest, t, ht, rfl⟩ := watermark_eq (List.ne_nil_of_mem hid)
      fun id hid => let ⟨s, hs, _⟩ := watermark_le hw hid; ⟨s, hs⟩
    obtain rfl := Except.ok.inj (hw'.symm.trans hw)
    obtain ⟨p, hp, hpt⟩ := hat slowest hslowest t ht
    obtain ⟨q, hq, hqs⟩ := hat id hid s hs
    have hclose := hnear q hq p hp
    simp only [List.mem_cons, List.not_mem_nil, or_false]
    unfold minuteOf minuteMs at *
    omega
  have hle := (List.subperm_of_subset (OrderedMap.nodup_keys_filter h.once _) hrange).length_le
  rw [OrderedMap.keys, List.length_map] at hle
  exact Nat.le_trans hle (show 2 ≤ 3 by decide)

theorem takeSample_ne_limit {state : MinuteState} {o : ReferenceObservation} :
    takeSample state o ≠ .error "MINUTE_PENDING_LIMIT" := by
  intro h
  simp only [takeSample, bind_eq_error, ensure_eq_error] at h
  rcases h with ⟨_, h⟩ | ⟨_, _, ⟨_, h⟩ | ⟨_, _, h⟩⟩
  · exact absurd h (by decide)
  · exact absurd h (by decide)
  · split at h
    · cases h
    · simp only [bind_eq_error, ensure_eq_error] at h
      rcases h with ⟨_, h⟩ | ⟨_, _, ⟨_, h⟩ | ⟨_, _, h⟩⟩
      · exact absurd h (by decide)
      · exact absurd h (by decide)
      · split at h
        · simp only [bind_eq_error, ensure_eq_error] at h
          rcases h with ⟨_, h⟩ | ⟨_, _, h⟩
          · exact absurd h (by decide)
          · cases h
        · cases h

theorem watermark_ne_limit {state : MinuteState} :
    watermark state ≠ .error "MINUTE_PENDING_LIMIT" := by
  intro h
  rcases bind_eq_error.mp h with h | ⟨_, _, h⟩
  · obtain ⟨id, _, hid⟩ := mapM_eq_error h
    unfold latestAt at hid
    split at hid
    · exact absurd (Except.error.inj hid) (by decide)
    · cases hid
  · cases h

theorem advance_ne_limit {ids : List String} {observed os : List ReferenceObservation}
    {state : MinuteState} (maxAge : Int) (hbetween : Between ids observed state)
    (hdistinct : ids.Nodup)
    (hnear : ∀ o ∈ os, ∀ p ∈ os, o.generatedAt - p.generatedAt < minuteMs) :
    advanceMinutes state os maxAge ≠ .error "MINUTE_PENDING_LIMIT" := by
  intro h
  simp only [advanceMinutes, bind_eq_error, ensure_eq_error, ensure_eq_ok] at h
  rcases h with ⟨_, h⟩ | ⟨_, _, ⟨_, h⟩ | ⟨_, hbatch, h | ⟨taken, htake, h | ⟨w, hw, h⟩⟩⟩⟩
  · exact absurd h (by decide)
  · exact absurd h (by decide)
  · obtain ⟨s, o, _, ho⟩ := foldlM_eq_error h
    exact takeSample_ne_limit ho
  · exact watermark_ne_limit h
  · have hids : ∀ o ∈ os, o.identity ∈ state.identities := fun o ho =>
      hbatch ▸ List.mem_map_of_mem ho
    rw [hbetween.identities] at hbatch
    obtain ⟨hholds, htaken⟩ := takeSamples_holds hbetween.holds hids (hbatch ▸ hdistinct) htake
    have hsame : os.map ReferenceObservation.identity = taken.identities :=
      hbatch.trans (htaken.identities.trans hbetween.identities).symm
    have hfew := pending_few hholds hw maxAge hsame htaken.own hnear
    rcases h with ⟨hmany, _⟩ | ⟨_, _, h⟩
    · exact hmany hfew
    · cases h

/-! ## Runs -/

/-- What holds after any number of calls. -/
structure Tiled (ids : List String) (run : MinuteRun) : Prop where
  between : Between ids run.observed run.state
  nothing : run.state.nextMinute = none → run.emitted = []
  tiles : ∀ next, run.state.nextMinute = some next → ∃ first,
    IsLeast {t | ∃ o ∈ run.observed, t = minuteOf o.generatedAt} first ∧
      Tiles run.spans first next
  closed : ∀ e ∈ run.emitted, ClosedBy e.observed ids e.maxCloseAgeMs e.event
  again : ∀ last, run.accepted.getLast? = some last →
    advanceMinutes run.state last.observations last.maxCloseAgeMs = .ok (run.state, [])

/-- The intervals tile some range, an empty one before the first batch. -/
theorem Tiled.tiling {ids : List String} {run : MinuteRun} (h : Tiled ids run) :
    ∃ first next, Tiles run.spans first next := by
  cases hnext : run.state.nextMinute with
  | none =>
      refine ⟨0, 0, ?_⟩
      rw [MinuteRun.spans, h.nothing hnext]
      exact Tiles.nil 0
  | some next =>
      obtain ⟨first, _, htiles⟩ := h.tiles next hnext
      exact ⟨first, next, htiles⟩

theorem Tiled.disjoint {ids : List String} {run : MinuteRun} (h : Tiled ids run) :
    run.spans.Pairwise fun i j => i.2 ≤ j.1 := by
  obtain ⟨_, _, htiles⟩ := h.tiling
  exact htiles.disjoint

/-- Two closes at one time would be one interval twice. -/
theorem Tiled.once {ids : List String} {run : MinuteRun} (h : Tiled ids run) :
    run.closeTimes.Nodup := by
  refine List.Pairwise.filterMap _ (fun e e' hdisjoint t ht t' ht' => ?_)
    (List.pairwise_map.mp h.disjoint)
  cases hevent : e.event with
  | gap f u =>
      rw [hevent] at ht
      cases ht
  | close u prices =>
      cases hevent' : e'.event with
      | gap f u' =>
          rw [hevent'] at ht'
          cases ht'
      | close u' prices' =>
          rw [hevent] at ht hdisjoint
          rw [hevent'] at ht' hdisjoint
          obtain rfl := Option.some.inj ht
          obtain rfl := Option.some.inj ht'
          simp only [span] at hdisjoint
          unfold minuteMs at hdisjoint
          omega

theorem tiled_start {ids : List String} {state : MinuteState} (h : createMinutes ids = .ok state) :
    Tiled ids (MinuteRun.start state) := by
  simp only [createMinutes, bind_eq_ok, pure_eq_ok] at h
  obtain ⟨_, _, rfl⟩ := h
  refine ⟨⟨rfl, ⟨fun id s hs => ?_, fun k samples id s hget _ => ?_, fun k hk => ?_, List.nodup_nil⟩,
    fun o ho => ?_, fun _ => rfl, fun next hnext => ?_⟩, fun _ => rfl, fun next hnext => ?_,
    fun e he => ?_, fun last hlast => ?_⟩
  · cases hs
  · cases hget
  · cases hk
  · cases ho
  · cases hnext
  · cases hnext
  · cases he
  · cases hlast

theorem tiled_call {ids : List String} (hne : ids ≠ []) (hdistinct : ids.Nodup) {c : MinuteCall}
    {run run' : MinuteRun} (h : Tiled ids run) (hcall : MinuteRun.call c run = .ok run') :
    Tiled ids run' := by
  simp only [MinuteRun.call, bind_eq_ok, pure_eq_ok] at hcall
  obtain ⟨⟨state, events⟩, hadvance, rfl⟩ := hcall
  have hstep := advance_spec h.between hne hdistinct hadvance
  obtain ⟨from_, next, hnext, htiles, hfrom, hfirst⟩ := hstep.tiles
  have hobserved : MinuteRun.observed ⟨state, run.accepted ++ [c], run.emitted ++
      events.map (Emission.mk (run.observed ++ c.observations) c.maxCloseAgeMs)⟩ =
      run.observed ++ c.observations := by
    simp only [MinuteRun.observed, List.flatMap_append, List.flatMap_cons, List.flatMap_nil,
      List.append_nil]
  have hspans : MinuteRun.spans ⟨state, run.accepted ++ [c], run.emitted ++
      events.map (Emission.mk (run.observed ++ c.observations) c.maxCloseAgeMs)⟩ =
      run.spans ++ events.map span := by
    simp only [MinuteRun.spans, List.map_append, List.map_map]
    rfl
  refine ⟨?_, fun hnone => ?_, fun next' hnext' => ?_, fun e he => ?_, fun last hlast => ?_⟩
  · rw [hobserved]
    exact hstep.between
  · rw [hnext] at hnone
    cases hnone
  · obtain rfl := Option.some.inj (hnext.symm.trans hnext')
    rw [hobserved, hspans]
    cases hbefore : run.state.nextMinute with
    | none =>
        have hempty : run.spans = [] := by
          rw [MinuteRun.spans, h.nothing hbefore, List.map_nil]
        rw [h.between.fresh hbefore, hempty]
        exact ⟨from_, hfirst hbefore, htiles⟩
    | some b =>
        obtain ⟨first, hleast, hspan⟩ := h.tiles b hbefore
        obtain rfl := hfrom b hbefore
        refine ⟨first, ⟨?_, fun t ht => ?_⟩, hspan.append htiles⟩
        · obtain ⟨o, ho, hfirst⟩ := hleast.1
          exact ⟨o, List.mem_append_left _ ho, hfirst⟩
        · obtain ⟨o, ho, rfl⟩ := ht
          rcases List.mem_append.mp ho with ho | ho
          · exact hleast.2 ⟨o, ho, rfl⟩
          · -- the batch is not before what is closed already
            obtain ⟨w, hw, hwnext⟩ := (h.between.stopped _ hbefore).clock
            have hin : o.identity ∈ run.state.identities := by
              rw [h.between.identities, ← hstep.batch]
              exact List.mem_map_of_mem ho
            obtain ⟨old, hold, hle⟩ := watermark_le hw hin
            have hlater := hstep.later o ho old hold
            have hbegin := hspan.le
            unfold minuteOf minuteMs at *
            omega
  · rcases List.mem_append.mp he with he | he
    · exact h.closed e he
    · obtain ⟨event, hevent, rfl⟩ := List.mem_map.mp he
      exact hstep.closed event hevent
  · rw [List.getLast?_concat] at hlast
    obtain rfl := Option.some.inj hlast
    exact advance_again hstep

/-- Minutes tile time: what a run of batches emits is a sequence of disjoint intervals,
each after the one before, that cover everything from the first sampled minute to the one
that comes next.  A minute closes once at most, on fresh samples of all stocks. -/
theorem minutes_tile_time {ids : List String} {state : MinuteState}
    (h : createMinutes ids = .ok state) (calls : List MinuteCall) :
    (∀ next, (exec MinuteRun.call (.start state) calls).state.nextMinute = some next → ∃ first,
      IsLeast {t | ∃ o ∈ (exec MinuteRun.call (.start state) calls).observed,
        t = minuteOf o.generatedAt} first ∧
      (∀ t, (∃ i ∈ (exec MinuteRun.call (.start state) calls).spans, i.1 ≤ t ∧ t < i.2) ↔
        first ≤ t ∧ t < next)) ∧
    ((exec MinuteRun.call (.start state) calls).state.nextMinute = none →
      (exec MinuteRun.call (.start state) calls).observed = [] ∧
        (exec MinuteRun.call (.start state) calls).emitted = []) ∧
    (∀ i ∈ (exec MinuteRun.call (.start state) calls).spans, i.1 < i.2) ∧
    (exec MinuteRun.call (.start state) calls).spans.Pairwise (fun i j => i.2 ≤ j.1) ∧
    (exec MinuteRun.call (.start state) calls).closeTimes.Nodup ∧
    (∀ e ∈ (exec MinuteRun.call (.start state) calls).emitted,
      ClosedBy e.observed ids e.maxCloseAgeMs e.event) ∧
    (∀ last, (exec MinuteRun.call (.start state) calls).accepted.getLast? = some last →
      advanceMinutes (exec MinuteRun.call (.start state) calls).state last.observations
        last.maxCloseAgeMs = .ok ((exec MinuteRun.call (.start state) calls).state, [])) ∧
    (∀ (os : List ReferenceObservation) (maxCloseAgeMs : Int),
      (∀ o ∈ os, ∀ p ∈ os, o.generatedAt - p.generatedAt < minuteMs) →
      advanceMinutes (exec MinuteRun.call (.start state) calls).state os maxCloseAgeMs ≠
        .error "MINUTE_PENDING_LIMIT") := by
  have hids : ids.length = 3 ∧ ids.Nodup := by
    simp only [createMinutes, bind_eq_ok, ensure_eq_ok] at h
    exact h.choose_spec.1
  have hne : ids ≠ [] := fun hnil => by
    rw [hnil] at hids
    exact absurd hids.1 (by decide)
  have hrun : Tiled ids (exec MinuteRun.call (.start state) calls) :=
    exec_invariant (fun _ _ _ hrun hcall => tiled_call hne hids.2 hrun hcall) (tiled_start h) calls
  generalize exec MinuteRun.call (.start state) calls = run at hrun
  refine ⟨fun next hnext => ?_, fun hnone => ⟨hrun.between.fresh hnone, hrun.nothing hnone⟩,
    fun i hi => ?_, hrun.disjoint, hrun.once, hrun.closed, hrun.again,
    fun os maxAge hnear => advance_ne_limit maxAge hrun.between hids.2 hnear⟩
  · obtain ⟨first, hleast, htiles⟩ := hrun.tiles next hnext
    exact ⟨first, hleast, fun t => htiles.covers⟩
  · obtain ⟨first, next, htiles⟩ := hrun.tiling
    exact htiles.nonempty hi

/-! Three stocks in the first minute and again in the second. -/

def tick (identity : String) (generatedAt : Int) : ReferenceObservation :=
  { identity, assetId := "asset", symbol := identity, generatedAt, receivedAt := generatedAt
    underlyingBid := "1", underlyingAsk := "2", multiplier := "1", tokenBidUsd18 := "1"
    tokenAskUsd18 := "2" }

def ticks (generatedAt : Int) : MinuteCall :=
  ⟨["MSFT", "NVDA", "AAPL"].map (tick · generatedAt), 30000⟩

def ticked : MinuteRun :=
  exec MinuteRun.call (.start ⟨["MSFT", "NVDA", "AAPL"], fun _ => none, none, []⟩)
    [ticks 40000, ticks 70000]

theorem ticks_tile : ticked.closeTimes = [60000] ∧ ticked.spans = [(0, 60000)] ∧
    ticked.closeTimes.Nodup ∧ ticked.spans.Pairwise (fun i j => i.2 ≤ j.1) :=
  have h := @minutes_tile_time ["MSFT", "NVDA", "AAPL"] _ rfl [ticks 40000, ticks 70000]
  ⟨by decide, by decide, h.2.2.2.2.1, h.2.2.2.1⟩

end Reference
end AlphaForge
