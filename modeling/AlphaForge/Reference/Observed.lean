/-
What a valid batch observed.

The observations of an accepted batch were computed from its responses, so their
prices and clocks have the form the engine asks for, there is one for every stock of
the policy, and no two of them are further apart than it allows.
-/
import AlphaForge.Reference.Engine

namespace AlphaForge
namespace Reference

open Evm

/-! ## Numbers in a response -/

theorem text_eq_ok {value : Json} {pattern : String → Bool} {v : String} :
    text value pattern = .ok v ↔ value = .string v ∧ pattern v = true := by
  unfold text
  split
  · rename_i w
    rw [Json.string.injEq]
    simp only [bind_eq_ok, ensure_eq_ok, pure_eq_ok]
    constructor
    · rintro ⟨_, hp, rfl⟩
      exact ⟨rfl, hp⟩
    · rintro ⟨rfl, hp⟩
      exact ⟨(), hp, rfl⟩
  · rename_i hne
    constructor
    · intro h
      cases h
    · intro h
      exact absurd h.1 (hne v)

theorem decimalParts_eq {v whole : String} {ds : List Char} (h : decimalParts v = some (whole, ds)) :
    Text.isDecimal 17 whole = true ∧ ds.all Char.isDigit = true ∧ ds.length ≤ 18 := by
  unfold decimalParts at h
  simp only at h
  split at h
  · rename_i hwhole
    split at h
    · simp only [Option.some.injEq, Prod.mk.injEq] at h
      obtain ⟨rfl, rfl⟩ := h
      exact ⟨hwhole, rfl, by simp⟩
    · split at h
      · rename_i hds
        simp only [Option.some.injEq, Prod.mk.injEq] at h
        obtain ⟨rfl, rfl⟩ := h
        exact ⟨hwhole, hds.1, hds.2.2⟩
      · cases h
  · cases h

theorem decimal_bounds {value : Json} {n : Nat} (h : decimal value = .ok n) : 0 < n ∧ n < 10 ^ 36 := by
  unfold decimal at h
  rw [bind_eq_ok] at h
  obtain ⟨v, -, h⟩ := h
  split at h
  · cases h
  · rename_i whole ds hparts
    simp only [bind_eq_ok, ensure_eq_ok, pure_eq_ok] at h
    obtain ⟨_, hpos, rfl⟩ := h
    obtain ⟨hwhole, hall, hlength⟩ := decimalParts_eq hparts
    have hw := Text.ofDecimal_lt hwhole
    have hdigits : (ds ++ List.replicate (18 - ds.length) '0').all Char.isDigit = true := by
      rw [List.all_append, hall, Bool.true_and, List.all_replicate]
      simp
    have hf := Text.ofDigitChars_lt hdigits 0
    rw [List.length_append, List.length_replicate, Nat.add_sub_cancel' hlength] at hf
    refine ⟨hpos, ?_⟩
    omega

theorem digitsOf_lt {ds : List Char} {n : Nat} (h : digitsOf ds = some n) : n < 10 ^ ds.length := by
  unfold digitsOf at h
  split at h
  · rename_i hall
    have hlt := Text.ofDigitChars_lt hall 0
    rw [Option.some.injEq] at h
    omega
  · cases h

theorem fractionMs_lt {ds : List Char} {n : Nat} (h : fractionMs ds = some n) : n < 1000 := by
  unfold fractionMs at h
  split at h
  · cases h
    decide
  · rename_i rest
    simp only at h
    split at h
    · rename_i hds
      have hall : ((rest.dropLast ++ ['0', '0']).take 3).all Char.isDigit = true := by
        rw [List.all_eq_true]
        intro d hd
        rcases List.mem_append.mp (List.mem_of_mem_take hd) with hrest | hzero
        · exact List.all_eq_true.mp hds.2.1 d hrest
        · simp only [List.mem_cons, List.not_mem_nil, or_false, or_self] at hzero
          rw [hzero]
          rfl
      have hlt := Text.ofDigitChars_lt hall 0
      have hlength : ((rest.dropLast ++ ['0', '0']).take 3).length ≤ 3 := List.length_take_le 3 _
      have hpow := Nat.pow_le_pow_right (n := 10) (by decide) hlength
      rw [Option.some.injEq] at h
      omega
    · cases h
  · cases h

/-- The last time that can be written is far below the largest clock. -/
theorem parseTime_le {v : String} {t : Int} (h : parseTime v = .ok t) :
    t ≤ Json.maxSafeInteger - minuteMs := by
  unfold parseTime at h
  split at h
  · split at h
    · rename_i year month day hour minute second ms hyear _ _ _ _ _ hms
      simp only [bind_eq_ok, ensure_eq_ok, pure_eq_ok] at h
      obtain ⟨_, ⟨-, hmonth, -, hday, hhour, hminute, hsecond⟩, rfl⟩ := h
      have hy := digitsOf_lt hyear
      have hm := fractionMs_lt hms
      have hd : daysInMonth year month ≤ 31 := by
        unfold daysInMonth
        repeat' split
        all_goals decide
      have hyears : (year : Int) ≤ 9999 := by
        simp only [List.length_cons, List.length_nil] at hy
        omega
      have hdays : daysFromEpoch year month day ≤ 4000000 := by
        unfold daysFromEpoch
        simp only
        split <;> omega
      unfold Json.maxSafeInteger minuteMs
      omega
    · cases h
  · cases h

/-! ## Observations -/

theorem isPrice_repr {n : Nat} (hpos : 0 < n) (h : n < 10 ^ 78) : isPrice n.repr = true := by
  unfold isPrice
  rw [Text.isDecimal_repr h, Bool.true_and, decide_eq_true_eq]
  intro hzero
  have hn := Text.ofDecimal_repr n
  rw [hzero] at hn
  have h0 : Text.ofDecimal "0" = 0 := by decide
  omega

/-- The clock and the prices of an observation, as the engine will ask for them. -/
structure Sampled (o : ReferenceObservation) : Prop where
  safe : isSafeInteger o.generatedAt = true
  clock : o.generatedAt ≤ Json.maxSafeInteger - minuteMs
  bid : isPrice o.tokenBidUsd18 = true
  ask : isPrice o.tokenAskUsd18 = true
  ordered : Text.ofDecimal o.tokenBidUsd18 ≤ Text.ofDecimal o.tokenAskUsd18

theorem normalizeReference_sampled {registry : List RegistryAsset} {raw : Json} {requested : Selection}
    {receivedAt maxAgeMs : Int} {o : ReferenceObservation}
    (h : normalizeReference registry raw requested receivedAt maxAgeMs = .ok o) : Sampled o := by
  unfold normalizeReference at h
  simp only [bind_eq_ok, ensure_eq_ok, pure_eq_ok] at h
  obtain ⟨s, -, -, -, asset, -, multiplier, hmultiplier, q, -, bid, hbid, ask, hask, -, hle, -, -, -, -,
    _, -, generatedAt, htime, -, ⟨hsafe, -, -⟩, -, hpos, rfl⟩ := h
  obtain ⟨-, hm⟩ := decimal_bounds hmultiplier
  obtain ⟨-, hb⟩ := decimal_bounds hbid
  obtain ⟨-, ha⟩ := decimal_bounds hask
  have hbm : bid * multiplier ≤ ask * multiplier := Nat.mul_le_mul_right _ hle
  have ham : ask * multiplier < 10 ^ 36 * 10 ^ 36 := Nat.mul_lt_mul'' ha hm
  exact {
    safe := hsafe
    clock := parseTime_le htime
    bid := isPrice_repr hpos (by omega)
    ask := isPrice_repr (by omega) (by omega)
    ordered := by
      simp only [Text.ofDecimal_repr]
      omega }

section Sources

variable {jsonParse : String → Option Json} {sha256 : String → String}

theorem replayReference_sampled {capture : ReferenceCapture} {o : ReferenceObservation}
    (h : replayReference jsonParse sha256 capture = .ok o) : Sampled o := by
  unfold replayReference at h
  simp only [bind_eq_ok, ensure_eq_ok] at h
  obtain ⟨-, -, selection, -, -, -, h⟩ := h
  split at h
  · simp only [bind_eq_ok, ensure_eq_ok, pure_eq_ok] at h
    obtain ⟨_, -, _, -, _, -, _, -, a, -, _, -, _, -, _, -, b, hb, -, -, -, -, rfl⟩ := h
    exact normalizeReference_sampled hb
  · cases h

theorem inspectCapture_eq {policy : BatchPolicy} {i : Nat} {c : ReferenceCapture}
    {os : List ReferenceObservation} (h : inspectCapture jsonParse sha256 policy i c = .ok os) :
    (∀ o ∈ os, Sampled o) ∧ (c.status = .accepted → os.length = 1) := by
  unfold inspectCapture at h
  simp only [bind_eq_ok, ensure_eq_ok] at h
  obtain ⟨-, -, -, -, -, -, h⟩ := h
  split at h
  · simp only [bind_eq_ok, pure_eq_ok] at h
    obtain ⟨o, ho, rfl⟩ := h
    refine ⟨fun o' ho' => ?_, fun _ => rfl⟩
    rw [List.mem_singleton.mp ho']
    exact replayReference_sampled ho
  · rename_i hstatus
    simp only [bind_eq_ok, ensure_eq_ok, pure_eq_ok] at h
    obtain ⟨-, -, rfl⟩ := h
    refine ⟨fun o ho => absurd ho List.not_mem_nil, fun haccepted => ?_⟩
    rw [hstatus] at haccepted
    cases haccepted

theorem inspectCaptures_eq {policy : BatchPolicy} {i : Nat} {cs : List ReferenceCapture}
    {os : List ReferenceObservation} (h : inspectCaptures jsonParse sha256 policy i cs = .ok os) :
    (∀ o ∈ os, Sampled o) ∧ ((∀ c ∈ cs, c.status = .accepted) → os.length = cs.length) := by
  induction cs generalizing i os with
  | nil =>
      cases h
      exact ⟨fun o ho => absurd ho List.not_mem_nil, fun _ => rfl⟩
  | cons c rest ih =>
      simp only [inspectCaptures, bind_eq_ok, pure_eq_ok] at h
      obtain ⟨first, hfirst, others, hothers, rfl⟩ := h
      obtain ⟨hsampled, hone⟩ := inspectCapture_eq hfirst
      obtain ⟨hrest, hcount⟩ := ih hothers
      refine ⟨fun o ho => (List.mem_append.mp ho).elim (hsampled o) (hrest o), fun hall => ?_⟩
      rw [List.length_append, List.length_cons, hone (hall c List.mem_cons_self),
        hcount fun c' hc' => hall c' (List.mem_cons_of_mem c hc')]
      exact Nat.add_comm _ _

/-- What is known of the observations of an accepted batch. -/
structure Observed (policy : BatchPolicy) (os : List ReferenceObservation) : Prop where
  sampled : ∀ o ∈ os, Sampled o
  count : os.length = policy.selections.length
  skew : ∀ o ∈ os, ∀ p ∈ os, o.generatedAt - p.generatedAt ≤ policy.maxQuoteSkewMs

theorem parseBatchPolicy_eq {p policy : BatchPolicy} (h : parseBatchPolicy p = .ok policy) :
    policy.selections.length = p.selections.length ∧ policy.maxAgeMs = p.maxAgeMs ∧
      policy.maxQuoteSkewMs = p.maxQuoteSkewMs ∧ policy.maxCaptureSpanMs = p.maxCaptureSpanMs := by
  unfold parseBatchPolicy at h
  simp only [bind_eq_ok, ensure_eq_ok, pure_eq_ok] at h
  obtain ⟨-, -, selections, hselections, h⟩ := h
  obtain ⟨-, -, -, -, -, -, -, -, -, -, -, -, -, -, rfl⟩ := h
  exact ⟨mapM_length hselections, rfl, rfl, rfl⟩

theorem replayReferenceBatch_observed {batch : ReferenceBatch} {os : List ReferenceObservation}
    (h : replayReferenceBatch jsonParse sha256 batch = .ok os) :
    Observed batch.policy os ∧ batch.observations = some os := by
  unfold replayReferenceBatch at h
  simp only [bind_eq_ok, ensure_eq_ok, pure_eq_ok] at h
  obtain ⟨-, -, os', hderive, -, hsame, rfl⟩ := h
  unfold derive_ inspect at hderive
  simp only [bind_eq_ok, ensure_eq_ok, pure_eq_ok] at hderive
  obtain ⟨⟨_, _⟩, ⟨policy, hpolicy, -, -, -, -, -, -, found, hcaptures, heq⟩, hderive⟩ := hderive
  obtain ⟨rfl, rfl⟩ := Prod.mk.inj heq
  obtain ⟨-, -, -, -, -, ⟨hlength, hall⟩, -, -, -, hskew, rfl⟩ := hderive
  obtain ⟨hselections, -, hskewMs, -⟩ := parseBatchPolicy_eq hpolicy
  obtain ⟨hsampled, hcount⟩ := inspectCaptures_eq hcaptures
  refine ⟨⟨hsampled, ?_, fun o ho p hp => ?_⟩, hsame⟩
  · rw [hcount hall, hlength, hselections]
  · rw [← hskewMs]
    exact hskew o ho p hp

end Sources

end Reference
end AlphaForge
