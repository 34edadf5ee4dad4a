/-
`connect` and `refresh` keep their promises.

While its revision is the current one, a read knows that nothing was revoked since it
began, so that what it has seen of the wallet authorizes what it shows.  A read whose
revision has passed knows nothing, and every publication of it fails.
-/
import AlphaForge.Client.M3BrowserRuntime.Reading

namespace AlphaForge
namespace M3BrowserRuntime

open Evm Async
open M3SubmissionJournal (PendingWalletSubmission SubmissionStorage chainId)

/-! ## Reads and their authority -/

structure Reading (n r : Nat) (F : Page → Prop) (p : Page) : Prop where
  begun : r ≤ p.readRevision
  current : p.readRevision = r → p.reader = n ∧ Since r p.shown ∧ F p

/-- It lasts while nothing is revoked. -/
def Lasting (F : Page → Prop) : Prop :=
  ∀ p p', F p → Extends p.shown p'.shown → (¬ Revoked p.snapshot → ¬ Revoked p'.snapshot) → F p'

theorem lasting_true : Lasting fun _ => True := fun _ _ _ _ _ => trivial

theorem lasting_unrevoked : Lasting fun p => ¬ Revoked p.snapshot :=
  fun _ _ h _ hunrevoked => hunrevoked h

theorem lasting_authorized : Lasting fun p => Authorized p.shown :=
  fun _ _ h hextends _ => hextends.authorized h

theorem Lasting.and {F F' : Page → Prop} (h : Lasting F) (h' : Lasting F') :
    Lasting fun p => F p ∧ F' p :=
  fun p p' hF hextends hunrevoked =>
    ⟨h p p' hF.1 hextends hunrevoked, h' p p' hF.2 hextends hunrevoked⟩

variable {n r : Nat} {F F' : Page → Prop} {p p' : Page}

theorem Reading.mono (h : Reading n r F p) (hF : ∀ p, F p → F' p) : Reading n r F' p :=
  ⟨h.begun, fun hcurrent =>
    let ⟨hreader, hsince, hf⟩ := h.current hcurrent
    ⟨hreader, hsince, hF p hf⟩⟩

theorem Reading.past (h : r < p.readRevision) : Reading n r F p :=
  ⟨Nat.le_of_lt h, fun hcurrent => absurd hcurrent (Nat.ne_of_gt h)⟩

theorem Reading.stable (hF : Lasting F) : Stable n (Reading n r F) := by
  intro p p' h hR
  have hle := h.begun
  have hle' := hR.revision
  refine ⟨Nat.le_trans hle hle', fun hcurrent => ?_⟩
  obtain ⟨hreader, hsince, hf⟩ := h.current (by omega)
  obtain ⟨hreader', hextends, hunrevoked⟩ := hR.current (by omega) hreader
  exact ⟨hreader', hextends.since hsince, hF p p' hf hextends hunrevoked⟩

theorem stable_le (n r : Nat) : Stable n fun p => r ≤ p.readRevision :=
  fun _ _ h hR => Nat.le_trans h hR.revision

theorem stable_lt (n r : Nat) : Stable n fun p => r < p.readRevision :=
  fun _ _ h hR => Nat.lt_of_lt_of_le h hR.revision

/-! ## Steps that change nothing of this -/

/-- The journal, the submissions, the reviews and what is shown are as they were. -/
structure Untouched (p p' : Page) : Prop where
  sends : p'.sends = p.sends
  storage : p'.storage = p.storage
  snapshot : p'.snapshot = p.snapshot
  shown : p'.shown = p.shown
  session : p'.session = p.session ∨ p'.session = none
  readRevision : p'.readRevision = p.readRevision
  reader : p'.reader = p.reader
  flowReviews : ∀ e ∈ p'.flowReviews, e ∈ p.flowReviews
  passTransferReviews : ∀ e ∈ p'.passTransferReviews, e ∈ p.passTransferReviews

theorem Untouched.guar {c : Options} (h : Untouched p p') : Guar c n p p' :=
  ⟨.kept h.sends h.storage, .kept h.snapshot h.shown h.session h.readRevision h.reader,
    fun hfit => ⟨fun e he => hfit.flow e (h.flowReviews e he),
      fun e he => hfit.pass e (h.passTransferReviews e he)⟩⟩

/-- A step that revokes nothing, as the call itself sees it. -/
theorem Rely.of_step (hsends : p'.sends = p.sends) (hrevision : p'.readRevision = p.readRevision)
    (hreader : p'.reader = p.reader) (hextends : Extends p.shown p'.shown)
    (hunrevoked : ¬ Revoked p.snapshot → ¬ Revoked p'.snapshot) : Rely n p p' := by
  refine ⟨?_, ?_, ?_, fun _ h => ⟨hreader.trans h, hextends, hunrevoked⟩⟩
  · rw [hsends]
  · rw [hsends]
    exact fun _ hs _ => hs
  · rw [hrevision]

theorem Untouched.rely (h : Untouched p p') : Rely n p p' :=
  Rely.of_step h.sends h.readRevision h.reader (h.shown ▸ Extends.refl _) (h.snapshot ▸ id)

theorem publish_kept_guar {c : Options} {f : Page → Presentation}
    (h : authority (f p) = authority p.snapshot) : Guar c n p (publish .kept f p) :=
  ⟨.kept rfl rfl,
    .published .kept rfl rfl rfl rfl (fun h => by cases h) (fun h => by cases h) fun _ => h,
    fun hfit => ⟨hfit.flow, hfit.pass⟩⟩

theorem publish_kept_rely {f : Page → Presentation} (h : authority (f p) = authority p.snapshot) :
    Rely n p (publish .kept f p) :=
  Rely.of_step rfl rfl rfl (Extends.cons (not_revokes_of_same h) _)
    fun hunrevoked hrevoked => hunrevoked ((revoked_congr h).mp hrevoked)

section Programs

variable {c : Options} {first : SubmissionStorage} {P E : Page → Prop} {α β : Type}

theorem modify_untouched {f : Page → Page} (hP : Stable n P) (h : ∀ p, Untouched p (f p)) :
    Keeps c first n P (Async.modify f) :=
  modify_keeps hP (fun p _ => (h p).guar) fun p _ => (h p).rely

/-- A program may look at the state that it goes on from. -/
theorem read_runs {k : Page → Runtime α} {Q : α → Page → Prop}
    (h : ∀ p, P p → Runs c first n (· = p) (k p) Q E) :
    Runs c first n P (Async.read >>= k) Q E :=
  Triple.read_bind (fun p _ => Guar.refl p) h

theorem assertCurrent_runs (hE : ∀ p, P p → E p) :
    Runs c first n P (assertCurrent r) (fun _ p => P p ∧ p.readRevision = r) E := by
  refine read_runs fun p hp => ?_
  refine (ensure_runs).weaken (fun _ h => h) ?_ ?_
  · rintro _ _ ⟨rfl, hcurrent⟩
    exact ⟨hp, hcurrent⟩
  · rintro _ rfl
    exact hE _ hp

theorem assertCurrent_keeps : Keeps c first n P (assertCurrent r) :=
  (assertCurrent_runs fun _ hp => hp).post fun _ _ h => h.1

theorem observed_guar (p : Page) : Guar c n p (noteShown (.observed r) p) :=
  ⟨.kept rfl rfl, .observed r rfl rfl rfl rfl rfl, fun hfit => ⟨hfit.flow, hfit.pass⟩⟩

/-- What a read has seen authorizes it. -/
theorem observedBy_runs (hF : Lasting F) (session : Option WalletSession) :
    Runs c first n (Reading n r F) (observedBy r session)
      (fun _ => Reading n r fun p => F p ∧ (session.isSome = true → Authorized p.shown))
      (Reading n r F) := by
  refine Triple.ite (fun _ => Triple.modify fun p hp => ⟨observed_guar p, hp.begun, ?_⟩)
    fun hnone => Triple.pure fun p hp => hp.mono fun _ hf => ⟨hf, fun hsome => absurd hsome hnone⟩
  intro hcurrent
  obtain ⟨hreader, hsince, hf⟩ := hp.current hcurrent
  have hextends : Extends p.shown (.observed r :: p.shown) := Extends.cons id _
  exact ⟨hreader, hextends.since hsince, hF p _ hf hextends id, fun _ => Or.inr hsince⟩

theorem sessionLost_revoked (p : Page) : Revoked (sessionLost p) := by
  refine ⟨?_, Or.inl rfl⟩
  rintro (h | h)
  · exact h rfl
  · exact h rfl

theorem invalidate_guar (p : Page) : Guar c n p (invalidate r p) := by
  unfold invalidate
  split
  · exact ⟨.kept rfl rfl, .lost (sessionLost_revoked _) rfl rfl rfl,
      fun hfit => ⟨hfit.flow, fun e he => absurd he List.not_mem_nil⟩⟩
  · exact Guar.refl p

theorem invalidate_past (h : p.readRevision = r) : r < (invalidate r p).readRevision := by
  unfold invalidate
  rw [if_pos h]
  exact Nat.lt_succ_of_le (Nat.le_of_eq h.symm)

theorem invalidate_le (p : Page) : p.readRevision ≤ (invalidate r p).readRevision := by
  unfold invalidate
  split
  · exact Nat.le_succ _
  · exact Nat.le_refl _

/-! ## `publish` of a read -/

/-- A publication that nothing was seen for has to rest on what is shown already. -/
def Guarded (p : Page) (snapshot : Presentation) : Prop :=
  (Grants snapshot → Grants p.snapshot ∨ Authorized p.shown) ∧
    (p.session.isSome = true → ¬ Revoked snapshot → ¬ Revoked p.snapshot ∨ Authorized p.shown)

theorem guarded_of_authorized {snapshot : Presentation} (h : Authorized p.shown) :
    Guarded p snapshot :=
  ⟨fun _ => Or.inr h, fun _ _ => Or.inr h⟩

theorem guarded_of_revoked {snapshot : Presentation} (h : Revoked snapshot) :
    Guarded p snapshot :=
  ⟨fun hgrants => absurd hgrants h.not_grants, fun _ hunrevoked => absurd h hunrevoked⟩

theorem guarded_of_same {snapshot : Presentation} (h : authority snapshot = authority p.snapshot) :
    Guarded p snapshot :=
  ⟨fun hgrants => Or.inl ((grants_congr h).mp hgrants),
    fun _ hunrevoked => Or.inl fun hrevoked => hunrevoked ((revoked_congr h).mpr hrevoked)⟩

theorem seeAgain_runs (hF : Lasting F) {snapshot : Presentation} (hshows : ShowsConnected snapshot) :
    Runs c first n (Reading n r F) (seeAgain r snapshot)
      (fun _ => Reading n r fun p => F p ∧ Authorized p.shown) (Reading n r F) := by
  rw [seeAgain, if_pos hshows]
  refine (observe_keeps (Reading.stable hF)).bind fun observed => ?_
  refine Triple.bind (observedBy_runs hF observed) fun _ => ?_
  refine Triple.bind (assertCurrent_runs fun _ hp => hp.mono fun _ hf => hf.1) fun _ => ?_
  refine Triple.ite (fun hsame => Triple.pure fun p hp => ?_) fun _ => ?_
  · exact hp.1.mono fun _ hf => ⟨hf.1, hf.2 hsame.1⟩
  · refine Triple.bind (Q := fun _ => Reading n r F)
      (Triple.modify fun p hp => ⟨invalidate_guar p, Reading.past (invalidate_past hp.2)⟩)
      fun _ => Triple.throw fun _ hp => hp

/-- What is known after a publication. -/
def AfterPublish (n r : Nat) (F : Page → Prop) (snapshot : Presentation) (p : Page) : Prop :=
  r ≤ p.readRevision ∧
    (¬ Revoked snapshot → Reading n r (fun p => F p ∧ ¬ Revoked p.snapshot) p)

theorem AfterPublish.stable (hF : Lasting F) (snapshot : Presentation) :
    Stable n (AfterPublish n r F snapshot) :=
  fun p p' h hR => ⟨stable_le n r p p' h.1 hR,
    fun hunrevoked => Reading.stable (hF.and lasting_unrevoked) p p' (h.2 hunrevoked) hR⟩

theorem publish_runs (hF : Lasting F) (snapshot : Presentation) :
    Runs c first n (fun p => (Reading n r F p ∧ Guarded p snapshot) ∧ p.readRevision = r)
      (Async.modify (publish .read fun _ => snapshot))
      (fun _ => AfterPublish n r F snapshot) E := by
  refine Triple.modify fun p hp => ?_
  obtain ⟨⟨hreading, hguarded⟩, hcurrent⟩ := hp
  obtain ⟨hreader, hsince, hf⟩ := hreading.current hcurrent
  refine ⟨⟨.kept rfl rfl, .published .read rfl rfl rfl rfl
    (fun _ => ⟨hreader, hguarded.1, hguarded.2⟩) (fun h => by cases h) (fun h => by cases h),
    fun hfit => ⟨hfit.flow, hfit.pass⟩⟩, hreading.begun, fun hunrevoked => ⟨hreading.begun, fun _ => ?_⟩⟩
  have hextends : Extends p.shown (publish .read (fun _ => snapshot) p).shown :=
    Extends.cons (not_revokes_of_unrevoked hunrevoked) _
  exact ⟨hreader, hextends.since hsince, hF p _ hf hextends fun _ => hunrevoked, hunrevoked⟩

theorem publishRead_runs (hF : Lasting F) (snapshot : Presentation) :
    Runs c first n
      (fun p => Reading n r F p ∧ (¬ ShowsConnected snapshot → p.readRevision = r →
        Guarded p snapshot))
      (publishRead r snapshot) (fun _ => AfterPublish n r F snapshot) (Reading n r F) := by
  by_cases hshows : ShowsConnected snapshot
  · -- the wallet is seen again, which authorizes the publication
    refine Triple.pre ?_ fun p hp => hp.1
    refine (assertCurrent_keeps).bind fun _ => ?_
    refine Triple.bind (seeAgain_runs hF hshows) fun _ => ?_
    refine Triple.bind (assertCurrent_runs fun _ hp => hp.mono fun _ hf => hf.1) fun _ => ?_
    refine Triple.bind ((publish_runs hF snapshot).pre fun p hp => ?_) fun _ =>
      turn_runs (AfterPublish.stable hF snapshot)
    obtain ⟨hreading, hcurrent⟩ := hp
    obtain ⟨_, _, _, hauthorized⟩ := hreading.current hcurrent
    exact ⟨⟨hreading.mono fun _ hf => hf.1, guarded_of_authorized hauthorized⟩, hcurrent⟩
  · have hnone : seeAgain r snapshot = Pure.pure () := if_neg hshows
    rw [publishRead, hnone]
    refine Triple.bind (assertCurrent_runs fun _ hp => hp.1) fun _ => ?_
    show Runs c first n _ (do
      assertCurrent r
      Async.modify (publish .read fun _ => snapshot)
      turn) _ _
    refine Triple.bind (assertCurrent_runs fun _ hp => hp.1.1) fun _ => ?_
    refine Triple.bind ((publish_runs hF snapshot).pre fun p hp => ?_) fun _ =>
      turn_runs (AfterPublish.stable hF snapshot)
    obtain ⟨⟨⟨hreading, hguarded⟩, _⟩, hcurrent⟩ := hp
    exact ⟨⟨hreading, hguarded hshows hcurrent⟩, hcurrent⟩

end Programs

end M3BrowserRuntime
end AlphaForge
